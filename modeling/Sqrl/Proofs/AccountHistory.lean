import Sqrl.Proofs.Accounts
import Sqrl.Proofs.NutUse

/-! Where accounts come from. Every account of a run was created by one processed request; from then
on it is followed from key to key through the later calls, which enable, disable and remove it. -/
namespace Sqrl.Server

def Entry.request? (e : Entry) : Option Request :=
  match e.call with
  | .handle request _ _ => if e.isProcessed then some request else none
  | _ => none

theorem Entry.request?_of_issue {e : Entry} {address : Option String} {qr : Bool}
    (hcall : e.call = .issue address qr) : e.request? = none := by
  simp only [Entry.request?, hcall]

theorem Entry.request?_eq_some_iff {e : Entry} {request : Request} :
    e.request? = some request ↔
      (∃ nut address, e.call = .handle request nut address) ∧ e.isProcessed = true := by
  rw [Entry.request?]
  cases e.call with
  | handle other nut address => by_cases h : e.isProcessed = true <;> simp [h]
  | issue address qr => simp
  | handleMalformed nut address => simp
  | readIdentity nut => simp
  | prune time => simp

/-- A call of a run, and the accounts that it found. -/
structure Visit where
  entry : Entry
  found : Accounts

def visit (server : Server) (s : State) (m : Moment) : Visit := ⟨(server.step s m).1, s.accounts⟩

def visits (server : Server) : State → List Moment → List Visit
  | _, [] => []
  | s, m :: moments => server.visit s m :: visits server (server.step s m).2 moments

namespace Visit

def left (v : Visit) : Accounts :=
  match v.entry.request? with
  | some request => (v.found.serve request).2
  | none => v.found

/-- Does the call create an account? It logs in under a key that has none, and so has the previous
key, if one is given. -/
structure Creates (v : Visit) (request : Request) : Prop where
  processed : v.entry.request? = some request
  command : request.command = some .ident
  unregistered : request.idk ∉ v.found
  unresolvable : ∀ previous, request.pidk = some previous → previous ∉ v.found

/-- The key under which the call leaves the account of a key. A request that names it as the previous
key moves the account to its own key, if that has none. -/
def keyAfter (v : Visit) (key : String) : String :=
  match v.entry.request? with
  | some request => if request.pidk = some key ∧ request.idk ∉ v.found then request.idk else key
  | none => key

/-- Is it a processed request with a command for a key? -/
def orders (v : Visit) (c : Command) (key : String) : Bool :=
  match v.entry.request? with
  | some request => decide (request.command = some c ∧ request.idk = key)
  | none => false

/-- Is the account of a key enabled or disabled by the call? -/
def verdict? (v : Visit) (key : String) : Option Bool :=
  if v.orders .disable key then some false
  else if v.orders .enable key then some true
  else none

/-- An account after the call, unless the call removes it. -/
def pass (v : Visit) (account : Account) : Account :=
  { account with
    identityKey := v.keyAfter account.identityKey
    enabled := (v.verdict? (v.keyAfter account.identityKey)).getD account.enabled }

variable {v : Visit} {request : Request} {key : String} {account : Account}

theorem keyAfter_of_none (h : v.entry.request? = none) (key : String) : v.keyAfter key = key := by
  simp only [keyAfter, h]

theorem keyAfter_of_some (h : v.entry.request? = some request) (key : String) :
    v.keyAfter key =
      if request.pidk = some key ∧ request.idk ∉ v.found then request.idk else key := by
  simp only [keyAfter, h]

theorem orders_of_some (h : v.entry.request? = some request) (c : Command) (key : String) :
    v.orders c key = decide (request.command = some c ∧ request.idk = key) := by
  simp only [orders, h]

theorem orders_of_none (h : v.entry.request? = none) (c : Command) (key : String) :
    v.orders c key = false := by
  simp only [orders, h]

theorem left_of_none (h : v.entry.request? = none) : v.left = v.found := by
  simp only [left, h]

theorem left_of_some (h : v.entry.request? = some request) :
    v.left = (v.found.serve request).2 := by
  simp only [left, h]

theorem keyAfter_injective {key other : String} (hkey : key ∈ v.found) (hother : other ∈ v.found)
    (h : v.keyAfter key = v.keyAfter other) : key = other := by
  cases hrequest : v.entry.request? with
  | none => rwa [keyAfter_of_none hrequest, keyAfter_of_none hrequest] at h
  | some request =>
    rw [keyAfter_of_some hrequest, keyAfter_of_some hrequest] at h
    split at h
    · next hmove =>
      split at h
      · next hmove' => exact Option.some.inj (hmove.1.symm.trans hmove'.1)
      · exact absurd (h ▸ hother) hmove.2
    · split at h
      · next hmove' => exact absurd (h ▸ hkey) hmove'.2
      · exact h

theorem Creates.keyAfter_ne (h : v.Creates request) (hkey : key ∈ v.found) :
    v.keyAfter key ≠ request.idk := by
  rw [keyAfter_of_some h.processed, if_neg fun hmove => h.unresolvable key hmove.1 hkey]
  intro heq
  exact h.unregistered (heq ▸ hkey)

theorem moved?_keyAfter (hrequest : v.entry.request? = some request)
    (hkey : account.identityKey = key) (haccount : v.found.find? key = some account) :
    v.found.moved? request (v.keyAfter key) =
      some { account with identityKey := v.keyAfter key } := by
  have hmem := Accounts.mem_of_find? haccount
  subst hkey
  rw [keyAfter_of_some hrequest, Accounts.moved?]
  by_cases hidk : request.idk ∈ v.found
  · simp [hidk, haccount]
  · by_cases hpidk : request.pidk = some account.identityKey
    · simp [hidk, hpidk, haccount]
    · have hne : account.identityKey ≠ request.idk := fun heq => hidk (heq ▸ hmem)
      simp [hidk, hpidk, hne, haccount]

/-- What a call does to an account: it is removed, or it passes to the key that it is moved to. -/
theorem find?_left_keyAfter (hkey : account.identityKey = key)
    (haccount : v.found.find? key = some account) :
    v.left.find? (v.keyAfter key) =
      if v.orders .remove (v.keyAfter key) then none else some (v.pass account) := by
  cases hrequest : v.entry.request? with
  | none =>
    subst hkey
    simp [left, pass, verdict?, keyAfter_of_none hrequest, orders_of_none hrequest, hrequest,
      haccount]
  | some request =>
    rw [left_of_some hrequest, Accounts.find?_serve]
    simp only [Accounts.settled?, moved?_keyAfter hrequest hkey haccount, pass, verdict?,
      orders_of_some hrequest, hkey]
    by_cases hidk : v.keyAfter key = request.idk
    · rw [hidk]
      cases request.command with
      | none => simp
      | some command => cases command <;> simp
    · have hne : request.idk ≠ v.keyAfter key := fun heq => hidk heq.symm
      simp [hidk, hne]

theorem Creates.find?_left (h : v.Creates request) :
    v.left.find? request.idk = some ⟨request.idk, request.suk, request.vuk, true⟩ := by
  have hpidk : request.pidk.bind v.found.find? = none := by
    rw [Option.bind_eq_none_iff]
    exact fun previous hprevious =>
      Accounts.find?_eq_none_iff.mpr (h.unresolvable previous hprevious)
  rw [left_of_some h.processed, Accounts.find?_serve]
  simp [Accounts.settled?, Accounts.moved?, h.command, h.unregistered, hpidk]

theorem exists_of_moved? (hrequest : v.entry.request? = some request)
    (h : v.found.moved? request key = some account) :
    ∃ old found, v.found.find? old = some found ∧ v.keyAfter old = key := by
  rw [Accounts.moved?] at h
  by_cases hidk : request.idk ∈ v.found
  · rw [if_pos hidk] at h
    exact ⟨key, account, h, by simp [keyAfter_of_some hrequest, hidk]⟩
  rw [if_neg hidk] at h
  by_cases hkey : key = request.idk
  · rw [if_pos hkey, Option.map_eq_some_iff] at h
    obtain ⟨found, hfound, -⟩ := h
    obtain ⟨previous, hpidk, hfound⟩ := Option.bind_eq_some_iff.mp hfound
    exact ⟨previous, found, hfound, by simp [keyAfter_of_some hrequest, hidk, hpidk, hkey]⟩
  · rw [if_neg hkey] at h
    by_cases hpidk : request.pidk = some key
    · rw [if_pos hpidk] at h
      cases h
    · rw [if_neg hpidk] at h
      exact ⟨key, account, h, by simp [keyAfter_of_some hrequest, hpidk]⟩

/-- An account after a call is created by it, or was there under the key from which it was moved. -/
theorem cases_of_find?_left (h : v.left.find? key = some account) :
    (∃ request, v.Creates request ∧ request.idk = key) ∨
      ∃ old found, v.found.find? old = some found ∧ v.keyAfter old = key := by
  cases hrequest : v.entry.request? with
  | none =>
    refine .inr ⟨key, account, ?_, keyAfter_of_none hrequest key⟩
    simpa only [left, hrequest] using h
  | some request =>
    cases hmoved : v.found.moved? request key with
    | some found => exact .inr (exists_of_moved? hrequest hmoved)
    | none =>
      rw [left_of_some hrequest, Accounts.find?_serve, Accounts.settled?, hmoved] at h
      by_cases hkey : key = request.idk
      case neg => simp [hkey] at h
      -- Only a login leaves an account where there was none.
      have hident : request.command = some .ident := by
        cases hcommand : request.command with
        | none => simp [hkey, hcommand] at h
        | some command => cases command <;> simp [hkey, hcommand] at h ⊢
      rw [hkey, Accounts.moved?] at hmoved
      by_cases hidk : request.idk ∈ v.found
      · obtain ⟨found, hfound⟩ := Accounts.exists_find? hidk
        simp [hidk, hfound] at hmoved
      · simp only [if_neg hidk, if_true, Option.map_eq_none_iff, Option.bind_eq_none_iff,
          Accounts.find?_eq_none_iff] at hmoved
        exact .inl ⟨request, ⟨hrequest, hident, hidk, hmoved⟩, hkey.symm⟩

end Visit

/-- The calls, each with the key under which it leaves the account of a key. -/
def follow (key : String) : List Visit → List (Visit × String)
  | [] => []
  | v :: later => (v, v.keyAfter key) :: follow (v.keyAfter key) later

/-- The key of an account after the calls. -/
def lastKey (key : String) (later : List Visit) : String :=
  later.foldl (fun key v => v.keyAfter key) key

theorem lastKey_append (key : String) (later : List Visit) (v : Visit) :
    lastKey key (later ++ [v]) = v.keyAfter (lastKey key later) := by
  simp [lastKey]

theorem follow_append (key : String) (later : List Visit) (v : Visit) :
    follow key (later ++ [v]) = follow key later ++ [(v, v.keyAfter (lastKey key later))] := by
  induction later generalizing key with
  | nil => rfl
  | cons w later ih =>
    rw [List.cons_append, follow, ih]
    rfl

/-- Where an account comes from: the request that created it, and the calls before and after. -/
structure Origin where
  before : List Visit
  creation : Visit
  request : Request
  after : List Visit

namespace Origin

def key (o : Origin) : String := lastKey o.request.idk o.after

/-- What the calls have said of the account, each under its key at the time. -/
def verdicts (o : Origin) : List Bool :=
  (follow o.request.idk o.after).filterMap fun (v, key) => v.verdict? key

/-- The account now. The last word on it counts; it was created enabled. -/
def account (o : Origin) : Account :=
  ⟨o.key, o.request.suk, o.request.vuk, o.verdicts.getLast?.getD true⟩

/-- Does it tell of an account that was created by one of the calls and not removed since? -/
structure IsIn (o : Origin) (visits : List Visit) : Prop where
  split : visits = o.before ++ o.creation :: o.after
  creates : o.creation.Creates o.request
  kept : ∀ stop ∈ follow o.request.idk o.after, stop.1.orders .remove stop.2 = false

def extend (o : Origin) (v : Visit) : Origin := { o with after := o.after ++ [v] }

variable {o : Origin} {v : Visit} {past : List Visit}

theorem key_extend (o : Origin) (v : Visit) : (o.extend v).key = v.keyAfter o.key :=
  lastKey_append ..

theorem account_extend (o : Origin) (v : Visit) : (o.extend v).account = v.pass o.account := by
  have hverdicts : (o.extend v).verdicts = o.verdicts ++ (v.verdict? (v.keyAfter o.key)).toList := by
    rw [verdicts, extend, follow_append, List.filterMap_append]
    cases hverdict : v.verdict? (v.keyAfter o.key) <;> simp_all [verdicts, key]
  have hlast : (o.extend v).verdicts.getLast?.getD true =
      (v.verdict? (v.keyAfter o.key)).getD (o.verdicts.getLast?.getD true) := by
    rw [hverdicts]
    cases v.verdict? (v.keyAfter o.key) <;> simp
  rw [account, key_extend, hlast]
  rfl

theorem find?_left (h : v.found.find? o.key = some o.account) :
    v.left.find? (o.extend v).key =
      if v.orders .remove (o.extend v).key then none else some (o.extend v).account := by
  have hkey : o.account.identityKey = o.key := rfl
  rw [o.key_extend, o.account_extend]
  exact Visit.find?_left_keyAfter hkey h

/-- An account after one more call was created by it, or is one that it has not removed. -/
theorem isIn_append_iff : o.IsIn (past ++ [v]) ↔
    (∃ request, v.Creates request ∧ o = ⟨past, v, request, []⟩) ∨
      ∃ old : Origin, old.IsIn past ∧ v.orders .remove (v.keyAfter old.key) = false ∧
        o = old.extend v := by
  constructor
  · intro h
    obtain ⟨before, creation, request, after⟩ := o
    obtain ⟨hsplit, hcreates, hkept⟩ := h
    rcases split_snoc hsplit with ⟨rfl, rfl, rfl⟩ | ⟨later, rfl, hpast⟩
    · exact .inl ⟨request, hcreates, rfl⟩
    · simp only [follow_append, List.mem_append, List.mem_singleton] at hkept
      refine .inr ⟨⟨before, creation, request, later⟩, ⟨hpast, hcreates, ?_⟩, ?_, rfl⟩
      · exact fun stop hstop => hkept stop (.inl hstop)
      · exact hkept _ (.inr rfl)
  · intro h
    rcases h with ⟨request, hcreates, rfl⟩ | ⟨old, hold, hkept, rfl⟩
    · exact ⟨rfl, hcreates, by simp [follow]⟩
    · refine ⟨by simp [extend, hold.split], hold.creates, ?_⟩
      intro stop hstop
      simp only [extend, follow_append, List.mem_append, List.mem_singleton] at hstop
      rcases hstop with hstop | rfl
      · exact hold.kept stop hstop
      · exact hkept

end Origin

/-- The accounts are those that the calls tell of, each of one origin. -/
structure Explains (past : List Visit) (accounts : Accounts) : Prop where
  find?_iff : ∀ key account, accounts.find? key = some account ↔
    ∃ o : Origin, o.IsIn past ∧ o.key = key ∧ o.account = account
  unique : ∀ {o p : Origin}, o.IsIn past → p.IsIn past → o.key = p.key → o = p

namespace Explains

variable {past : List Visit} {v : Visit}

theorem empty : Explains [] ∅ := by
  have hnone (o : Origin) : ¬ o.IsIn [] := by
    intro h
    have hsplit := h.split
    simp at hsplit
  constructor
  · intro key account
    refine ⟨fun h => ?_, fun ⟨o, ho, _⟩ => absurd ho (hnone o)⟩
    simp [Accounts.find?] at h
  · exact fun ho => absurd ho (hnone _)

theorem find? (h : Explains past v.found) {o : Origin} (ho : o.IsIn past) :
    v.found.find? o.key = some o.account :=
  (h.find?_iff _ _).mpr ⟨o, ho, rfl, rfl⟩

theorem mem (h : Explains past v.found) {o : Origin} (ho : o.IsIn past) : o.key ∈ v.found :=
  Accounts.mem_of_find? (h.find? ho)

theorem append (h : Explains past v.found) : Explains (past ++ [v]) v.left where
  find?_iff key account := by
    constructor
    · intro haccount
      rcases Visit.cases_of_find?_left haccount with
        ⟨request, hcreates, rfl⟩ | ⟨old, found, hfound, rfl⟩
      · refine ⟨⟨past, v, request, []⟩, Origin.isIn_append_iff.mpr (.inl ⟨request, hcreates, rfl⟩),
          rfl, ?_⟩
        exact Option.some.inj (hcreates.find?_left.symm.trans haccount)
      · obtain ⟨o, ho, rfl, rfl⟩ := (h.find?_iff old found).mp hfound
        rw [← o.key_extend, Origin.find?_left hfound] at haccount
        split at haccount
        · cases haccount
        · next hkept =>
          refine ⟨o.extend v, Origin.isIn_append_iff.mpr (.inr ⟨o, ho, ?_, rfl⟩), o.key_extend v,
            Option.some.inj haccount⟩
          exact o.key_extend v ▸ Bool.eq_false_iff.mpr hkept
    · intro ⟨o, ho, hkey, haccount⟩
      rw [← hkey, ← haccount]
      rcases Origin.isIn_append_iff.mp ho with ⟨request, hcreates, rfl⟩ | ⟨old, hold, hkept, rfl⟩
      · exact hcreates.find?_left
      · rw [Origin.find?_left (h.find? hold), old.key_extend, hkept]
        rfl
  unique {o p} ho hp hsame := by
    -- A call creates one account at most, under a key to which it moves no other.
    rcases Origin.isIn_append_iff.mp ho with ⟨request, hcreates, rfl⟩ | ⟨old, hold, -, rfl⟩
    · rcases Origin.isIn_append_iff.mp hp with ⟨other, hother, rfl⟩ | ⟨older, holder, -, rfl⟩
      · rw [Option.some.inj (hcreates.processed.symm.trans hother.processed)]
      · rw [older.key_extend] at hsame
        exact absurd hsame.symm (hcreates.keyAfter_ne (h.mem holder))
    · rcases Origin.isIn_append_iff.mp hp with ⟨other, hother, rfl⟩ | ⟨older, holder, -, rfl⟩
      · rw [old.key_extend] at hsame
        exact absurd hsame (hother.keyAfter_ne (h.mem hold))
      · rw [old.key_extend, older.key_extend] at hsame
        rw [h.unique hold holder (Visit.keyAfter_injective (h.mem hold) (h.mem holder) hsame)]

end Explains

variable {server : Server} {moments : List Moment} {history : List Entry} {s t : State} {e : Entry}

theorem Transition.accounts_eq (hstep : server.Transition s e t) :
    t.accounts = (Visit.mk e s.accounts).left := by
  cases hstep with
  | processed hcall _ _ _ hprocessed _ _ haccounts =>
    rw [haccounts, Visit.left_of_some]
    simp [Entry.request?, hcall, hprocessed]
  | issued hcall _ _ _ haccounts =>
    rw [haccounts, Visit.left_of_none]
    simp [Entry.request?, hcall]
  | pruned hcall _ _ _ haccounts =>
    rw [haccounts, Visit.left_of_none]
    simp [Entry.request?, hcall]
  | idle hprocessed _ _ haccounts =>
    rw [haccounts, Visit.left_of_none]
    unfold Entry.request?
    split
    · simp [hprocessed]
    · rfl

theorem accounts_step (hs : s.IsReady) {m : Moment} (hm : m.call.IsRecordable) :
    (server.step s m).2.accounts = (server.visit s m).left :=
  (server.step_spec hs hm).transition.accounts_eq

theorem Explains.run {past : List Visit} (h : Explains past s.accounts) (hs : s.IsReady)
    (hmoments : ∀ m ∈ moments, m.call.IsRecordable) :
    (server.run s moments).2.IsReady ∧
      Explains (past ++ server.visits s moments) (server.run s moments).2.accounts := by
  -- The calls so far explain the accounts, so the past grows with each call.
  induction moments generalizing past s with
  | nil =>
    rw [visits, List.append_nil]
    exact ⟨hs, h⟩
  | cons m moments ih =>
    obtain ⟨hm, hmoments⟩ := List.forall_mem_cons.mp hmoments
    have hfirst : Explains (past ++ [server.visit s m]) (server.step s m).2.accounts := by
      rw [accounts_step hs hm]
      exact Explains.append h
    have hrest := ih hfirst (server.step_spec hs hm).isReady hmoments
    rwa [List.append_assoc] at hrest

/-- After any calls of a server that starts without accounts, each account has one origin: the
request that created it, when there was no account for its keys. It has the unlock keys of that
request, the key to which the later requests have moved it one after the other, and is enabled
unless the last word on it has disabled it. The next call leaves it standing under the key that it
is moved to, the same but for the word on it, unless it removes it under that key. -/
theorem account_history (hs : s.IsReady) (hempty : s.accounts = ∅)
    (hmoments : ∀ m ∈ moments, m.call.IsRecordable) (hrun : server.run s moments = (history, t)) :
    (∀ key account, t.accounts.find? key = some account ↔
      ∃! o : Origin, o.IsIn (server.visits s moments) ∧ o.key = key ∧ o.account = account) ∧
    ∀ m : Moment, m.call.IsRecordable → ∀ key account, t.accounts.find? key = some account →
      (server.step t m).2.accounts.find? ((server.visit t m).keyAfter key) =
        if (server.visit t m).orders .remove ((server.visit t m).keyAfter key) then none
        else some ((server.visit t m).pass account) := by
  have hnone : Explains [] s.accounts := hempty ▸ .empty
  have hafter : (server.run s moments).2.IsReady ∧
      Explains (server.visits s moments) (server.run s moments).2.accounts :=
    hnone.run hs hmoments
  rw [hrun] at hafter
  obtain ⟨hready, hexplains⟩ := hafter
  refine ⟨fun key account => ?_, fun m hm key account haccount => ?_⟩
  · rw [hexplains.find?_iff]
    constructor
    · intro ⟨o, ho, hkey, haccount⟩
      refine ⟨o, ⟨ho, hkey, haccount⟩, fun p ⟨hp, hkey', _⟩ => ?_⟩
      exact hexplains.unique hp ho (hkey'.trans hkey.symm)
    · exact ExistsUnique.exists
  · obtain ⟨o, -, rfl, rfl⟩ := (hexplains.find?_iff key account).mp haccount
    rw [accounts_step hready hm]
    exact Visit.find?_left_keyAfter rfl haccount

section Sample

/-- A login with the nut that was issued creates an account. -/
theorem account_history_login :
    ∃ history t, (sampleServer 900 (by decide)).run (sampleFirst 900)
        [sampleIssue, sampleLogin (.int 1000) sampleNut] = (history, t) ∧
      t.accounts.find? sampleKey = some ⟨sampleKey, none, none, true⟩ ∧
      ∃! o : Origin, o.IsIn ((sampleServer 900 (by decide)).visits (sampleFirst 900)
        [sampleIssue, sampleLogin (.int 1000) sampleNut]) ∧
          o.key = sampleKey ∧ o.account = ⟨sampleKey, none, none, true⟩ := by
  have hwindow : 600 ≤ 900 := by decide
  have hready : (sampleFirst 900).IsReady := ⟨rfl, by simp [sampleFirst]⟩
  have hmoments : ∀ m ∈ [sampleIssue, sampleLogin (.int 1000) sampleNut], m.call.IsRecordable := by
    simp [sampleIssue, sampleLogin, Call.IsRecordable, isRecordable_sampleRequest]
  have hearlier : ∀ m ∈ [sampleIssue], m.call.IsRecordable := fun m hm =>
    hmoments m (List.mem_append_left [_] hm)
  obtain ⟨issued, s, hissue, hrun, hissued, hspec⟩ := (isRun_sample hwindow).next (by simp)
    sampleIssue trivial
  have hcall : issued.call = .issue none true := congrArg Moment.call hissued
  have hempty : s.accounts = ∅ :=
    hspec.transition.accounts_eq.trans (Visit.left_of_none (Entry.request?_of_issue hcall))
  have hspends := spends_sampleLogin hwindow hrun hearlier isReading_thousand (by decide) rfl
    (.inl (by simp [Entry.spends_of_issue hcall]))
  obtain ⟨login, t, hlogin, -, hmoment, hspec⟩ := hrun.next hearlier
    (sampleLogin (.int 1000) sampleNut) isRecordable_sampleRequest
  rw [hlogin] at hspends
  obtain ⟨-, -, -, -, -, -, -, haccounts⟩ := hspec.transition.of_isProcessed
    (congrArg Moment.call hmoment) (Entry.isProcessed_of_spends hspends)
  have hident : sampleRequest.command = some .ident := by decide
  have hfound : t.accounts.find? sampleRequest.idk = some ⟨sampleKey, none, none, true⟩ := by
    rw [haccounts, Accounts.find?_serve, hempty]
    simp [Accounts.settled?, Accounts.moved?, hident]
    rfl
  have hhistory : (sampleServer 900 hwindow).run (sampleFirst 900)
      [sampleIssue, sampleLogin (.int 1000) sampleNut] = ([issued, login], t) := by
    rw [run_cons, run_cons, run, hissue, hlogin]
  exact ⟨_, t, hhistory, hfound,
    ((account_history hready rfl hmoments hhistory).1 _ _).mp hfound⟩

end Sample

end Sqrl.Server
