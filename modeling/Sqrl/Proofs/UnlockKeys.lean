import Sqrl.Proofs.Answer
import Sqrl.Proofs.Endpoint
import Sqrl.Proofs.Refusal

/-! Unlock keys are stored and told to nobody. Two runs of the same calls, from states that differ
in the stored keys only, are told apart by nothing that is answered, logged or recorded. Each
operation keeps two such states alike and gives the same, so every call does, and every run. -/
namespace Sqrl

def Account.bare (account : Account) : Account :=
  { account with serverUnlockKey := none, verifyUnlockKey := none }

theorem Account.enabled_eq_of_bare {a b : Account} (h : a.bare = b.bare) :
    a.enabled = b.enabled := by
  change a.bare.enabled = b.bare.enabled
  rw [h]

namespace Accounts

/-- Do two stores hold the same accounts but for the unlock keys? -/
def Alike (a b : Accounts) : Prop :=
  ∀ key, (a.find? key).map Account.bare = (b.find? key).map Account.bare

namespace Alike

variable {a b : Accounts} {x y : Account}

theorem mem_iff (h : a.Alike b) (key : String) : key ∈ a ↔ key ∈ b := by
  have hkey := h key
  rw [mem_iff_find?_ne_none, mem_iff_find?_ne_none]
  cases ha : a.find? key <;> cases hb : b.find? key <;> simp_all

theorem insert (h : a.Alike b) (key : String) (hxy : x.bare = y.bare) :
    Alike (a.insert key x) (b.insert key y) := by
  intro k
  rw [find?_insert, find?_insert]
  split
  · exact congrArg some hxy
  · exact h k

theorem erase (h : a.Alike b) (key : String) : Alike (a.erase key) (b.erase key) := by
  intro k
  rw [find?_erase, find?_erase]
  split
  · rfl
  · exact h k

theorem rotate (h : a.Alike b) (previous key : String) :
    (a.rotate previous key).1 = (b.rotate previous key).1 ∧
      (a.rotate previous key).2.Alike (b.rotate previous key).2 := by
  have hprevious := h previous
  have hkey := h.mem_iff key
  simp only [Accounts.rotate]
  cases ha : a.find? previous <;> cases hb : b.find? previous <;>
    simp only [ha, hb, Option.map_some, Option.map_none, reduceCtorEq, Option.some.injEq]
      at hprevious
  case none.none => exact ⟨rfl, h⟩
  case some.some x y =>
    by_cases hmem : key ∈ a
    · simp only [if_pos hmem, if_pos (hkey.mp hmem)]
      exact ⟨trivial, h⟩
    · simp only [if_neg hmem, if_neg (mt hkey.mpr hmem)]
      refine ⟨trivial, (h.erase previous).insert key ?_⟩
      exact congrArg (fun account : Account => { account with identityKey := key }) hprevious

theorem register (h : a.Alike b) (key : String) (suk vuk : Option String) :
    (a.register key suk vuk).1.bare = (b.register key suk vuk).1.bare ∧
      (a.register key suk vuk).2.Alike (b.register key suk vuk).2 := by
  have hkey := h key
  simp only [Accounts.register]
  cases ha : a.find? key <;> cases hb : b.find? key <;>
    simp only [ha, hb, Option.map_some, Option.map_none, reduceCtorEq, Option.some.injEq] at hkey
  case none.none => exact ⟨rfl, h.insert key rfl⟩
  case some.some => exact ⟨hkey, h⟩

theorem setEnabled (h : a.Alike b) (key : String) (enabled : Bool) :
    (a.setEnabled key enabled).1 = (b.setEnabled key enabled).1 ∧
      (a.setEnabled key enabled).2.Alike (b.setEnabled key enabled).2 := by
  have hkey := h key
  simp only [Accounts.setEnabled]
  cases ha : a.find? key <;> cases hb : b.find? key <;>
    simp only [ha, hb, Option.map_some, Option.map_none, reduceCtorEq, Option.some.injEq] at hkey
  case none.none => exact ⟨rfl, h⟩
  case some.some =>
    exact ⟨rfl, h.insert key (congrArg (fun account : Account => { account with enabled }) hkey)⟩

theorem remove (h : a.Alike b) (key : String) :
    (a.remove key).1 = (b.remove key).1 ∧ (a.remove key).2.Alike (b.remove key).2 := by
  have hkey := h.mem_iff key
  simp only [Accounts.remove]
  by_cases hmem : key ∈ a
  · simp only [if_pos hmem, if_pos (hkey.mp hmem)]
    exact ⟨trivial, h.erase key⟩
  · simp only [if_neg hmem, if_neg (mt hkey.mpr hmem)]
    exact ⟨trivial, h⟩

end Alike

end Accounts

namespace Server

/-- Do two states differ in stored unlock keys at most? -/
structure State.Alike (s t : State) : Prop where
  now : s.now = t.now
  draw : s.draw = t.draw
  accounts : s.accounts.Alike t.accounts
  sessions : s.sessions = t.sessions
  trail : s.trail = t.trail
  outages : s.outages = t.outages
  records : s.records = t.records

namespace Action

/-- Are two outcomes the same, with values that a relation relates and states that are alike? -/
inductive Agree {α β : Type} (R : α → β → Prop) :
    Except Fault α × State → Except Fault β × State → Prop
  | ok {a : α} {b : β} {s t : State} (h : R a b) (hs : s.Alike t) : Agree R (.ok a, s) (.ok b, t)
  | error (fault : Fault) {s t : State} (hs : s.Alike t) :
      Agree R (.error fault, s) (.error fault, t)

/-- From states that are alike two actions have outcomes that agree. -/
structure Respects {α β : Type} (R : α → β → Prop) (x : Action α) (y : Action β) : Prop where
  agree : ∀ {s t : State}, s.Alike t → Agree R (x.outcome s) (y.outcome t)

/-- What an action gives does not depend on stored unlock keys, and it leaves nothing that does. -/
abbrev IsBlind {α : Type} (x : Action α) : Prop := Respects Eq x x

variable {α β γ δ : Type} {R : α → β → Prop} {S : γ → δ → Prop}

theorem Respects.pure {a : α} {b : β} (h : R a b) :
    Respects R (Pure.pure a : Action α) (Pure.pure b : Action β) :=
  ⟨fun hs => .ok h hs⟩

theorem Respects.throw (fault : Fault) :
    Respects R (throw fault : Action α) (throw fault : Action β) :=
  ⟨fun hs => .error fault hs⟩

theorem Respects.bind {x : Action α} {y : Action β} {f : α → Action γ} {g : β → Action δ}
    (hx : Respects R x y) (hf : ∀ a b, R a b → Respects S (f a) (g b)) :
    Respects S (x >>= f) (y >>= g) where
  agree {s t} hs := by
    have h := hx.agree hs
    rw [outcome_bind, outcome_bind]
    generalize x.outcome s = first, y.outcome t = second at h
    cases h with
    | ok h hs => exact (hf _ _ h).agree hs
    | error fault hs => exact .error fault hs

theorem IsBlind.bind {x : Action α} {f : α → Action γ} {g : α → Action δ} (hx : IsBlind x)
    (hf : ∀ a, Respects S (f a) (g a)) : Respects S (x >>= f) (x >>= g) :=
  Respects.bind hx fun a _ h => h ▸ hf a

theorem respects_get : Respects State.Alike get get := ⟨fun hs => .ok hs hs⟩

theorem respects_modify {f g : State → State} (h : ∀ {s t : State}, s.Alike t → (f s).Alike (g t)) :
    Respects Eq (modify f : Action Unit) (modify g) :=
  ⟨fun hs => .ok rfl (h hs)⟩

end Action

open Server.Action

theorem isBlind_demand (op : Operation) : IsBlind (demand op) := by
  refine respects_get.bind fun s t h => ?_
  rw [h.outages]
  cases t.outages.get? op with
  | some message => exact .throw _
  | none => exact .pure rfl

theorem isBlind_log (level : Log.Level) (source message : String) (extra : Option Json.Members) :
    IsBlind (log level source message extra) :=
  respects_modify fun h => { h with records := by rw [h.records] }

theorem isBlind_now : IsBlind now :=
  respects_get.bind fun _ _ h => .pure h.now

theorem isBlind_drawBytes (server : Server) (size : Nat) : IsBlind (server.drawBytes size) := by
  refine respects_get.bind fun s t h => ?_
  rw [h.draw]
  exact IsBlind.bind (respects_modify fun h => { h with draw := rfl }) fun _ => .pure rfl

theorem isBlind_changeSessions (change : Sessions → Sessions) : IsBlind (changeSessions change) :=
  respects_modify fun h => { h with sessions := by rw [h.sessions] }

theorem respects_changeAccounts {α : Type} {R : α → α → Prop} {change : Accounts → α × Accounts}
    (hchange : ∀ {a b : Accounts}, a.Alike b →
      R (change a).1 (change b).1 ∧ (change a).2.Alike (change b).2) :
    Respects R (changeAccounts change) (changeAccounts change) := by
  refine respects_get.bind fun s t h => ?_
  obtain ⟨hvalue, haccounts⟩ := hchange h.accounts
  refine Respects.bind (R := Eq) (respects_modify fun h => ?_) fun _ _ _ => .pure hvalue
  exact { h with accounts := haccounts }

/-! The operations. -/

def SameAccount (a b : Option Account) : Prop := a.map Account.bare = b.map Account.bare

theorem SameAccount.cases {a b : Option Account} (h : SameAccount a b) :
    (a = none ∧ b = none) ∨ ∃ x y, a = some x ∧ b = some y ∧ x.bare = y.bare := by
  cases a <;> cases b <;> simp_all [SameAccount]

theorem respects_findAccount (key : String) :
    Respects SameAccount (findAccount key) (findAccount key) :=
  (isBlind_demand _).bind fun _ => respects_get.bind fun _ _ h => .pure (h.accounts key)

theorem isBlind_rotateAccount (previous key : String) : IsBlind (rotateAccount previous key) :=
  (isBlind_demand _).bind fun _ => respects_changeAccounts fun h => h.rotate previous key

theorem respects_registerAccount (key : String) (suk vuk : Option String) :
    Respects (fun a b => a.bare = b.bare) (registerAccount key suk vuk)
      (registerAccount key suk vuk) :=
  (isBlind_demand _).bind fun _ => respects_changeAccounts fun h => h.register key suk vuk

theorem isBlind_disableAccount (key : String) : IsBlind (disableAccount key) :=
  (isBlind_demand _).bind fun _ => respects_changeAccounts fun h => h.setEnabled key false

theorem isBlind_enableAccount (key : String) : IsBlind (enableAccount key) :=
  (isBlind_demand _).bind fun _ => respects_changeAccounts fun h => h.setEnabled key true

theorem isBlind_removeAccount (key : String) : IsBlind (removeAccount key) :=
  (isBlind_demand _).bind fun _ => respects_changeAccounts fun h => h.remove key

theorem isBlind_prune (time : Option Number) : IsBlind (prune time) := by
  refine (isBlind_demand _).bind fun _ => respects_get.bind fun s t h =>
    isBlind_now.bind fun now => ?_
  rw [h.sessions]
  exact IsBlind.bind (respects_modify fun h => { h with sessions := rfl }) fun _ => .pure rfl

theorem isBlind_openTransaction (nut : String) (address : Option String) :
    IsBlind (openTransaction nut address) :=
  (isBlind_demand _).bind fun _ => (isBlind_prune none).bind fun _ => isBlind_now.bind fun _ =>
    isBlind_changeSessions _

theorem isBlind_consumeNut (nut : String) : IsBlind (consumeNut nut) := by
  refine (isBlind_demand _).bind fun _ => respects_get.bind fun s t h =>
    isBlind_now.bind fun now => ?_
  rw [h.sessions]
  exact IsBlind.bind (respects_modify fun h => { h with sessions := rfl }) fun _ => .pure rfl

theorem isBlind_linkNut (old new : String) : IsBlind (linkNut old new) :=
  (isBlind_demand _).bind fun _ => (isBlind_prune none).bind fun _ => isBlind_now.bind fun _ =>
    isBlind_changeSessions _

theorem isBlind_authenticateNut (nut identity : String) :
    IsBlind (authenticateNut nut identity) := by
  refine (isBlind_demand _).bind fun _ => isBlind_now.bind fun now =>
    respects_get.bind fun s t h => ?_
  rw [h.sessions]
  exact (isBlind_changeSessions _).bind fun _ => isBlind_log ..

theorem isBlind_readIdentity (nut : String) : IsBlind (readIdentity nut) := by
  refine (isBlind_demand _).bind fun _ => respects_get.bind fun s t h => .pure ?_
  rw [h.sessions]

variable (server : Server)

theorem isBlind_createNut (address : Option String) (qr : Bool) :
    IsBlind (server.createNut address qr) :=
  (isBlind_demand _).bind fun _ => (isBlind_drawBytes server _).bind fun _ =>
    isBlind_now.bind fun _ => .pure rfl

theorem isBlind_encodeNut (nut : Nut) : IsBlind (server.encodeNut nut) := by
  refine (isBlind_demand _).bind fun _ => ?_
  cases nut.record with
  | error fault => exact .throw _
  | ok record => exact (isBlind_drawBytes server _).bind fun _ => .pure rfl

theorem isBlind_mint (address : Option String) (qr : Bool) : IsBlind (server.mint address qr) :=
  (isBlind_createNut server address qr).bind fun nut => isBlind_encodeNut server nut

theorem isBlind_decodeNut (text : String) : IsBlind (server.decodeNut text) :=
  (isBlind_demand _).bind fun _ => .pure rfl

theorem isBlind_appendEvent (trail : Audit.Trail) (event : Audit.Event) :
    IsBlind (appendEvent trail event) := by
  rw [appendEvent]
  generalize trail.append event = appended
  obtain ⟨result, after⟩ := appended
  refine (isBlind_demand _).bind fun _ => ?_
  refine IsBlind.bind (respects_modify fun h => { h with trail := rfl }) fun _ => ?_
  cases result with
  | ok hash => exact .pure rfl
  | error fault => exact .throw _

theorem isBlind_audit (decision : Decision) (reason : Reason) (fields : List (String × Json)) :
    IsBlind (server.audit decision reason fields) := by
  refine respects_get.bind fun s t h => ?_
  rw [h.trail]
  cases t.trail with
  | none => exact .pure rfl
  | some trail => exact isBlind_now.bind fun _ => isBlind_appendEvent _ _

/-! The protocol. An account that was found is asked for nothing but whether it is enabled. -/

theorem isBlind_issue (address : Option String) (qr : Bool) : IsBlind (server.issue address qr) :=
  (isBlind_mint server address qr).bind fun nut =>
    (isBlind_openTransaction nut address).bind fun _ =>
      (isBlind_log ..).bind fun _ => (isBlind_audit ..).bind fun _ => .pure rfl

theorem isBlind_refuse (reason : Reason) (request : Request) (nut : Option String) (text : String)
    (address detail : Option String) :
    IsBlind (server.refuse reason request nut text address detail) :=
  isBlind_now.bind fun _ => (isBlind_audit ..).bind fun _ => .pure rfl

def SameFound (a b : Option Account × List Flag) : Prop := SameAccount a.1 b.1 ∧ a.2 = b.2

theorem respects_identify (request : Request) :
    Respects SameFound (identify request) (identify request) := by
  refine (respects_findAccount request.idk).bind fun a b hab => ?_
  obtain ⟨rfl, rfl⟩ | ⟨x, y, rfl, rfl, -⟩ := hab.cases
  · cases request.pidk with
    | none => exact .pure ⟨rfl, rfl⟩
    | some previous =>
      refine (respects_findAccount previous).bind fun a b hab => ?_
      obtain ⟨rfl, rfl⟩ | ⟨x, y, rfl, rfl, -⟩ := hab.cases
      · exact .pure ⟨rfl, rfl⟩
      · exact (isBlind_rotateAccount previous request.idk).bind fun _ =>
          (isBlind_log ..).bind fun _ => .pure ⟨hab, rfl⟩
  · exact .pure ⟨hab, rfl⟩

theorem respects_dispatch {a b : Option Account} (hab : SameAccount a b) (request : Request)
    (text : String) : Respects Eq (dispatch request a text) (dispatch request b text) := by
  rw [dispatch, dispatch]
  cases request.command with
  | none => exact (isBlind_log ..).bind fun _ => .pure rfl
  | some command =>
    cases command with
    | query => exact .pure rfl
    | ident =>
      obtain ⟨rfl, rfl⟩ | ⟨x, y, rfl, rfl, -⟩ := hab.cases
      · exact (respects_registerAccount ..).bind fun _ _ _ => (isBlind_log ..).bind fun _ =>
          (isBlind_authenticateNut ..).bind fun _ => .pure rfl
      · exact (isBlind_authenticateNut ..).bind fun _ => .pure rfl
    | disable => exact (isBlind_disableAccount _).bind fun _ => .pure rfl
    | enable => exact (isBlind_enableAccount _).bind fun _ => .pure rfl
    | remove => exact (isBlind_removeAccount _).bind fun _ => .pure rfl

theorem respects_disabledFlag {a b : Option Account} (hab : SameAccount a b) (key : String) :
    Respects Eq (disabledFlag key a) (disabledFlag key b) := by
  obtain ⟨rfl, rfl⟩ | ⟨x, y, rfl, rfl, hxy⟩ := hab.cases
  · exact .pure rfl
  refine respects_get.bind fun s t h => .pure ?_
  have henabled : ((s.accounts.find? key).getD x).enabled =
      ((t.accounts.find? key).getD y).enabled := by
    obtain ⟨hs, ht⟩ | ⟨x', y', hs, ht, hxy'⟩ := SameAccount.cases (h.accounts key)
    · rw [hs, ht]
      exact Account.enabled_eq_of_bare hxy
    · rw [hs, ht]
      exact Account.enabled_eq_of_bare hxy'
  simp only [henabled]

theorem isBlind_process (request : Request) (nut : String) (presented response : Nut)
    (text : String) : IsBlind (server.process request nut presented response text) := by
  refine isBlind_now.bind fun now => ?_
  by_cases hage : server.settings.nutExpiration < now.truncate - presented.created
  · simp only [if_pos hage]
    exact (isBlind_log ..).bind fun _ => .pure rfl
  simp only [if_neg hage]
  refine (isBlind_consumeNut nut).bind fun fresh => ?_
  cases fresh with
  | false => exact (isBlind_log ..).bind fun _ => .pure rfl
  | true =>
    refine (isBlind_linkNut nut text).bind fun _ => ?_
    refine (respects_identify request).bind fun a b hab => ?_
    obtain ⟨a, flags⟩ := a
    obtain ⟨b, _⟩ := b
    obtain ⟨hab, rfl⟩ := hab
    refine (respects_dispatch hab request text).bind fun _ _ h => h ▸ ?_
    exact (respects_disabledFlag hab request.idk).bind fun _ _ h => h ▸ .pure rfl

theorem isBlind_oneLine (r : Response) : IsBlind (oneLine r) := by
  rw [oneLine]
  cases r.text with
  | error fault => exact .throw _
  | ok text => exact .pure rfl

theorem isBlind_accept (request : Request) (nut : String) (presented response : Nut)
    (text : String) (address : Option String) :
    IsBlind (server.accept request nut presented response text address) :=
  (isBlind_process ..).bind fun _ => (isBlind_oneLine _).bind fun _ => (isBlind_log ..).bind fun _ =>
    isBlind_now.bind fun _ => (isBlind_audit ..).bind fun _ => .pure rfl

theorem isBlind_judge (request : Request) (nut : String) (presented : Nut)
    (address : Option String) : IsBlind (server.judge request nut presented address) := by
  refine (isBlind_createNut ..).bind fun response => (isBlind_encodeNut ..).bind fun text => ?_
  by_cases hversion : request.ver = server.settings.version
  · simp only [hversion, ne_eq, not_true_eq_false, if_false]
    cases Signature.check (some request.signedMessage) request.idk request.ids with
    | error fault =>
      exact (isBlind_log ..).bind fun _ => (isBlind_log ..).bind fun _ => isBlind_refuse ..
    | ok => exact isBlind_accept ..
  · simp only [ne_eq, hversion, not_false_eq_true, if_true]
    exact (isBlind_log ..).bind fun _ => isBlind_refuse ..

theorem isBlind_handle (request : Request) (nut address : Option String) :
    IsBlind (server.handle request nut address) := by
  refine (isBlind_log ..).bind fun _ => (isBlind_decodeNut ..).bind fun read => ?_
  cases read with
  | error rejection =>
    exact (isBlind_log ..).bind fun _ => (isBlind_mint ..).bind fun _ => isBlind_refuse ..
  | ok presented => exact isBlind_judge ..

theorem isBlind_presentedAsCode (nut : Option String) : IsBlind (server.presentedAsCode nut) := by
  rw [presentedAsCode]
  cases Signature.given? nut with
  | none => exact .pure rfl
  | some text =>
    refine (isBlind_decodeNut server text).bind fun read => ?_
    cases read with
    | error rejection => exact .pure rfl
    | ok presented => exact .pure rfl

theorem isBlind_handleMalformed (nut address : Option String) :
    IsBlind (server.handleMalformed nut address) :=
  (isBlind_presentedAsCode ..).bind fun _ => (isBlind_mint ..).bind fun _ =>
    isBlind_now.bind fun _ => (isBlind_audit ..).bind fun _ => .pure rfl

theorem isBlind_perform (call : Call) : IsBlind (server.perform call) := by
  cases call with
  | issue address qr => exact (isBlind_issue ..).bind fun _ => .pure rfl
  | handle request nut address => exact (isBlind_handle ..).bind fun _ => .pure rfl
  | handleMalformed nut address => exact (isBlind_handleMalformed ..).bind fun _ => .pure rfl
  | readIdentity nut => exact (isBlind_readIdentity nut).bind fun _ => .pure rfl
  | prune time => exact (isBlind_prune time).bind fun _ => .pure rfl

/-! Steps and runs. -/

variable {s t : State}

theorem State.Alike.step (h : s.Alike t) (m : Moment) :
    (server.step s m).1 = (server.step t m).1 ∧ (server.step s m).2.Alike (server.step t m).2 := by
  have hnow : State.Alike { s with now := m.time } { t with now := m.time } := { h with now := rfl }
  have hagree := (isBlind_perform server m.call).agree hnow
  simp only [Server.step]
  generalize (server.perform m.call).outcome { s with now := m.time } = first,
    (server.perform m.call).outcome { t with now := m.time } = second at hagree
  cases hagree with
  | ok h hs => exact ⟨by rw [h], hs⟩
  | error fault hs => exact ⟨rfl, hs⟩

theorem State.Alike.run (h : s.Alike t) (moments : List Moment) :
    (server.run s moments).1 = (server.run t moments).1 ∧
      (server.run s moments).2.Alike (server.run t moments).2 := by
  induction moments generalizing s t with
  | nil => exact ⟨rfl, h⟩
  | cons m moments ih =>
    obtain ⟨hentry, hafter⟩ := h.step server m
    obtain ⟨hhistory, hlast⟩ := ih hafter
    rw [run_cons, run_cons]
    exact ⟨by rw [hentry, hhistory], hlast⟩

variable {server}

theorem exists_step_of_mem_run {moments : List Moment} {e : Entry}
    (h : e ∈ (server.run s moments).1) : ∃ before m, (server.step before m).1 = e := by
  induction moments generalizing s with
  | nil => cases h
  | cons m moments ih =>
    rw [run_cons] at h
    cases List.mem_cons.mp h with
    | inl heq => exact ⟨s, m, heq.symm⟩
    | inr hrest => exact ih hrest

theorem exists_respond_of_response {m : Moment} {r : Response}
    (h : (server.step s m).1.result = .ok (.response r)) :
    ∃ text flags, Text.IsOneLine text.toList ∧ r = server.respond text flags := by
  obtain ⟨nut, address, hcall⟩ : ∃ nut address, m.call.presents? = some (nut, address) := by
    rcases isRequest_of_response h with ⟨_, _, _, hcall⟩ | ⟨_, _, hcall⟩ <;>
      exact ⟨_, _, by rw [hcall]; rfl⟩
  obtain ⟨text, htext, flags, hresponse, -⟩ := answers_step hcall h
  exact ⟨text, flags, Nut.isOneLine_of_encode htext, hresponse⟩

/-- The unlock keys that are stored when a run begins change nothing that is answered in it, and
nothing that it leaves but the stored keys. No response has a line for an unlock key. -/
theorem unlock_keys_hidden (h : s.Alike t) (moments : List Moment) :
    (server.run s moments).1 = (server.run t moments).1 ∧
    (server.run s moments).2.Alike (server.run t moments).2 ∧
    ∀ e ∈ (server.run s moments).1, ∀ r, e.result = .ok (.response r) →
      ∃ fields written, r.present = .ok fields ∧ r.text = .ok written ∧
        fields.map Prod.fst = ["ver", "nut", "tif", "qry"] ∧
        (Text.IsOneLine server.settings.version.toList →
          Text.IsOneLine server.settings.baseUri.toList →
            ∀ value, Response.line "suk" value ∉ Text.splitCrLf written.toList) := by
  obtain ⟨hhistory, hlast⟩ := h.run server moments
  refine ⟨hhistory, hlast, fun e he r hresult => ?_⟩
  obtain ⟨before, m, rfl⟩ := exists_step_of_mem_run he
  obtain ⟨text, flags, hline, rfl⟩ := exists_respond_of_response hresult
  have hpresent := Response.present_build server.settings.version server.settings.baseUri text flags
  refine ⟨_, _, hpresent, Response.text_of_present hpresent, Response.map_fst_builtFields ..,
    fun hversion hbaseUri value hsuk => ?_⟩
  have hmem :=
    (Response.isReadable_builtFields hversion hbaseUri hline flags).mem_of_line (by decide) hsuk
  have hname : "suk" ∈ ["ver", "nut", "tif", "qry"] :=
    Response.map_fst_builtFields .. ▸ List.mem_map_of_mem (f := Prod.fst) hmem
  exact absurd hname (by decide)

section Sample

def sampleLocked (suk : String) : State :=
  { sampleFirst 900 with
    accounts := (∅ : Accounts).insert sampleKey ⟨sampleKey, some suk, none, true⟩ }

/-- A login that asks for the unlock key is answered alike whichever key is stored. -/
theorem unlock_keys_hidden_login :
    (sampleLocked "first").accounts.find? sampleKey ≠
        (sampleLocked "second").accounts.find? sampleKey ∧
      ((sampleServer 900 (by decide)).run (sampleLocked "first") [sampleIssue,
          ⟨.int 1001, .handle { sampleRequest with opt := ["suk"] } sampleNut none⟩]).1 =
        ((sampleServer 900 (by decide)).run (sampleLocked "second") [sampleIssue,
          ⟨.int 1001, .handle { sampleRequest with opt := ["suk"] } sampleNut none⟩]).1 := by
  have halike : (sampleLocked "first").Alike (sampleLocked "second") :=
    { now := rfl, draw := rfl, sessions := rfl, trail := rfl, outages := rfl, records := rfl,
      accounts := Accounts.Alike.insert (fun _ => rfl) sampleKey rfl }
  refine ⟨?_, (unlock_keys_hidden halike _).1⟩
  simp [sampleLocked, Accounts.find?_insert]

end Sample

end Server

end Sqrl
