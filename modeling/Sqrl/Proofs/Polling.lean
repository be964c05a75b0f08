import Sqrl.Proofs.Login

/-! What whoever watches an issued nut sees. As long as its transaction is kept, the identity that is
read for any of its nuts is that of the last login with one of them. -/
namespace Sqrl.Server

def Entry.login? (e : Entry) : Option (String × String) :=
  match e.call with
  | .handle request nut _ =>
    if e.isProcessed ∧ request.command = some .ident then some (nut, request.idk) else none
  | _ => none

/-- The key of the last login of a history with one of some nuts, if there is one. -/
def LastLogin (history : List Entry) (nuts : String → Prop) : Option String → Prop
  | none => ∀ e ∈ history, ∀ nut key, e.login? = some (nut, key) → ¬ nuts nut
  | some key => ∃ before e after nut, history = before ++ e :: after ∧
      e.login? = some (nut, key) ∧ nuts nut ∧
        ∀ d ∈ after, ∀ nut key, d.login? = some (nut, key) → ¬ nuts nut

variable {server : Server} {moments : List Moment} {past history before after : List Entry}
  {s t : State} {e issued : Entry} {root nut m key : String} {nuts nuts' : String → Prop}
  {time : Number}

theorem Entry.login?_of_handle {request : Request} {address : Option String}
    (hcall : e.call = .handle request nut address) (hprocessed : e.isProcessed = true) :
    e.login? = if request.command = some .ident then some (nut, request.idk) else none := by
  simp [Entry.login?, hcall, hprocessed]

theorem Entry.login?_of_not_isProcessed (h : e.isProcessed = false) : e.login? = none := by
  unfold Entry.login?
  split
  · simp [h]
  · rfl

theorem Entry.presented?_of_login? (h : e.login? = some (nut, key)) : e.presented? = some nut := by
  unfold Entry.login? at h
  split at h
  · next request presented address hcall =>
    split at h
    · cases h
      exact Entry.presented?_of_handle hcall
    · cases h
  · cases h

theorem Entry.presented?_of_spends (h : e.spends nut = true) : e.presented? = some nut := by
  unfold Entry.spends at h
  split at h
  · next request presented address hcall =>
    rw [Bool.and_eq_true, decide_eq_true_iff] at h
    rw [Entry.presented?_of_handle hcall, h.1]
  · cases h

namespace LastLogin

theorem congr {last : Option String} (h : LastLogin history nuts last)
    (hsame : ∀ e ∈ history, ∀ nut key, e.login? = some (nut, key) → (nuts nut ↔ nuts' nut)) :
    LastLogin history nuts' last := by
  cases last with
  | none =>
    intro e he nut key hlogin hnut
    exact h e he nut key hlogin ((hsame e he nut key hlogin).mpr hnut)
  | some key =>
    obtain ⟨before, e, after, nut, rfl, hlogin, hnut, hlast⟩ := h
    refine ⟨before, e, after, nut, rfl, hlogin, (hsame e (by simp) nut key hlogin).mp hnut, ?_⟩
    intro d hd other key' hother hnut'
    exact hlast d hd other key' hother ((hsame d (by simp [hd]) other key' hother).mpr hnut')

theorem skip {last : Option String} (h : LastLogin past nuts last)
    (he : ∀ nut key, e.login? = some (nut, key) → ¬ nuts nut) :
    LastLogin (past ++ [e]) nuts last := by
  cases last with
  | none =>
    intro d hd
    cases List.mem_append.mp hd with
    | inl hd => exact h d hd
    | inr hd => exact List.mem_singleton.mp hd ▸ he
  | some key =>
    obtain ⟨before, d, after, nut, rfl, hlogin, hnut, hlast⟩ := h
    refine ⟨before, d, after ++ [e], nut, by simp, hlogin, hnut, ?_⟩
    intro d hd
    cases List.mem_append.mp hd with
    | inl hd => exact hlast d hd
    | inr hd => exact List.mem_singleton.mp hd ▸ he

theorem snoc (hlogin : e.login? = some (nut, key)) (hnut : nuts nut) :
    LastLogin (past ++ [e]) nuts (some key) :=
  ⟨past, e, [], nut, rfl, hlogin, hnut, by simp⟩

end LastLogin

/-- A nut that is not known leads nowhere. -/
theorem reaches_iff_of_not_isKnown (h : ¬ IsKnown history root) :
    Reaches history root nut ↔ nut = root := by
  constructor
  · intro hreaches
    rcases hreaches.cases_head with heq | ⟨next, ⟨e, he, hspends, -⟩, -⟩
    · exact heq.symm
    · exact absurd ⟨e, he, .inr (Entry.presented?_of_spends hspends)⟩ h
  · rintro rfl
    exact .refl

/-- One more call leads on only to the nut that it makes, which is new. -/
theorem reaches_append_iff (hnew : MintsNew (past ++ [e])) :
    Reaches (past ++ [e]) root m ↔ Reaches past root m ∨
      ∃ nut, e.spends nut = true ∧ e.minted? = some m ∧ Reaches past root nut := by
  obtain ⟨-, hnew⟩ := mintsNew_append.mp hnew
  constructor
  · intro h
    induction h with
    | refl => exact .inl .refl
    | @tail old new _ hleads ih =>
      obtain ⟨d, hd, hspends, hminted⟩ := hleads
      have hpresented := Entry.presented?_of_spends hspends
      -- The nut that the call makes was not presented before it, and not by it.
      have hold : Reaches past root old := by
        rcases ih with hold | ⟨_, -, hold, -⟩
        · exact hold
        · obtain ⟨hfirst, hself⟩ := hnew old hold
          cases List.mem_append.mp hd with
          | inl hd => exact absurd ⟨d, hd, .inr hpresented⟩ hfirst
          | inr hd => exact absurd (List.mem_singleton.mp hd ▸ hpresented) hself
      cases List.mem_append.mp hd with
      | inl hd => exact .inl (hold.tail ⟨d, hd, hspends, hminted⟩)
      | inr hd =>
        obtain rfl := List.mem_singleton.mp hd
        exact .inr ⟨old, hspends, hminted, hold⟩
  · intro h
    rcases h with h | ⟨nut, hspends, hminted, h⟩
    · exact h.append [e]
    · exact (h.append [e]).tail ⟨e, by simp, hspends, hminted⟩

theorem Transition.isLinked (hstep : server.Transition s e t)
    (htidy : s.sessions.IsTidy (IsKnown past)) (h : s.sessions.IsLinked)
    (hnew : ∀ nut, e.minted? = some nut → ¬ IsKnown past nut ∧ e.presented? ≠ some nut) :
    t.sessions.IsLinked := by
  cases hstep with
  | processed _ _ _ _ _ hminted hsessions =>
    rw [hsessions]
    exact h.serve htidy (hnew _ hminted).1
  | issued _ _ _ hsessions =>
    rw [hsessions]
    exact (h.prune e.time).start _ _ _
  | pruned _ _ _ hsessions =>
    rw [hsessions]
    exact h.prune _
  | idle _ _ hsessions =>
    rw [hsessions]
    exact h

theorem IsRun.isLinked (hrun : server.IsRun moments history s)
    (hmoments : ∀ m ∈ moments, m.call.IsRecordable) (hnew : MintsNew history) :
    s.sessions.IsLinked := by
  refine hrun.induction (I := fun history s => MintsNew history → s.sessions.IsLinked) hmoments
    ?_ ?_ hnew
  · intro first hsessions _ _
    rw [hsessions]
    exact .empty _
  · intro moments past s e t hpast hearlier hspec h hnew
    obtain ⟨hbefore, hlast⟩ := mintsNew_append.mp hnew
    exact hspec.transition.isLinked (hpast.isTidy hearlier hbefore) (h hbefore) hlast

/-- What one call can do to a transaction that stands and is not stale: a nut that it makes for one
of the nuts joins it, and a login with one of them shows in it. -/
structure Joins (root : String) (time : Number) (s : Sessions) (e : Entry) (t : Sessions) :
    Prop where
  isOpen : t.IsOpen root time
  root_iff : ∀ m, t.root m = root ↔ s.root m = root ∨
    ∃ nut, e.spends nut = true ∧ e.minted? = some m ∧ s.root nut = root
  kept : (∀ nut key, e.login? = some (nut, key) → s.root nut ≠ root) → t.login? root = s.login? root
  login : ∀ nut key, e.login? = some (nut, key) → s.root nut = root → t.login? root = some key

theorem Joins.of_eq {root : String} {time : Number} {s t : Sessions} (h : t.IsOpen root time)
    (hprocessed : e.isProcessed = false) (hroot : ∀ m, t.root m = root ↔ s.root m = root)
    (hlogin : t.login? root = s.login? root) : Joins root time s e t where
  isOpen := h
  root_iff m := by
    have hspends (nut : String) : e.spends nut ≠ true := by
      intro hspends
      rw [Entry.isProcessed_of_spends hspends] at hprocessed
      cases hprocessed
    simp [hroot, hspends]
  kept _ := hlogin
  login nut key h := by
    rw [Entry.login?_of_not_isProcessed hprocessed] at h
    cases h

theorem Transition.joins (hstep : server.Transition s e t)
    (htidy : s.sessions.IsTidy (IsKnown past)) (hlinked : s.sessions.IsLinked)
    (hnew : ∀ nut, e.minted? = some nut → ¬ IsKnown past nut ∧ e.presented? ≠ some nut)
    (hopen : s.sessions.IsOpen root time)
    (hkept : ∀ p, e.prunedAt? = some p → s.sessions.isStale p time = false) :
    Joins root time s.sessions e t.sessions := by
  have hknown : IsKnown past root := by
    obtain ⟨t, ht, -⟩ := hopen
    exact htidy.known_transaction ht
  cases hstep with
  | @processed request nut address presented text hcall _ _ _ hprocessed hminted hsessions =>
    have hkept := hkept e.time (by simp [Entry.prunedAt?, hcall, hprocessed])
    have hlogin := Entry.login?_of_handle hcall hprocessed
    have hspends (other : String) : e.spends other = true ↔ nut = other := by
      simp [Entry.spends_of_handle hcall, hprocessed]
    rw [hsessions]
    refine ⟨hopen.serve hkept, fun m => ?_, fun hother => ?_, fun other key h hroot => ?_⟩
    · rw [hopen.root_serve_iff htidy hlinked hkept]
      by_cases hm : text = m
      · -- The nut of the response is new, so it was in no transaction.
        have hroot : s.sessions.root m ≠ root := by
          subst hm
          intro heq
          rw [(htidy.root_eq_iff_of_not_known (hnew text hminted).1 text).mpr rfl] at heq
          exact (hnew text hminted).1 (heq ▸ hknown)
        simp [hm, hroot, hspends, hminted]
      · simp [hm, hspends, hminted]
    · rw [hopen.login?_serve htidy hlinked hkept, if_neg]
      rintro ⟨hident, hroot⟩
      exact hother nut request.idk (by rw [hlogin, if_pos hident]) hroot
    · rw [hlogin] at h
      split at h
      · next hident =>
        cases h
        rw [hopen.login?_serve htidy hlinked hkept, if_pos ⟨hident, hroot⟩]
      · cases h
  | @issued address qr text hcall hminted hpruned hsessions =>
    have hkept := hkept e.time hpruned
    have hne : text ≠ root := fun heq => (hnew text hminted).1 (heq ▸ hknown)
    have hprocessed : e.isProcessed = false := by simp [Entry.isProcessed, hcall]
    rw [hsessions]
    refine .of_eq ((hopen.prune hkept).start hne address e.time) hprocessed
      (hopen.root_prune_iff htidy hlinked hkept) ?_
    rw [Sessions.login?_start, if_neg hne, hopen.login?_prune hkept]
  | @pruned reading hcall _ hpruned hsessions =>
    have hkept := hkept _ hpruned
    have hprocessed : e.isProcessed = false := by simp [Entry.isProcessed, hcall]
    rw [hsessions]
    exact .of_eq (hopen.prune hkept) hprocessed (hopen.root_prune_iff htidy hlinked hkept)
      (hopen.login?_prune hkept)
  | idle hprocessed _ hsessions =>
    rw [hsessions]
    exact .of_eq hopen hprocessed (fun _ => Iff.rfl) rfl

/-- The transaction of a nut holds the nuts that processed requests have reached from it, and the
last login with one of them. -/
structure Shows (history : List Entry) (root : String) (time : Number) (sessions : Sessions) :
    Prop where
  isOpen : sessions.IsOpen root time
  root_iff : ∀ m, sessions.root m = root ↔ Reaches history root m
  login : LastLogin history (Reaches history root) (sessions.login? root)

theorem Shows.append {s t : Sessions} (h : Shows past root time s) (hjoins : Joins root time s e t)
    (hnew : MintsNew (past ++ [e])) : Shows (past ++ [e]) root time t where
  isOpen := hjoins.isOpen
  root_iff m := by
    rw [hjoins.root_iff, reaches_append_iff hnew]
    simp only [h.root_iff]
  login := by
    -- Whoever logged in did so with a nut that the call does not make.
    have hsame : ∀ d ∈ past ++ [e], ∀ nut key, d.login? = some (nut, key) →
        (Reaches past root nut ↔ Reaches (past ++ [e]) root nut) := by
      intro d hd nut key hlogin
      have hpresented := Entry.presented?_of_login? hlogin
      rw [reaches_append_iff hnew, or_iff_left]
      rintro ⟨_, -, hminted, -⟩
      obtain ⟨hfirst, hself⟩ := (mintsNew_append.mp hnew).2 nut hminted
      cases List.mem_append.mp hd with
      | inl hd => exact hfirst ⟨d, hd, .inr hpresented⟩
      | inr hd => exact hself (List.mem_singleton.mp hd ▸ hpresented)
    by_cases hlogin : ∃ nut key, e.login? = some (nut, key) ∧ Reaches past root nut
    · obtain ⟨nut, key, hlogin, hnut⟩ := hlogin
      rw [hjoins.login nut key hlogin ((h.root_iff nut).mpr hnut)]
      exact (LastLogin.snoc hlogin hnut).congr hsame
    · have hother (nut key : String) (he : e.login? = some (nut, key)) : ¬ Reaches past root nut :=
        fun hnut => hlogin ⟨nut, key, he, hnut⟩
      rw [hjoins.kept fun nut key he hroot => hother nut key he ((h.root_iff nut).mp hroot)]
      exact (h.login.skip hother).congr hsame

theorem Entry.prunedAt?_of_issue {address : Option String} {qr : Bool}
    (hcall : e.call = .issue address qr) (hminted : e.minted? = some nut) :
    e.prunedAt? = some e.time := by
  unfold Entry.minted? at hminted
  split at hminted
  · next hresult => simp only [Entry.prunedAt?, hcall, hresult]
  · next hresult => simp only [Entry.prunedAt?, hcall, hresult]
  · cases hminted

/-- A nut that is issued opens a transaction that nobody else takes part in. -/
theorem Transition.shows (hstep : server.Transition s e t)
    (htidy : s.sessions.IsTidy (IsKnown past)) (hnew : MintsNew (past ++ [e]))
    {address : Option String} {qr : Bool} (hcall : e.call = .issue address qr)
    (hminted : e.minted? = some root) : Shows (past ++ [e]) root e.time t.sessions := by
  have hfirst := ((mintsNew_append.mp hnew).2 root hminted).1
  have hreaches (nut : String) : Reaches (past ++ [e]) root nut ↔ nut = root := by
    rw [reaches_append_iff hnew, reaches_iff_of_not_isKnown hfirst]
    simp [Entry.spends_of_issue hcall]
  have hpresented : e.presented? = none := by simp [Entry.presented?, hcall]
  cases hstep with
  | processed hcall' => cases hcall.symm.trans hcall'
  | pruned hcall' => cases hcall.symm.trans hcall'
  | idle _ hpruned =>
    rw [Entry.prunedAt?_of_issue hcall hminted] at hpruned
    cases hpruned
  | @issued address qr text _ hminted' _ hsessions =>
    obtain rfl : root = text := Option.some.inj (hminted.symm.trans hminted')
    rw [hsessions]
    refine ⟨⟨_, by rw [Sessions.transactions_start, if_pos rfl], rfl⟩, fun m => ?_, ?_⟩
    · rw [hreaches]
      exact (htidy.prune e.time).root_eq_iff_of_not_known hfirst m
    · rw [Sessions.login?_start, if_pos rfl]
      intro d hd nut key hlogin hnut
      have hd' := Entry.presented?_of_login? hlogin
      rw [(hreaches nut).mp hnut] at hd'
      cases List.mem_append.mp hd with
      | inl hd => exact hfirst ⟨d, hd, .inr hd'⟩
      | inr hd =>
        rw [List.mem_singleton.mp hd, hpresented] at hd'
        cases hd'

theorem isForgotten_append {ttl time : Number} : IsForgotten ttl time (after ++ [e]) ↔
    IsForgotten ttl time after ∨
      ∃ p, e.prunedAt? = some p ∧ ttl.lt (p.sub time) = true := by
  simp [IsForgotten, or_and_right, exists_or]

namespace IsRun

/-- What a further call does to a transaction that it does not forget. -/
theorem joins (hrun : server.IsRun moments history s)
    (hmoments : ∀ m ∈ moments, m.call.IsRecordable) (hstep : server.Transition s e t)
    (hnew : MintsNew (history ++ [e])) (hopen : s.sessions.IsOpen root time)
    (hkept : ¬ IsForgotten (.int server.settings.sessionTtl) time (after ++ [e])) :
    Joins root time s.sessions e t.sessions := by
  obtain ⟨hpast, hlast⟩ := mintsNew_append.mp hnew
  refine hstep.joins (hrun.isTidy hmoments hpast) (hrun.isLinked hmoments hpast) hlast hopen ?_
  intro p hp
  rw [Sessions.isStale, (hrun.remembers hmoments).ttl, ← Bool.not_eq_true]
  exact fun hstale => hkept (isForgotten_append.mpr (.inr ⟨p, hp, hstale⟩))

theorem shows (hrun : server.IsRun moments (before ++ issued :: after) s)
    (hmoments : ∀ m ∈ moments, m.call.IsRecordable) (hnew : MintsNew (before ++ issued :: after))
    {address : Option String} {qr : Bool} (hcall : issued.call = .issue address qr)
    (hminted : issued.minted? = some root)
    (hkept : ¬ IsForgotten (.int server.settings.sessionTtl) issued.time after) :
    Shows (before ++ issued :: after) root issued.time s.sessions := by
  refine hrun.induction (I := fun history s => MintsNew history → ∀ before after,
    history = before ++ issued :: after →
      ¬ IsForgotten (.int server.settings.sessionTtl) issued.time after →
        Shows history root issued.time s.sessions) hmoments ?_ ?_ hnew before after rfl hkept
  · intro first _ _ _ before after hsplit
    simp at hsplit
  · intro moments past s e t hpast hearlier hspec h hnew before after hsplit hkept
    have hbefore := (mintsNew_append.mp hnew).1
    rcases split_snoc hsplit with ⟨rfl, rfl, rfl⟩ | ⟨rest, rfl, hrest⟩
    · exact hspec.transition.shows (hpast.isTidy hearlier hbefore) hnew hcall hminted
    · have hshows := h hbefore before rest hrest fun hforgotten =>
        hkept (isForgotten_append.mpr (.inl hforgotten))
      exact hshows.append (hpast.joins hearlier hspec.transition hnew hshows.isOpen hkept) hnew

end IsRun

theorem Shows.identity?_eq {sessions : Sessions} (h : Shows history root time sessions)
    (hnut : Reaches history root nut) : sessions.identity? nut = sessions.login? root := by
  rw [Sessions.identity?_eq, (h.root_iff nut).mpr hnut]

/-- While nothing is forgotten that is as old as an issued nut, the identity that is read for it,
and for every nut that processed requests have reached from it, is the one of the last login with
one of these nuts. A call that presents none of them does not change it. -/
theorem login_shown (hrun : server.IsRun moments (before ++ issued :: after) s)
    (hmoments : ∀ m ∈ moments, m.call.IsRecordable) (hnew : MintsNew (before ++ issued :: after))
    {address : Option String} {qr : Bool} (hcall : issued.call = .issue address qr)
    (hminted : issued.minted? = some root)
    (hkept : ¬ IsForgotten (.int server.settings.sessionTtl) issued.time after)
    (hnut : Reaches (before ++ issued :: after) root nut) (time : Number) :
    (∃ key, server.identityAt s time nut = .ok (.identity key) ∧
      LastLogin (before ++ issued :: after) (Reaches (before ++ issued :: after) root) key) ∧
    ∀ m : Moment, m.call.IsRecordable →
      MintsNew (before ++ issued :: after ++ [(server.step s m).1]) →
      ¬ IsForgotten (.int server.settings.sessionTtl) issued.time
        (after ++ [(server.step s m).1]) →
      (∀ presented, (server.step s m).1.presented? = some presented →
        ¬ Reaches (before ++ issued :: after) root presented) →
        server.identityAt (server.step s m).2 time nut = server.identityAt s time nut := by
  have hready := hrun.isReady hmoments
  have hshows := hrun.shows hmoments hnew hcall hminted hkept
  rw [server.identityAt_eq hready, hshows.identity?_eq hnut]
  refine ⟨⟨_, rfl, hshows.login⟩, fun m hm hnext hkeep hother => ?_⟩
  have hspec := server.step_spec hready hm
  have hjoins := hrun.joins hmoments hspec.transition hnext hshows.isOpen hkeep
  have hlogin := hjoins.kept fun other key hlogin hroot =>
    hother other (Entry.presented?_of_login? hlogin) ((hshows.root_iff other).mp hroot)
  rw [server.identityAt_eq hspec.isReady, (hshows.append hjoins hnext).identity?_eq
    (hnut.append _), hlogin]

section Sample

/-- The nut that was issued shows the login that was requested with it. -/
theorem login_shown_visit :
    ∃ issued login s, (sampleServer 900 (by decide)).IsRun sampleVisit
        ([] ++ issued :: [login]) s ∧ issued.minted? = some sampleNut ∧
      (sampleServer 900 (by decide)).identityAt s (.int 1001) sampleNut =
        .ok (.identity (some sampleKey)) ∧
      LastLogin ([] ++ issued :: [login]) (Reaches ([] ++ issued :: [login]) sampleNut)
        (some sampleKey) := by
  obtain ⟨issued, login, s, hrun, hissued, hminted, hlogin, hnew, hidentity⟩ := exists_sampleVisit
  have hissuedAt : issued.time = .int 1000 := congrArg Moment.time hissued
  have hloginAt : login.time = .int 1001 := congrArg Moment.time hlogin
  have hcall : login.call = .handle sampleRequest sampleNut none := congrArg Moment.call hlogin
  have hkept : ¬ IsForgotten (.int 900) issued.time [login] := by
    intro ⟨d, hd, p, hp, hstale⟩
    rw [List.mem_singleton.mp hd, Entry.prunedAt?, hcall] at hp
    simp only [Option.ite_none_right_eq_some, Option.some.injEq] at hp
    rw [← hp.2, hissuedAt, hloginAt] at hstale
    exact absurd hstale (by decide +kernel)
  have hrun : (sampleServer 900 (by decide)).IsRun sampleVisit ([] ++ issued :: [login]) s := hrun
  obtain ⟨⟨key, hkey, hlast⟩, -⟩ := login_shown hrun isRecordable_sampleVisit hnew
    (congrArg Moment.call hissued) hminted hkept .refl (.int 1001)
  have hread := hkey
  rw [identityAt_eq _ (hrun.isReady isRecordable_sampleVisit), hidentity] at hread
  cases hread
  exact ⟨issued, login, s, hrun, hminted, hkey, hlast⟩

end Sample

end Sqrl.Server
