import Sqrl.Proofs.Step

/-! How often a nut is processed. A server remembers that a nut was consumed until it forgets what
is stale; until then a further request with the nut is not processed, and no other request is held
back. -/
namespace Sqrl.Server

/-- The last processed request of a history that presents a nut, and what came after it. -/
structure LastUse (nut : String) (history : List Entry) (e : Entry) (after : List Entry) :
    Prop where
  split : ∃ before, history = before ++ e :: after
  spends : e.spends nut = true
  last : ∀ d ∈ after, d.spends nut = false

/-- Was what was kept at a time forgotten afterwards, as stale? -/
def IsForgotten (ttl time : Number) (after : List Entry) : Prop :=
  ∃ d ∈ after, ∃ p, d.prunedAt? = some p ∧ ttl.lt (p.sub time) = true

/-- May a nut be consumed after a history? It may if it was not consumed before, or if that has been
forgotten. -/
def IsAvailable (ttl : Number) (history : List Entry) (nut : String) : Prop :=
  (∀ e ∈ history, e.spends nut = false) ∨
    ∃ e after, LastUse nut history e after ∧ IsForgotten ttl e.time after

def remember (ttl : Number) (nut : String) (time : Option Number) (e : Entry) : Option Number :=
  if e.spends nut then some e.time
  else
    match e.prunedAt? with
    | some p => time.filter fun t => !ttl.lt (p.sub t)
    | none => time

def remembered (ttl : Number) (nut : String) (history : List Entry) : Option Number :=
  history.foldl (remember ttl nut) none

theorem remembered_append (ttl : Number) (nut : String) (history : List Entry) (e : Entry) :
    remembered ttl nut (history ++ [e]) = remember ttl nut (remembered ttl nut history) e := by
  simp [remembered]

theorem foldl_remember_none {ttl : Number} {nut : String} {history : List Entry}
    (h : ∀ e ∈ history, e.spends nut = false) : history.foldl (remember ttl nut) none = none := by
  induction history with
  | nil => rfl
  | cons e history ih =>
    have hfirst : remember ttl nut none e = none := by
      rw [remember, h e List.mem_cons_self]
      cases e.prunedAt? <;> rfl
    rw [List.foldl_cons, hfirst]
    exact ih fun e he => h e (List.mem_cons_of_mem _ he)

theorem foldl_remember_some {ttl : Number} {nut : String} {after : List Entry} (time : Number)
    (h : ∀ e ∈ after, e.spends nut = false) :
    after.foldl (remember ttl nut) (some time) = none ↔ IsForgotten ttl time after := by
  induction after with
  | nil => simp [IsForgotten]
  | cons e after ih =>
    have hrest : ∀ d ∈ after, d.spends nut = false := fun d hd => h d (List.mem_cons_of_mem e hd)
    have hfirst : remember ttl nut (some time) e =
        (match e.prunedAt? with
          | some p => (some time).filter fun t => !ttl.lt (p.sub t)
          | none => some time) := by
      rw [remember, h e List.mem_cons_self]
      rfl
    have hcons : IsForgotten ttl time (e :: after) ↔
        (∃ p, e.prunedAt? = some p ∧ ttl.lt (p.sub time) = true) ∨ IsForgotten ttl time after := by
      simp [IsForgotten]
    rw [List.foldl_cons, hfirst, hcons]
    cases hpruned : e.prunedAt? with
    | none => simp [ih hrest]
    | some p =>
      by_cases hstale : ttl.lt (p.sub time) = true
      · simp [Option.filter, hstale, foldl_remember_none hrest]
      · simp [Option.filter, hstale, ih hrest]

theorem exists_lastUse {nut : String} {history : List Entry}
    (h : ¬ ∀ e ∈ history, e.spends nut = false) : ∃ e after, LastUse nut history e after := by
  induction history with
  | nil => simp at h
  | cons e history ih =>
    by_cases hrest : ∀ d ∈ history, d.spends nut = false
    · refine ⟨e, history, ⟨[], rfl⟩, ?_, hrest⟩
      by_contra he
      exact h (List.forall_mem_cons.mpr ⟨Bool.eq_false_iff.mpr he, hrest⟩)
    · obtain ⟨d, after, ⟨before, hsplit⟩, hd, hlast⟩ := ih hrest
      exact ⟨d, after, ⟨e :: before, by rw [hsplit, List.cons_append]⟩, hd, hlast⟩

theorem LastUse.remembered_eq_none_iff {ttl : Number} {nut : String} {history after : List Entry}
    {e : Entry} (h : LastUse nut history e after) :
    remembered ttl nut history = none ↔ IsForgotten ttl e.time after := by
  obtain ⟨before, rfl⟩ := h.split
  have huse (time : Option Number) : remember ttl nut time e = some e.time := by
    rw [remember, if_pos h.spends]
  rw [remembered, List.foldl_append, List.foldl_cons, huse]
  exact foldl_remember_some e.time h.last

theorem remembered_eq_none_iff {ttl : Number} {nut : String} {history : List Entry} :
    remembered ttl nut history = none ↔ IsAvailable ttl history nut := by
  by_cases hnever : ∀ e ∈ history, e.spends nut = false
  · exact iff_of_true (foldl_remember_none hnever) (.inl hnever)
  · constructor
    · intro hnone
      obtain ⟨e, after, hlast⟩ := exists_lastUse hnever
      exact .inr ⟨e, after, hlast, hlast.remembered_eq_none_iff.mp hnone⟩
    · intro h
      cases h with
      | inl hnone => exact absurd hnone hnever
      | inr h =>
        obtain ⟨e, after, hlast, hforgotten⟩ := h
        exact hlast.remembered_eq_none_iff.mpr hforgotten

/-- The store remembers a consumed nut just as the history tells. -/
structure Remembers (server : Server) (history : List Entry) (s : State) : Prop where
  ttl : s.sessions.ttl = .int server.settings.sessionTtl
  used : ∀ nut, s.sessions.used[nut]? = remembered (.int server.settings.sessionTtl) nut history

variable {server : Server} {moments : List Moment} {history : List Entry} {s t : State} {e : Entry}

theorem Transition.remembers (hstep : server.Transition s e t) (h : Remembers server history s) :
    Remembers server (history ++ [e]) t := by
  have hstale (now time : Number) : s.sessions.isStale now time =
      (Number.int server.settings.sessionTtl).lt (now.sub time) := by
    rw [Sessions.isStale, h.ttl]
  -- Forgetting what is stale is the only way in which an unused nut changes.
  have hkeep (nut : String) (hspends : e.spends nut = false) {p : Number}
      (hpruned : e.prunedAt? = some p) :
      remember (.int server.settings.sessionTtl) nut (s.sessions.used[nut]?) e =
        s.sessions.used[nut]?.filter fun time => !s.sessions.isStale p time := by
    simp only [remember, hspends, hpruned, Bool.false_eq_true, if_false, hstale]
  suffices hused : t.sessions.ttl = s.sessions.ttl ∧ ∀ nut, t.sessions.used[nut]? =
      remember (.int server.settings.sessionTtl) nut (s.sessions.used[nut]?) e by
    refine ⟨hused.1.trans h.ttl, fun nut => ?_⟩
    rw [hused.2, remembered_append, h.used]
  cases hstep with
  | processed hcall _ _ hunused hprocessed _ hsessions =>
    rw [hsessions]
    refine ⟨Sessions.ttl_serve, fun other => ?_⟩
    rw [Sessions.used_serve h.ttl hunused]
    split
    · next hother =>
      have hspends : e.spends other = true := by
        simp [Entry.spends_of_handle hcall, hother, hprocessed]
      rw [remember, if_pos hspends]
    · next hother =>
      have hspends : e.spends other = false := by
        simp [Entry.spends_of_handle hcall, hother]
      have hpruned : e.prunedAt? = some e.time := by
        simp [Entry.prunedAt?, hcall, hprocessed]
      exact (hkeep other hspends hpruned).symm
  | issued hcall _ hpruned hsessions =>
    rw [hsessions]
    refine ⟨rfl, fun nut => ?_⟩
    rw [Sessions.used_start, Sessions.used_prune,
      hkeep nut (Entry.spends_of_issue hcall nut) hpruned]
  | pruned hcall _ hpruned hsessions =>
    rw [hsessions]
    refine ⟨rfl, fun nut => ?_⟩
    rw [Sessions.used_prune, hkeep nut (Entry.spends_of_prune hcall nut) hpruned]
  | idle hprocessed hpruned hsessions =>
    rw [hsessions]
    refine ⟨rfl, fun nut => ?_⟩
    have hspends : e.spends nut = false := by
      by_contra hspends
      rw [Entry.isProcessed_of_spends (Bool.eq_true_of_not_eq_false hspends)] at hprocessed
      cases hprocessed
    simp only [remember, hspends, hpruned, Bool.false_eq_true, if_false]

theorem IsRun.remembers (hrun : server.IsRun moments history s)
    (hmoments : ∀ m ∈ moments, m.call.IsRecordable) : Remembers server history s := by
  refine (hrun.invariant_of_spec (I := Remembers server) hmoments ?_
    fun _ _ _ _ hspec h => hspec.transition.remembers h).2
  intro first hsessions _
  constructor
  · rw [hsessions, Sessions.empty]
  · intro nut
    rw [hsessions]
    exact Std.ExtTreeMap.getElem?_empty

theorem Remembers.isAvailable_iff (h : Remembers server history s) (nut : String) :
    nut ∉ s.sessions.used ↔ IsAvailable (.int server.settings.sessionTtl) history nut := by
  rw [← remembered_eq_none_iff, ← h.used]
  simp

/-- A request is processed just if it is genuine, its nut is young enough, and the nut is not
remembered as consumed. -/
theorem Transition.isProcessed_iff_unused (hstep : server.Transition s e t) {request : Request}
    {nut : String} {address : Option String} (hcall : e.call = .handle request nut address)
    (htime : e.time.IsReading) :
    e.isProcessed = true ↔
      (∃ presented, server.IsGenuine request nut presented ∧ server.IsFresh e.time presented) ∧
        nut ∉ s.sessions.used := by
  constructor
  · intro hprocessed
    obtain ⟨presented, _, hgenuine, hfresh, hunused, -⟩ := hstep.of_isProcessed hcall hprocessed
    exact ⟨⟨presented, hgenuine, hfresh⟩, hunused⟩
  · intro ⟨⟨presented, hgenuine, hfresh⟩, hunused⟩
    cases hstep with
    | processed _ _ _ _ hprocessed => exact hprocessed
    | issued hcall' => cases hcall.symm.trans hcall'
    | pruned hcall' => cases hcall.symm.trans hcall'
    | idle _ _ _ _ hrefused =>
      exact absurd (hrefused request nut address presented hcall htime hgenuine hfresh) hunused

theorem Transition.isProcessed_iff (hstep : server.Transition s e t)
    (h : Remembers server history s) {request : Request} {nut : String} {address : Option String}
    (hcall : e.call = .handle request nut address) (htime : e.time.IsReading) :
    e.isProcessed = true ↔
      (∃ presented, server.IsGenuine request nut presented ∧ server.IsFresh e.time presented) ∧
        IsAvailable (.int server.settings.sessionTtl) history nut := by
  rw [← h.isAvailable_iff]
  exact hstep.isProcessed_iff_unused hcall htime

/-- A request in a run is answered by what its nut was used for before it. -/
theorem IsRun.isProcessed_iff {before after : List Entry}
    (hrun : server.IsRun moments (before ++ e :: after) s)
    (hmoments : ∀ m ∈ moments, m.call.IsRecordable) {request : Request} {nut : String}
    {address : Option String} (hcall : e.call = .handle request nut address)
    (htime : e.time.IsReading) :
    e.isProcessed = true ↔
      (∃ presented, server.IsGenuine request nut presented ∧ server.IsFresh e.time presented) ∧
        IsAvailable (.int server.settings.sessionTtl) before nut := by
  obtain ⟨earlier, t, u, hbefore, hearlier, hspec⟩ := hrun.split_spec hmoments
  exact hspec.transition.isProcessed_iff (hbefore.remembers hearlier) hcall htime

/-- In every run a request is processed exactly if its nut can be read, its version and its
signature are right, its nut is young enough, and its nut was not consumed before or that has been
forgotten. -/
theorem processed_iff {before after : List Entry}
    (hrun : server.IsRun moments (before ++ e :: after) s)
    (hmoments : ∀ m ∈ moments, m.call.IsRecordable) {request : Request} {nut : String}
    {address : Option String} (hcall : e.call = .handle request nut address)
    (htime : e.time.IsReading) :
    e.isProcessed = true ↔
      (∃ presented, Nut.decode server.key nut = .ok presented ∧
        request.ver = server.settings.version ∧
        Signature.check (some request.signedMessage) request.idk request.ids = .ok () ∧
        e.time.truncate - presented.created ≤ server.settings.nutExpiration) ∧
      IsAvailable (.int server.settings.sessionTtl) before nut := by
  rw [hrun.isProcessed_iff hmoments hcall htime]
  apply and_congr_left
  intro _
  apply exists_congr
  intro presented
  constructor
  · intro ⟨hgenuine, hfresh⟩
    exact ⟨hgenuine.decode, hgenuine.version, hgenuine.signature, hfresh⟩
  · intro ⟨hdecode, hversion, hsignature, hfresh⟩
    exact ⟨⟨hdecode, hversion, hsignature⟩, hfresh⟩

section Sample

/-- The request to log in is processed with every spelling of the nut that is available. -/
theorem spends_sampleLogin {ttl : Nat} (h : 600 ≤ ttl)
    (hrun : (sampleServer ttl h).IsRun moments history s)
    (hmoments : ∀ m ∈ moments, m.call.IsRecordable) {time : Number} (htime : time.IsReading)
    (hyoung : time.truncate ≤ 1600) {nut : String}
    (hsame : Base64.Url.decode sampleNut = Base64.Url.decode nut)
    (havailable : IsAvailable (.int ttl) history nut) :
    ((sampleServer ttl h).step s (sampleLogin time nut)).1.spends nut = true := by
  have hspec := (sampleServer ttl h).step_spec (m := sampleLogin time nut)
    (hrun.isReady hmoments) isRecordable_sampleRequest
  have hcall : ((sampleServer ttl h).step s (sampleLogin time nut)).1.call =
      .handle sampleRequest nut none := rfl
  obtain ⟨presented, hcreated, hgenuine⟩ := isGenuine_sample h hsame
  have hwindow : (sampleServer ttl h).settings.nutExpiration = 600 := rfl
  have hfresh : (sampleServer ttl h).IsFresh time presented := by
    rw [IsFresh, hcreated, hwindow]
    omega
  have hprocessed :=
    (hspec.transition.isProcessed_iff (hrun.remembers hmoments) hcall htime).mpr
      ⟨⟨presented, hgenuine, hfresh⟩, havailable⟩
  simp [Entry.spends_of_handle hcall, hprocessed]

theorem isRun_sampleLogin {ttl : Nat} (h : 600 ≤ ttl)
    (hrun : (sampleServer ttl h).IsRun moments history s)
    (hmoments : ∀ m ∈ moments, m.call.IsRecordable) {time : Number} (htime : time.IsReading)
    (hyoung : time.truncate ≤ 1600) {nut : String}
    (hsame : Base64.Url.decode sampleNut = Base64.Url.decode nut)
    (havailable : IsAvailable (.int ttl) history nut) :
    ∃ login t,
      (sampleServer ttl h).IsRun (moments ++ [sampleLogin time nut]) (history ++ [login]) t ∧
      login.toMoment = sampleLogin time nut ∧ (sampleServer ttl h).StepSpec s login t ∧
        login.spends nut = true :=
  ⟨_, _, hrun.snoc (sampleLogin time nut), rfl,
    (sampleServer ttl h).step_spec (hrun.isReady hmoments) isRecordable_sampleRequest,
    spends_sampleLogin h hrun hmoments htime hyoung hsame havailable⟩

/-- The first request with a nut of the server is processed. -/
theorem processed_iff_first :
    ∃ issued login s, (sampleServer 900 (by decide)).IsRun
      [sampleIssue, sampleLogin (.int 1000) sampleNut] ([issued] ++ login :: []) s ∧
        login.isProcessed = true := by
  have hmoments : ∀ m ∈ [sampleIssue, sampleLogin (.int 1000) sampleNut], m.call.IsRecordable := by
    simp [sampleIssue, sampleLogin, Call.IsRecordable, isRecordable_sampleRequest]
  obtain ⟨issued, t, hbefore, -, -, hunused⟩ := isRun_sampleIssue (by decide : 600 ≤ 900)
  obtain ⟨login, s, -, hrun, hlogin, -⟩ := hbefore.next
    (fun m hm => hmoments m (List.mem_append_left [_] hm)) (sampleLogin (.int 1000) sampleNut)
    isRecordable_sampleRequest
  have htime : login.time = .int 1000 := congrArg Moment.time hlogin
  obtain ⟨presented, hcreated, hgenuine⟩ := isGenuine_sample (by decide : 600 ≤ 900) rfl
  refine ⟨issued, login, s, hrun, (processed_iff hrun hmoments (congrArg Moment.call hlogin)
    (htime ▸ isReading_thousand)).mpr ⟨⟨presented, hgenuine.decode, hgenuine.version,
      hgenuine.signature, ?_⟩, .inl (by simpa using hunused sampleNut)⟩⟩
  rw [hcreated, htime]
  decide

end Sample

end Sqrl.Server
