import Sqrl.Proofs.Run
import Sqrl.Proofs.Sessions

/-! What one call does, whichever it is. -/
namespace Sqrl.Server

def Call.IsRecordable : Call → Prop
  | .handle request _ _ => request.IsRecordable
  | _ => True

/-- What a call can do to the stores. -/
inductive Transition (server : Server) (s : State) (e : Entry) (t : State) : Prop
  /-- A genuine request with a fresh nut that is not remembered as consumed is processed. -/
  | processed {request : Request} {nut : String} {address : Option String} {presented : Nut}
      {text : String} (hcall : e.call = .handle request nut address)
      (hgenuine : server.IsGenuine request nut presented)
      (hfresh : server.IsFresh e.time presented) (hunused : nut ∉ s.sessions.used)
      (hprocessed : e.isProcessed = true) (hminted : e.minted? = some text)
      (hsessions : t.sessions = s.sessions.serve request nut text e.time)
      (haccounts : t.accounts = (s.accounts.serve request).2)
  | issued {address : Option String} {qr : Bool} {text : String}
      (hcall : e.call = .issue address qr)
      (hminted : e.minted? = some text) (hpruned : e.prunedAt? = some e.time)
      (hsessions : t.sessions = (s.sessions.prune e.time).2.start text address e.time)
      (haccounts : t.accounts = s.accounts)
  | pruned {time : Option Number} (hcall : e.call = .prune time) (hminted : e.minted? = none)
      (hpruned : e.prunedAt? = some (time.getD e.time))
      (hsessions : t.sessions = (s.sessions.prune (time.getD e.time)).2)
      (haccounts : t.accounts = s.accounts)
  /-- Every other call changes no store. It is no request that could be processed. -/
  | idle (hprocessed : e.isProcessed = false) (hpruned : e.prunedAt? = none)
      (hsessions : t.sessions = s.sessions) (haccounts : t.accounts = s.accounts)
      (hrefused : ∀ request nut address presented, e.call = .handle request nut address →
        e.time.IsReading → server.IsGenuine request nut presented →
          server.IsFresh e.time presented → nut ∈ s.sessions.used)

/-- What a processed request was like, and what it did to the stores. -/
theorem Transition.of_isProcessed {server : Server} {s t : State} {e : Entry}
    (hstep : server.Transition s e t) {request : Request} {nut : String} {address : Option String}
    (hcall : e.call = .handle request nut address) (hprocessed : e.isProcessed = true) :
    ∃ presented text, server.IsGenuine request nut presented ∧ server.IsFresh e.time presented ∧
      nut ∉ s.sessions.used ∧ e.minted? = some text ∧
        t.sessions = s.sessions.serve request nut text e.time ∧
          t.accounts = (s.accounts.serve request).2 := by
  cases hstep with
  | processed hcall' hgenuine hfresh hunused _ hminted hsessions haccounts =>
    obtain ⟨rfl, rfl, rfl⟩ := Call.handle.inj (hcall.symm.trans hcall')
    exact ⟨_, _, hgenuine, hfresh, hunused, hminted, hsessions, haccounts⟩
  | issued hcall' => cases hcall.symm.trans hcall'
  | pruned hcall' => cases hcall.symm.trans hcall'
  | idle hrefused =>
    rw [hprocessed] at hrefused
    cases hrefused

/-- What holds of every call: the next one can be made, a nut that is made holds the second in which
it is made, and the stores change in one of four ways. -/
structure StepSpec (server : Server) (s : State) (e : Entry) (t : State) : Prop where
  isReady : t.IsReady
  created : ∀ text, e.minted? = some text →
    ∃ nut, Nut.decode server.key text = .ok nut ∧ nut.created = e.time.truncate
  transition : server.Transition s e t

open Server.Action

variable (server : Server) {s t : State} {m : Moment}

theorem step_of_ok {answer : Answer}
    (h : (server.perform m.call).outcome { s with now := m.time } = (.ok answer, t)) :
    server.step s m = ({ m with result := .ok answer }, t) := by
  rw [step, h]

theorem step_of_error {fault : Fault}
    (h : (server.perform m.call).outcome { s with now := m.time } = (.error fault, t)) :
    server.step s m = ({ m with result := .error fault }, t) := by
  rw [step, h]

theorem mem_flags_respond (text : String) (flags : FlagSet) (f : Flag) :
    f ∈ (server.respond text flags).flags ↔ flags.contains f = true :=
  Response.mem_flags_build _ _ _ _ flags f

theorem isProcessed_respond (text : String) (flags : FlagSet) :
    (server.respond text flags).isProcessed =
      (!flags.contains .clientFailure && !flags.contains .transientError) := by
  rw [Response.isProcessed, Bool.eq_iff_iff]
  simp [mem_flags_respond]

theorem created_of_nextText {address : Option String} {qr : Bool} {text : String}
    (h : server.nextText s address qr = .ok text) :
    ∃ nut, Nut.decode server.key text = .ok nut ∧ nut.created = s.now.truncate :=
  ⟨_, server.decode_nextText h, rfl⟩

theorem toMoment_step (s : State) (m : Moment) : (server.step s m).1.toMoment = m := rfl

/-- A call that is no request and makes no nut leaves the stores as they were. -/
theorem stepSpec_idle {e : Entry} (hready : t.IsReady)
    (hcall : ∀ request nut address, e.call ≠ .handle request nut address)
    (hminted : e.minted? = none) (hpruned : e.prunedAt? = none) (hsessions : t.sessions = s.sessions)
    (haccounts : t.accounts = s.accounts) : server.StepSpec s e t := by
  have hprocessed : e.isProcessed = false := by
    unfold Entry.isProcessed
    split
    · next h _ => exact absurd h (hcall _ _ _)
    · rfl
  refine ⟨hready, ?_, .idle hprocessed hpruned hsessions haccounts ?_⟩
  · intro text htext
    rw [hminted] at htext
    cases htext
  · intro request nut address presented h
    exact absurd h (hcall request nut address)

theorem step_issue (hs : s.IsReady) (time : Number) (address : Option String) (qr : Bool) :
    server.StepSpec s (server.step s ⟨time, .issue address qr⟩).1
      (server.step s ⟨time, .issue address qr⟩).2 := by
  have hready : State.IsReady { s with now := time } := ⟨hs.isUp, hs.isReadable⟩
  cases htext : server.nextText { s with now := time } address qr with
  | error fault =>
    have hissue := server.outcome_issue_error hready.isUp htext
    rw [step_of_error server (m := ⟨time, .issue address qr⟩) (outcome_bind_error hissue)]
    exact server.stepSpec_idle ⟨hs.isUp, hs.isReadable⟩ (by simp) rfl rfl rfl rfl
  | ok text =>
    obtain ⟨trail, records, hissue, hafter⟩ := server.outcome_issue_ok hready htext
    rw [step_of_ok server (m := ⟨time, .issue address qr⟩) (outcome_bind_ok hissue)]
    exact {
      isReady := hafter
      created := by
        intro _ h
        cases h
        exact server.created_of_nextText htext
      transition := .issued rfl rfl rfl rfl rfl }

theorem step_issue_of_isReading (hs : s.IsReady) {time : Number} (htime : time.IsReading)
    (address : Option String) (qr : Bool) :
    ∃ text t, server.step s ⟨time, .issue address qr⟩ =
        ({ time, call := .issue address qr, result := .ok (.nut text) }, t) ∧
      t.sessions = (s.sessions.prune time).2.start text address time ∧ t.accounts = s.accounts := by
  have hready : State.IsReady { s with now := time } := ⟨hs.isUp, hs.isReadable⟩
  obtain ⟨text, htext⟩ := server.nextText_ok (s := { s with now := time }) htime address qr
  obtain ⟨trail, records, hissue, -⟩ := server.outcome_issue_ok hready htext
  exact ⟨text, _, step_of_ok server (m := ⟨time, .issue address qr⟩) (outcome_bind_ok hissue),
    rfl, rfl⟩

theorem step_handleMalformed (hs : s.IsReady) (time : Number) (nut address : Option String) :
    server.StepSpec s (server.step s ⟨time, .handleMalformed nut address⟩).1
      (server.step s ⟨time, .handleMalformed nut address⟩).2 := by
  have hready : State.IsReady { s with now := time } := ⟨hs.isUp, hs.isReadable⟩
  cases htext : server.nextText { s with now := time } address (server.malformedQr nut) with
  | error fault =>
    have hhandle := server.outcome_handleMalformed_error hready.isUp htext
    rw [step_of_error server (m := ⟨time, .handleMalformed nut address⟩)
      (outcome_bind_error hhandle)]
    exact server.stepSpec_idle ⟨hs.isUp, hs.isReadable⟩ (by simp) rfl rfl rfl rfl
  | ok text =>
    obtain ⟨trail, hhandle, hafter⟩ := server.outcome_handleMalformed_ok hready htext
    rw [step_of_ok server (m := ⟨time, .handleMalformed nut address⟩) (outcome_bind_ok hhandle)]
    exact {
      isReady := hafter
      created := by
        intro _ h
        cases h
        exact server.created_of_nextText htext
      transition := .idle rfl rfl rfl rfl (by simp) }

theorem step_readIdentity (hs : s.IsReady) (time : Number) (nut : String) :
    server.step s ⟨time, .readIdentity nut⟩ =
      ({ time, call := .readIdentity nut, result := .ok (.identity (s.sessions.identity? nut)) },
        { s with now := time }) :=
  step_of_ok server (m := ⟨time, .readIdentity nut⟩)
    (outcome_bind_ok (outcome_readIdentity (s := { s with now := time }) hs.isUp nut))

theorem step_prune (hs : s.IsReady) (now : Number) (time : Option Number) :
    server.step s ⟨now, .prune time⟩ =
      ({ time := now, call := .prune time,
         result := .ok (.count (s.sessions.prune (time.getD now)).1) },
        { s with now, sessions := (s.sessions.prune (time.getD now)).2 }) :=
  step_of_ok server (m := ⟨now, .prune time⟩)
    (outcome_bind_ok (outcome_prune (s := { s with now }) hs.isUp time))

/-- A response with a flag of failure leaves the stores as they were. -/
theorem stepSpec_refused {time : Number} {request : Request} {nut text : String}
    {address : Option String} {qr : Bool} {flags : FlagSet}
    (hflags : flags.contains .clientFailure = true ∨ flags.contains .transientError = true)
    (htext : server.nextText { s with now := time } address qr = .ok text) (hready : t.IsReady)
    (hsessions : t.sessions = s.sessions) (haccounts : t.accounts = s.accounts)
    (hrefused : ∀ presented, server.IsGenuine request nut presented →
      server.IsFresh time presented → nut ∈ s.sessions.used) :
    server.StepSpec s
      { time, call := .handle request nut address,
        result := .ok (.response (server.respond text flags)) } t := by
  have hresponse : (server.respond text flags).isProcessed = false := by
    rw [isProcessed_respond]
    rcases hflags with h | h <;> simp [h]
  refine ⟨hready, ?_, .idle hresponse ?_ hsessions haccounts ?_⟩
  · intro _ h
    cases h
    exact server.created_of_nextText htext
  · simp [Entry.prunedAt?, Entry.isProcessed, hresponse]
  · intro _ _ _ presented h _ hgenuine hfresh
    cases h
    exact hrefused presented hgenuine hfresh

/-- How a request at a reading of the clock is answered, what it does to the stores, and what is
recorded. -/
inductive Handled (server : Server) (s : State) (time : Number) (request : Request) (nut : String)
    (address : Option String) (result : Except Fault Answer) (t : State) : Prop
  /-- No nut can hold the reading. -/
  | failed {fault : Nut.PackFault}
      (htext : server.nextText { s with now := time } address (server.responseQr nut) =
        .error fault)
      (hresult : result = .error (.pack fault))
      (hsessions : t.sessions = s.sessions) (haccounts : t.accounts = s.accounts)
      (htrail : t.trail = s.trail)
  | denied {text : String}
      (htext : server.nextText { s with now := time } address (server.responseQr nut) = .ok text)
      (hfalse : ∀ presented, ¬ server.IsGenuine request nut presented)
      (hresult : result = .ok (.response (server.respond text (.ofList [.clientFailure]))))
      (hsessions : t.sessions = s.sessions) (haccounts : t.accounts = s.accounts)
      (htrail : ∃ reason detail, t.trail =
        server.denial { s with now := time } reason request nut text address detail)
  | transient {presented : Nut} {text : String}
      (htext : server.nextText { s with now := time } address (server.responseQr nut) = .ok text)
      (hgenuine : server.IsGenuine request nut presented)
      (hrefused : server.IsFresh time presented → nut ∈ s.sessions.used)
      (hresult : result = .ok (.response (server.respond text (.ofList [.transientError]))))
      (hsessions : t.sessions = s.sessions) (haccounts : t.accounts = s.accounts)
      (htrail : ∃ reason, (server.IsFresh time presented → reason = .nutReused) ∧
        (¬ server.IsFresh time presented → reason = .nutExpired) ∧
          t.trail = server.acceptance { s with now := time } reason request nut text address
            (.ofList [.transientError]))
  | processed {presented : Nut} {text : String}
      (htext : server.nextText { s with now := time } address (server.responseQr nut) = .ok text)
      (hgenuine : server.IsGenuine request nut presented)
      (hfresh : server.IsFresh time presented) (hunused : nut ∉ s.sessions.used)
      (hresult : result = .ok (.response (server.respond text (answerFlags s.accounts request
        presented (server.nextNut { s with now := time } address presented.qr)))))
      (hsessions : t.sessions = s.sessions.serve request nut text time)
      (haccounts : t.accounts = (s.accounts.serve request).2)
      (htrail : t.trail = server.acceptance { s with now := time } .signatureValid request nut text
        address (answerFlags s.accounts request presented
          (server.nextNut { s with now := time } address presented.qr)))

theorem handled_step (hs : s.IsReady) (time : Number) {request : Request}
    (hrequest : request.IsRecordable) (nut : String) (address : Option String) :
    (server.step s ⟨time, .handle request nut address⟩).2.IsReady ∧
      server.Handled s time request nut address
        (server.step s ⟨time, .handle request nut address⟩).1.result
        (server.step s ⟨time, .handle request nut address⟩).2 := by
  have hready : State.IsReady { s with now := time } := ⟨hs.isUp, hs.isReadable⟩
  cases htext : server.nextText { s with now := time } address (server.responseQr nut) with
  | error fault =>
    obtain ⟨records, hhandle⟩ := server.outcome_handle_error hready.isUp request htext
    rw [step_of_error server (m := ⟨time, .handle request nut address⟩)
      (outcome_bind_error hhandle)]
    exact ⟨⟨hs.isUp, hs.isReadable⟩, .failed htext rfl rfl rfl rfl⟩
  | ok text =>
    by_cases hgenuine : ∃ presented, server.IsGenuine request nut presented
    case neg =>
      rw [not_exists] at hgenuine
      obtain ⟨reason, detail, records, hhandle, hafter⟩ :=
        server.outcome_handle_denied hready hrequest htext hgenuine
      rw [step_of_ok server (m := ⟨time, .handle request nut address⟩) (outcome_bind_ok hhandle)]
      exact ⟨hafter, .denied htext hgenuine rfl rfl rfl ⟨reason, detail, rfl⟩⟩
    obtain ⟨presented, hgenuine⟩ := hgenuine
    by_cases hfresh : server.IsFresh time presented
    case neg =>
      obtain ⟨records, hhandle, hafter⟩ :=
        server.outcome_handle_expired hready hrequest htext hgenuine hfresh
      rw [step_of_ok server (m := ⟨time, .handle request nut address⟩) (outcome_bind_ok hhandle)]
      exact ⟨hafter, .transient htext hgenuine (fun h => absurd h hfresh) rfl rfl rfl
        ⟨.nutExpired, fun h => absurd h hfresh, fun _ => rfl, rfl⟩⟩
    by_cases hused : nut ∈ s.sessions.used
    case pos =>
      obtain ⟨records, hhandle, hafter⟩ :=
        server.outcome_handle_reused hready hrequest htext hgenuine hfresh hused
      rw [step_of_ok server (m := ⟨time, .handle request nut address⟩) (outcome_bind_ok hhandle)]
      exact ⟨hafter, .transient htext hgenuine (fun _ => hused) rfl rfl rfl
        ⟨.nutReused, fun _ => rfl, fun h => absurd hfresh h, rfl⟩⟩
    obtain ⟨records, hhandle, hafter⟩ :=
      server.outcome_handle_processed hready hrequest htext hgenuine hfresh hused
    rw [step_of_ok server (m := ⟨time, .handle request nut address⟩) (outcome_bind_ok hhandle)]
    exact ⟨hafter, .processed htext hgenuine hfresh hused rfl rfl rfl rfl⟩

theorem step_handle (hs : s.IsReady) (time : Number) {request : Request}
    (hrequest : request.IsRecordable) (nut : String) (address : Option String) :
    server.StepSpec s (server.step s ⟨time, .handle request nut address⟩).1
      (server.step s ⟨time, .handle request nut address⟩).2 := by
  obtain ⟨hready, hhandled⟩ := server.handled_step hs time hrequest nut address
  generalize hresult' : (server.step s ⟨time, .handle request nut address⟩).1.result = result
    at hhandled
  have hentry : (server.step s ⟨time, .handle request nut address⟩).1 =
      { time, call := .handle request nut address, result } := by
    rw [← hresult']
    rfl
  rw [hentry]
  cases hhandled with
  | @failed fault htext hresult hsessions haccounts =>
    subst hresult
    refine ⟨hready, by simp [Entry.minted?], .idle rfl rfl hsessions haccounts ?_⟩
    intro _ _ _ _ h hreading
    cases h
    obtain ⟨text, hok⟩ := server.nextText_ok (s := { s with now := time }) hreading address
      (server.responseQr nut)
    rw [htext] at hok
    cases hok
  | denied htext hfalse hresult hsessions haccounts =>
    subst hresult
    exact server.stepSpec_refused (by simp) htext hready hsessions haccounts
      fun presented h => absurd h (hfalse presented)
  | @transient presented text htext hgenuine hrefused hresult hsessions haccounts =>
    subst hresult
    refine server.stepSpec_refused (by simp) htext hready hsessions haccounts
      fun other hother hfresh => hrefused ?_
    obtain rfl := hother.unique hgenuine
    exact hfresh
  | processed htext hgenuine hfresh hunused hresult hsessions haccounts =>
    subst hresult
    refine ⟨hready, ?_, .processed rfl hgenuine hfresh hunused ?_ rfl hsessions haccounts⟩
    · intro _ h
      cases h
      exact server.created_of_nextText htext
    · simp [Entry.isProcessed, isProcessed_respond, contains_answerFlags]

/-- Every call keeps the state ready and changes the stores in one of four ways. -/
theorem step_spec (hs : s.IsReady) (hm : m.call.IsRecordable) :
    server.StepSpec s (server.step s m).1 (server.step s m).2 := by
  obtain ⟨time, call⟩ := m
  cases call with
  | issue address qr => exact server.step_issue hs time address qr
  | handle request nut address => exact server.step_handle hs time hm nut address
  | handleMalformed nut address => exact server.step_handleMalformed hs time nut address
  | readIdentity nut =>
    rw [server.step_readIdentity hs]
    exact server.stepSpec_idle ⟨hs.isUp, hs.isReadable⟩ (by simp) rfl rfl rfl rfl
  | prune reading =>
    rw [server.step_prune hs]
    exact {
      isReady := ⟨hs.isUp, hs.isReadable⟩
      created := by simp [Entry.minted?]
      transition := .pruned rfl rfl rfl rfl rfl }

namespace IsRun

variable {server : Server} {moments : List Moment} {history : List Entry}

/-- What every call keeps, as far as its effect tells, a run keeps. -/
theorem invariant_of_spec {I : List Entry → State → Prop} (hrun : server.IsRun moments history s)
    (hmoments : ∀ m ∈ moments, m.call.IsRecordable)
    (hfirst : ∀ first : State, first.sessions = .empty (.int server.settings.sessionTtl) →
      first.accounts = ∅ → I [] first)
    (hstep : ∀ past s e t, server.StepSpec s e t → I past s → I (past ++ [e]) t) :
    s.IsReady ∧ I history s := by
  refine hrun.invariant (I := fun history s => s.IsReady ∧ I history s) ?_ ?_ hmoments
  · intro first _ hready hsessions haccounts
    exact ⟨hready, hfirst first hsessions haccounts⟩
  · intro past s m hm ⟨hready, h⟩
    have hspec := server.step_spec hready hm
    exact ⟨hspec.isReady, hstep past s _ _ hspec h⟩

/-- The same where a call keeps it only because it is made after a run. -/
theorem induction {I : List Entry → State → Prop} (hrun : server.IsRun moments history s)
    (hmoments : ∀ m ∈ moments, m.call.IsRecordable)
    (hfirst : ∀ first : State, first.sessions = .empty (.int server.settings.sessionTtl) →
      first.accounts = ∅ → I [] first)
    (hstep : ∀ moments past s e t, server.IsRun moments past s →
      (∀ m ∈ moments, m.call.IsRecordable) → server.StepSpec s e t → I past s →
        I (past ++ [e]) t) : I history s := by
  have hall : s.IsReady ∧ (∃ moments, server.IsRun moments history s ∧
      ∀ m ∈ moments, m.call.IsRecordable) ∧ I history s := by
    refine hrun.invariant (I := fun history s => s.IsReady ∧ (∃ moments,
      server.IsRun moments history s ∧ ∀ m ∈ moments, m.call.IsRecordable) ∧ I history s)
      ?_ ?_ hmoments
    · intro first hnone hready hsessions haccounts
      exact ⟨hready, ⟨[], hnone, by simp⟩, hfirst first hsessions haccounts⟩
    · intro past s m hm ⟨hready, ⟨moments, hpast, hbefore⟩, h⟩
      have hspec := server.step_spec hready hm
      refine ⟨hspec.isReady, ⟨moments ++ [m], hpast.snoc m, ?_⟩,
        hstep moments past s _ _ hpast hbefore hspec h⟩
      intro m' hm'
      cases List.mem_append.mp hm' with
      | inl hm' => exact hbefore m' hm'
      | inr hm' => exact List.mem_singleton.mp hm' ▸ hm
  exact hall.2.2

theorem isReady (hrun : server.IsRun moments history s)
    (hmoments : ∀ m ∈ moments, m.call.IsRecordable) : s.IsReady :=
  (hrun.invariant_of_spec (I := fun _ _ => True) hmoments (fun _ _ _ => trivial)
    fun _ _ _ _ _ _ => trivial).1

theorem next (hrun : server.IsRun moments history s)
    (hmoments : ∀ m ∈ moments, m.call.IsRecordable) (m : Moment) (hm : m.call.IsRecordable) :
    ∃ e t, server.step s m = (e, t) ∧ server.IsRun (moments ++ [m]) (history ++ [e]) t ∧
      e.toMoment = m ∧ server.StepSpec s e t :=
  ⟨_, _, rfl, hrun.snoc m, server.toMoment_step s m, server.step_spec (hrun.isReady hmoments) hm⟩

/-- Every call of a run has its effect on the state after the run up to it. -/
theorem split_spec {before after : List Entry} {e : Entry}
    (hrun : server.IsRun moments (before ++ e :: after) s)
    (hmoments : ∀ m ∈ moments, m.call.IsRecordable) :
    ∃ earlier t u, server.IsRun earlier before t ∧ (∀ m ∈ earlier, m.call.IsRecordable) ∧
      server.StepSpec t e u := by
  have hall (d : Entry) (hd : d ∈ before ++ e :: after) : d.call.IsRecordable :=
    hmoments d.toMoment (hrun.map_toMoment ▸ List.mem_map_of_mem hd)
  obtain ⟨t, hbefore, hstep⟩ := hrun.split
  have hearlier : ∀ m ∈ before.map Entry.toMoment, m.call.IsRecordable := by
    intro m hm
    obtain ⟨d, hd, rfl⟩ := List.mem_map.mp hm
    exact hall d (List.mem_append_left _ hd)
  have hspec := server.step_spec (m := e.toMoment) (hbefore.isReady hearlier) (hall e (by simp))
  rw [hstep] at hspec
  exact ⟨_, t, _, hbefore, hearlier, hspec⟩

/-- A nut that is made in a run holds the second in which it is made. -/
theorem created (hrun : server.IsRun moments history s)
    (hmoments : ∀ m ∈ moments, m.call.IsRecordable) {e : Entry} (he : e ∈ history) {text : String}
    (hminted : e.minted? = some text) :
    ∃ nut, Nut.decode server.key text = .ok nut ∧ nut.created = e.time.truncate := by
  have hall : ∀ e ∈ history, ∀ text, e.minted? = some text →
      ∃ nut, Nut.decode server.key text = .ok nut ∧ nut.created = e.time.truncate := by
    refine (hrun.invariant_of_spec (I := fun history _ => ∀ e ∈ history, ∀ text,
      e.minted? = some text → ∃ nut, Nut.decode server.key text = .ok nut ∧
        nut.created = e.time.truncate) hmoments (fun _ _ _ => by simp) ?_).2
    intro past s e t hspec hpast d hd
    rcases List.mem_append.mp hd with hd | hd
    · exact hpast d hd
    · rw [List.mem_singleton.mp hd]
      exact hspec.created
  exact hall e he text hminted

end IsRun

section Sample

def sampleIssue : Moment := ⟨.int 1000, .issue none true⟩

def sampleNut : String :=
  ((sampleServer 600 le_rfl).nextText (sampleFirst 600) none true).toOption.getD ""

def sampleLogin (time : Number) (nut : String) : Moment := ⟨time, .handle sampleRequest nut none⟩

theorem isReading_thousand : Number.IsReading (.int 1000) := by decide +kernel

variable {ttl : Nat} (h : 600 ≤ ttl)

theorem nextText_sample :
    (sampleServer ttl h).nextText (sampleFirst ttl) none true = .ok sampleNut := by
  obtain ⟨text, htext⟩ := (sampleServer 600 le_rfl).nextText_ok (s := sampleFirst 600)
    isReading_thousand none true
  have hnut : sampleNut = text := by rw [sampleNut, htext]; rfl
  rw [hnut]
  exact htext

theorem minted?_sampleIssue :
    ((sampleServer ttl h).step (sampleFirst ttl) sampleIssue).1.minted? = some sampleNut := by
  have hready := isReady_sampleFirst ttl
  obtain ⟨trail, records, hissue, -⟩ := (sampleServer ttl h).outcome_issue_ok
    (s := { sampleFirst ttl with now := .int 1000 }) hready (nextText_sample h)
  rw [step_of_ok (sampleServer ttl h) (s := sampleFirst ttl) (m := sampleIssue)
    (outcome_bind_ok hissue)]
  rfl

theorem isRun_sampleIssue :
    ∃ issued s, (sampleServer ttl h).IsRun [sampleIssue] [issued] s ∧
      issued.toMoment = sampleIssue ∧ issued.minted? = some sampleNut ∧
        ∀ nut, issued.spends nut = false :=
  ⟨_, _, (isRun_sample h).snoc sampleIssue, rfl, minted?_sampleIssue h, Entry.spends_of_issue rfl⟩

/-- The request is genuine with every spelling of the nut, and the nut is young for ten minutes. -/
theorem isGenuine_sample {nut : String}
    (hsame : Base64.Url.decode sampleNut = Base64.Url.decode nut) :
    ∃ presented, presented.created = 1000 ∧
      (sampleServer ttl h).IsGenuine sampleRequest nut presented := by
  obtain ⟨presented, hdecode, hcreated⟩ :=
    (sampleServer ttl h).created_of_nextText (nextText_sample h)
  exact ⟨presented, hcreated, Nut.decode_congr _ hsame ▸ hdecode, rfl, check_sampleRequest⟩

end Sample

end Sqrl.Server
