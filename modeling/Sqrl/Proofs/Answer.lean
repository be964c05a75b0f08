import Sqrl.Proofs.Accounts
import Sqrl.Proofs.NutUse

/-! What the answer to a request tells. The flags of a processed request say exactly how its account
was found and left, and a refusal says that nothing was changed. -/
namespace Sqrl.Server

open Server.Action

variable {server : Server} {moments : List Moment} {history : List Entry} {s t : State} {e : Entry}
  {time : Number} {request : Request} {nut : String} {address : Option String}
  {result : Except Fault Answer}

theorem isProcessed_eq_false_iff {r : Response} :
    r.isProcessed = false ↔ .clientFailure ∈ r.flags ∨ .transientError ∈ r.flags := by
  rw [Response.isProcessed, decide_eq_false_iff_not, not_and_or, not_not, not_not]

theorem Entry.isProcessed_eq (hcall : e.call = .handle request nut address) {r : Response}
    (hresult : e.result = .ok (.response r)) : e.isProcessed = r.isProcessed := by
  simp only [Entry.isProcessed, hcall, hresult]

theorem contains_answerFlags_iff (accounts : Accounts) (request : Request) (presented : Nut)
    (s : State) (address : Option String) (qr : Bool) (f : Flag) :
    (answerFlags accounts request presented (server.nextNut s address qr)).contains f = true ↔
      accounts.Tells request f ∨
        f = .ipMatched ∧ presented.ipHash = Address.fingerprint address := by
  have hsame : presented.sameAddress (server.nextNut s address qr) = true ↔
      presented.ipHash = Address.fingerprint address := by
    rw [Nut.sameAddress, beq_iff_eq]
    rfl
  rw [answerFlags, FlagSet.contains_ofList, decide_eq_true_iff, List.mem_append,
    Accounts.mem_serve, or_comm]
  apply or_congr_right
  by_cases h : presented.sameAddress (server.nextNut s address qr) = true
  · simp [h, hsame.mp h]
  · have hip : presented.ipHash ≠ Address.fingerprint address := fun hip => h (hsame.mpr hip)
    simp [h, hip]

theorem Handled.of_isProcessed (h : server.Handled s time request nut address result t)
    (hprocessed : Entry.isProcessed { time, call := .handle request nut address, result } = true) :
    ∃ presented text qr, server.IsGenuine request nut presented ∧
      result = .ok (.response (server.respond text (answerFlags s.accounts request presented
        (server.nextNut { s with now := time } address qr)))) ∧
      t.accounts = (s.accounts.serve request).2 := by
  cases h with
  | failed _ hresult => simp [Entry.isProcessed, hresult] at hprocessed
  | denied _ _ hresult => simp [Entry.isProcessed, hresult, isProcessed_respond] at hprocessed
  | transient _ _ _ hresult => simp [Entry.isProcessed, hresult, isProcessed_respond] at hprocessed
  | processed _ hgenuine _ _ hresult _ haccounts =>
    exact ⟨_, _, _, hgenuine, hresult, haccounts⟩

/-- The response to a processed request has the bits that its flags tell and no others, and the
account that the request is about is left as its command says. Accounts under other keys stay. -/
theorem processed_exact (hrun : server.IsRun moments history s)
    (hmoments : ∀ m ∈ moments, m.call.IsRecordable) (hrequest : request.IsRecordable)
    (hstep : server.step s ⟨time, .handle request nut address⟩ = (e, t))
    (hprocessed : e.isProcessed = true) :
    ∃ presented r mask, Nut.decode server.key nut = .ok presented ∧
      e.result = .ok (.response r) ∧ r.tif = Int.ofNat mask ∧
      (∀ i, mask.testBit i = true ↔ ∃ f : Flag, f.index = i ∧
        (s.accounts.Tells request f ∨
          f = .ipMatched ∧ presented.ipHash = Address.fingerprint address)) ∧
      (∀ key, t.accounts.find? key = s.accounts.settled? request key) ∧
      ∀ key, key ≠ request.idk → request.pidk ≠ some key →
        t.accounts.find? key = s.accounts.find? key := by
  have hhandled := (server.handled_step (hrun.isReady hmoments) time hrequest nut address).2
  rw [hstep] at hhandled
  have hentry : e = { time, call := .handle request nut address, result := e.result } := by
    have hmoment := server.toMoment_step s ⟨time, .handle request nut address⟩
    rw [hstep] at hmoment
    rw [← hmoment]
  rw [hentry] at hprocessed
  obtain ⟨presented, text, qr, hgenuine, hresult, haccounts⟩ := hhandled.of_isProcessed hprocessed
  have hsettled (key : String) : t.accounts.find? key = s.accounts.settled? request key := by
    rw [haccounts, Accounts.find?_serve]
  refine ⟨presented, _, _, hgenuine.decode, hresult, rfl, ?_, hsettled, ?_⟩
  · intro i
    rw [FlagSet.testBit_mask_iff]
    simp only [contains_answerFlags_iff]
  · intro key hkey hprevious
    rw [hsettled, Accounts.settled?, Accounts.moved?]
    simp [hkey, hprevious]

section Sample

/-- A login with the nut that was issued registers its key. -/
theorem processed_exact_login :
    ∃ s e t r mask, (sampleServer 900 (by decide)).step s (sampleLogin (.int 1000) sampleNut) =
        (e, t) ∧ e.isProcessed = true ∧ e.result = .ok (.response r) ∧ r.tif = Int.ofNat mask ∧
      mask.testBit 0 = true ∧ ∃ account, t.accounts.find? sampleKey = some account := by
  obtain ⟨issued, s, hrun, -, -, hunused⟩ := isRun_sampleIssue (by decide : 600 ≤ 900)
  have hmoments : ∀ m ∈ [sampleIssue], m.call.IsRecordable := by
    simp [sampleIssue, Call.IsRecordable]
  have hspends := spends_sampleLogin (by decide : 600 ≤ 900) hrun hmoments isReading_thousand
    (by decide) rfl (.inl (by simpa using hunused sampleNut))
  have hident : sampleRequest.command = some .ident := by decide
  obtain ⟨presented, r, mask, -, hresult, hmask, hbits, hsettled, -⟩ := processed_exact hrun
    hmoments isRecordable_sampleRequest rfl (Entry.isProcessed_of_spends hspends)
  refine ⟨s, _, _, r, mask, rfl, Entry.isProcessed_of_spends hspends, hresult, hmask,
    (hbits 0).mpr ⟨.idMatch, rfl, .inl (.inr hident)⟩, ?_⟩
  have hkey := hsettled sampleRequest.idk
  simp only [Accounts.settled?, hident, if_true] at hkey
  exact ⟨_, hkey⟩

end Sample

/-- Do two states hold the same accounts, transactions, links and consumed nuts? -/
structure State.SameStores (s t : State) : Prop where
  accounts : t.accounts = s.accounts
  transactions : t.sessions.transactions = s.sessions.transactions
  links : t.sessions.links = s.sessions.links
  used : t.sessions.used = s.sessions.used

theorem State.SameStores.of_eq (hsessions : t.sessions = s.sessions)
    (haccounts : t.accounts = s.accounts) : s.SameStores t := by
  constructor <;> simp [hsessions, haccounts]

theorem tif_of_failure {text : String} {g f : Flag}
    (hmem : f ∈ (server.respond text (.ofList [g])).flags) :
    (server.respond text (.ofList [g])).tif = f.bit := by
  rw [mem_flags_respond, FlagSet.contains_ofList, decide_eq_true_iff, List.mem_singleton] at hmem
  rw [hmem]
  exact congrArg Int.ofNat (FlagSet.mask_singleton g)

/-- A request that is not processed changes no store and is answered with one flag of failure, if
it is answered. One that is processed changes the consumed nuts. -/
theorem Handled.refusal {ttl : Nat} (httl : s.sessions.ttl = .int ttl)
    (h : server.Handled s time request nut address result t) :
    (∀ r f, result = .ok (.response r) → f = .clientFailure ∨ f = .transientError →
      f ∈ r.flags → r.tif = f.bit ∧ s.SameStores t) ∧
    (s.SameStores t → ∀ r, result = .ok (.response r) →
      .clientFailure ∈ r.flags ∨ .transientError ∈ r.flags) := by
  have hsingle {text : String} {g : Flag} (hg : g = .clientFailure ∨ g = .transientError)
      (hresult : result = .ok (.response (server.respond text (.ofList [g]))))
      (hsame : s.SameStores t) :
      (∀ r f, result = .ok (.response r) → f = .clientFailure ∨ f = .transientError →
        f ∈ r.flags → r.tif = f.bit ∧ s.SameStores t) ∧
      (s.SameStores t → ∀ r, result = .ok (.response r) →
        .clientFailure ∈ r.flags ∨ .transientError ∈ r.flags) := by
    refine ⟨fun r f hr _ hmem => ?_, fun _ r hr => ?_⟩
    · cases hresult.symm.trans hr
      exact ⟨tif_of_failure hmem, hsame⟩
    · cases hresult.symm.trans hr
      cases hg with
      | inl hg => simp [mem_flags_respond, hg]
      | inr hg => simp [mem_flags_respond, hg]
  cases h with
  | failed _ hresult => simp [hresult]
  | denied _ _ hresult hsessions haccounts =>
    exact hsingle (.inl rfl) hresult (.of_eq hsessions haccounts)
  | transient _ _ _ hresult hsessions haccounts =>
    exact hsingle (.inr rfl) hresult (.of_eq hsessions haccounts)
  | @processed presented text _ _ _ hunused hresult hsessions haccounts =>
    constructor
    · intro r f hr hf hmem
      cases hresult.symm.trans hr
      rw [mem_flags_respond, contains_answerFlags _ _ _ _ hf] at hmem
      cases hmem
    · -- The nut that was presented was not among the consumed ones, and is now.
      intro hsame
      have hused : s.sessions.used[nut]? = some time := by
        rw [← hsame.used, hsessions, Sessions.used_serve httl hunused, if_pos rfl]
      rw [Std.ExtTreeMap.mem_iff_isSome_getElem?, hused] at hunused
      exact absurd rfl hunused

/-- At every reading that a nut can hold a request is answered. -/
theorem Handled.isAnswered (h : server.Handled s time request nut address result t)
    (htime : time.IsReading) : ∃ r, result = .ok (.response r) := by
  cases h with
  | failed htext =>
    obtain ⟨text, hok⟩ := server.nextText_ok (s := { s with now := time }) htime address
      (server.responseQr nut)
    rw [htext] at hok
    cases hok
  | denied _ _ hresult => exact ⟨_, hresult⟩
  | transient _ _ _ hresult => exact ⟨_, hresult⟩
  | processed _ _ _ _ hresult => exact ⟨_, hresult⟩

/-- Parameters that are no request are answered with a failure of the client, if a nut can hold the
reading. -/
theorem result_handleMalformed (hs : s.IsReady) (time : Number) (nut address : Option String) :
    (server.step s ⟨time, .handleMalformed nut address⟩).1.result =
      match server.nextText { s with now := time } address (server.malformedQr nut) with
      | .error fault => .error (.pack fault)
      | .ok text => .ok (.response (server.respond text (.ofList [.clientFailure]))) := by
  have hready : State.IsReady { s with now := time } := ⟨hs.isUp, hs.isReadable⟩
  cases htext : server.nextText { s with now := time } address (server.malformedQr nut) with
  | error fault =>
    rw [step_of_error server (m := ⟨time, .handleMalformed nut address⟩)
      (outcome_bind_error (server.outcome_handleMalformed_error hready.isUp htext))]
  | ok text =>
    obtain ⟨trail, hhandle, -⟩ := server.outcome_handleMalformed_ok hready htext
    rw [step_of_ok server (m := ⟨time, .handleMalformed nut address⟩) (outcome_bind_ok hhandle)]

theorem Transition.sameStores_of_handleMalformed (hstep : server.Transition s e t)
    {nut : Option String} (hcall : e.call = .handleMalformed nut address) : s.SameStores t := by
  cases hstep with
  | processed hcall' => cases hcall.symm.trans hcall'
  | issued hcall' => cases hcall.symm.trans hcall'
  | pruned hcall' => cases hcall.symm.trans hcall'
  | idle _ _ hsessions haccounts => exact .of_eq hsessions haccounts

def Call.IsRequest (call : Call) : Prop :=
  (∃ request nut address, call = .handle request nut address) ∨
    ∃ nut address, call = .handleMalformed nut address

theorem isRequest_of_response {m : Moment} {r : Response}
    (h : (server.step s m).1.result = .ok (.response r)) : m.call.IsRequest := by
  obtain ⟨time, call⟩ := m
  -- Every other call wraps what it returns in an answer of another kind.
  have hother {α : Type} (action : Action α) (answer : α → Answer) (s : State)
      (hanswer : ∀ a, answer a ≠ .response r) :
      (Action.outcome (do return answer (← action)) s).1 ≠ .ok (.response r) := by
    rw [outcome_bind]
    rcases action.outcome s with ⟨fault | a, after⟩
    · simp
    · simpa using hanswer a
  cases call with
  | handle request nut address => exact .inl ⟨request, nut, address, rfl⟩
  | handleMalformed nut address => exact .inr ⟨nut, address, rfl⟩
  | issue address qr => exact absurd h (hother _ .nut _ (by simp))
  | readIdentity nut => exact absurd h (hother _ .identity _ (by simp))
  | prune reading => exact absurd h (hother _ .count _ (by simp))

/-- A refusal tells of one failure and of nothing else, and changes no store; a request that changes
no store has been refused. Every request is answered at a reading that a nut can hold. -/
theorem refused_iff_sameStores (hrun : server.IsRun moments history s)
    (hmoments : ∀ m ∈ moments, m.call.IsRecordable) {m : Moment} (hm : m.call.IsRecordable)
    (hstep : server.step s m = (e, t)) :
    (∀ r f, e.result = .ok (.response r) → f = .clientFailure ∨ f = .transientError →
      f ∈ r.flags → r.tif = f.bit ∧ s.SameStores t) ∧
    (∀ request nut address, m.call = .handle request nut address → s.SameStores t →
      ∀ r, e.result = .ok (.response r) →
        .clientFailure ∈ r.flags ∨ .transientError ∈ r.flags) ∧
    (m.call.IsRequest → m.time.IsReading → ∃ r, e.result = .ok (.response r)) := by
  have hready := hrun.isReady hmoments
  have htransition := (server.step_spec hready hm).transition
  have hresult : (server.step s m).1.result = e.result := by rw [hstep]
  rw [hstep] at htransition
  by_cases hrequest : m.call.IsRequest
  case neg =>
    refine ⟨fun r f hr => absurd (isRequest_of_response (hresult.trans hr)) hrequest, ?_,
      fun h => absurd h hrequest⟩
    intro request nut address hcall
    exact absurd (.inl ⟨request, nut, address, hcall⟩) hrequest
  obtain ⟨time, call⟩ := m
  rcases hrequest with ⟨request, nut, address, rfl⟩ | ⟨nut, address, rfl⟩
  · have hhandled := (server.handled_step hready time hm nut address).2
    rw [hstep] at hhandled
    obtain ⟨hrefused, hsame⟩ := hhandled.refusal (hrun.remembers hmoments).ttl
    exact ⟨hrefused, fun _ _ _ _ => hsame, fun _ => hhandled.isAnswered⟩
  · have hmoment := server.toMoment_step s ⟨time, .handleMalformed nut address⟩
    rw [hstep] at hmoment
    rw [result_handleMalformed hready] at hresult
    refine ⟨?_, by simp, fun _ htime => ?_⟩
    · intro r f hr _ hmem
      rw [hr] at hresult
      split at hresult
      · cases hresult
      · cases hresult
        exact ⟨tif_of_failure hmem,
          htransition.sameStores_of_handleMalformed (congrArg Moment.call hmoment)⟩
    · obtain ⟨text, htext⟩ := server.nextText_ok (s := { s with now := time }) htime address
        (server.malformedQr nut)
      rw [htext] at hresult
      exact ⟨_, hresult.symm⟩

section Sample

/-- An expired nut is refused with nothing changed. -/
theorem refused_iff_sameStores_expired :
    ∃ s e t r, (sampleServer 900 (by decide)).step s (sampleLogin (.int 2000) sampleNut) = (e, t) ∧
      e.result = .ok (.response r) ∧
      (r.tif = Flag.clientFailure.bit ∨ r.tif = Flag.transientError.bit) ∧ s.SameStores t := by
  obtain ⟨issued, s, hrun, -, -, -⟩ := isRun_sampleIssue (by decide : 600 ≤ 900)
  have hmoments : ∀ m ∈ [sampleIssue], m.call.IsRecordable := by
    simp [sampleIssue, Call.IsRecordable]
  have hreading : Number.IsReading (.int 2000) := by decide +kernel
  obtain ⟨hrefused, -, hanswered⟩ := refused_iff_sameStores hrun hmoments
    (m := sampleLogin (.int 2000) sampleNut) isRecordable_sampleRequest rfl
  obtain ⟨r, hr⟩ := hanswered (.inl ⟨_, _, _, rfl⟩) hreading
  have hspec := (sampleServer 900 (by decide)).step_spec (m := sampleLogin (.int 2000) sampleNut)
    (hrun.isReady hmoments) isRecordable_sampleRequest
  have hflag : .clientFailure ∈ r.flags ∨ .transientError ∈ r.flags := by
    rw [← isProcessed_eq_false_iff, ← Entry.isProcessed_eq rfl hr, Bool.eq_false_iff]
    intro hprocessed
    obtain ⟨presented, -, hgenuine, hfresh, -⟩ := hspec.transition.of_isProcessed rfl hprocessed
    obtain ⟨sample, hcreated, hsample⟩ := isGenuine_sample (by decide : 600 ≤ 900) rfl
    obtain rfl : sample = presented :=
      Except.ok.inj (hsample.decode.symm.trans hgenuine.decode)
    have hage : (2000 : Int) - sample.created ≤ 600 := hfresh
    omega
  cases hflag with
  | inl hmem =>
    obtain ⟨htif, hsame⟩ := hrefused r _ hr (.inl rfl) hmem
    exact ⟨s, _, _, r, rfl, hr, .inl htif, hsame⟩
  | inr hmem =>
    obtain ⟨htif, hsame⟩ := hrefused r _ hr (.inr rfl) hmem
    exact ⟨s, _, _, r, rfl, hr, .inr htif, hsame⟩

end Sample

end Sqrl.Server
