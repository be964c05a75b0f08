import Sqrl.Proofs.AuditEvent
import Sqrl.Proofs.NutUse
import Sqrl.Proofs.Signature

/-! The audit trail of a run. Every issue and every request that is answered is recorded by one event,
which tells what was answered; nothing else is recorded. -/
namespace Sqrl

/-- The decision that a response tells by its bitmask. -/
def Response.decision (r : Response) : Server.Decision :=
  if r.tif = Flag.clientFailure.bit then .denied
  else if r.tif = Flag.transientError.bit then .transient
  else .processed

namespace Server

open Audit Server.Action

/-- Is it one of the calls that are recorded: an issue or a request? -/
def Call.isAudited : Call → Bool
  | .issue _ _ | .handle _ _ _ | .handleMalformed _ _ => true
  | .readIdentity _ | .prune _ => false

def Entry.isRecorded (e : Entry) : Bool := e.call.isAudited && e.result.toBool

structure TellsIssue (text : String) (event : Event) : Prop where
  result : field? event "result" = some (.text "issued")
  reason : field? event "reason" = some (.text "nut_issued")
  nut : field? event "nut" = some (.text text)

structure TellsResponse (nut : Option String) (r : Response) (event : Event) : Prop where
  presented : field? event "nut" = nut.bind filled
  responseNut : ∃ text, r.nut = some text ∧ field? event "response_nut" = some (.text text)
  result : field? event "result" = some (.text r.decision.word)

/-- An event tells what a request with a good signature asked for, and why it was answered as it
was. -/
structure TellsRequest (server : Server) (time : Number) (request : Request) (nut : String)
    (r : Response) (event : Event) : Prop extends TellsResponse nut r event where
  request : r.decision ≠ .denied → field? event "tif" = some (.int r.tif) ∧
    field? event "idk" = some (.text request.idk) ∧
      field? event "cmd" = filled (shortened 32 request.cmd)
  transient : r.decision = .transient → ∃ presented, Nut.decode server.key nut = .ok presented ∧
    (¬ server.IsFresh time presented → field? event "reason" = some (.text "nut_expired")) ∧
      (server.IsFresh time presented → field? event "reason" = some (.text "nut_reused"))
  processed : r.decision = .processed → field? event "reason" = some (.text "signature_valid")

inductive Tells (server : Server) : Entry → Event → Prop
  | issue {time : Number} {address : Option String} {qr : Bool} {text : String} {event : Event}
      (h : TellsIssue text event) :
      Tells server ⟨⟨time, .issue address qr⟩, .ok (.nut text)⟩ event
  | handle {time : Number} {request : Request} {nut : String} {address : Option String}
      {r : Response} {event : Event} (h : server.TellsRequest time request nut r event) :
      Tells server ⟨⟨time, .handle request nut address⟩, .ok (.response r)⟩ event
  | handleMalformed {time : Number} {nut address : Option String} {r : Response} {event : Event}
      (h : TellsResponse nut r event) (hdenied : r.decision = .denied) :
      Tells server ⟨⟨time, .handleMalformed nut address⟩, .ok (.response r)⟩ event

def tellingFields : List String :=
  ["nut", "response_nut", "result", "reason", "tif", "idk", "cmd"]

variable {server : Server} {s t : State} {e : Entry} {m : Moment} {event other : Event}
  {time : Number} {request : Request} {nut text : String} {address : Option String} {qr : Bool}
  {r : Response}

section

variable (hsame : ∀ name ∈ tellingFields, field? other name = field? event name)
include hsame

theorem TellsIssue.congr (h : TellsIssue text event) : TellsIssue text other where
  result := (hsame _ (by decide)).trans h.result
  reason := (hsame _ (by decide)).trans h.reason
  nut := (hsame _ (by decide)).trans h.nut

theorem TellsResponse.congr {nut : Option String} (h : TellsResponse nut r event) :
    TellsResponse nut r other where
  presented := (hsame _ (by decide)).trans h.presented
  responseNut := by
    rw [hsame _ (by decide)]
    exact h.responseNut
  result := (hsame _ (by decide)).trans h.result

theorem TellsRequest.congr (h : server.TellsRequest time request nut r event) :
    server.TellsRequest time request nut r other where
  toTellsResponse := h.toTellsResponse.congr hsame
  request := by
    rw [hsame "tif" (by decide), hsame "idk" (by decide), hsame "cmd" (by decide)]
    exact h.request
  transient := by
    rw [hsame "reason" (by decide)]
    exact h.transient
  processed := by
    rw [hsame "reason" (by decide)]
    exact h.processed

/-- Only the fields that tell of a call matter. -/
theorem Tells.congr (h : server.Tells e event) : server.Tells e other := by
  cases h with
  | issue h => exact .issue (h.congr hsame)
  | handle h => exact .handle (h.congr hsame)
  | handleMalformed h hdenied => exact .handleMalformed (h.congr hsame) hdenied

end

/-! What each event tells. -/

theorem tellsIssue (server : Server) (time : Number) (text : String) (address : Option String)
    (qr : Bool) :
    TellsIssue text (server.event time .issued .nutIssued
      [("nut", .text text), ("request_ip", .optional address), ("qr", .bool qr)]) where
  result := server.field?_event_decision.1
  reason := server.field?_event_decision.2
  nut := by
    rw [server.field?_event_of_not_mem (by decide)]
    simp

theorem nextText_ne_empty (h : server.nextText s address qr = .ok text) : text ≠ "" := by
  rintro rfl
  have hdecode := server.decode_nextText h
  have hbytes : Base64.Url.decode "" = .ok [] := by decide
  simp [Nut.decode, hbytes, Nut.nonceLength] at hdecode

theorem tif_respond_ne {flags : FlagSet} {f : Flag} (h : flags.contains f = false) :
    (server.respond text flags).tif ≠ f.bit := by
  intro htif
  have hmask : flags.mask = f.bit := Int.ofNat.inj htif
  rw [← flags.testBit_mask, hmask, Flag.testBit_bit, decide_eq_true rfl] at h
  cases h

theorem tif_respond_singleton (f : Flag) : (server.respond text (.ofList [f])).tif = f.bit :=
  congrArg Int.ofNat (FlagSet.mask_singleton f)

theorem decision_respond_denied :
    (server.respond text (.ofList [.clientFailure])).decision = .denied :=
  if_pos (tif_respond_singleton _)

theorem decision_respond_transient :
    (server.respond text (.ofList [.transientError])).decision = .transient := by
  rw [Response.decision, if_neg (tif_respond_ne (by decide)), if_pos (tif_respond_singleton _)]

theorem decision_respond_processed {flags : FlagSet} (h : flags.contains .clientFailure = false)
    (h' : flags.contains .transientError = false) :
    (server.respond text flags).decision = .processed := by
  rw [Response.decision, if_neg (tif_respond_ne h), if_neg (tif_respond_ne h')]

theorem tellsResponse {fields : List (String × Json)} {nut : Option String} {flags : FlagSet}
    {decision : Decision} (reason : Reason) (htext : text ≠ "")
    (hnut : last? fields "nut" = nut.bind filled)
    (hresponse : last? fields "response_nut" = filled text)
    (hdecision : (server.respond text flags).decision = decision) :
    TellsResponse nut (server.respond text flags) (server.event time decision reason fields) where
  presented := by rw [server.field?_event_of_not_mem (by decide), hnut]
  responseNut := by
    refine ⟨text, rfl, ?_⟩
    rw [server.field?_event_of_not_mem (by decide), hresponse, filled, if_neg htext]
  result := by rw [server.field?_event_decision.1, hdecision]

theorem tellsResponse_rejection (nut address : Option String) (htext : text ≠ "") :
    TellsResponse nut (server.respond text (.ofList [.clientFailure]))
      (server.event time .denied .malformedRequest
        (Audit.Common.fields time { nut := nut, responseNut := text, address := address })) := by
  obtain ⟨hnut, hresponse, -⟩ :=
    Common.last?_fields { nut := nut, responseNut := text, address := address } time
  exact tellsResponse _ htext hnut hresponse decision_respond_denied

theorem last?_common (request : Request) (nut text : String) (address : Option String)
    (time : Number) :
    last? ((common request nut text address).fields time) "nut" = filled nut ∧
      last? ((common request nut text address).fields time) "response_nut" = filled text ∧
      last? ((common request nut text address).fields time) "idk" = filled request.idk ∧
      last? ((common request nut text address).fields time) "cmd" =
        filled (shortened 32 request.cmd) :=
  (common request nut text address).last?_fields time

theorem tellsRequest_denial (reason : Reason) (request : Request) (nut : String)
    (address detail : Option String) (htext : text ≠ "") :
    server.TellsRequest time request nut (server.respond text (.ofList [.clientFailure]))
      (server.event time .denied reason
        (("client_ver", .text (shortened versionLength request.ver)) ::
          ((common request nut text address).fields time ++
            given "detail" (detail.map (shortened detailLength))))) := by
  obtain ⟨hnut, hresponse, -⟩ := last?_common request nut text address time
  have hdenied : (server.respond text (.ofList [.clientFailure])).decision = .denied :=
    decision_respond_denied
  refine ⟨tellsResponse _ htext (by simp [hnut]) (by simp [hresponse]) hdenied,
    fun h => absurd hdenied h, ?_, ?_⟩
  · rw [hdenied]
    rintro ⟨⟩
  · rw [hdenied]
    rintro ⟨⟩

/-- What is recorded of a genuine request tells how it was answered, as long as the reason fits. -/
theorem tellsRequest_acceptance {flags : FlagSet} {decision : Decision} {reason : Reason}
    (hidk : request.idk ≠ "") (htext : text ≠ "")
    (hdecision : (server.respond text flags).decision = decision)
    (htransient : decision = .transient → ∃ presented, Nut.decode server.key nut = .ok presented ∧
      (¬ server.IsFresh time presented → reason = .nutExpired) ∧
        (server.IsFresh time presented → reason = .nutReused))
    (hprocessed : decision = .processed → reason = .signatureValid) (address : Option String) :
    server.TellsRequest time request nut (server.respond text flags)
      (server.event time decision reason ((common request nut text address).fields time ++
        [("tif", .int (server.respond text flags).tif)])) := by
  obtain ⟨hnut, hresponse, hkey, hcommand⟩ := last?_common request nut text address time
  refine ⟨tellsResponse _ htext (by simp [hnut]) (by simp [hresponse]) hdecision, fun _ => ?_, ?_,
    ?_⟩
  · refine ⟨?_, ?_, ?_⟩ <;> rw [server.field?_event_of_not_mem (by decide)]
    · simp
    · simp [hkey, filled, hidk]
    · simp [hcommand]
  · rw [hdecision, server.field?_event_decision.2]
    intro h
    obtain ⟨presented, hdecode, hexpired, hreused⟩ := htransient h
    refine ⟨presented, hdecode, fun hold => ?_, fun hfresh => ?_⟩
    · rw [hexpired hold, Reason.word]
    · rw [hreused hfresh, Reason.word]
  · rw [hdecision, server.field?_event_decision.2]
    intro h
    rw [hprocessed h, Reason.word]

theorem acceptance_of_contains {flags : FlagSet} {reason : Reason} {transient : Bool}
    (h : flags.contains .transientError = transient) :
    server.acceptance s reason request nut text address flags =
      s.trail.map fun trail => (trail.append (server.event s.now
        (if transient then .transient else .processed) reason
        ((common request nut text address).fields s.now ++
          [("tif", .int (server.respond text flags).tif)]))).2 := by
  rw [acceptance, h, recorded]

/-- What a call does to the trail: the event that tells of it is appended, or it is no call that is
recorded, or no nut can hold the reading of the clock and the call fails. -/
inductive Recording (server : Server) (s : State) (e : Entry) (t : State) : Prop
  | event {event : Event} (hplain : Json.ArePlain event) (hrecorded : e.isRecorded = true)
      (hheld : 0 ≤ e.time.truncate ∧ e.time.truncate < 2 ^ 32) (htells : server.Tells e event)
      (htrail : t.trail = s.trail.map fun trail => (trail.append event).2)
  | silent (hsilent : e.isRecorded = false)
      (hreading : e.time.IsReading → e.call.isAudited = false)
      (hfails : e.call.isAudited = true → ∃ fault, e.result = .error (.pack fault))
      (htrail : t.trail = s.trail)

theorem not_isReading_of_nextText {fault : Nut.PackFault}
    (h : server.nextText { s with now := time } address qr = .error fault) : ¬ time.IsReading := by
  intro htime
  obtain ⟨text, htext⟩ := server.nextText_ok (s := { s with now := time }) htime address qr
  cases h.symm.trans htext

theorem recording_issue (hs : s.IsReady) (time : Number) (address : Option String) (qr : Bool) :
    server.Recording s (server.step s ⟨time, .issue address qr⟩).1
      (server.step s ⟨time, .issue address qr⟩).2 := by
  have hready : State.IsReady { s with now := time } := ⟨hs.isUp, hs.isReadable⟩
  cases htext : server.nextText { s with now := time } address qr with
  | error fault =>
    have hissue := server.outcome_issue_error hready.isUp htext
    rw [step_of_error server (m := ⟨time, .issue address qr⟩) (outcome_bind_error hissue)]
    exact .silent rfl (fun htime => absurd htime (not_isReading_of_nextText htext))
      (fun _ => ⟨fault, rfl⟩) rfl
  | ok text =>
    obtain ⟨records, hissue, -⟩ := server.outcome_issue hready htext
    have hbounds := server.truncate_of_nextText htext
    rw [step_of_ok server (m := ⟨time, .issue address qr⟩) (outcome_bind_ok hissue)]
    exact .event (server.arePlain_event hbounds.1 hbounds.2 _ _ (isPlain_issuance text address qr))
      rfl hbounds (.issue (tellsIssue server time text address qr)) rfl

theorem recording_handleMalformed (hs : s.IsReady) (time : Number) (nut address : Option String) :
    server.Recording s (server.step s ⟨time, .handleMalformed nut address⟩).1
      (server.step s ⟨time, .handleMalformed nut address⟩).2 := by
  have hready : State.IsReady { s with now := time } := ⟨hs.isUp, hs.isReadable⟩
  cases htext : server.nextText { s with now := time } address (server.malformedQr nut) with
  | error fault =>
    have hhandle := server.outcome_handleMalformed_error hready.isUp htext
    rw [step_of_error server (m := ⟨time, .handleMalformed nut address⟩)
      (outcome_bind_error hhandle)]
    exact .silent rfl (fun htime => absurd htime (not_isReading_of_nextText htext))
      (fun _ => ⟨fault, rfl⟩) rfl
  | ok text =>
    obtain ⟨hhandle, -⟩ := server.outcome_handleMalformed hready htext
    have hbounds := server.truncate_of_nextText htext
    rw [step_of_ok server (m := ⟨time, .handleMalformed nut address⟩) (outcome_bind_ok hhandle)]
    exact .event (server.arePlain_event hbounds.1 hbounds.2 _ _
      (isPlain_rejection hbounds.1 hbounds.2 nut text address)) rfl hbounds
      (.handleMalformed (tellsResponse_rejection nut address (nextText_ne_empty htext))
        decision_respond_denied) rfl

theorem recording_handle (hs : s.IsReady) (time : Number) (hrequest : request.IsRecordable)
    (nut : String) (address : Option String) :
    server.Recording s (server.step s ⟨time, .handle request nut address⟩).1
      (server.step s ⟨time, .handle request nut address⟩).2 := by
  obtain ⟨-, hhandled⟩ := server.handled_step hs time hrequest nut address
  generalize hresult' : (server.step s ⟨time, .handle request nut address⟩).1.result = result
    at hhandled
  have hentry : (server.step s ⟨time, .handle request nut address⟩).1 =
      ⟨⟨time, .handle request nut address⟩, result⟩ := by
    rw [← hresult']
    rfl
  rw [hentry]
  cases hhandled with
  | failed htext hresult _ _ htrail =>
    subst hresult
    exact .silent rfl (fun htime => absurd htime (not_isReading_of_nextText htext))
      (fun _ => ⟨_, rfl⟩) htrail
  | denied htext _ hresult _ _ htrail =>
    subst hresult
    obtain ⟨reason, detail, htrail⟩ := htrail
    have hbounds := server.truncate_of_nextText htext
    exact .event (server.arePlain_event hbounds.1 hbounds.2 _ _
      (isPlain_denial hbounds.1 hbounds.2 hrequest _ _ _ _)) rfl hbounds
      (.handle (tellsRequest_denial reason request nut address detail (nextText_ne_empty htext)))
      htrail
  | @transient presented text htext hgenuine _ hresult _ _ htrail =>
    subst hresult
    obtain ⟨reason, hreused, hexpired, htrail⟩ := htrail
    have hbounds := server.truncate_of_nextText htext
    have hflag : (FlagSet.ofList [.transientError]).contains .transientError = true := by simp
    rw [acceptance_of_contains hflag, if_pos rfl] at htrail
    exact .event (server.arePlain_event hbounds.1 hbounds.2 _ _
      (server.isPlain_acceptance hbounds.1 hbounds.2 hrequest _ _ _ _)) rfl hbounds
      (.handle (tellsRequest_acceptance (Signature.ne_empty_of_check hgenuine.signature)
        (nextText_ne_empty htext) decision_respond_transient
        (fun _ => ⟨presented, hgenuine.decode, hexpired, hreused⟩) (by rintro ⟨⟩) address)) htrail
  | processed htext hgenuine _ _ hresult _ _ htrail =>
    subst hresult
    have hbounds := server.truncate_of_nextText htext
    rw [acceptance_of_contains (contains_answerFlags _ _ _ _ (.inr rfl)),
      if_neg Bool.false_ne_true] at htrail
    exact .event (server.arePlain_event hbounds.1 hbounds.2 _ _
      (server.isPlain_acceptance hbounds.1 hbounds.2 hrequest _ _ _ _)) rfl hbounds
      (.handle (tellsRequest_acceptance (Signature.ne_empty_of_check hgenuine.signature)
        (nextText_ne_empty htext)
        (decision_respond_processed (contains_answerFlags _ _ _ _ (.inl rfl))
          (contains_answerFlags _ _ _ _ (.inr rfl)))
        (by rintro ⟨⟩) (fun _ => rfl) address)) htrail

theorem recording_step (hs : s.IsReady) (hm : m.call.IsRecordable) :
    server.Recording s (server.step s m).1 (server.step s m).2 := by
  obtain ⟨time, call⟩ := m
  cases call with
  | issue address qr => exact recording_issue hs time address qr
  | handle request nut address => exact recording_handle hs time hm nut address
  | handleMalformed nut address => exact recording_handleMalformed hs time nut address
  | readIdentity nut =>
    rw [server.step_readIdentity hs]
    exact .silent rfl (fun _ => rfl) (by rintro ⟨⟩) rfl
  | prune reading =>
    rw [server.step_prune hs]
    exact .silent rfl (fun _ => rfl) (by rintro ⟨⟩) rfl

/-- A call that is recorded fails at a reading of the clock that no nut can hold, and is not. -/
theorem pack_fault_step (hs : s.IsReady) (hm : m.call.IsRecordable)
    (haudited : m.call.isAudited = true)
    (htime : ¬ (0 ≤ m.time.truncate ∧ m.time.truncate < 2 ^ 32)) :
    ∃ fault, (server.step s m).1.result = .error (.pack fault) ∧
      (server.step s m).2.trail = s.trail := by
  cases recording_step hs hm with
  | event hplain hrecorded hheld htells htrail => exact absurd hheld htime
  | silent hsilent hreading hfails htrail =>
    obtain ⟨fault, hresult⟩ := hfails haudited
    exact ⟨fault, hresult, htrail⟩

/-- A trail holds one event for each recorded call of a history, in their order, and no other. Its
head is that of the last one. -/
structure Mirrors (server : Server) (history : List Entry) (trail : Trail)
    (appended : List (Event × String)) : Prop where
  written : trail.IsWritten Json.maxDepth appended
  head : trail.head = .ok (headAfter genesis appended)
  tells : List.Forall₂ server.Tells (history.filter Entry.isRecorded)
    ((links genesis appended).map Json.sortedMembers)
  answered : ∀ e ∈ history, e.time.IsReading → e.call.isAudited = true → e.isRecorded = true

variable {moments : List Moment} {past history : List Entry} {trail : Trail}
  {appended : List (Event × String)}

theorem mirrors_nil : server.Mirrors [] .empty [] where
  written := ⟨trivial, by simp, rfl⟩
  head := rfl
  tells := .nil
  answered := by simp

theorem Mirrors.skip (h : server.Mirrors past trail appended) (hsilent : e.isRecorded = false)
    (hreading : e.time.IsReading → e.call.isAudited = false) :
    server.Mirrors (past ++ [e]) trail appended where
  written := h.written
  head := h.head
  tells := by
    rw [List.filter_append, List.filter_cons_of_neg (by simp [hsilent]), List.filter_nil,
      List.append_nil]
    exact h.tells
  answered := by
    refine List.forall_mem_append.mpr ⟨h.answered, List.forall_mem_singleton.mpr fun htime h => ?_⟩
    rw [hreading htime] at h
    cases h

theorem Mirrors.record (h : server.Mirrors past trail appended) (hplain : Json.ArePlain event)
    (hrecorded : e.isRecorded = true) (htells : server.Tells e event) :
    ∃ hash, server.Mirrors (past ++ [e]) (trail.append event).2 (appended ++ [(event, hash)]) := by
  have hdepth : (Json.object (bare event)).nesting ≤ Json.maxDepth :=
    nesting_bare_le (hplain.nesting_le.trans (by decide))
  obtain ⟨hash, hhead, hwritten⟩ := h.written.append h.head hplain.isData hdepth
  have hread : server.Tells e
      (Json.sortedMembers (chained (headAfter genesis appended) hash event)) := by
    refine htells.congr fun name hname => field?_read _ _ hplain ?_ ?_
    · rintro rfl
      exact absurd hname (by decide)
    · rintro rfl
      exact absurd hname (by decide)
  refine ⟨hash, hwritten, ?_, ?_, ?_⟩
  · rw [headAfter_append]
    exact hhead
  · rw [List.filter_append, List.filter_cons_of_pos hrecorded, List.filter_nil, links_append,
      List.map_append]
    exact List.rel_append h.tells (.cons hread .nil)
  · exact List.forall_mem_append.mpr
      ⟨h.answered, List.forall_mem_singleton.mpr fun _ _ => hrecorded⟩

theorem IsRun.trail_first (h : server.IsRun [] [] s) (haudit : server.settings.auditEnabled = true) :
    s.trail = some .empty := by
  obtain ⟨entropy, now, draw, first, hbuild, hrun⟩ := h
  obtain rfl : first = s := (Prod.mk.inj hrun).2
  cases hkey : chooseKey server.settings entropy draw with
  | error fault => simp [build, hkey, Except.map] at hbuild
  | ok key =>
    simp only [build, hkey, Except.map, Except.ok.injEq, Prod.mk.injEq] at hbuild
    rw [← hbuild.2]
    exact if_pos haudit

theorem IsRun.mirrors (hrun : server.IsRun moments history s)
    (hmoments : ∀ m ∈ moments, m.call.IsRecordable)
    (haudit : server.settings.auditEnabled = true) :
    ∃ trail appended, s.trail = some trail ∧ server.Mirrors history trail appended := by
  have hall : s.IsReady ∧ ∃ trail appended, s.trail = some trail ∧
      server.Mirrors history trail appended := by
    refine hrun.invariant (I := fun history s => s.IsReady ∧ ∃ trail appended,
      s.trail = some trail ∧ server.Mirrors history trail appended) ?_ ?_ hmoments
    · intro first hnone hready _ _
      exact ⟨hready, _, _, hnone.trail_first haudit, mirrors_nil⟩
    · intro past s m hm ⟨hready, trail, appended, htrail, h⟩
      refine ⟨(server.step_spec hready hm).isReady, ?_⟩
      cases server.recording_step hready hm with
      | @event event hplain hrecorded _ htells hafter =>
        obtain ⟨hash, hmirrors⟩ := h.record hplain hrecorded htells
        exact ⟨_, _, by rw [hafter, htrail, Option.map_some], hmirrors⟩
      | silent hsilent hreading _ hafter =>
        exact ⟨trail, appended, hafter.trans htrail, h.skip hsilent hreading⟩
  exact hall.2

/-- The trail of a server that keeps one mirrors every run. It verifies, and the events that are read
from it are one for each issue and each request that was answered, in the order of the calls, and
tell what was answered. An issue or a request fails only at a time that no nut can hold: the nut is not
packed then, whatever run the call follows, and the trail stays as it is. -/
theorem trail_mirrors (hrun : server.IsRun moments history s)
    (hmoments : ∀ m ∈ moments, m.call.IsRecordable)
    (haudit : server.settings.auditEnabled = true) :
    ∃ trail events, s.trail = some trail ∧ trail.verify = .ok true ∧
      trail.read = .ok (events.map Json.object) ∧
      List.Forall₂ server.Tells (history.filter Entry.isRecorded) events ∧
      (∀ e ∈ history, e.time.IsReading → e.call.isAudited = true → e.isRecorded = true) ∧
      ∀ m : Moment, m.call.IsRecordable → m.call.isAudited = true →
        ¬ (0 ≤ m.time.truncate ∧ m.time.truncate < 2 ^ 32) →
          ∃ fault, (server.step s m).1.result = .error (.pack fault) ∧
            (server.step s m).2.trail = some trail := by
  obtain ⟨trail, appended, htrail, h⟩ := hrun.mirrors hmoments haudit
  refine ⟨trail, _, htrail, h.written.verifyWithin_eq, h.written.readWithin_eq, h.tells, h.answered,
    fun m hm haudited htime => ?_⟩
  exact htrail ▸ pack_fault_step (hrun.isReady hmoments) hm haudited htime

section Sample

def sampleAudited : Server :=
  { sampleServer 900 (by decide) with
    settings := { (sampleServer 900 (by decide)).settings with auditEnabled := true } }

def samplePoll : List Moment :=
  [sampleIssue, sampleLogin (.int 1001) sampleNut, ⟨.int 1002, .readIdentity sampleNut⟩]

theorem trail_mirrors_poll :
    ∃ history s trail events, sampleAudited.IsRun samplePoll history s ∧ s.trail = some trail ∧
      trail.verify = .ok true ∧ trail.read = .ok (events.map Json.object) ∧
      List.Forall₂ sampleAudited.Tells (history.filter Entry.isRecorded) events ∧
        events.length = 2 ∧
      ∃ fault, (sampleAudited.step s ⟨.int (2 ^ 32), .issue none true⟩).1.result =
        .error (.pack fault) := by
  have hfirst : ∃ first, sampleAudited.IsRun [] [] first := ⟨_, .counting, .int 1000, 0, _, rfl, rfl⟩
  obtain ⟨first, hfirst⟩ := hfirst
  have hrun := ((hfirst.snoc sampleIssue).snoc (sampleLogin (.int 1001) sampleNut)).snoc
    ⟨.int 1002, .readIdentity sampleNut⟩
  have hmoments : ∀ m ∈ samplePoll, m.call.IsRecordable := by
    simp [samplePoll, sampleIssue, sampleLogin, Call.IsRecordable, isRecordable_sampleRequest]
  obtain ⟨trail, events, htrail, hverify, hread, htells, hanswered, hfails⟩ :=
    trail_mirrors hrun hmoments rfl
  obtain ⟨fault, hfault, -⟩ := hfails ⟨.int (2 ^ 32), .issue none true⟩ trivial rfl (by decide)
  refine ⟨_, _, trail, events, hrun, htrail, hverify, hread, htells, ?_, fault, hfault⟩
  simp only [List.nil_append, List.cons_append, List.forall_mem_cons] at hanswered htells ⊢
  obtain ⟨hissue, hlogin, -⟩ := hanswered
  rw [← htells.length_eq, List.filter_cons_of_pos (hissue isReading_thousand rfl),
    List.filter_cons_of_pos (hlogin (by decide +kernel : Number.IsReading (.int 1001)) rfl),
    List.filter_cons_of_neg, List.filter_nil]
  · rfl
  · simp [Entry.isRecorded, toMoment_step, Call.isAudited]

end Sample

end Server

end Sqrl
