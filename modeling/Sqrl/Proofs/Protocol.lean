import Sqrl.Proofs.Effect
import Sqrl.Proofs.Response

/-! The answer to every call, and the state after it, when no operation is out of service and events
can be appended. A call whose nut has no record fails before it changes a store. -/
namespace Sqrl

/-- Can the audit trail hold the lengths of a request's texts? A length of more than 4300 digits has
no text in the trail. -/
def Request.IsRecordable (request : Request) : Prop :=
  request.signedMessage.length < 10 ^ Number.maxDigits ∧
    (Utf8.encode request.ids.toList).length < 10 ^ Number.maxDigits

/-- Every request can be recorded whose texts fit a memory with addresses of 64 bits. -/
theorem Request.isRecordable_of_lt {request : Request}
    (hmessage : request.signedMessage.length < 2 ^ 63)
    (hids : (Utf8.encode request.ids.toList).length < 2 ^ 63) : request.IsRecordable :=
  ⟨Number.lt_pow_maxDigits (by omega), Number.lt_pow_maxDigits (by omega)⟩

namespace Audit

open Json (isPlain_text isPlain_int)
open Number (lt_pow_maxDigits)

theorem isPlain_given {name : String} {value : Option String} {e : String × Json}
    (he : e ∈ given name value) : e.2.IsPlain := by
  unfold given at he
  split at he
  · split at he
    · cases he
    · rw [List.mem_singleton.mp he]
      exact isPlain_text _
  · cases he

theorem isPlain_digested {name : String} {value : Option Bytes}
    (hvalue : ∀ b, value = some b → b.length < 10 ^ Number.maxDigits) {e : String × Json}
    (he : e ∈ digested name value) : e.2.IsPlain := by
  unfold digested at he
  split at he
  · next b =>
    rcases List.mem_cons.mp he with rfl | he
    · exact isPlain_int (hvalue b rfl)
    · rw [List.mem_singleton.mp he]
      exact isPlain_text _
  · cases he

/-- The time of an event fits 32 bits. -/
theorem isPlain_time {now : Number} (hlow : 0 ≤ now.truncate) (hhigh : now.truncate < 2 ^ 32) :
    (time now).2.IsPlain :=
  isPlain_int (lt_pow_maxDigits (by omega))

theorem Common.isPlain_fields {now : Number} (hlow : 0 ≤ now.truncate)
    (hhigh : now.truncate < 2 ^ 32) {c : Common}
    (hmessage : ∀ b, c.message = some b → b.length < 10 ^ Number.maxDigits)
    (hsignature : ∀ s, c.signature = some s → (Utf8.encode s.toList).length < 10 ^ Number.maxDigits)
    {e : String × Json} (he : e ∈ c.fields now) : e.2.IsPlain := by
  simp only [fields, List.mem_cons, List.mem_append] at he
  rcases he with rfl | (((((he | he) | he) | he) | he) | he) | he
  · exact isPlain_time hlow hhigh
  · exact isPlain_given he
  · exact isPlain_given he
  · exact isPlain_given he
  · exact isPlain_given he
  · exact isPlain_given he
  · exact isPlain_digested hmessage he
  · apply isPlain_digested _ he
    intro b hb
    obtain ⟨s, hs, rfl⟩ := Option.map_eq_some_iff.mp hb
    exact hsignature s hs

end Audit

namespace Server

open Server.Action

/-- Nothing that a call needs can fail: no operation is out of service, and the head of the trail
can be read. -/
structure State.IsReady (s : State) : Prop where
  isUp : s.IsUp
  isReadable : ∀ trail, s.trail = some trail → trail.IsReadable

variable (server : Server) {s : State} {request : Request} {nut text : String} {presented : Nut}
  {address : Option String} {qr : Bool}

theorem decode_nextText (h : server.nextText s address qr = .ok text) :
    Nut.decode server.key text = .ok (server.nextNut s address qr) :=
  Nut.decode_of_encode (server.entropy.length_bytes ..) h

theorem truncate_of_nextText (h : server.nextText s address qr = .ok text) :
    0 ≤ s.now.truncate ∧ s.now.truncate < 2 ^ 32 :=
  ⟨(Nut.fits_of_encode h).created_nonneg, (Nut.fits_of_encode h).created_lt⟩

theorem nextText_ok (h : s.now.IsReading) (address : Option String) (qr : Bool) :
    ∃ text, server.nextText s address qr = .ok text :=
  (Nut.fits_create h.truncate_bounds.1 h.truncate_bounds.2 address qr
    (server.entropy.length_bytes ..)).encode_ok _ _

def recorded (s : State) (decision : Decision) (reason : Reason) (fields : List (String × Json)) :
    Option Audit.Trail :=
  s.trail.map fun trail => (trail.append (server.event s.now decision reason fields)).2

theorem arePlain_event {time : Number} (hlow : 0 ≤ time.truncate) (hhigh : time.truncate < 2 ^ 32)
    (decision : Decision) (reason : Reason) {fields : List (String × Json)}
    (hfields : ∀ e ∈ fields, e.2.IsPlain) :
    Json.ArePlain (server.event time decision reason fields) := by
  apply Json.arePlain_ofEntries
  intro entry hentry
  obtain ⟨e, he, rfl⟩ := List.mem_map.mp hentry
  refine ⟨CodePoint.isScalar_ofChars _, ?_⟩
  simp only [List.mem_append, List.mem_cons, List.not_mem_nil, or_false] at he
  rcases he with (rfl | he) | rfl | rfl | rfl
  · exact Audit.isPlain_time hlow hhigh
  · exact hfields e he
  · exact Json.isPlain_text _
  · exact Json.isPlain_text _
  · exact Json.isPlain_text _

theorem outcome_audit (hs : s.IsReady) (hlow : 0 ≤ s.now.truncate) (hhigh : s.now.truncate < 2 ^ 32)
    (decision : Decision) (reason : Reason) (fields : List (String × Json))
    (hfields : ∀ e ∈ fields, e.2.IsPlain) :
    (server.audit decision reason fields).outcome s =
        (.ok (), { s with trail := server.recorded s decision reason fields }) ∧
      State.IsReady { s with trail := server.recorded s decision reason fields } := by
  rw [audit, outcome_bind_ok (outcome_get s)]
  cases htrail : s.trail with
  | none =>
    have hsame : { s with trail := server.recorded s decision reason fields } = s := by
      rw [recorded, htrail, Option.map_none, ← htrail]
    rw [hsame]
    exact ⟨rfl, hs⟩
  | some trail =>
    obtain ⟨hash, after, happend, hafter⟩ := Audit.Trail.append_ok (hs.isReadable trail htrail)
      (server.arePlain_event hlow hhigh decision reason hfields)
    have hrecorded : server.recorded s decision reason fields = some after := by
      simp [recorded, htrail, happend]
    rw [hrecorded]
    refine ⟨?_, hs.isUp, ?_⟩
    · simp only [outcome_bind_ok (outcome_now s), appendEvent,
        outcome_bind_ok (outcome_demand hs.isUp .appendEvent), happend]
      rfl
    · intro _ h
      cases h
      exact hafter

/-- Can the nut of a request be read, and are its version and its signature right? -/
structure IsGenuine (request : Request) (nut : String) (presented : Nut) : Prop where
  decode : Nut.decode server.key nut = .ok presented
  version : request.ver = server.settings.version
  signature : Signature.check (some request.signedMessage) request.idk request.ids = .ok ()

/-- A text presents one nut. -/
theorem IsGenuine.unique {server : Server} {a b : Nut} (ha : server.IsGenuine request nut a)
    (hb : server.IsGenuine request nut b) : a = b :=
  Except.ok.inj (ha.decode.symm.trans hb.decode)

/-- Was the nut of a response made to be shown as a code? It is if the presented nut was. -/
def responseQr (nut : String) : Bool :=
  match Nut.decode server.key nut with
  | .ok presented => presented.qr
  | .error _ => false

def denial (s : State) (reason : Reason) (request : Request) (nut text : String)
    (address detail : Option String) : Option Audit.Trail :=
  server.recorded s .denied reason
    (("client_ver", .text (Audit.shortened versionLength request.ver)) ::
      ((common request nut text address).fields s.now ++
        Audit.given "detail" (detail.map (Audit.shortened detailLength))))

def acceptance (s : State) (reason : Reason) (request : Request) (nut text : String)
    (address : Option String) (flags : FlagSet) : Option Audit.Trail :=
  server.recorded s (if flags.contains .transientError then .transient else .processed) reason
    ((common request nut text address).fields s.now ++
      [("tif", .int (server.respond text flags).tif)])

/-! The values of the fields that are recorded can be recorded. -/

theorem isPlain_common (hlow : 0 ≤ s.now.truncate) (hhigh : s.now.truncate < 2 ^ 32)
    (hrequest : request.IsRecordable) {e : String × Json}
    (he : e ∈ (common request nut text address).fields s.now) : e.2.IsPlain := by
  apply Audit.Common.isPlain_fields hlow hhigh _ _ he
  · intro _ h
    cases h
    exact hrequest.1
  · intro _ h
    cases h
    exact hrequest.2

theorem isPlain_denial (hlow : 0 ≤ s.now.truncate) (hhigh : s.now.truncate < 2 ^ 32)
    (hrequest : request.IsRecordable) (nut text : String) (address detail : Option String) :
    ∀ e ∈ ("client_ver", .text (Audit.shortened versionLength request.ver)) ::
      ((common request nut text address).fields s.now ++
        Audit.given "detail" (detail.map (Audit.shortened detailLength))), e.2.IsPlain := by
  simp only [List.mem_cons, List.mem_append]
  intro e he
  rcases he with rfl | he | he
  · exact Json.isPlain_text _
  · exact isPlain_common hlow hhigh hrequest he
  · exact Audit.isPlain_given he

theorem isPlain_acceptance (hlow : 0 ≤ s.now.truncate) (hhigh : s.now.truncate < 2 ^ 32)
    (hrequest : request.IsRecordable) (nut text : String) (address : Option String)
    (flags : FlagSet) :
    ∀ e ∈ (common request nut text address).fields s.now ++
      [("tif", .int (server.respond text flags).tif)], e.2.IsPlain := by
  simp only [List.mem_append, List.mem_singleton]
  intro e he
  rcases he with he | rfl
  · exact isPlain_common hlow hhigh hrequest he
  · exact Json.isPlain_int (Number.lt_pow_maxDigits (flags.mask_lt.trans (by decide)))

theorem isPlain_issuance (text : String) (address : Option String) (qr : Bool) :
    ∀ e ∈ [("nut", Json.text text), ("request_ip", .optional address), ("qr", .bool qr)],
      e.2.IsPlain := by
  simp only [List.mem_cons, List.not_mem_nil, or_false]
  intro e he
  rcases he with rfl | rfl | rfl
  · exact Json.isPlain_text text
  · exact Json.isPlain_optional address
  · trivial

theorem isPlain_rejection (hlow : 0 ≤ s.now.truncate) (hhigh : s.now.truncate < 2 ^ 32)
    (nut : Option String) (text : String) (address : Option String) :
    ∀ e ∈ Audit.Common.fields s.now { nut := nut, responseNut := text, address := address },
      e.2.IsPlain :=
  fun _ he => Audit.Common.isPlain_fields hlow hhigh (by simp) (by simp) he

def IsFresh (now : Number) (presented : Nut) : Prop :=
  now.truncate - presented.created ≤ server.settings.nutExpiration

def answerFlags (accounts : Accounts) (request : Request) (presented response : Nut) : FlagSet :=
  .ofList ((if presented.sameAddress response then [.ipMatched] else []) ++
    (accounts.serve request).1)

theorem contains_answerFlags (accounts : Accounts) (request : Request) (presented response : Nut)
    {f : Flag} (hf : f = .clientFailure ∨ f = .transientError) :
    (answerFlags accounts request presented response).contains f = false := by
  have hserve := accounts.not_mem_serve request hf
  rw [answerFlags, FlagSet.contains_ofList, decide_eq_false_iff_not, List.mem_append, not_or]
  refine ⟨?_, hserve⟩
  rcases hf with rfl | rfl <;> split <;> simp

theorem outcome_process_expired {response : Nut} (h : ¬ server.IsFresh s.now presented) :
    ∃ records, (server.process request nut presented response text).outcome s =
      (.ok (.ofList [.transientError], .nutExpired), { s with records }) := by
  rw [process, outcome_bind_ok (outcome_now s)]
  simp only [if_pos (Int.not_le.mp h)]
  exact ⟨_, outcome_bind_ok (outcome_log ..)⟩

theorem outcome_process_reused (hs : s.IsUp) {response : Nut}
    (hfresh : server.IsFresh s.now presented) (hused : nut ∈ s.sessions.used) :
    ∃ records, (server.process request nut presented response text).outcome s =
      (.ok (.ofList [.transientError], .nutReused), { s with records }) := by
  have hconsume : (consumeNut nut).outcome s = (.ok false, s) := by
    rw [outcome_consumeNut hs, Sessions.consume, if_pos hused]
  rw [process, outcome_bind_ok (outcome_now s)]
  simp only [if_neg (Int.not_lt.mpr hfresh), outcome_bind_ok hconsume, Bool.not_false, if_true]
  exact ⟨_, outcome_bind_ok (outcome_log ..)⟩

theorem outcome_process_accepted (hs : s.IsUp) (response : Nut)
    (hfresh : server.IsFresh s.now presented) (hunused : nut ∉ s.sessions.used) :
    ∃ records, (server.process request nut presented response text).outcome s =
      (.ok (answerFlags s.accounts request presented response, .signatureValid),
        { s with
          accounts := (s.accounts.serve request).2
          sessions := s.sessions.serve request nut text s.now
          records }) := by
  have hconsume := outcome_consumeNut hs nut
  have htrue : (s.sessions.consume nut s.now).1 = true := by
    rw [Sessions.consume, if_neg hunused]
  rw [htrue] at hconsume
  rw [process, outcome_bind_ok (outcome_now s)]
  simp only [if_neg (Int.not_lt.mpr hfresh), outcome_bind_ok hconsume, Bool.not_true,
    Bool.false_eq_true, if_false]
  set consumed : State := { s with sessions := (s.sessions.consume nut s.now).2 } with hconsumed
  have hlink := outcome_linkNut (s := consumed) hs nut text
  rw [outcome_bind_ok hlink]
  obtain ⟨records, hidentify⟩ := outcome_identify (s := { consumed with
    sessions := (consumed.sessions.prune consumed.now).2.link nut text consumed.now }) hs request
  rw [outcome_bind_ok hidentify]
  obtain ⟨records', hdispatch⟩ := outcome_dispatch (s := { consumed with
    sessions := (consumed.sessions.prune consumed.now).2.link nut text consumed.now
    accounts := (s.accounts.resolve request).2
    records }) hs request (s.accounts.resolve request).1.1 text
  refine ⟨records', ?_⟩
  refine (outcome_bind_ok hdispatch).trans ?_
  refine (outcome_bind_ok (outcome_disabledFlag ..)).trans ?_
  simp only [outcome_pure, answerFlags, Accounts.serve, Sessions.serve, List.append_assoc,
    hconsumed]

theorem outcome_oneLine (s : State) (text : String) (flags : FlagSet) :
    ∃ shown, (oneLine (server.respond text flags)).outcome s = (.ok shown, s) := by
  rw [oneLine, respond, Response.text_of_present (Response.present_build ..)]
  exact ⟨_, rfl⟩

section

variable (hs : s.IsReady) (hlow : 0 ≤ s.now.truncate) (hhigh : s.now.truncate < 2 ^ 32)
  (hrequest : request.IsRecordable)
include hs hlow hhigh hrequest

theorem outcome_refuse (reason : Reason) (nut text : String) (address detail : Option String) :
    (server.refuse reason request nut text address detail).outcome s =
        (.ok (server.respond text (.ofList [.clientFailure])),
          { s with trail := server.denial s reason request nut text address detail }) ∧
      State.IsReady { s with trail := server.denial s reason request nut text address detail } := by
  have haudit := server.outcome_audit hs hlow hhigh .denied reason _
    (isPlain_denial hlow hhigh hrequest nut text address detail)
  refine ⟨?_, haudit.2⟩
  rw [refuse, outcome_bind_ok (outcome_now s), outcome_bind_ok haudit.1]
  rfl

/-- What is answered and recorded after a request has been processed. -/
theorem outcome_accept {response : Nut} {flags : FlagSet} {reason : Reason} {accounts : Accounts}
    {sessions : Sessions} {records : List Log.Record} (address : Option String)
    (hprocess : (server.process request nut presented response text).outcome s =
      (.ok (flags, reason), { s with accounts, sessions, records })) :
    ∃ records, (server.accept request nut presented response text address).outcome s =
        (.ok (server.respond text flags),
          { s with
            accounts, sessions, records
            trail := server.acceptance s reason request nut text address flags }) ∧
      State.IsReady { s with
        accounts, sessions, records
        trail := server.acceptance s reason request nut text address flags } := by
  rw [accept, outcome_bind_ok hprocess]
  obtain ⟨shown, hshown⟩ :=
    server.outcome_oneLine { s with accounts, sessions, records } text flags
  simp only [outcome_bind_ok hshown, outcome_bind_ok (outcome_log ..),
    outcome_bind_ok (outcome_now _)]
  have haudit := server.outcome_audit
    (s := { s with
      accounts, sessions
      records := records ++ [.ofText .debug "server"
        ("Response: " ++ shown)
        (some [(CodePoint.ofString "tif", .int (server.respond text flags).tif),
          (CodePoint.ofString "cmd", .text (Audit.shortened Audit.commandLength request.cmd))])] })
    ⟨hs.isUp, hs.isReadable⟩ hlow hhigh
    (if flags.contains .transientError then .transient else .processed) reason _
    (server.isPlain_acceptance hlow hhigh hrequest nut text address flags)
  refine ⟨_, ?_, haudit.2⟩
  rw [outcome_bind_ok haudit.1]
  rfl

end

theorem responseQr_of_ok (h : Nut.decode server.key nut = .ok presented) :
    server.responseQr nut = presented.qr := by
  rw [responseQr, h]

theorem responseQr_of_error {rejection : Nut.Rejection}
    (h : Nut.decode server.key nut = .error rejection) : server.responseQr nut = false := by
  rw [responseQr, h]

theorem outcome_judge_error (hs : s.IsUp) {fault : Nut.PackFault}
    (h : server.nextText s address presented.qr = .error fault) :
    (server.judge request nut presented address).outcome s =
      (.error (.pack fault), { s with draw := s.draw + 1 }) := by
  rw [judge, outcome_bind_ok (outcome_createNut hs server address presented.qr)]
  exact outcome_bind_error
    (outcome_encodeNut_error (s := { s with draw := s.draw + 1 }) hs server h)

theorem outcome_judge_genuine (hs : s.IsUp) (hgenuine : server.IsGenuine request nut presented)
    (h : server.nextText s address presented.qr = .ok text) :
    (server.judge request nut presented address).outcome s =
      (server.accept request nut presented (server.nextNut s address presented.qr) text
        address).outcome { s with draw := s.draw + 2 } := by
  rw [judge, outcome_bind_ok (outcome_createNut hs server address presented.qr),
    outcome_bind_ok (outcome_encodeNut_ok (s := { s with draw := s.draw + 1 }) hs server h)]
  simp only [hgenuine.version, hgenuine.signature, ne_eq, not_true_eq_false, if_false]

theorem outcome_judge_denied (hs : s.IsUp) (hdecode : Nut.decode server.key nut = .ok presented)
    (hfalse : ¬ server.IsGenuine request nut presented)
    (h : server.nextText s address presented.qr = .ok text) :
    ∃ reason detail records, (server.judge request nut presented address).outcome s =
      (server.refuse reason request nut text address detail).outcome
        { s with draw := s.draw + 2, records } := by
  rw [judge, outcome_bind_ok (outcome_createNut hs server address presented.qr),
    outcome_bind_ok (outcome_encodeNut_ok (s := { s with draw := s.draw + 1 }) hs server h)]
  by_cases hversion : request.ver = server.settings.version
  · cases hcheck : Signature.check (some request.signedMessage) request.idk request.ids with
    | ok _ => exact absurd ⟨hdecode, hversion, hcheck⟩ hfalse
    | error fault =>
      simp only [hversion, ne_eq, not_true_eq_false, if_false, outcome_bind_ok (outcome_log ..)]
      exact ⟨_, _, _, rfl⟩
  · simp only [ne_eq, hversion, not_false_eq_true, if_true, outcome_bind_ok (outcome_log ..)]
    exact ⟨_, _, _, rfl⟩

theorem outcome_handle_of_ok (hs : s.IsUp) (request : Request) (address : Option String)
    (h : Nut.decode server.key nut = .ok presented) :
    ∃ records, (server.handle request nut address).outcome s =
      (server.judge request nut presented address).outcome { s with records } := by
  have hdecode (records : List Log.Record) :=
    outcome_decodeNut (s := { s with records }) hs server nut
  simp only [h] at hdecode
  simp only [handle, Option.getD_some, outcome_bind_ok (outcome_log ..),
    outcome_bind_ok (hdecode _)]
  exact ⟨_, rfl⟩

theorem outcome_handle_of_error (hs : s.IsUp) (request : Request) (address : Option String)
    {rejection : Nut.Rejection} (h : Nut.decode server.key nut = .error rejection) :
    ∃ records, (server.handle request nut address).outcome s =
      Action.outcome (do
        let responseNut ← server.mint address false
        server.refuse .invalidNut request nut responseNut address none) { s with records } := by
  have hdecode (records : List Log.Record) :=
    outcome_decodeNut (s := { s with records }) hs server nut
  simp only [h] at hdecode
  simp only [handle, Option.getD_some, outcome_bind_ok (outcome_log ..),
    outcome_bind_ok (hdecode _)]
  exact ⟨_, rfl⟩

/-- A reading of the clock that no nut can hold fails every request, and changes no store. -/
theorem outcome_handle_error (hs : s.IsUp) (request : Request) {fault : Nut.PackFault}
    (h : server.nextText s address (server.responseQr nut) = .error fault) :
    ∃ records, (server.handle request nut address).outcome s =
      (.error (.pack fault), { s with draw := s.draw + 1, records }) := by
  cases hdecode : Nut.decode server.key nut with
  | ok presented =>
    obtain ⟨records, hhandle⟩ := server.outcome_handle_of_ok hs request address hdecode
    rw [server.responseQr_of_ok hdecode] at h
    exact ⟨records, hhandle.trans (server.outcome_judge_error (s := { s with records }) hs h)⟩
  | error rejection =>
    obtain ⟨records, hhandle⟩ := server.outcome_handle_of_error hs request address hdecode
    rw [server.responseQr_of_error hdecode] at h
    exact ⟨records, hhandle.trans (outcome_bind_error
      (outcome_mint_error (s := { s with records }) hs server h))⟩

section

variable (hs : s.IsReady) (hrequest : request.IsRecordable)
  (htext : server.nextText s address (server.responseQr nut) = .ok text)
include hs hrequest htext

/-- A request that is not genuine is denied and changes no store. -/
theorem outcome_handle_denied (hfalse : ∀ presented, ¬ server.IsGenuine request nut presented) :
    ∃ reason detail records,
      (server.handle request nut address).outcome s =
          (.ok (server.respond text (.ofList [.clientFailure])),
            { s with
              draw := s.draw + 2, records
              trail := server.denial s reason request nut text address detail }) ∧
        State.IsReady { s with
          draw := s.draw + 2, records
          trail := server.denial s reason request nut text address detail } := by
  have hbounds := server.truncate_of_nextText htext
  cases hdecode : Nut.decode server.key nut with
  | ok presented =>
    rw [server.responseQr_of_ok hdecode] at htext
    obtain ⟨records, hhandle⟩ := server.outcome_handle_of_ok hs.isUp request address hdecode
    obtain ⟨reason, detail, records', hjudge⟩ := server.outcome_judge_denied
      (s := { s with records }) hs.isUp hdecode (hfalse presented) htext
    have hrefuse := server.outcome_refuse
      (s := { s with draw := s.draw + 2, records := records' }) ⟨hs.isUp, hs.isReadable⟩
      hbounds.1 hbounds.2 hrequest reason nut text address detail
    exact ⟨reason, detail, records', (hhandle.trans hjudge).trans hrefuse.1, hrefuse.2⟩
  | error rejection =>
    rw [server.responseQr_of_error hdecode] at htext
    obtain ⟨records, hhandle⟩ := server.outcome_handle_of_error hs.isUp request address hdecode
    have hmint := outcome_mint_ok (s := { s with records }) hs.isUp server htext
    have hrefuse := server.outcome_refuse
      (s := { s with draw := s.draw + 2, records }) ⟨hs.isUp, hs.isReadable⟩
      hbounds.1 hbounds.2 hrequest .invalidNut nut text address none
    exact ⟨.invalidNut, none, records, (hhandle.trans (outcome_bind_ok hmint)).trans hrefuse.1,
      hrefuse.2⟩

variable (hgenuine : server.IsGenuine request nut presented)
include hgenuine

/-- What is answered and recorded after a genuine request has been processed. -/
theorem outcome_handle_genuine (accounts : Accounts) (sessions : Sessions) {flags : FlagSet}
    {reason : Reason}
    (hprocess : ∀ t : State, t.IsUp → t.now = s.now → t.accounts = s.accounts →
      t.sessions = s.sessions → ∃ records,
        (server.process request nut presented (server.nextNut s address presented.qr) text).outcome
            t =
          (.ok (flags, reason), { t with accounts, sessions, records })) :
    ∃ records,
      (server.handle request nut address).outcome s =
          (.ok (server.respond text flags),
            { s with
              draw := s.draw + 2, accounts, sessions, records
              trail := server.acceptance s reason request nut text address flags }) ∧
        State.IsReady { s with
          draw := s.draw + 2, accounts, sessions, records
          trail := server.acceptance s reason request nut text address flags } := by
  have hbounds := server.truncate_of_nextText htext
  rw [server.responseQr_of_ok hgenuine.decode] at htext
  obtain ⟨records, hhandle⟩ := server.outcome_handle_of_ok hs.isUp request address hgenuine.decode
  have hjudge := server.outcome_judge_genuine (s := { s with records }) hs.isUp hgenuine htext
  obtain ⟨records', hprocess⟩ :=
    hprocess { s with draw := s.draw + 2, records } hs.isUp rfl rfl rfl
  obtain ⟨records'', haccept, hready⟩ := server.outcome_accept
    (s := { s with draw := s.draw + 2, records }) ⟨hs.isUp, hs.isReadable⟩ hbounds.1 hbounds.2
    hrequest address hprocess
  exact ⟨records'', (hhandle.trans hjudge).trans haccept, hready⟩

/-- A nut that has expired gives a transient error and changes no store. -/
theorem outcome_handle_expired (hexpired : ¬ server.IsFresh s.now presented) :
    ∃ records,
      (server.handle request nut address).outcome s =
          (.ok (server.respond text (.ofList [.transientError])),
            { s with
              draw := s.draw + 2, records
              trail := server.acceptance s .nutExpired request nut text address
                (.ofList [.transientError]) }) ∧
        State.IsReady { s with
          draw := s.draw + 2, records
          trail := server.acceptance s .nutExpired request nut text address
            (.ofList [.transientError]) } := by
  refine server.outcome_handle_genuine hs hrequest htext hgenuine s.accounts s.sessions
    fun t ht hnow haccounts hsessions => ?_
  rw [← hnow] at hexpired
  obtain ⟨records, hprocess⟩ := server.outcome_process_expired (s := t) hexpired
  exact ⟨records, by rw [hprocess, ← haccounts, ← hsessions]⟩

/-- A nut that is remembered as consumed gives a transient error and changes no store. -/
theorem outcome_handle_reused (hfresh : server.IsFresh s.now presented)
    (hused : nut ∈ s.sessions.used) :
    ∃ records,
      (server.handle request nut address).outcome s =
          (.ok (server.respond text (.ofList [.transientError])),
            { s with
              draw := s.draw + 2, records
              trail := server.acceptance s .nutReused request nut text address
                (.ofList [.transientError]) }) ∧
        State.IsReady { s with
          draw := s.draw + 2, records
          trail := server.acceptance s .nutReused request nut text address
            (.ofList [.transientError]) } := by
  refine server.outcome_handle_genuine hs hrequest htext hgenuine s.accounts s.sessions
    fun t ht hnow haccounts hsessions => ?_
  rw [← hnow] at hfresh
  rw [← hsessions] at hused
  obtain ⟨records, hprocess⟩ := server.outcome_process_reused (s := t) ht hfresh hused
  exact ⟨records, by rw [hprocess, ← haccounts, ← hsessions]⟩

/-- A genuine request with a fresh nut that is not remembered as consumed is processed. -/
theorem outcome_handle_processed (hfresh : server.IsFresh s.now presented)
    (hunused : nut ∉ s.sessions.used) :
    ∃ records,
      (server.handle request nut address).outcome s =
          (.ok (server.respond text
              (answerFlags s.accounts request presented (server.nextNut s address presented.qr))),
            { s with
              draw := s.draw + 2, records
              accounts := (s.accounts.serve request).2
              sessions := s.sessions.serve request nut text s.now
              trail := server.acceptance s .signatureValid request nut text address
                (answerFlags s.accounts request presented
                  (server.nextNut s address presented.qr)) }) ∧
        State.IsReady { s with
          draw := s.draw + 2, records
          accounts := (s.accounts.serve request).2
          sessions := s.sessions.serve request nut text s.now
          trail := server.acceptance s .signatureValid request nut text address
            (answerFlags s.accounts request presented
              (server.nextNut s address presented.qr)) } := by
  refine server.outcome_handle_genuine hs hrequest htext hgenuine _ _
    fun t ht hnow haccounts hsessions => ?_
  rw [← hnow] at hfresh
  rw [← hsessions] at hunused
  obtain ⟨records, hprocess⟩ := server.outcome_process_accepted ht
    (server.nextNut s address presented.qr) hfresh hunused
  exact ⟨records, by rw [hprocess, haccounts, hsessions, hnow]⟩

end

/-- Every request is answered for a new nut. Nothing is drawn but the two parts of that nut. -/
theorem outcome_handle_ok (hs : s.IsReady) (hrequest : request.IsRecordable)
    (htext : server.nextText s address (server.responseQr nut) = .ok text) :
    ∃ flags t, (server.handle request nut address).outcome s =
        (.ok (server.respond text flags), t) ∧ t.IsReady ∧ t.draw = s.draw + 2 := by
  by_cases hgenuine : ∃ presented, server.IsGenuine request nut presented
  case neg =>
    obtain ⟨_, _, _, hhandle, hready⟩ :=
      server.outcome_handle_denied hs hrequest htext (not_exists.mp hgenuine)
    exact ⟨_, _, hhandle, hready, rfl⟩
  obtain ⟨presented, hgenuine⟩ := hgenuine
  by_cases hfresh : server.IsFresh s.now presented
  case neg =>
    obtain ⟨_, hhandle, hready⟩ := server.outcome_handle_expired hs hrequest htext hgenuine hfresh
    exact ⟨_, _, hhandle, hready, rfl⟩
  by_cases hused : nut ∈ s.sessions.used
  case pos =>
    obtain ⟨_, hhandle, hready⟩ :=
      server.outcome_handle_reused hs hrequest htext hgenuine hfresh hused
    exact ⟨_, _, hhandle, hready, rfl⟩
  obtain ⟨_, hhandle, hready⟩ :=
    server.outcome_handle_processed hs hrequest htext hgenuine hfresh hused
  exact ⟨_, _, hhandle, hready, rfl⟩

/-- A reading of the clock that no nut can hold issues none. -/
theorem outcome_issue_error (hs : s.IsUp) {fault : Nut.PackFault}
    (h : server.nextText s address qr = .error fault) :
    (server.issue address qr).outcome s = (.error (.pack fault), { s with draw := s.draw + 1 }) :=
  outcome_bind_error (outcome_mint_error hs server h)

def issuance (s : State) (text : String) (address : Option String) (qr : Bool) :
    Option Audit.Trail :=
  server.recorded s .issued .nutIssued
    [("nut", .text text), ("request_ip", .optional address), ("qr", .bool qr)]

theorem outcome_issue (hs : s.IsReady) (h : server.nextText s address qr = .ok text) :
    ∃ records,
      (server.issue address qr).outcome s =
          (.ok text, { s with
            draw := s.draw + 2, records
            trail := server.issuance s text address qr
            sessions := (s.sessions.prune s.now).2.start text address s.now }) ∧
        State.IsReady { s with
          draw := s.draw + 2, records
          trail := server.issuance s text address qr
          sessions := (s.sessions.prune s.now).2.start text address s.now } := by
  have hbounds := server.truncate_of_nextText h
  rw [issue, outcome_bind_ok (outcome_mint_ok hs.isUp server h),
    outcome_bind_ok
      (outcome_openTransaction (s := { s with draw := s.draw + 2 }) hs.isUp text address),
    outcome_bind_ok (outcome_log ..)]
  have haudit := server.outcome_audit
    (s := { s with
      draw := s.draw + 2
      sessions := (s.sessions.prune s.now).2.start text address s.now
      records := s.records ++ [.ofText .debug "server" ("Creating nut " ++ text) none] })
    ⟨hs.isUp, hs.isReadable⟩ hbounds.1 hbounds.2 .issued .nutIssued _
    (isPlain_issuance text address qr)
  refine ⟨_, ?_, haudit.2⟩
  rw [outcome_bind_ok haudit.1]
  rfl

theorem outcome_issue_ok (hs : s.IsReady) (h : server.nextText s address qr = .ok text) :
    ∃ trail records,
      (server.issue address qr).outcome s =
          (.ok text, { s with
            draw := s.draw + 2, trail, records
            sessions := (s.sessions.prune s.now).2.start text address s.now }) ∧
        State.IsReady { s with
          draw := s.draw + 2, trail, records
          sessions := (s.sessions.prune s.now).2.start text address s.now } :=
  ⟨_, server.outcome_issue hs h⟩

def malformedQr (nut : Option String) : Bool :=
  match Signature.given? nut with
  | none => false
  | some text => server.responseQr text

theorem outcome_presentedAsCode (hs : s.IsUp) (nut : Option String) :
    (server.presentedAsCode nut).outcome s = (.ok (server.malformedQr nut), s) := by
  rw [presentedAsCode, malformedQr]
  cases hgiven : Signature.given? nut with
  | none => rfl
  | some text =>
    simp only [outcome_bind_ok (outcome_decodeNut hs server text), responseQr]
    cases Nut.decode server.key text <;> rfl

theorem outcome_handleMalformed_error (hs : s.IsUp) {nut : Option String} {fault : Nut.PackFault}
    (h : server.nextText s address (server.malformedQr nut) = .error fault) :
    (server.handleMalformed nut address).outcome s =
      (.error (.pack fault), { s with draw := s.draw + 1 }) := by
  rw [handleMalformed, outcome_bind_ok (server.outcome_presentedAsCode hs nut)]
  exact outcome_bind_error (outcome_mint_error hs server h)

def rejection (s : State) (nut : Option String) (text : String) (address : Option String) :
    Option Audit.Trail :=
  server.recorded s .denied .malformedRequest
    (Audit.Common.fields s.now { nut := nut, responseNut := text, address := address })

theorem outcome_handleMalformed (hs : s.IsReady) {nut : Option String}
    (h : server.nextText s address (server.malformedQr nut) = .ok text) :
    (server.handleMalformed nut address).outcome s =
        (.ok (server.respond text (.ofList [.clientFailure])),
          { s with draw := s.draw + 2, trail := server.rejection s nut text address }) ∧
      State.IsReady { s with
        draw := s.draw + 2, trail := server.rejection s nut text address } := by
  have hbounds := server.truncate_of_nextText h
  rw [handleMalformed, outcome_bind_ok (server.outcome_presentedAsCode hs.isUp nut),
    outcome_bind_ok (outcome_mint_ok hs.isUp server h)]
  have haudit := server.outcome_audit (s := { s with draw := s.draw + 2 })
    ⟨hs.isUp, hs.isReadable⟩ hbounds.1 hbounds.2 .denied .malformedRequest _
    (isPlain_rejection hbounds.1 hbounds.2 nut text address)
  refine ⟨?_, haudit.2⟩
  simp only [outcome_bind_ok (outcome_now _), outcome_bind_ok haudit.1]
  rfl

theorem outcome_handleMalformed_ok (hs : s.IsReady) {nut : Option String}
    (h : server.nextText s address (server.malformedQr nut) = .ok text) :
    ∃ trail,
      (server.handleMalformed nut address).outcome s =
          (.ok (server.respond text (.ofList [.clientFailure])),
            { s with draw := s.draw + 2, trail }) ∧
        State.IsReady { s with draw := s.draw + 2, trail } :=
  ⟨_, server.outcome_handleMalformed hs h⟩

end Server

end Sqrl
