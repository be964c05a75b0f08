import Sqrl.Proofs.Form
import Sqrl.Proofs.Response
import Sqrl.Proofs.Step
import Sqrl.Server.Endpoints

/-! The endpoint for the requests of clients. Whatever comes with a nut, be it of this server or
not, is answered with a response that the client can read. -/
namespace Sqrl

theorem Nut.isOneLine_of_encode {key : Aes.Key} {iv : Bytes} {nut : Nut} {text : String}
    (h : Nut.encode key iv nut = .ok text) : Text.IsOneLine text.toList := by
  rw [Nut.encode] at h
  cases hrecord : nut.record with
  | error fault =>
    rw [hrecord] at h
    cases h
  | ok record =>
    rw [hrecord] at h
    obtain rfl : Nut.sealRecord key iv record = text := Except.ok.inj h
    refine Text.isOneLine_of_not_mem fun hreturn => ?_
    exact absurd (Base64.Url.not_isBlank_of_mem_encode hreturn) (by decide)

namespace Server

open Server.Action

variable (server : Server) {s : State} {nut text : String} {body : Bytes}

theorem outcome_answerBody_ok (hs : s.IsReady) (hnow : s.now.IsReading)
    (hbody : body.length < 2 ^ 63) (nut address : String) :
    ∃ text flags t, (server.answerBody nut body address).outcome s =
        (.ok (server.respond text flags), t) ∧ Text.IsOneLine text.toList ∧ t.IsReady := by
  simp only [answerBody]
  split
  · next request hparams =>
    obtain ⟨text, htext⟩ := server.nextText_ok hnow (some address) (server.responseQr nut)
    obtain ⟨flags, t, hhandle, hready, -⟩ :=
      server.outcome_handle_ok hs (Request.isRecordable_of_readBody hbody hparams) htext
    exact ⟨text, flags, t, hhandle, Nut.isOneLine_of_encode htext, hready⟩
  · next fault _ =>
    set logged : State := { s with records := s.records ++ [.ofText .info "endpoint"
      ("Malformed SQRL request: " ++ fault.message) none] } with hlogged
    have hready : logged.IsReady := ⟨hs.isUp, hs.isReadable⟩
    obtain ⟨text, htext⟩ := server.nextText_ok (s := logged) hnow (some address)
      (server.malformedQr nut)
    obtain ⟨trail, hhandle, hafter⟩ := server.outcome_handleMalformed_ok hready htext
    exact ⟨text, _, _, (outcome_bind_ok (outcome_log ..)).trans hhandle,
      Nut.isOneLine_of_encode htext, hafter⟩

variable (hversion : Text.IsOneLine server.settings.version.toList)
  (hbaseUri : Text.IsOneLine server.settings.baseUri.toList)
include hversion hbaseUri

theorem read_respond (htext : Text.IsOneLine text.toList) (flags : FlagSet) :
    ∃ written, (server.respond text flags).encoded = .ok written ∧
      Response.read written = .ok [("ver", server.settings.version), ("nut", text),
        ("tif", toString flags.mask), ("qry", server.settings.baseUri ++ "?nut=" ++ text)] :=
  ⟨_, Response.encoded_of_present (Response.present_build ..),
    (Response.isReadable_builtFields hversion hbaseUri htext flags).read_encodeText⟩

theorem outcome_postRequest_ok (hs : s.IsReady) (hnow : s.now.IsReading) (hnut : nut ≠ "")
    (hbody : body.length < 2 ^ 63) (address : String) :
    ∃ text t fresh mask, (server.postRequest (some nut) body address).outcome s =
        (.ok ⟨200, .plain text⟩, t) ∧ t.IsReady ∧
      Response.read text = .ok [("ver", server.settings.version), ("nut", fresh),
        ("tif", toString mask), ("qry", server.settings.baseUri ++ "?nut=" ++ fresh)] ∧
      mask < 512 := by
  obtain ⟨fresh, flags, t, hanswer, hfresh, hready⟩ :=
    server.outcome_answerBody_ok hs hnow hbody nut address
  obtain ⟨written, hwritten, hread⟩ := server.read_respond hversion hbaseUri hfresh flags
  have hgiven : Signature.given? (some nut) = some nut := by
    simp [Signature.given?, Option.filter, hnut]
  refine ⟨written, t, fresh, flags.mask, ?_, hready, hread, flags.mask_lt⟩
  rw [postRequest, hgiven]
  refine (outcome_bind_ok hanswer).trans ?_
  simp only [hwritten]
  rfl

omit hversion hbaseUri
variable {server}

/-- After every run, at a reading of the clock that a nut can hold, whatever body is sent with a nut
is answered with a response in which the client reads version, nut, flags and where the next request
goes, and nothing else. No body that fits a memory has 2^63 bytes. -/
theorem postRequest_answered {moments : List Moment} {history : List Entry}
    (hrun : server.IsRun moments history s) (hmoments : ∀ m ∈ moments, m.call.IsRecordable)
    (hversion : Text.IsOneLine server.settings.version.toList)
    (hbaseUri : Text.IsOneLine server.settings.baseUri.toList)
    {time : Number} (htime : time.IsReading) (hnut : nut ≠ "") (hbody : body.length < 2 ^ 63)
    (address : String) :
    ∃ text t fresh mask, (server.postRequest (some nut) body address).outcome
        { s with now := time } = (.ok ⟨200, .plain text⟩, t) ∧
      Response.read text = .ok [("ver", server.settings.version), ("nut", fresh),
        ("tif", toString mask), ("qry", server.settings.baseUri ++ "?nut=" ++ fresh)] ∧
      mask < 512 := by
  have hs := hrun.isReady hmoments
  have hready : State.IsReady { s with now := time } := ⟨hs.isUp, hs.isReadable⟩
  obtain ⟨text, t, fresh, mask, hanswer, -, hread, hmask⟩ :=
    server.outcome_postRequest_ok hversion hbaseUri hready htime hnut hbody address
  exact ⟨text, t, fresh, mask, hanswer, hread, hmask⟩

section Sample

/-- A byte that is no text, with a nut that is none, is answered. -/
theorem postRequest_answered_byte :
    ∃ text t fresh mask, ((sampleServer 900 (by decide)).postRequest (some "x") [0xFF]
        "127.0.0.1").outcome { sampleFirst 900 with now := .int 1000 } =
        (.ok ⟨200, .plain text⟩, t) ∧
      Response.read text = .ok [("ver", "1"), ("nut", fresh), ("tif", toString mask),
        ("qry", "/sqrl" ++ "?nut=" ++ fresh)] ∧
      mask < 512 :=
  postRequest_answered (isRun_sample (by decide)) (by simp)
    (Text.isOneLine_of_not_mem (by decide)) (Text.isOneLine_of_not_mem (by decide))
    isReading_thousand (by decide) (by decide) "127.0.0.1"

end Sample

end Server

end Sqrl
