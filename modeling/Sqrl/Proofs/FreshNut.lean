import Sqrl.Proofs.Step

/-! Every answer carries a nut that can be used: it holds the second and the address of its request,
and it was made to be shown as a code if the presented nut was. It has the text of no earlier nut as
long as no nonce is drawn twice. -/
namespace Sqrl

namespace Nut

def nonce? (text : String) : Option Bytes :=
  (Base64.Url.decode text).toOption.map fun blob => blob.take nonceLength

theorem nonce?_sealRecord (key : Aes.Key) {iv : Bytes} (record : Bytes)
    (hiv : iv.length = nonceLength) : nonce? (sealRecord key iv record) = some iv := by
  rw [nonce?, sealRecord, Base64.Url.decode_encode, ← hiv]
  simp [Except.toOption]

theorem nonce?_of_encode {nut : Nut} {key : Aes.Key} {iv : Bytes} {text : String}
    (hiv : iv.length = nonceLength) (h : nut.encode key iv = .ok text) : nonce? text = some iv := by
  cases hrecord : nut.record with
  | error fault => simp [encode, hrecord, Except.map] at h
  | ok record =>
    simp only [encode, hrecord, Except.map, Except.ok.injEq] at h
    rw [← h, nonce?_sealRecord key record hiv]

end Nut

namespace Server

open Server.Action

variable {server : Server} {moments : List Moment} {history : List Entry} {s t : State} {m : Moment}
  {e : Entry} {text : String} {nut address : Option String}

/-- What a request presents, and what parameters that are no request are sent with: a nut, and the
address they come from. -/
def Call.presents? : Call → Option (Option String × Option String)
  | .handle _ nut address => some (some nut, address)
  | .handleMalformed nut address => some (nut, address)
  | _ => none

theorem malformedQr_some (text : String) :
    server.malformedQr (some text) = server.responseQr text := by
  by_cases hempty : text = ""
  · rw [hempty]
    rfl
  · simp [malformedQr, Signature.given?, Option.filter, hempty]

/-- The nut of an answer is made to be shown as a code if one is presented that can be read and was
made so. -/
theorem malformedQr_iff : server.malformedQr nut = true ↔
    ∃ text presented, nut = some text ∧ Nut.decode server.key text = .ok presented ∧
      presented.qr = true := by
  cases nut with
  | none => simp [malformedQr, Signature.given?]
  | some text =>
    rw [malformedQr_some, responseQr]
    cases hdecode : Nut.decode server.key text with
    | error rejection => simp [hdecode]
    | ok presented => simp [hdecode]

variable (server) in
theorem exists_response (hs : s.IsReady) (hm : m.call.IsRecordable) (htime : m.time.IsReading)
    (hcall : m.call.presents? = some (nut, address)) :
    ∃ text flags, server.nextText { s with now := m.time } address (server.malformedQr nut) =
        .ok text ∧
      (server.step s m).1.result = .ok (.response (server.respond text flags)) := by
  have hready : State.IsReady { s with now := m.time } := ⟨hs.isUp, hs.isReadable⟩
  obtain ⟨text, htext⟩ := server.nextText_ok (s := { s with now := m.time }) htime address
    (server.malformedQr nut)
  obtain ⟨time, call⟩ := m
  cases call with
  | handle request presented caller =>
    obtain ⟨rfl, rfl⟩ : some presented = nut ∧ caller = address := by
      simpa [Call.presents?] using hcall
    obtain ⟨flags, t, hhandle, -⟩ :=
      server.outcome_handle_ok hready hm (malformedQr_some presented ▸ htext)
    rw [step_of_ok server (m := ⟨time, .handle request presented caller⟩) (outcome_bind_ok hhandle)]
    exact ⟨text, flags, htext, rfl⟩
  | handleMalformed presented caller =>
    obtain ⟨rfl, rfl⟩ : presented = nut ∧ caller = address := by
      simpa [Call.presents?] using hcall
    obtain ⟨trail, hhandle, -⟩ := server.outcome_handleMalformed_ok hready htext
    rw [step_of_ok server (m := ⟨time, .handleMalformed presented caller⟩)
      (outcome_bind_ok hhandle)]
    exact ⟨text, _, htext, rfl⟩
  | issue caller qr => simp [Call.presents?] at hcall
  | readIdentity presented => simp [Call.presents?] at hcall
  | prune time => simp [Call.presents?] at hcall

variable (server) in
/-- A call that makes a nut draws the two parts of that nut and nothing else. -/
theorem draw_of_minted (hs : s.IsReady) (hm : m.call.IsRecordable)
    (h : (server.step s m).1.minted? = some text) :
    (∃ address qr, server.nextText { s with now := m.time } address qr = .ok text) ∧
      (server.step s m).2.draw = s.draw + 2 := by
  have hready : State.IsReady { s with now := m.time } := ⟨hs.isUp, hs.isReadable⟩
  obtain ⟨time, call⟩ := m
  cases call with
  | issue address qr =>
    cases hnext : server.nextText { s with now := time } address qr with
    | error fault =>
      rw [step_of_error server (m := ⟨time, .issue address qr⟩)
        (outcome_bind_error (server.outcome_issue_error hready.isUp hnext))] at h
      cases h
    | ok made =>
      obtain ⟨trail, records, hissue, -⟩ := server.outcome_issue_ok hready hnext
      rw [step_of_ok server (m := ⟨time, .issue address qr⟩) (outcome_bind_ok hissue)] at h ⊢
      cases h
      exact ⟨⟨address, qr, hnext⟩, rfl⟩
  | handle request nut address =>
    cases hnext : server.nextText { s with now := time } address (server.responseQr nut) with
    | error fault =>
      obtain ⟨records, hhandle⟩ := server.outcome_handle_error hready.isUp request hnext
      rw [step_of_error server (m := ⟨time, .handle request nut address⟩)
        (outcome_bind_error hhandle)] at h
      cases h
    | ok made =>
      obtain ⟨flags, t, hhandle, -, hdraw⟩ := server.outcome_handle_ok hready hm hnext
      rw [step_of_ok server (m := ⟨time, .handle request nut address⟩)
        (outcome_bind_ok hhandle)] at h ⊢
      cases h
      exact ⟨⟨address, _, hnext⟩, hdraw⟩
  | handleMalformed nut address =>
    cases hnext : server.nextText { s with now := time } address (server.malformedQr nut) with
    | error fault =>
      rw [step_of_error server (m := ⟨time, .handleMalformed nut address⟩)
        (outcome_bind_error (server.outcome_handleMalformed_error hready.isUp hnext))] at h
      cases h
    | ok made =>
      obtain ⟨trail, hhandle, -⟩ := server.outcome_handleMalformed_ok hready hnext
      rw [step_of_ok server (m := ⟨time, .handleMalformed nut address⟩)
        (outcome_bind_ok hhandle)] at h ⊢
      cases h
      exact ⟨⟨address, _, hnext⟩, rfl⟩
  | readIdentity nut =>
    rw [server.step_readIdentity hs] at h
    cases h
  | prune reading =>
    rw [server.step_prune hs] at h
    cases h

/-- The nonce that a call draws, if it does: of the two parts of a nut the nonce is drawn last. -/
def drawnNonce? (server : Server) (s : State) (m : Moment) : Option Bytes :=
  if s.draw + 1 < (server.step s m).2.draw then
    some (server.entropy.bytes (s.draw + 1) Nut.nonceLength)
  else none

def nonces (server : Server) : State → List Moment → List Bytes
  | _, [] => []
  | s, m :: moments =>
    (server.drawnNonce? s m).toList ++ nonces server (server.step s m).2 moments

theorem nonces_append (s : State) (first second : List Moment) :
    server.nonces s (first ++ second) =
      server.nonces s first ++ server.nonces (server.run s first).2 second := by
  induction first generalizing s with
  | nil => rfl
  | cons m first ih => simp only [List.cons_append, nonces, run_cons, ih, List.append_assoc]

theorem nonce_of_minted (hs : s.IsReady) (hm : m.call.IsRecordable)
    (h : (server.step s m).1.minted? = some text) :
    ∃ nonce, server.drawnNonce? s m = some nonce ∧ Nut.nonce? text = some nonce := by
  obtain ⟨⟨address, qr, htext⟩, hdraw⟩ := server.draw_of_minted hs hm h
  refine ⟨_, if_pos (by omega), ?_⟩
  exact Nut.nonce?_of_encode (server.entropy.length_bytes ..) htext

theorem nonce_mem_nonces (hs : s.IsReady) (hmoments : ∀ m ∈ moments, m.call.IsRecordable)
    (he : e ∈ (server.run s moments).1) (h : e.minted? = some text) :
    ∃ nonce ∈ server.nonces s moments, Nut.nonce? text = some nonce := by
  induction moments generalizing s with
  | nil => cases he
  | cons m moments ih =>
    obtain ⟨hm, hmoments⟩ := List.forall_mem_cons.mp hmoments
    rw [run_cons] at he
    rw [nonces]
    cases List.mem_cons.mp he with
    | inl hfirst =>
      rw [hfirst] at h
      obtain ⟨nonce, hdrawn, hnonce⟩ := nonce_of_minted hs hm h
      exact ⟨nonce, List.mem_append_left _ (by rw [hdrawn]; simp), hnonce⟩
    | inr hrest =>
      obtain ⟨nonce, hmem, hnonce⟩ := ih (server.step_spec hs hm).isReady hmoments hrest
      exact ⟨nonce, List.mem_append_right _ hmem, hnonce⟩

theorem minted_ne_of_nodup (hs : s.IsReady) (hmoments : ∀ m ∈ moments, m.call.IsRecordable)
    (hrun : server.run s moments = (history, t)) (ht : t.IsReady) (hm : m.call.IsRecordable)
    (hdrawn : (server.nonces s (moments ++ [m])).Nodup)
    (h : (server.step t m).1.minted? = some text) : ∀ d ∈ history, d.minted? ≠ some text := by
  intro d hd hminted
  obtain ⟨nonce, hnonce, htext⟩ := nonce_of_minted ht hm h
  have hmade : d ∈ (server.run s moments).1 := by rwa [hrun]
  obtain ⟨earlier, hearlier, htext'⟩ := nonce_mem_nonces hs hmoments hmade hminted
  obtain rfl : earlier = nonce := Option.some.inj (htext'.symm.trans htext)
  rw [nonces_append, hrun, nonces, hnonce] at hdrawn
  exact (List.nodup_append.mp hdrawn).2.2 _ hearlier _ (by simp) rfl

/-- Whatever comes of a request, its response carries a nut that the server can read: it holds the
second of the request and the fingerprint of its address, and it is to be shown as a code just if
the presented nut can be read and is. It has the text of no nut made before it in the run, if the
nonces drawn in the run all differ. -/
theorem response_nut_usable {entropy : Entropy} {now : Number} {draw : Nat} {first : State}
    (hbuild : build server.settings entropy now draw = .ok (server, first))
    (hmoments : ∀ m ∈ moments, m.call.IsRecordable) (hrun : server.run first moments = (history, s))
    (hm : m.call.IsRecordable) (hcall : m.call.presents? = some (nut, address))
    (htime : m.time.IsReading) (hstep : server.step s m = (e, t)) :
    ∃ r text fresh, e.result = .ok (.response r) ∧ r.nut = some text ∧
      Nut.decode server.key text = .ok fresh ∧
      fresh.created = m.time.truncate ∧ fresh.ipHash = Address.fingerprint address ∧
      (fresh.qr = true ↔ ∃ shown presented, nut = some shown ∧
        Nut.decode server.key shown = .ok presented ∧ presented.qr = true) ∧
      ((server.nonces first (moments ++ [m])).Nodup → ∀ d ∈ history, d.minted? ≠ some text) := by
  have hisRun : server.IsRun moments history s := ⟨entropy, now, draw, first, hbuild, hrun⟩
  have hready := hisRun.isReady hmoments
  obtain ⟨text, flags, htext, hresult⟩ := server.exists_response hready hm htime hcall
  have hminted : (server.step s m).1.minted? = some text := by
    rw [Entry.minted?, hresult]
    rfl
  refine ⟨server.respond text flags, text, _, ?_, rfl, server.decode_nextText htext, rfl, rfl,
    malformedQr_iff, fun hdrawn => ?_⟩
  · rw [hstep] at hresult
    exact hresult
  · exact minted_ne_of_nodup (first_of_build hbuild).1 hmoments hrun hready hm hdrawn hminted

section Sample

theorem nodup_nonces_sample {issued login : Entry} {s t : State} {text : String}
    (hissue : (sampleServer 900 (by decide)).step (sampleFirst 900) sampleIssue = (issued, s))
    (hready : s.IsReady)
    (hlogin : (sampleServer 900 (by decide)).step s (sampleLogin (.int 1001) sampleNut) =
      (login, t))
    (hminted : login.minted? = some text) :
    ((sampleServer 900 (by decide)).nonces (sampleFirst 900)
      [sampleIssue, sampleLogin (.int 1001) sampleNut]).Nodup := by
  have hfirst : s.draw = 3 := by
    have hdraw := (draw_of_minted (m := sampleIssue) _ (isReady_sampleFirst 900) trivial
      (minted?_sampleIssue (by decide : 600 ≤ 900))).2
    rwa [hissue] at hdraw
  have hsecond : t.draw = 5 := by
    have hdraw := ((sampleServer 900 (by decide)).draw_of_minted
      (m := sampleLogin (.int 1001) sampleNut) hready isRecordable_sampleRequest
      (by rw [hlogin]; exact hminted)).2
    rwa [hlogin, hfirst] at hdraw
  -- Before the first nut one draw was made, for the key; each nut takes two, its nonce the second.
  have hnonces : (sampleServer 900 (by decide)).nonces (sampleFirst 900)
      [sampleIssue, sampleLogin (.int 1001) sampleNut] =
        [Entropy.counting.bytes 2 12, Entropy.counting.bytes 4 12] := by
    simp only [nonces, drawnNonce?, hissue, hlogin, hfirst, hsecond]
    rfl
  rw [hnonces]
  decide

/-- The nut of the response to a login is to be shown as a code, like the one that was issued, and
it is another one. -/
theorem response_nut_usable_login :
    ∃ s e t r text fresh,
      (sampleServer 900 (by decide)).step s (sampleLogin (.int 1001) sampleNut) = (e, t) ∧
        e.result = .ok (.response r) ∧ r.nut = some text ∧
        Nut.decode (sampleServer 900 (by decide)).key text = .ok fresh ∧ fresh.created = 1001 ∧
        fresh.qr = true ∧ text ≠ sampleNut := by
  have hreading : Number.IsReading (.int 1001) := by decide +kernel
  have hmoments : ∀ m ∈ [sampleIssue], m.call.IsRecordable := by
    simp [sampleIssue, Call.IsRecordable]
  obtain ⟨issued, s, hissue, hrun, -, hspec⟩ := (isRun_sample (by decide : 600 ≤ 900)).next
    (by simp) sampleIssue trivial
  have hminted : issued.minted? = some sampleNut := by
    have hminted := minted?_sampleIssue (by decide : 600 ≤ 900)
    rwa [hissue] at hminted
  have hfirst : (sampleServer 900 (by decide)).run (sampleFirst 900) [sampleIssue] =
      ([issued], s) := by
    rw [run_cons, hissue, run]
  obtain ⟨login, t, hlogin, -⟩ := hrun.next hmoments (sampleLogin (.int 1001) sampleNut)
    isRecordable_sampleRequest
  have hbuild : build (sampleServer 900 (by decide)).settings .counting (.int 1000) 0 =
      .ok (sampleServer 900 (by decide), sampleFirst 900) := rfl
  obtain ⟨r, text, fresh, hresult, htext, hdecode, hcreated, -, hqr, hnew⟩ :=
    response_nut_usable (m := sampleLogin (.int 1001) sampleNut) hbuild hmoments hfirst
      isRecordable_sampleRequest rfl hreading hlogin
  have hagain : login.minted? = some text := by
    rw [Entry.minted?, hresult, ← htext]
  have hdrawn := nodup_nonces_sample hissue hspec.isReady hlogin hagain
  refine ⟨s, login, t, r, text, fresh, hlogin, hresult, htext, hdecode, hcreated, ?_, ?_⟩
  · have hshown := decode_nextText _ (nextText_sample (by decide : 600 ≤ 900))
    exact hqr.mpr ⟨sampleNut, _, rfl, hshown, rfl⟩
  · intro hsame
    exact hnew hdrawn issued (List.mem_singleton_self _) (hsame ▸ hminted)

end Sample

end Server

end Sqrl
