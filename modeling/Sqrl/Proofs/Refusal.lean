import Sqrl.Proofs.FreshNut

/-! What a refusal tells. An answer is made of the next nut and of flags, whatever the stores hold
and whichever operations are out of service, and the flag of a refusal stands alone. So there is one
refusal only for the nut and the address of a call. -/
namespace Sqrl.Server

variable {α β : Type} {s t u : State}

namespace Action

/-- What an action in two parts gives comes from both parts. -/
theorem outcome_bind_eq_ok_iff {x : Action α} {f : α → Action β} {b : β} :
    outcome (x >>= f) s = (.ok b, u) ↔
      ∃ a t, x.outcome s = (.ok a, t) ∧ (f a).outcome t = (.ok b, u) := by
  rw [outcome_bind]
  rcases x.outcome s with ⟨_ | a, t⟩
  · simp
  · simp only [Prod.mk.injEq, Except.ok.injEq]
    constructor
    · intro h
      exact ⟨a, t, ⟨rfl, rfl⟩, h⟩
    · rintro ⟨_, _, ⟨rfl, rfl⟩, h⟩
      exact h

/-- All that an action gives, from whatever state it starts, has a property. -/
structure Gives (x : Action α) (P : α → Prop) : Prop where
  of_outcome : ∀ {s a t}, x.outcome s = (.ok a, t) → P a

namespace Gives

variable {x : Action α} {f : α → Action β} {P : β → Prop}

theorem pure {b : β} (h : P b) : Gives (pure b) P where
  of_outcome houtcome := by
    rw [outcome_pure] at houtcome
    cases houtcome
    exact h

theorem bind {Q : α → Prop} (hx : x.Gives Q) (hf : ∀ a, Q a → (f a).Gives P) :
    (x >>= f).Gives P where
  of_outcome houtcome := by
    obtain ⟨a, t, ha, hb⟩ := outcome_bind_eq_ok_iff.mp houtcome
    exact (hf a (hx.of_outcome ha)).of_outcome hb

theorem after (hf : ∀ a, (f a).Gives P) : (x >>= f).Gives P :=
  bind (Q := fun _ => True) ⟨fun _ => trivial⟩ fun a _ => hf a

end Gives

end Action

open Server.Action

variable {server : Server} {request : Request} {nut : String} {address : Option String} {qr : Bool}

/-! No part of the answer to a genuine request is the flag of a refusal. -/

theorem gives_identify : (identify request).Gives fun found => .clientFailure ∉ found.2 := by
  refine .after fun account => ?_
  cases account with
  | some account => exact .pure (by simp)
  | none =>
    cases request.pidk with
    | none => exact .pure (by simp)
    | some previous =>
      refine .after fun account => ?_
      cases account with
      | none => exact .pure (by simp)
      | some account => exact .after fun _ => .after fun _ => .pure (by simp)

theorem gives_dispatch (account : Option Account) (text : String) :
    (dispatch request account text).Gives fun flags => .clientFailure ∉ flags := by
  rw [dispatch]
  cases request.command with
  | none => exact .after fun _ => .pure (by simp)
  | some command =>
    cases command with
    | query => exact .pure (by simp)
    | ident =>
      cases account with
      | some account => exact .after fun _ => .pure (by simp)
      | none => exact .after fun _ => .after fun _ => .after fun _ => .pure (by simp)
    | disable => exact .after fun _ => .pure (by simp)
    | enable => exact .after fun _ => .pure (by simp)
    | remove => exact .after fun _ => .pure (by simp)

theorem gives_disabledFlag (key : String) (account : Option Account) :
    (disabledFlag key account).Gives fun flags => .clientFailure ∉ flags := by
  cases account with
  | none => exact .pure (by simp)
  | some account => exact .after fun s => .pure (by split <;> simp)

theorem gives_process (presented response : Nut) (text : String) :
    (server.process request nut presented response text).Gives fun answer =>
      answer.1.contains .clientFailure = false := by
  refine .after fun now => ?_
  by_cases hage : server.settings.nutExpiration < now.truncate - presented.created
  · simp only [if_pos hage]
    exact .after fun _ => .pure (by simp)
  simp only [if_neg hage]
  refine .after fun fresh => ?_
  cases fresh with
  | false => exact .after fun _ => .pure (by simp)
  | true =>
    refine .after fun _ => ?_
    refine gives_identify.bind fun found hfound => ?_
    refine (gives_dispatch found.1 text).bind fun commandFlags hcommand => ?_
    refine (gives_disabledFlag request.idk found.1).bind fun stateFlags hstate => .pure ?_
    simp only [FlagSet.contains_ofList, decide_eq_false_iff_not, List.mem_append, hfound, hcommand,
      hstate, or_false]
    split <;> simp

/-- Is a response made for a nut from flags, that of a refusal only alone? -/
def IsAnswer (server : Server) (text : String) (r : Response) : Prop :=
  ∃ flags : FlagSet, r = server.respond text flags ∧
    (flags.contains .clientFailure = true → flags = .ofList [.clientFailure])

def Answers (server : Server) (s : State) (address : Option String) (qr : Bool) (r : Response) :
    Prop :=
  ∃ text, server.nextText s address qr = .ok text ∧ server.IsAnswer text r

/-- All refusals for one nut are one. -/
theorem Answers.unique {a b : Response} (ha : server.Answers s address qr a)
    (hb : server.Answers t address qr b) (hnow : t.now = s.now) (hdraw : t.draw = s.draw)
    (hfa : .clientFailure ∈ a.flags) (hfb : .clientFailure ∈ b.flags) : a = b := by
  obtain ⟨text, htext, flags, rfl, halone⟩ := ha
  obtain ⟨text', htext', flags', rfl, halone'⟩ := hb
  rw [mem_flags_respond] at hfa hfb
  have hnext : server.nextText t address qr = server.nextText s address qr := by
    simp only [nextText, nextNut, hnow, hdraw]
  rw [hnext, htext] at htext'
  rw [Except.ok.inj htext', halone hfa, halone' hfb]

theorem eq_of_demand {op : Operation} {v : Unit} (h : (demand op).outcome s = (.ok v, t)) :
    t = s := by
  rw [demand] at h
  obtain ⟨_, _, hget, hrest⟩ := outcome_bind_eq_ok_iff.mp h
  cases hget
  split at hrest
  · cases hrest
  · cases hrest
    rfl

theorem of_createNut {made : Nut} (h : (server.createNut address qr).outcome s = (.ok made, t)) :
    made = server.nextNut s address qr ∧ t = { s with draw := s.draw + 1 } := by
  obtain ⟨_, _, hdemand, hrest⟩ := outcome_bind_eq_ok_iff.mp h
  obtain rfl := eq_of_demand hdemand
  cases hrest
  exact ⟨rfl, rfl⟩

theorem of_encodeNut {made : Nut} {text : String}
    (h : (server.encodeNut made).outcome s = (.ok text, t)) :
    made.encode server.key (server.entropy.bytes s.draw Nut.nonceLength) = .ok text := by
  obtain ⟨_, _, hdemand, hrest⟩ := outcome_bind_eq_ok_iff.mp h
  obtain rfl := eq_of_demand hdemand
  rw [Nut.encode]
  cases hrecord : made.record with
  | error fault => simp [hrecord] at hrest
  | ok record =>
    simp only [hrecord] at hrest
    cases hrest
    rfl

theorem nextText_of_mint {text : String}
    (h : (server.mint address qr).outcome s = (.ok text, t)) :
    server.nextText s address qr = .ok text := by
  obtain ⟨made, _, hmade, hencode⟩ := outcome_bind_eq_ok_iff.mp h
  obtain ⟨rfl, rfl⟩ := of_createNut hmade
  exact of_encodeNut hencode

theorem of_decodeNut {text : String} {read : Except Nut.Rejection Nut}
    (h : (server.decodeNut text).outcome s = (.ok read, t)) :
    read = Nut.decode server.key text ∧ t = s := by
  obtain ⟨_, _, hdemand, hrest⟩ := outcome_bind_eq_ok_iff.mp h
  obtain rfl := eq_of_demand hdemand
  cases hrest
  exact ⟨rfl, rfl⟩

theorem gives_refuse (reason : Reason) (nut : Option String) (text : String)
    (address detail : Option String) :
    (server.refuse reason request nut text address detail).Gives (server.IsAnswer text) :=
  .after fun _ => .after fun _ => .pure ⟨_, rfl, fun _ => rfl⟩

theorem gives_accept (presented response : Nut) (text : String) :
    (server.accept request nut presented response text address).Gives (server.IsAnswer text) := by
  refine (gives_process presented response text).bind fun answer hanswer => ?_
  refine .after fun _ => .after fun _ => .after fun _ => .after fun _ =>
    .pure ⟨answer.1, rfl, fun h => ?_⟩
  rw [hanswer] at h
  cases h

theorem answers_judge {presented : Nut} {r : Response}
    (h : (server.judge request nut presented address).outcome s = (.ok r, t)) :
    server.Answers s address presented.qr r := by
  obtain ⟨made, _, hmade, hrest⟩ := outcome_bind_eq_ok_iff.mp h
  obtain ⟨rfl, rfl⟩ := of_createNut hmade
  obtain ⟨text, after, hencode, hjudged⟩ := outcome_bind_eq_ok_iff.mp hrest
  refine ⟨text, of_encodeNut hencode, Gives.of_outcome ?_ hjudged⟩
  -- Whichever way the request is judged, what is given is an answer.
  by_cases hversion : request.ver = server.settings.version
  · simp only [hversion, ne_eq, not_true_eq_false, if_false]
    cases Signature.check (some request.signedMessage) request.idk request.ids with
    | error fault => exact .after fun _ => .after fun _ => gives_refuse ..
    | ok => exact gives_accept ..
  · simp only [ne_eq, hversion, not_false_eq_true, if_true]
    exact .after fun _ => gives_refuse ..

theorem answers_handle {r : Response}
    (h : (server.handle request nut address).outcome s = (.ok r, t)) :
    server.Answers s address (server.responseQr nut) r := by
  obtain ⟨_, logged, hlog, hread⟩ := outcome_bind_eq_ok_iff.mp h
  cases hlog
  obtain ⟨read, _, hdecode, hjudge⟩ := outcome_bind_eq_ok_iff.mp hread
  obtain ⟨hread, rfl⟩ := of_decodeNut hdecode
  cases read with
  | error rejection =>
    obtain ⟨_, _, hlog, hrest⟩ := outcome_bind_eq_ok_iff.mp hjudge
    cases hlog
    obtain ⟨text, _, hmint, hrefuse⟩ := outcome_bind_eq_ok_iff.mp hrest
    have htext := nextText_of_mint hmint
    have hqr : server.responseQr nut = false := responseQr_of_error server hread.symm
    rw [hqr]
    exact ⟨text, htext, (gives_refuse ..).of_outcome hrefuse⟩
  | ok presented =>
    have hanswer := answers_judge hjudge
    have hqr : server.responseQr nut = presented.qr := responseQr_of_ok server hread.symm
    rw [hqr]
    exact hanswer

theorem of_presentedAsCode {nut : Option String} {qr : Bool}
    (h : (server.presentedAsCode nut).outcome s = (.ok qr, t)) :
    qr = server.malformedQr nut ∧ t = s := by
  rw [presentedAsCode] at h
  rw [malformedQr]
  cases hgiven : Signature.given? nut with
  | none =>
    simp only [hgiven] at h
    cases h
    exact ⟨rfl, rfl⟩
  | some text =>
    simp only [hgiven] at h
    obtain ⟨read, _, hdecode, hqr⟩ := outcome_bind_eq_ok_iff.mp h
    obtain ⟨hread, rfl⟩ := of_decodeNut hdecode
    cases read with
    | error rejection =>
      cases hqr
      exact ⟨(responseQr_of_error server hread.symm).symm, rfl⟩
    | ok presented =>
      cases hqr
      exact ⟨(responseQr_of_ok server hread.symm).symm, rfl⟩

theorem answers_handleMalformed {nut : Option String} {r : Response}
    (h : (server.handleMalformed nut address).outcome s = (.ok r, t)) :
    server.Answers s address (server.malformedQr nut) r := by
  obtain ⟨qr, _, hqr, hrest⟩ := outcome_bind_eq_ok_iff.mp h
  obtain ⟨rfl, rfl⟩ := of_presentedAsCode hqr
  obtain ⟨text, _, hmint, hrefuse⟩ := outcome_bind_eq_ok_iff.mp hrest
  refine ⟨text, nextText_of_mint hmint, Gives.of_outcome ?_ hrefuse⟩
  exact .after fun _ => .after fun _ => .pure ⟨_, rfl, fun _ => rfl⟩

/-- Every response is made for the next nut and from flags. -/
theorem answers_step {m : Moment} {nut : Option String} {r : Response}
    (hcall : m.call.presents? = some (nut, address))
    (h : (server.step s m).1.result = .ok (.response r)) :
    server.Answers { s with now := m.time } address (server.malformedQr nut) r := by
  obtain ⟨time, call⟩ := m
  obtain ⟨t, houtcome⟩ : ∃ t, (server.perform call).outcome { s with now := time } =
      (.ok (.response r), t) := ⟨_, Prod.ext h rfl⟩
  cases call with
  | handle request presented caller =>
    obtain ⟨rfl, rfl⟩ : some presented = nut ∧ caller = address := by
      simpa [Call.presents?] using hcall
    obtain ⟨_, _, hanswer, hreturn⟩ := outcome_bind_eq_ok_iff.mp houtcome
    cases hreturn
    rw [malformedQr_some]
    exact answers_handle hanswer
  | handleMalformed presented caller =>
    obtain ⟨rfl, rfl⟩ : presented = nut ∧ caller = address := by
      simpa [Call.presents?] using hcall
    obtain ⟨_, _, hanswer, hreturn⟩ := outcome_bind_eq_ok_iff.mp houtcome
    cases hreturn
    exact answers_handleMalformed hanswer
  | issue caller qr => simp [Call.presents?] at hcall
  | readIdentity presented => simp [Call.presents?] at hcall
  | prune time => simp [Call.presents?] at hcall

/-- Is the nut of a call unreadable, its version another, its signature rejected, or is it no request
at all? -/
def Call.IsRefused (server : Server) : Call → Prop
  | .handle request nut _ =>
    (∃ rejection, Nut.decode server.key nut = .error rejection) ∨
      request.ver ≠ server.settings.version ∨
      ∃ fault, Signature.check (some request.signedMessage) request.idk request.ids = .error fault
  | .handleMalformed _ _ => True
  | _ => False

theorem isRefused_handle_iff : (Call.handle request nut address).IsRefused server ↔
    ∀ presented, ¬ server.IsGenuine request nut presented := by
  rw [Call.IsRefused]
  constructor
  · rintro (⟨rejection, hdecode⟩ | hversion | ⟨fault, hcheck⟩) presented hgenuine
    · cases hdecode.symm.trans hgenuine.decode
    · exact hversion hgenuine.version
    · cases hcheck.symm.trans hgenuine.signature
  · intro h
    by_contra hnone
    simp only [not_or, not_exists, ne_eq, not_not] at hnone
    obtain ⟨hdecode, hversion, hcheck⟩ := hnone
    cases hread : Nut.decode server.key nut with
    | error rejection => exact hdecode rejection hread
    | ok presented =>
      cases hsignature : Signature.check (some request.signedMessage) request.idk request.ids with
      | error fault => exact hcheck fault hsignature
      | ok => exact h presented ⟨hread, hversion, hsignature⟩

theorem Handled.refused_iff {time : Number} {result : Except Fault Answer}
    (h : server.Handled s time request nut address result t) (htime : time.IsReading) :
    (Call.handle request nut address).IsRefused server ↔
      ∃ r, result = .ok (.response r) ∧ .clientFailure ∈ r.flags := by
  rw [isRefused_handle_iff]
  cases h with
  | failed htext =>
    obtain ⟨text, hok⟩ := server.nextText_ok (s := { s with now := time }) htime address
      (server.responseQr nut)
    cases htext.symm.trans hok
  | denied _ hfalse hresult => simp [hfalse, hresult, mem_flags_respond]
  | @transient presented _ _ hgenuine _ hresult =>
    simp only [hresult, Except.ok.injEq, Answer.response.injEq, exists_eq_left', mem_flags_respond]
    exact iff_of_false (fun h => h presented hgenuine) (by simp)
  | @processed presented _ _ hgenuine _ _ hresult =>
    simp only [hresult, Except.ok.injEq, Answer.response.injEq, exists_eq_left', mem_flags_respond]
    exact iff_of_false (fun h => h presented hgenuine) (by simp [contains_answerFlags])

variable (server) in
/-- For one reading of the clock and one position of the random bytes, all refusals of a nut and an
address are one text, whatever the cause and whatever the stores hold. And refused is exactly what
is no request, or has no readable nut, no right version or no right signature. -/
theorem refusals_equal {c d : Call} {nut : Option String} (time : Number)
    (hc : c.presents? = some (nut, address)) (hd : d.presents? = some (nut, address))
    (hdraw : t.draw = s.draw) :
    (∀ a b, (server.step s ⟨time, c⟩).1.result = .ok (.response a) →
      (server.step t ⟨time, d⟩).1.result = .ok (.response b) →
        .clientFailure ∈ a.flags → .clientFailure ∈ b.flags →
          ∃ text, a.encoded = .ok text ∧ b.encoded = .ok text) ∧
    (s.IsReady → c.IsRecordable → time.IsReading →
      (c.IsRefused server ↔
        ∃ a, (server.step s ⟨time, c⟩).1.result = .ok (.response a) ∧ .clientFailure ∈ a.flags)) := by
  constructor
  · intro a b ha hb hfa hfb
    have hanswer := answers_step (m := ⟨time, c⟩) hc ha
    have hanswer' := answers_step (m := ⟨time, d⟩) hd hb
    obtain rfl := hanswer.unique hanswer' rfl hdraw hfa hfb
    obtain ⟨text, -, flags, rfl, -⟩ := hanswer
    have hwritten := Response.encoded_of_present (Response.present_build server.settings.version
      server.settings.baseUri text flags)
    exact ⟨_, hwritten, hwritten⟩
  · intro hs hrecordable htime
    cases c with
    | handle request presented caller =>
      exact (server.handled_step hs time hrecordable presented caller).2.refused_iff htime
    | handleMalformed presented caller =>
      have hready : State.IsReady { s with now := time } := ⟨hs.isUp, hs.isReadable⟩
      obtain ⟨text, htext⟩ := server.nextText_ok (s := { s with now := time }) htime caller
        (server.malformedQr presented)
      obtain ⟨trail, hhandle, -⟩ := server.outcome_handleMalformed_ok hready htext
      rw [step_of_ok server (m := ⟨time, .handleMalformed presented caller⟩)
        (outcome_bind_ok hhandle)]
      simp [Call.IsRefused, mem_flags_respond]
    | issue caller qr => simp [Call.presents?] at hc
    | readIdentity presented => simp [Call.presents?] at hc
    | prune time => simp [Call.presents?] at hc

section Sample

/-- A state with an account and a nut that was consumed, before the draws of the first state. -/
def sampleUsed (ttl : Nat) : State :=
  { sampleFirst ttl with
    accounts := ((∅ : Accounts).register sampleKey none none).2
    sessions := ((Sessions.empty (.int ttl)).consume sampleNut (.int 1000)).2 }

/-- A request with another version at the first state, and no request at all at the other. -/
theorem refusals_equal_used :
    ∃ a b, ((sampleServer 900 (by decide)).step (sampleFirst 900)
        ⟨.int 1000, .handle { sampleRequest with ver := "2" } sampleNut none⟩).1.result =
          .ok (.response a) ∧
      ((sampleServer 900 (by decide)).step (sampleUsed 900)
        ⟨.int 1000, .handleMalformed (some sampleNut) none⟩).1.result = .ok (.response b) ∧
      ∃ text, a.encoded = .ok text ∧ b.encoded = .ok text := by
  have hfirst : (sampleFirst 900).IsReady := ⟨rfl, by simp [sampleFirst]⟩
  have hused : (sampleUsed 900).IsReady := ⟨rfl, by simp [sampleUsed, sampleFirst]⟩
  have hrequest : Request.IsRecordable { sampleRequest with ver := "2" } :=
    isRecordable_sampleRequest
  have hversion : ("2" : String) ≠ "1" := by decide
  have hfirstCall : Call.presents? (.handle { sampleRequest with ver := "2" } sampleNut none) =
      some (some sampleNut, none) :=
    rfl
  have hsecondCall : Call.presents? (.handleMalformed (some sampleNut) none) =
      some (some sampleNut, none) :=
    rfl
  have hdraw : (sampleUsed 900).draw = (sampleFirst 900).draw := rfl
  have hforth := refusals_equal (sampleServer 900 (by decide)) (.int 1000) hfirstCall hsecondCall
    hdraw
  have hback := refusals_equal (sampleServer 900 (by decide)) (.int 1000) hsecondCall hfirstCall
    hdraw.symm
  obtain ⟨a, ha, hfa⟩ := (hforth.2 hfirst hrequest isReading_thousand).mp (.inr (.inl hversion))
  obtain ⟨b, hb, hfb⟩ := (hback.2 hused trivial isReading_thousand).mp trivial
  exact ⟨a, b, ha, hb, hforth.1 a b ha hb hfa hfb⟩

end Sample

end Sqrl.Server
