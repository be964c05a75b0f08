import Sqrl.Proofs.NutReplay

/-! How long a nut is accepted. The reading at which it is made is cut to whole seconds and travels
in a field of 32 bits, and it is compared with a reading that is cut too: what counts is how many
seconds began in between. -/
namespace Sqrl

namespace Number

open Binary64 (one)

variable {x a b : Number} {u : Int}

theorem le_floor_iff (h : x.units? = some u) {n : Int} : n ≤ x.floor ↔ n * one ≤ u := by
  have hpos : (0 : Int) < one := by exact_mod_cast Binary64.one_pos
  cases x with
  | int m =>
    rw [← Option.some.inj h]
    exact (Int.mul_le_mul_right hpos).symm
  | float y =>
    rw [floor, show y.units? = some u from h, Option.getD_some]
    exact Int.le_ediv_iff_mul_le hpos

/-- Of a number that is not negative the fraction is cut off downwards. -/
theorem floor_eq_truncate (h : x.units? = some u) (hu : 0 ≤ u) : x.floor = x.truncate := by
  cases x with
  | int n => rfl
  | float y =>
    rw [floor, truncate, show y.units? = some u from h, Option.getD_some]
    exact (Int.tdiv_eq_ediv_of_nonneg hu).symm

theorem IsReading.floor_eq_truncate (h : x.IsReading) : x.floor = x.truncate :=
  Number.floor_eq_truncate h.units?_eq h.bounds.1

theorem isReading_iff (h : x.units? = some u) : x.IsReading ↔ 0 ≤ u ∧ u < 2 ^ 32 * one := by
  rw [IsReading, lt_of_units h (b := .int 0) rfl, lt_of_units h (b := .int (2 ^ 32)) rfl,
    decide_eq_false_iff_not, decide_eq_true_iff, Int.zero_mul, Int.not_lt]

/-- A reading that no nut can hold, but is not before one that a nut can hold, is too late. -/
theorem le_floor_of_not_isReading (ha : a.IsReading) (hb : b.units? = some u)
    (horder : b.lt a = false) (hlate : ¬ b.IsReading) : 0 ≤ u ∧ 2 ^ 32 ≤ b.floor := by
  have hfirst := ha.bounds.1
  rw [lt_of_units hb ha.units?_eq, decide_eq_false_iff_not] at horder
  rw [isReading_iff hb] at hlate
  rw [le_floor_iff hb]
  omega

/-- Whole seconds that pass are seconds that begin. -/
theorem le_floor_sub (ha : a.IsReading) (hb : b.IsReading) {n : Int}
    (h : n * one ≤ a.units - b.units) : n ≤ a.floor - b.floor := by
  have hb' := (le_floor_iff hb.units?_eq).mp le_rfl
  have hsum : n + b.floor ≤ a.floor := by
    rw [le_floor_iff ha.units?_eq, Int.add_mul]
    omega
  omega

theorem floor_sub_le (ha : a.IsReading) (hb : b.IsReading) {n : Int}
    (h : a.units - b.units ≤ n * one) : a.floor - b.floor ≤ n := by
  have ha' := (le_floor_iff ha.units?_eq).mp le_rfl
  have hdiff : a.floor - n ≤ b.floor := by
    rw [le_floor_iff hb.units?_eq, Int.sub_mul]
    omega
  omega

end Number

namespace Nut

/-- Why a nut has no record if its parts have their lengths and its time does not fit 32 bits. -/
def lateFault (second : Int) : PackFault := if second < 2 ^ 64 then .tooLate else .outOfRange

theorem record_of_late {nut : Nut} (hipHash : nut.ipHash.length = 4)
    (hentropy : nut.entropy.length = entropyLength) (h : 2 ^ 32 ≤ nut.created) :
    nut.record = .error (lateFault nut.created) := by
  have hlength : ¬ (nut.ipHash.length ≠ 4 ∨ nut.entropy.length ≠ entropyLength) := by
    simp [hipHash, hentropy]
  rw [record, if_neg hlength, lateFault]
  by_cases hrange : nut.created < 2 ^ 64
  · rw [if_neg (by omega), if_pos (by omega), if_pos hrange]
  · rw [if_pos (by omega), if_neg hrange]

end Nut

namespace Server

variable {server : Server} {s : State} {time minted : Number} {request : Request} {nut : String}
  {presented : Nut} (address : Option String)

/-- Is a request refused because its nut has expired? It is answered with a new nut and the flag of
a refusal that may be tried again, nothing is stored, and the audit trail tells the reason. -/
def RefusesExpired (server : Server) (s : State) (time : Number) (request : Request) (nut : String)
    (address : Option String) : Prop :=
  ∃ text e t, server.step s ⟨time, .handle request nut address⟩ = (e, t) ∧
    server.nextText { s with now := time } address (server.responseQr nut) = .ok text ∧
    e.result = .ok (.response (server.respond text (.ofList [.transientError]))) ∧
    t.sessions = s.sessions ∧ t.accounts = s.accounts ∧
    t.trail = server.acceptance { s with now := time } .nutExpired request nut text address
      (.ofList [.transientError])

/-- Does a call fail because no nut can hold its reading of the clock? Nothing is stored then. -/
def FailsLate (server : Server) (s : State) (m : Moment) : Prop :=
  ∃ e t, server.step s m = (e, t) ∧ e.result = .error (.pack (Nut.lateFault m.time.floor)) ∧
    t.sessions = s.sessions ∧ t.accounts = s.accounts ∧ t.trail = s.trail

section Step

variable (hs : s.IsReady) (hrequest : request.IsRecordable)
include hs hrequest

/-- A genuine request with a nut that is not remembered as consumed is refused because the nut has
expired, or processed because it has not. -/
theorem refusesExpired_iff (htime : time.IsReading)
    (hgenuine : server.IsGenuine request nut presented) (hunused : nut ∉ s.sessions.used) :
    server.RefusesExpired s time request nut address ↔ ¬ server.IsFresh time presented := by
  cases (server.handled_step hs time hrequest nut address).2 with
  | failed htext =>
    obtain ⟨text, hok⟩ := server.nextText_ok (s := { s with now := time }) htime address
      (server.responseQr nut)
    cases htext.symm.trans hok
  | denied _ hfalse => exact absurd hgenuine (hfalse presented)
  | @transient other text htext hother hrefused hresult hsessions haccounts htrail =>
    obtain rfl := hother.unique hgenuine
    have hold : ¬ server.IsFresh time other := fun hfresh => hunused (hrefused hfresh)
    obtain ⟨reason, -, hreason, htrail⟩ := htrail
    rw [hreason hold] at htrail
    exact iff_of_true ⟨text, _, _, rfl, htext, hresult, hsessions, haccounts, htrail⟩ hold
  | @processed other text htext hother hfresh _ hresult =>
    obtain rfl := hother.unique hgenuine
    refine iff_of_false ?_ (not_not_intro hfresh)
    -- The answer to a processed request lacks the flag of a refusal.
    rintro ⟨refused, _, _, hstep, -, hrefused, -⟩
    rw [hstep] at hresult
    have hresponse := Answer.response.inj (Except.ok.inj (hrefused.symm.trans hresult))
    have hflag : Flag.transientError ∈
        (server.respond refused (.ofList [.transientError])).flags := by
      rw [mem_flags_respond]
      simp
    rw [hresponse, mem_flags_respond, contains_answerFlags _ _ _ _ (.inr rfl)] at hflag
    cases hflag

theorem isProcessed_iff_isFresh (htime : time.IsReading)
    (hgenuine : server.IsGenuine request nut presented) (hunused : nut ∉ s.sessions.used) :
    (server.step s ⟨time, .handle request nut address⟩).1.isProcessed = true ↔
      server.IsFresh time presented := by
  have hstep := (server.step_handle hs time hrequest nut address).transition
  rw [hstep.isProcessed_iff_unused rfl htime]
  constructor
  · intro ⟨⟨other, hother, hfresh⟩, _⟩
    obtain rfl := hother.unique hgenuine
    exact hfresh
  · intro hfresh
    exact ⟨⟨presented, hgenuine, hfresh⟩, hunused⟩

omit hrequest in
variable (server) in
theorem failsLate_handle (hminted : minted.IsReading) (hfinite : time.units?.isSome)
    (horder : time.lt minted = false) (hlate : ¬ time.IsReading) (request : Request)
    (nut : String) : server.FailsLate s ⟨time, .handle request nut address⟩ := by
  have hready : State.IsReady { s with now := time } := ⟨hs.isUp, hs.isReadable⟩
  obtain ⟨u, hu⟩ := Option.isSome_iff_exists.mp hfinite
  obtain ⟨hpos, hfloor⟩ := Number.le_floor_of_not_isReading hminted hu horder hlate
  have hsecond := Number.floor_eq_truncate hu hpos
  rw [hsecond] at hfloor
  have htext : server.nextText { s with now := time } address (server.responseQr nut) =
      .error (Nut.lateFault time.truncate) := by
    rw [nextText, Nut.encode, Nut.record_of_late (Address.length_fingerprint address)
      (server.entropy.length_bytes ..) hfloor]
    rfl
  obtain ⟨records, hhandle⟩ := server.outcome_handle_error hready.isUp request htext
  have hstep := step_of_error server (m := ⟨time, .handle request nut address⟩)
    (Action.outcome_bind_error hhandle)
  exact ⟨_, _, hstep, by rw [hsecond], rfl, rfl, rfl⟩

/-- A nut that is made at a reading of the clock, and presented for the first time at a later one in
a genuine request, is refused as expired just if more seconds began in between than nuts are
accepted for, and processed otherwise. So it is never refused while no more time has passed than
that, and always once a second more has. At a reading that no nut can hold none can be made for the
answer, and the call fails. -/
theorem expired_iff_floor (hversion : request.ver = server.settings.version)
    (hsignature : Signature.check (some request.signedMessage) request.idk request.ids = .ok ())
    (hminted : minted.IsReading) (hfinite : time.units?.isSome) (horder : time.lt minted = false)
    (maker : Option String) (qr : Bool) {entropy iv : Bytes}
    (hentropy : entropy.length = Nut.entropyLength) (hiv : iv.length = Nut.nonceLength) :
    ∃ nut, (Nut.create minted maker qr entropy).encode server.key iv = .ok nut ∧
      (nut ∉ s.sessions.used → time.IsReading →
        (server.RefusesExpired s time request nut address ↔
          (server.settings.nutExpiration : Int) < time.floor - minted.floor) ∧
        ((server.step s ⟨time, .handle request nut address⟩).1.isProcessed = true ↔
          time.floor - minted.floor ≤ (server.settings.nutExpiration : Int)) ∧
        (time.units - minted.units ≤ server.settings.nutExpiration * Binary64.one →
          ¬ server.RefusesExpired s time request nut address) ∧
        ((server.settings.nutExpiration + 1) * Binary64.one ≤ time.units - minted.units →
          server.RefusesExpired s time request nut address)) ∧
      (¬ time.IsReading → server.FailsLate s ⟨time, .handle request nut address⟩) := by
  obtain ⟨nut, hnut⟩ := (Nut.fits_create hminted.truncate_bounds.1 hminted.truncate_bounds.2 maker
    qr hentropy).encode_ok server.key iv
  refine ⟨nut, hnut, fun hunused htime => ?_, fun hlate => ?_⟩
  · have hgenuine : server.IsGenuine request nut (Nut.create minted maker qr entropy) :=
      ⟨Nut.decode_of_encode hiv hnut, hversion, hsignature⟩
    have hfresh : server.IsFresh time (Nut.create minted maker qr entropy) ↔
        time.floor - minted.floor ≤ (server.settings.nutExpiration : Int) := by
      rw [htime.floor_eq_truncate, hminted.floor_eq_truncate]
      rfl
    have hrefuses := refusesExpired_iff address hs hrequest htime hgenuine hunused
    rw [hfresh, Int.not_le] at hrefuses
    refine ⟨hrefuses, ?_, fun hshort => ?_, fun hlong => ?_⟩
    · rw [isProcessed_iff_isFresh address hs hrequest htime hgenuine hunused, hfresh]
    · rw [hrefuses, Int.not_lt]
      exact Number.floor_sub_le htime hminted hshort
    · rw [hrefuses]
      exact Int.lt_iff_add_one_le.mpr (Number.le_floor_sub htime hminted hlong)
  · exact server.failsLate_handle address hs hminted hfinite horder hlate request nut

end Step

section Sample

def sampleHalf : Number := .float (.ofRatio false (2001 * Binary64.one) 2)

theorem not_mem_used_sampleFirst (ttl : Nat) (nut : String) :
    nut ∉ (sampleFirst ttl).sessions.used := by
  simp [sampleFirst, Sessions.empty]

/-- A nut that is made half a second after 1000 s is refused at 1601 s, though it is only ten
minutes and half a second old. At 2^32 s the call fails. -/
theorem expired_iff_floor_fraction :
    ∃ nut, (Nut.create sampleHalf none true (Entropy.counting.bytes 0 7)).encode
        (sampleServer 600 le_rfl).key (Entropy.counting.bytes 0 12) = .ok nut ∧
      nut ∉ (sampleFirst 600).sessions.used ∧
      (sampleServer 600 le_rfl).RefusesExpired (sampleFirst 600) (.int 1601) sampleRequest nut
        none ∧
      (sampleServer 600 le_rfl).FailsLate (sampleFirst 600)
        ⟨.int 4294967296, .handle sampleRequest nut none⟩ := by
  have hversion : sampleRequest.ver = (sampleServer 600 le_rfl).settings.version := rfl
  have hhalf : sampleHalf.IsReading := by decide +kernel
  have htime : Number.IsReading (.int 1601) := by decide +kernel
  have horder : (Number.int 1601).lt sampleHalf = false := by decide +kernel
  have hlater : (Number.int 4294967296).lt sampleHalf = false := by decide +kernel
  have hentropy : (Entropy.counting.bytes 0 7).length = Nut.entropyLength := rfl
  have hiv : (Entropy.counting.bytes 0 12).length = Nut.nonceLength := rfl
  obtain ⟨nut, hnut, hwindow, -⟩ := expired_iff_floor none (isReady_sampleFirst 600)
    isRecordable_sampleRequest hversion check_sampleRequest hhalf rfl horder none true hentropy hiv
  have hunused := not_mem_used_sampleFirst 600 nut
  have hseconds : ((600 : Nat) : Int) < (Number.int 1601).floor - sampleHalf.floor := by
    decide +kernel
  obtain ⟨late, hlate, -, hfails⟩ := expired_iff_floor none (isReady_sampleFirst 600)
    isRecordable_sampleRequest hversion check_sampleRequest hhalf rfl hlater none true hentropy hiv
  obtain rfl := Except.ok.inj (hlate.symm.trans hnut)
  exact ⟨late, hnut, hunused, (hwindow hunused htime).1.mpr hseconds, hfails (by decide +kernel)⟩

/-- What is promised of every later reading fails for those that no nut can hold: a nut of the last
second before 2^32 s that is presented 601 s later is refused by no response. -/
theorem not_refused_late :
    ¬ ∀ (server : Server) (s : State) (request : Request) (minted time : Number)
      (maker address : Option String) (qr : Bool) (entropy iv : Bytes) (nut : String),
      s.IsReady → request.IsRecordable → request.ver = server.settings.version →
      Signature.check (some request.signedMessage) request.idk request.ids = .ok () →
      minted.IsReading → time.units?.isSome → time.lt minted = false →
      entropy.length = Nut.entropyLength → iv.length = Nut.nonceLength →
      (Nut.create minted maker qr entropy).encode server.key iv = .ok nut →
      nut ∉ s.sessions.used →
        (server.RefusesExpired s time request nut address ↔
          (server.settings.nutExpiration : Int) < time.floor - minted.floor) := by
  intro hexact
  have hlast : Number.IsReading (.int 4294967295) := by decide +kernel
  have hentropy : (Entropy.counting.bytes 0 7).length = Nut.entropyLength := rfl
  obtain ⟨nut, hnut⟩ := (Nut.fits_create hlast.truncate_bounds.1 hlast.truncate_bounds.2 none true
    hentropy).encode_ok (sampleServer 600 le_rfl).key (Entropy.counting.bytes 0 12)
  have horder : (Number.int 4294967896).lt (.int 4294967295) = false := by decide +kernel
  have hexpired := hexact (sampleServer 600 le_rfl) (sampleFirst 600) sampleRequest
    (.int 4294967295) (.int 4294967896) none none true _ _ nut (isReady_sampleFirst 600)
    isRecordable_sampleRequest rfl check_sampleRequest hlast rfl horder rfl rfl hnut
    (not_mem_used_sampleFirst 600 nut)
  obtain ⟨_, _, _, hstep, -, hresponse, -⟩ := hexpired.mpr (by decide +kernel)
  obtain ⟨_, _, hfails, hresult, -⟩ := (sampleServer 600 le_rfl).failsLate_handle none
    (isReady_sampleFirst 600) hlast rfl horder (by decide +kernel) sampleRequest nut
  rw [← (Prod.mk.inj (hstep.symm.trans hfails)).1, hresponse] at hresult
  cases hresult

end Sample

end Server

end Sqrl
