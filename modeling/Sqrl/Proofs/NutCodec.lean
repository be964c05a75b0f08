import Sqrl.Proofs.Nut

/-! The wire form of nuts, from both sides: what is written is read back, and what is read is a
record that was sealed under the key, in one of the spellings of its text. All else is refused. -/
namespace Sqrl

namespace Bytes

theorem ofBigEndian_cons (x : UInt8) (b : Bytes) :
    ofBigEndian (x :: b) = 256 ^ b.length * x.toNat + ofBigEndian b := by
  have hfoldl (start : Nat) : b.foldl (fun n byte => 256 * n + byte.toNat) start =
      256 ^ b.length * start + ofBigEndian b := by
    induction b generalizing start with
    | nil => simp [ofBigEndian]
    | cons y b ih =>
      rw [ofBigEndian, List.foldl_cons, List.foldl_cons, ih, ih, List.length_cons, Nat.pow_succ]
      ring
  rw [ofBigEndian, List.foldl_cons, hfoldl, Nat.mul_zero, Nat.zero_add]

theorem ofBigEndian_lt (b : Bytes) : ofBigEndian b < 256 ^ b.length := by
  induction b with
  | nil => simp [ofBigEndian]
  | cons x b ih =>
    have hx : x.toNat + 1 ≤ 256 := x.toNat_lt
    calc ofBigEndian (x :: b) = 256 ^ b.length * x.toNat + ofBigEndian b := ofBigEndian_cons x b
      _ < 256 ^ b.length * x.toNat + 256 ^ b.length := Nat.add_lt_add_left ih _
      _ = 256 ^ b.length * (x.toNat + 1) := (Nat.mul_succ _ _).symm
      _ ≤ 256 ^ b.length * 256 := Nat.mul_le_mul_left _ hx
      _ = 256 ^ (x :: b).length := (Nat.pow_succ ..).symm

theorem bigEndian_add_mul (width n m : Nat) :
    bigEndian width (256 ^ width * m + n) = bigEndian width n := by
  induction width generalizing m with
  | zero => rfl
  | succ width ih =>
    have hsplit : 256 ^ (width + 1) * m + n = 256 ^ width * (256 * m) + n := by ring
    have hdigit : (256 ^ width * (256 * m) + n) / Nat.pow 256 width =
        256 * m + n / Nat.pow 256 width :=
      Nat.mul_add_div (Nat.pow_pos (by decide)) _ _
    rw [bigEndian, bigEndian, hsplit, ih, hdigit]
    congr 1
    apply UInt8.toNat_inj.mp
    simp

/-- The digits of the number of a byte string are its bytes. -/
theorem bigEndian_ofBigEndian (b : Bytes) : bigEndian b.length (ofBigEndian b) = b := by
  induction b with
  | nil => rfl
  | cons x b ih =>
    have hdigit : (256 ^ b.length * x.toNat + ofBigEndian b) / Nat.pow 256 b.length = x.toNat := by
      rw [Nat.pow_eq, Nat.mul_add_div (Nat.pow_pos (by decide)),
        Nat.div_eq_of_lt (ofBigEndian_lt b), Nat.add_zero]
    rw [List.length_cons, ofBigEndian_cons, bigEndian, hdigit, bigEndian_add_mul, ih,
      UInt8.ofNat_toNat]

end Bytes

namespace Gcm

variable {key : Aes.Key} {iv text sealed : Bytes}

/-- Decryption takes exactly what encryption gives. -/
theorem decrypt?_eq_some_iff : decrypt? key iv sealed = some text ↔ sealed = encrypt key iv text := by
  constructor
  · intro h
    simp only [decrypt?, Option.ite_none_right_eq_some, Option.some.injEq] at h
    obtain ⟨⟨-, htag⟩, rfl⟩ := h
    rw [encrypt, crypt_crypt, ← htag, List.length_take, Nat.min_eq_left (Nat.sub_le _ _),
      List.take_append_drop]
  · rintro rfl
    exact decrypt?_encrypt key iv text

end Gcm

namespace Nut

variable {key : Aes.Key} {text : String} {nut : Nut} {record : Bytes} {rejection : Rejection}

/-- Is a text one of the nut under the key: the base64url text, in any spelling, of a nonce and of
the record that is sealed with it? Of the flags only the lowest one is the nut's. -/
def IsSealed (key : Aes.Key) (text : String) (nut : Nut) : Prop :=
  nut.Fits ∧ ∃ (iv : Bytes) (flags : UInt8), iv.length = nonceLength ∧
    (flags.toNat % 2 = 1 ↔ nut.qr = true) ∧
      Base64.Url.decode text = .ok (iv ++ Gcm.encrypt key iv (nut.recordWith flags))

/-- Does a text give the reason for which it is refused? -/
def IsRefused (key : Aes.Key) (text : String) : Rejection → Prop
  | .notBase64 => ∃ fault, Base64.Url.decode text = .error fault
  | .wrongLength => ∃ blob, Base64.Url.decode text = .ok blob ∧ blob.length ≠ 44
  | .notAuthentic => ∃ blob, Base64.Url.decode text = .ok blob ∧ blob.length = 44 ∧
      ∀ iv record, iv.length = nonceLength → blob ≠ iv ++ Gcm.encrypt key iv record

/-- Every record is that of its nut with its own last byte as flags. -/
theorem fits_ofRecord (h : record.length = recordLength) :
    (ofRecord record).Fits ∧ ∃ flags : UInt8, record = (ofRecord record).recordWith flags ∧
      (flags.toNat % 2 = 1 ↔ (ofRecord record).qr = true) := by
  have hlength : record.length = 16 := h
  have htime := Bytes.ofBigEndian_lt (record.take 4)
  have hdigits := Bytes.bigEndian_ofBigEndian (record.take 4)
  have hwidth : (record.take 4).length = 4 := by simp [hlength]
  rw [hwidth] at htime hdigits
  obtain ⟨flags, hflags⟩ : ∃ flags, record.drop 15 = [flags] :=
    List.length_eq_one_iff.mp (by simp [hlength])
  constructor
  · constructor
    · simp [ofRecord, hlength]
    · simp [ofRecord, hlength, entropyLength]
    · exact Int.natCast_nonneg _
    · simp only [ofRecord]
      omega
  · refine ⟨flags, ?_, by simp [ofRecord, hflags]⟩
    -- The parts are put together again from the last one on.
    have hrest : record.drop 8 = (record.drop 8).take 7 ++ [flags] := by
      rw [← hflags, ← List.drop_drop (i := 7) (j := 8), List.take_append_drop]
    have hmiddle : record.drop 4 = (record.drop 4).take 4 ++ record.drop 8 := by
      rw [← List.drop_drop (i := 4) (j := 4), List.take_append_drop]
    rw [recordWith]
    simp only [ofRecord, Int.toNat_natCast, hdigits, entropyLength]
    rw [List.append_assoc, List.append_assoc, ← hrest, ← hmiddle, List.take_append_drop]

theorem ofRecord_eq_iff (h : record.length = recordLength) :
    ofRecord record = nut ↔ nut.Fits ∧ ∃ flags : UInt8,
      record = nut.recordWith flags ∧ (flags.toNat % 2 = 1 ↔ nut.qr = true) := by
  constructor
  · rintro rfl
    exact fits_ofRecord h
  · rintro ⟨hfits, flags, rfl, hqr⟩
    exact hfits.ofRecord_recordWith hqr

/-- A text is that of a nut if it is the text of a record that was sealed. -/
theorem decode_eq_ok_iff_record : decode key text = .ok nut ↔
    ∃ iv record, iv.length = nonceLength ∧ record.length = recordLength ∧
      Base64.Url.decode text = .ok (iv ++ Gcm.encrypt key iv record) ∧ ofRecord record = nut := by
  constructor
  · intro h
    rw [decode] at h
    split at h
    · cases h
    next blob hblob =>
    split at h
    · cases h
    next hlength =>
    have hlength : blob.length = 44 := not_not.mp hlength
    split at h
    · cases h
    next record hopen =>
    -- What was opened was sealed, and of the 44 bytes this leaves 16 to the record.
    have hsealed := Gcm.decrypt?_eq_some_iff.mp hopen
    have hrecord := congrArg List.length hsealed
    rw [Gcm.length_encrypt, List.length_drop, hlength] at hrecord
    refine ⟨blob.take nonceLength, record, by simp [hlength, nonceLength], ?_, ?_, Except.ok.inj h⟩
    · simp only [nonceLength] at hrecord
      simp only [recordLength]
      omega
    · rw [← hsealed, List.take_append_drop, hblob]
  · rintro ⟨iv, record, hiv, hrecord, hblob, rfl⟩
    have hlength : (iv ++ Gcm.encrypt key iv record).length = nonceLength + recordLength + 16 := by
      simp [hiv, hrecord, Nat.add_assoc]
    simp only [decode, hblob, hlength, ← hiv, List.take_left', List.drop_left',
      Gcm.decrypt?_encrypt]
    simp [hiv]

theorem decode_eq_ok_iff : decode key text = .ok nut ↔ IsSealed key text nut := by
  rw [decode_eq_ok_iff_record]
  constructor
  · rintro ⟨iv, record, hiv, hrecord, hblob, hnut⟩
    obtain ⟨hfits, flags, rfl, hqr⟩ := (ofRecord_eq_iff hrecord).mp hnut
    exact ⟨hfits, iv, flags, hiv, hqr, hblob⟩
  · rintro ⟨hfits, iv, flags, hiv, hqr, hblob⟩
    exact ⟨iv, nut.recordWith flags, hiv, hfits.length_recordWith flags, hblob,
      hfits.ofRecord_recordWith hqr⟩

theorem isRefused_of_decode (h : decode key text = .error rejection) :
    IsRefused key text rejection := by
  have hnone {nut : Nut} : decode key text ≠ .ok nut := by simp [h]
  rw [decode] at h
  split at h
  · next fault hfault =>
    obtain rfl := Except.error.inj h
    exact ⟨fault, hfault⟩
  next blob hblob =>
  split at h
  · next hlength =>
    obtain rfl := Except.error.inj h
    exact ⟨blob, hblob, hlength⟩
  next hlength =>
  have hlength : blob.length = 44 := not_not.mp hlength
  split at h
  · obtain rfl := Except.error.inj h
    refine ⟨blob, hblob, hlength, ?_⟩
    rintro iv record hiv rfl
    -- A record that was sealed is that of some nut, whatever its bytes are.
    have hrecord : record.length = recordLength := by
      simp only [List.length_append, Gcm.length_encrypt, hiv, nonceLength] at hlength
      simp only [recordLength]
      omega
    exact hnone (decode_eq_ok_iff_record.mpr ⟨iv, record, hiv, hrecord, hblob, rfl⟩)
  · cases h

/-- Under every key and nonce, a nut whose parts have their lengths and whose time fits 32 bits has
a text of 59 characters that are safe in a URL, and that text is read as the nut. A text is read as
a nut just if it is one of a record that was sealed for the nut, and every other text is refused, for
a reason that it gives. -/
theorem wire_exact (key : Aes.Key) :
    (∀ (nut : Nut) (iv : Bytes), nut.Fits → iv.length = nonceLength →
      ∃ text, nut.encode key iv = .ok text ∧ decode key text = .ok nut ∧ text.length = 59 ∧
        ∀ c ∈ text.toList, Base64.Url.isSafe c = true) ∧
    (∀ (text : String) (nut : Nut), decode key text = .ok nut ↔ IsSealed key text nut) ∧
    ∀ text : String, (∀ nut, ¬ IsSealed key text nut) →
      ∃ rejection, decode key text = .error rejection ∧ IsRefused key text rejection := by
  refine ⟨fun nut iv hfits hiv => ?_, fun text nut => decode_eq_ok_iff, fun text hnone => ?_⟩
  · obtain ⟨record, hrecord⟩ := hfits.record_ok
    have hencode : nut.encode key iv = .ok (sealRecord key iv record) := by
      rw [encode, hrecord]
      rfl
    have hlength := (hfits.ofRecord_record hrecord).1
    refine ⟨_, hencode, decode_of_encode hiv hencode, ?_, fun c => Base64.Url.isSafe_of_mem_encode⟩
    rw [sealRecord, Base64.Url.length_encode, List.length_append, Gcm.length_encrypt, hiv, hlength]
    rfl
  · cases hdecode : decode key text with
    | ok nut => exact absurd (decode_eq_ok_iff.mp hdecode) (hnone nut)
    | error rejection => exact ⟨rejection, rfl, isRefused_of_decode hdecode⟩

section Sample

def sampleKey : Aes.Key := ⟨(List.range 16).map UInt8.ofNat, by decide⟩

def sample : Nut := ⟨1700000000, [0xDE, 0xAD, 0xBE, 0xEF], true, [1, 2, 3, 4, 5, 6, 7]⟩

/-- The text of the nut under the key and a nonce, with another last byte. -/
def tamperedText : String := "AAAAAAAAAAAAAAAB34ZeYxNEdMFPRkf4JqMJJSrn1VVhotXdYsYYeGfsY84"

/-- A nut that is written and read, and a text that is refused. -/
theorem wire_exact_sample :
    sample.Fits ∧ (Bytes.bigEndian 12 1).length = nonceLength ∧
      (∃ text, sample.encode sampleKey (Bytes.bigEndian 12 1) = .ok text ∧
        decode sampleKey text = .ok sample ∧ text.length = 59 ∧
        ∀ c ∈ text.toList, Base64.Url.isSafe c = true) ∧
      (∀ nut, ¬ IsSealed sampleKey tamperedText nut) ∧
      ∃ rejection, decode sampleKey tamperedText = .error rejection ∧
        IsRefused sampleKey tamperedText rejection := by
  obtain ⟨hwrite, hread, hrefuse⟩ := wire_exact sampleKey
  have hfits : sample.Fits := ⟨rfl, rfl, by decide, by decide⟩
  have hother : ∀ nut, ¬ IsSealed sampleKey tamperedText nut := by
    intro nut hnut
    have hrefused : decode sampleKey tamperedText = .error .notAuthentic := by decide +kernel
    cases hrefused.symm.trans ((hread _ nut).mpr hnut)
  exact ⟨hfits, rfl, hwrite sample _ hfits rfl, hother, hrefuse _ hother⟩

end Sample

end Nut

end Sqrl
