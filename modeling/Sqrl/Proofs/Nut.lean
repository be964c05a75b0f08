import Sqrl.Nut
import Sqrl.Proofs.Base64
import Sqrl.Proofs.Clock

/-! The nut that a server writes is the nut that it reads. -/
namespace Sqrl

namespace Bytes

theorem xor_xor_cancel {a k : Bytes} (h : a.length ≤ k.length) : xor (xor a k) k = a := by
  induction a generalizing k with
  | nil => rfl
  | cons x a ih =>
    cases k with
    | nil => simp at h
    | cons y k =>
      have hrest := ih (Nat.le_of_succ_le_succ h)
      simp only [xor, List.zipWith_cons_cons, UInt8.xor_assoc, UInt8.xor_self, UInt8.xor_zero]
        at hrest ⊢
      rw [hrest]

theorem foldl_bigEndian (width n start : Nat) :
    (bigEndian width n).foldl (fun n byte => 256 * n + byte.toNat) start =
      256 ^ width * start + n % 256 ^ width := by
  induction width generalizing start with
  | zero => simp [bigEndian, Nat.mod_one]
  | succ width ih =>
    have hbyte : (UInt8.ofNat (n / 256 ^ width)).toNat = n / 256 ^ width % 256 := by simp
    rw [bigEndian, List.foldl_cons, ih, Nat.pow_eq, hbyte, Nat.pow_succ, Nat.mod_mul]
    ring

theorem ofBigEndian_bigEndian {width n : Nat} (h : n < 256 ^ width) :
    ofBigEndian (bigEndian width n) = n := by
  rw [ofBigEndian, foldl_bigEndian, Nat.mul_zero, Nat.zero_add, Nat.mod_eq_of_lt h]

end Bytes

namespace Gcm

variable (key : Aes.Key) (iv text : Bytes)

theorem le_length_stream (size : Nat) : size ≤ (stream key iv size).length := by
  simp only [stream, List.length_flatMap, Vector.length_toList, List.map_const', List.length_range,
    List.sum_replicate_nat]
  omega

@[simp] theorem length_crypt : (crypt key iv text).length = text.length := by
  simp [crypt, le_length_stream]

/-- Counter mode twice is the identity. -/
theorem crypt_crypt : crypt key iv (crypt key iv text) = text := by
  rw [crypt, length_crypt, crypt, Bytes.xor_xor_cancel (le_length_stream key iv _)]

@[simp] theorem length_tag : (tag key iv text).length = 16 := by
  simp [tag]

@[simp] theorem length_encrypt : (encrypt key iv text).length = text.length + 16 := by
  simp [encrypt]

theorem decrypt?_encrypt : decrypt? key iv (encrypt key iv text) = some text := by
  have htake :
      (encrypt key iv text).take ((encrypt key iv text).length - 16) = crypt key iv text := by
    simp [encrypt]
  have hdrop : (encrypt key iv text).drop (crypt key iv text).length =
      tag key iv (crypt key iv text) := by
    simp [encrypt]
  have hlong : 16 ≤ (encrypt key iv text).length := by simp
  simp only [decrypt?, htake, hdrop, hlong, and_self, if_true, crypt_crypt]

end Gcm

namespace Nut

variable {nut : Nut} {record : Bytes}

/-- A nut fits a record if its parts have their lengths and its time fits 32 bits. -/
structure Fits (nut : Nut) : Prop where
  ipHash : nut.ipHash.length = 4
  entropy : nut.entropy.length = entropyLength
  created_nonneg : 0 ≤ nut.created
  created_lt : nut.created < 2 ^ 32

theorem fits_create {now : Number} (hlow : 0 ≤ now.truncate) (hhigh : now.truncate < 2 ^ 32)
    (address : Option String) (qr : Bool) {entropy : Bytes} (h : entropy.length = entropyLength) :
    (create now address qr entropy).Fits where
  ipHash := Address.length_fingerprint address
  entropy := h
  created_nonneg := hlow
  created_lt := hhigh

def recordWith (nut : Nut) (flags : UInt8) : Bytes :=
  Bytes.bigEndian 4 nut.created.toNat ++ nut.ipHash ++ nut.entropy ++ [flags]

theorem Fits.record_eq (h : nut.Fits) :
    nut.record = .ok (nut.recordWith (if nut.qr then 1 else 0)) := by
  have hlow := h.created_nonneg
  have hhigh := h.created_lt
  have hlength : ¬ (nut.ipHash.length ≠ 4 ∨ nut.entropy.length ≠ entropyLength) := by
    simp [h.ipHash, h.entropy]
  rw [record, if_neg hlength, if_neg (by omega), if_neg (by omega)]
  rfl

theorem Fits.record_ok (h : nut.Fits) : ∃ record, nut.record = .ok record := ⟨_, h.record_eq⟩

theorem fits_of_record (h : nut.record = .ok record) : nut.Fits := by
  rw [Nut.record] at h
  split at h
  · cases h
  next hlength =>
  split at h
  · cases h
  next hrange =>
  split at h
  · cases h
  next hlate =>
  simp only [not_or, not_not] at hlength hrange
  exact ⟨hlength.1, hlength.2, by omega, by omega⟩

theorem Fits.length_recordWith (h : nut.Fits) (flags : UInt8) :
    (nut.recordWith flags).length = recordLength := by
  simp [recordWith, h.ipHash, h.entropy, entropyLength, recordLength]

/-- Of the flags only the lowest one is read. -/
theorem Fits.ofRecord_recordWith (h : nut.Fits) {flags : UInt8}
    (hqr : flags.toNat % 2 = 1 ↔ nut.qr = true) : ofRecord (nut.recordWith flags) = nut := by
  have hlow := h.created_nonneg
  have hhigh := h.created_lt
  have hhash := h.ipHash
  have hentropy := h.entropy
  obtain ⟨created, ipHash, qr, entropy⟩ := nut
  simp only [entropyLength] at hlow hhigh hhash hentropy hqr
  have htime : Bytes.ofBigEndian (Bytes.bigEndian 4 created.toNat) = created.toNat :=
    Bytes.ofBigEndian_bigEndian (by omega)
  simp [ofRecord, recordWith, List.take_append, List.drop_append, hhash, hentropy, htime,
    entropyLength, Int.toNat_of_nonneg hlow, hqr]

theorem Fits.ofRecord_record (h : nut.Fits) (hrecord : nut.record = .ok record) :
    record.length = recordLength ∧ ofRecord record = nut := by
  have hqr : (if nut.qr then (1 : UInt8) else 0).toNat % 2 = 1 ↔ nut.qr = true := by
    cases nut.qr <;> decide
  obtain rfl := Except.ok.inj (h.record_eq.symm.trans hrecord)
  exact ⟨h.length_recordWith _, h.ofRecord_recordWith hqr⟩

/-- A nut is recognised by its bytes, whichever way they are spelled. -/
theorem decode_congr (key : Aes.Key) {a b : String}
    (h : Base64.Url.decode a = Base64.Url.decode b) : decode key a = decode key b := by
  rw [decode, decode, h]

/-- The nuts of two seconds are two texts. -/
theorem ne_of_created {key : Aes.Key} {a b : String} {first second : Nut}
    (hfirst : decode key a = .ok first) (hsecond : decode key b = .ok second)
    (hcreated : first.created ≠ second.created) : a ≠ b := by
  intro hsame
  rw [hsame, hsecond] at hfirst
  exact hcreated (congrArg created (Except.ok.inj hfirst).symm)

theorem decode_sealRecord (key : Aes.Key) {iv : Bytes} (hiv : iv.length = nonceLength)
    (hrecord : nut.record = .ok record) : decode key (sealRecord key iv record) = .ok nut := by
  obtain ⟨hlength, hnut⟩ := (fits_of_record hrecord).ofRecord_record hrecord
  have hblob : (iv ++ Gcm.encrypt key iv record).length = nonceLength + recordLength + 16 := by
    simp [hiv, hlength, Nat.add_assoc]
  simp only [decode, sealRecord, Base64.Url.decode_encode, hblob, ← hiv, List.take_left',
    List.drop_left', Gcm.decrypt?_encrypt, hnut]
  simp [hiv]

theorem decode_of_encode {key : Aes.Key} {iv : Bytes} {text : String}
    (hiv : iv.length = nonceLength) (h : nut.encode key iv = .ok text) :
    decode key text = .ok nut := by
  cases hrecord : nut.record with
  | error fault => simp [encode, hrecord, Except.map] at h
  | ok record =>
    simp only [encode, hrecord, Except.map, Except.ok.injEq] at h
    rw [← h]
    exact decode_sealRecord key hiv hrecord

theorem fits_of_encode {key : Aes.Key} {iv : Bytes} {text : String}
    (h : nut.encode key iv = .ok text) : nut.Fits := by
  cases hrecord : nut.record with
  | error fault => simp [encode, hrecord, Except.map] at h
  | ok record => exact fits_of_record hrecord

theorem Fits.encode_ok (h : nut.Fits) (key : Aes.Key) (iv : Bytes) :
    ∃ text, nut.encode key iv = .ok text := by
  obtain ⟨record, hrecord⟩ := h.record_ok
  exact ⟨sealRecord key iv record, by rw [encode, hrecord]; rfl⟩

end Nut

end Sqrl
