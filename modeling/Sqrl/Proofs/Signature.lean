import Mathlib.Tactic.SplitIfs
import Sqrl.Proofs.Base64
import Sqrl.Signature

/-! What passes the check of a signature, in terms of the bytes of the key and of the signature. -/
namespace Sqrl.Signature

variable {message : Option Bytes} {idk : String} {key : Bytes}

theorem loadKey_eq_ok_iff :
    loadKey idk = .ok key ↔ Base64.Url.decode idk = .ok key ∧ key.length = keyLength := by
  rw [loadKey]
  cases Base64.Url.decode idk with
  | error fault => simp
  | ok bytes =>
    by_cases hlength : bytes.length = keyLength
    · simp only [if_pos hlength, Except.ok.injEq]
      exact ⟨fun h => ⟨h, h ▸ hlength⟩, And.left⟩
    · simp only [if_neg hlength, Except.ok.injEq, reduceCtorEq, false_iff, not_and]
      exact fun h => h ▸ hlength

theorem loadKey_blank_append (idk : String) : loadKey (" " ++ idk) = loadKey idk := by
  rw [loadKey, loadKey, Base64.Url.decode_blank_append]

theorem key_of_loadKey_encode {bytes : Bytes} (h : loadKey (Base64.Url.encode bytes) = .ok key) :
    bytes = key := by
  rw [loadKey_eq_ok_iff, Base64.Url.decode_encode] at h
  exact Except.ok.inj h.1

theorem given?_eq_some_iff {s : Option String} {text : String} :
    given? s = some text ↔ s = some text ∧ text ≠ "" := by
  simp [given?, Option.filter_eq_some_iff]

theorem given?_of_decode {text : String} {bytes : Bytes}
    (h : Base64.Url.decode text = .ok bytes) (hlength : 0 < bytes.length) :
    given? (some text) = some text := by
  refine given?_eq_some_iff.mpr ⟨rfl, ?_⟩
  rintro rfl
  obtain rfl : [] = bytes := Except.ok.inj h
  exact Nat.lt_irrefl 0 hlength

/-- Texts that are base64url for the 32 bytes of a key and the 64 bytes of a signature pass the check
of a message in bytes if the signature is that of the message under the key, and nothing else does. -/
theorem check_eq_ok_iff {idk ids : Option String} :
    check message idk ids = .ok () ↔
      ∃ bytes idkText idsText key signature,
        message = some bytes ∧ idk = some idkText ∧ ids = some idsText ∧
          Base64.Url.decode idkText = .ok key ∧ key.length = 32 ∧
          Base64.Url.decode idsText = .ok signature ∧ signature.length = 64 ∧
          Ed25519.verify key bytes signature = true := by
  constructor
  · intro h
    cases message with
    | none => simp [check] at h
    | some bytes =>
      cases hidk : given? idk with
      | none => simp [check, hidk] at h
      | some idkText =>
        cases hids : given? ids with
        | none => simp [check, hidk, hids] at h
        | some idsText =>
          simp only [check, hidk, hids] at h
          split at h
          · cases h
          · next key hload =>
            split at h
            · cases h
            · next signature hdecode =>
              split_ifs at h with hsize hverify
              obtain ⟨hkey, hlength⟩ := loadKey_eq_ok_iff.mp hload
              exact ⟨bytes, idkText, idsText, key, signature, rfl, (given?_eq_some_iff.mp hidk).1,
                (given?_eq_some_iff.mp hids).1, hkey, hlength, hdecode, not_not.mp hsize, hverify⟩
  · rintro ⟨bytes, idkText, idsText, key, signature, rfl, rfl, rfl, hkey, hlength, hdecode, hsize,
      hverify⟩
    have hidk := given?_of_decode hkey (hlength ▸ by decide)
    have hids := given?_of_decode hdecode (hsize ▸ by decide)
    have hload := loadKey_eq_ok_iff.mpr ⟨hkey, hlength⟩
    simp only [check, hidk, hids, hload, hdecode, hsize, signatureLength, ne_eq, not_true_eq_false,
      if_false, hverify, if_true]

theorem exists_key_of_check {ids : Option String} (h : check message (some idk) ids = .ok ()) :
    ∃ key, loadKey idk = .ok key := by
  obtain ⟨_, _, _, key, _, _, hidk, _, hkey, hlength, _⟩ := check_eq_ok_iff.mp h
  obtain rfl := Option.some.inj hidk
  exact ⟨key, loadKey_eq_ok_iff.mpr ⟨hkey, hlength⟩⟩

theorem ne_empty_of_check {ids : Option String} (h : check message (some idk) ids = .ok ()) :
    idk ≠ "" := by
  rintro rfl
  obtain ⟨key, hload⟩ := exists_key_of_check h
  obtain ⟨hkey, hlength⟩ := loadKey_eq_ok_iff.mp hload
  obtain rfl : [] = key := Except.ok.inj hkey
  cases hlength

end Sqrl.Signature
