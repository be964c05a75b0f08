import Sqrl.Proofs.Base64
import Sqrl.Proofs.Text

/-! The texts that are read as bytes, and those that are not. A text may have blanks around it, and
padding that its length does not ask for; what it stands for are the whole bytes in the bits of its
characters. -/
namespace Sqrl

namespace Base64

variable {vs : List Nat} {count pads k a b c d : Nat} {s : List Char}

/-! Bits. -/

/-- The last `width` binary digits of a number, the most significant first. -/
def binary : (width : Nat) → (n : Nat) → List Bool
  | 0, _ => []
  | width + 1, n => n.testBit width :: binary width n

def byteBits (bytes : Bytes) : List Bool := bytes.flatMap fun x => binary 8 x.toNat

def sextetBits (vs : List Nat) : List Bool := vs.flatMap (binary 6)

theorem binary_low {low more : Nat} (high : Nat) (h : low < 2 ^ more) (width : Nat)
    (hwidth : width ≤ more) : binary width (2 ^ more * high + low) = binary width low := by
  induction width with
  | zero => rfl
  | succ width ih =>
    rw [binary, binary, ih (by omega), Nat.testBit_two_pow_mul_add high h, if_pos (by omega)]

theorem binary_append {low more : Nat} (width high : Nat) (h : low < 2 ^ more) :
    binary (width + more) (2 ^ more * high + low) = binary width high ++ binary more low := by
  induction width with
  | zero => rw [Nat.zero_add, binary_low high h more (Nat.le_refl more), binary, List.nil_append]
  | succ width ih =>
    rw [Nat.succ_add, binary, binary, ih, Nat.testBit_two_pow_mul_add high h,
      if_neg (by omega), Nat.add_sub_cancel, List.cons_append]

theorem eq_of_binary_eq {width m n : Nat} (hm : m < 2 ^ width) (hn : n < 2 ^ width)
    (h : binary width m = binary width n) : m = n := by
  have hbits : ∀ i < width, m.testBit i = n.testBit i := by
    clear hm hn
    induction width with
    | zero => simp
    | succ width ih =>
      obtain ⟨hbit, hrest⟩ := List.cons_eq_cons.mp h
      intro i hi
      by_cases hlast : i = width
      · rw [hlast, hbit]
      · exact ih hrest i (by omega)
  refine Nat.eq_of_testBit_eq fun i => ?_
  by_cases hi : i < width
  · exact hbits i hi
  · have hlarge : 2 ^ width ≤ 2 ^ i := Nat.pow_le_pow_right (by decide) (Nat.not_lt.mp hi)
    rw [Nat.testBit_lt_two_pow (hm.trans_le hlarge), Nat.testBit_lt_two_pow (hn.trans_le hlarge)]

theorem length_binary (width n : Nat) : (binary width n).length = width := by
  induction width with
  | zero => rfl
  | succ width ih => rw [binary, List.length_cons, ih]

/-- As many bytes that begin the same bits are the same. -/
theorem eq_of_byteBits_prefix {first second : Bytes} {bits : List Bool}
    (hlength : first.length = second.length) (hfirst : byteBits first <+: bits)
    (hsecond : byteBits second <+: bits) : first = second := by
  induction first generalizing second bits with
  | nil => exact (List.eq_nil_of_length_eq_zero hlength.symm).symm
  | cons x first ih =>
    cases second with
    | nil => cases hlength
    | cons y second =>
      obtain ⟨rest, hrest⟩ := hfirst
      obtain ⟨rest', hrest'⟩ := hsecond
      simp only [byteBits, List.flatMap_cons, List.append_assoc] at hrest hrest'
      obtain ⟨hbyte, htail⟩ := List.append_inj (hrest.trans hrest'.symm)
        ((length_binary 8 _).trans (length_binary 8 _).symm)
      have hxy : x = y := UInt8.toNat_inj.mp (eq_of_binary_eq x.toNat_lt y.toNat_lt hbyte)
      rw [hxy, ih (Nat.succ.inj hlength) ⟨rest, rfl⟩ ⟨rest', htail.symm⟩]

theorem binary_first (a : Nat) (hb : b < 64) :
    binary 8 (a * 4 + b / 16) = binary 6 a ++ binary 2 (b / 16) := by
  have hlow : b / 16 < 2 ^ 2 := by omega
  rw [← binary_append 6 a hlow, Nat.mul_comm a 4]
  rfl

theorem binary_second (b : Nat) (hc : c < 64) :
    binary 8 (b % 16 * 16 + c / 4) = binary 4 (b % 16) ++ binary 4 (c / 4) := by
  have hlow : c / 4 < 2 ^ 4 := by omega
  rw [← binary_append 4 (b % 16) hlow, Nat.mul_comm (b % 16) 16]
  rfl

theorem binary_third (c : Nat) (hd : d < 64) :
    binary 8 (c % 4 * 64 + d) = binary 2 (c % 4) ++ binary 6 d := by
  have hlow : d < 2 ^ 6 := hd
  rw [← binary_append 2 (c % 4) hlow, Nat.mul_comm (c % 4) 64]
  rfl

theorem binary_split_second (b : Nat) : binary 6 b = binary 2 (b / 16) ++ binary 4 (b % 16) := by
  have hlow : b % 16 < 2 ^ 4 := Nat.mod_lt b (by decide)
  rw [← binary_append 2 (b / 16) hlow]
  exact congrArg (binary 6) (Nat.div_add_mod b 16).symm

theorem binary_split_third (c : Nat) : binary 6 c = binary 4 (c / 4) ++ binary 2 (c % 4) := by
  have hlow : c % 4 < 2 ^ 2 := Nat.mod_lt c (by decide)
  rw [← binary_append 4 (c / 4) hlow]
  exact congrArg (binary 6) (Nat.div_add_mod c 4).symm

theorem toNat_first (ha : a < 64) (hb : b < 64) :
    (UInt8.ofNat (a * 4 + b / 16)).toNat = a * 4 + b / 16 := by
  simp only [UInt8.toNat_ofNat']
  omega

theorem toNat_second (b : Nat) (hc : c < 64) :
    (UInt8.ofNat (b % 16 * 16 + c / 4)).toNat = b % 16 * 16 + c / 4 := by
  simp only [UInt8.toNat_ofNat']
  omega

theorem toNat_third (c : Nat) (hd : d < 64) :
    (UInt8.ofNat (c % 4 * 64 + d)).toNat = c % 4 * 64 + d := by
  simp only [UInt8.toNat_ofNat']
  omega

theorem byteBits_ofSextets (h : ∀ v ∈ vs, v < 64) : byteBits (ofSextets vs) <+: sextetBits vs := by
  induction vs using ofSextets.induct with
  | case1 a b c d rest ih =>
    simp only [List.forall_mem_cons] at h
    obtain ⟨ha, hb, hc, hd, hrest⟩ := h
    have hprefix := ih hrest
    simp only [byteBits, sextetBits, ofSextets, List.flatMap_cons, toNat_first ha hb,
      toNat_second b hc, toNat_third c hd, binary_first a hb, binary_second b hc,
      binary_third c hd, binary_split_second b, binary_split_third c,
      List.append_assoc] at hprefix ⊢
    simpa only [List.prefix_append_right_inj] using hprefix
  | case2 a b c =>
    simp only [List.forall_mem_cons] at h
    obtain ⟨ha, hb, hc, -⟩ := h
    simp only [byteBits, sextetBits, ofSextets, List.flatMap_cons, List.flatMap_nil,
      toNat_first ha hb, toNat_second b hc, binary_first a hb, binary_second b hc,
      binary_split_second b, binary_split_third c, List.append_assoc, List.prefix_append_right_inj,
      List.append_nil]
    exact List.prefix_append _ _
  | case3 a b =>
    simp only [List.forall_mem_cons] at h
    obtain ⟨ha, hb, -⟩ := h
    simp only [byteBits, sextetBits, ofSextets, List.flatMap_cons, List.flatMap_nil,
      toNat_first ha hb, binary_first a hb, binary_split_second b, List.prefix_append_right_inj,
      List.append_nil]
    exact List.prefix_append _ _
  | case4 vs hfour hthree htwo =>
    have hnone : ofSextets vs = [] := by simp [ofSextets]
    rw [hnone]
    exact List.nil_prefix

theorem length_ofSextets (vs : List Nat) : (ofSextets vs).length = 6 * vs.length / 8 := by
  induction vs using ofSextets.induct with
  | case1 a b c d rest ih =>
    simp only [ofSextets, List.length_cons, ih]
    omega
  | case2 a b c => simp [ofSextets]
  | case3 a b => simp [ofSextets]
  | case4 vs hfour hthree htwo =>
    obtain _ | ⟨a, _ | ⟨b, _ | ⟨c, _ | ⟨d, rest⟩⟩⟩⟩ := vs
    · simp [ofSextets]
    · simp [ofSextets]
    · exact absurd rfl (htwo a b)
    · exact absurd rfl (hthree a b c)
    · exact absurd rfl (hfour a b c d rest)

/-- Are the bits of the last number that fill no byte zero? -/
def HasZeroSpare (vs : List Nat) : Prop := ∀ v ∈ vs.getLast?, v % 2 ^ (6 * vs.length % 8) = 0

theorem hasZeroSpare_group_iff : HasZeroSpare (a :: b :: c :: d :: vs) ↔ HasZeroSpare vs := by
  have hwidth : 6 * (a :: b :: c :: d :: vs).length % 8 = 6 * vs.length % 8 := by
    simp only [List.length_cons]
    omega
  rw [HasZeroSpare, HasZeroSpare, hwidth]
  cases vs with
  | nil => simp [Nat.mod_one]
  | cons e vs => simp

theorem hasZeroSpare_sextets (bytes : Bytes) : HasZeroSpare (sextets bytes) := by
  induction bytes using sextets.induct with
  | case1 x y z rest ih => exact hasZeroSpare_group_iff.mpr ih
  | case2 x y => simp [HasZeroSpare, sextets]
  | case3 x => simp [HasZeroSpare, sextets]
  | case4 => simp [HasZeroSpare, sextets]

/-- Numbers are those of their bytes if no bit is lost. -/
theorem sextets_ofSextets (h : ∀ v ∈ vs, v < 64) (hlength : vs.length % 4 ≠ 1)
    (hspare : HasZeroSpare vs) : sextets (ofSextets vs) = vs := by
  induction vs using ofSextets.induct with
  | case1 a b c d rest ih =>
    simp only [List.forall_mem_cons] at h
    obtain ⟨ha, hb, hc, hd, hrest⟩ := h
    simp only [List.length_cons] at hlength
    rw [ofSextets, sextets, ih hrest (by omega) (hasZeroSpare_group_iff.mp hspare),
      toNat_first ha hb, toNat_second b hc, toNat_third c hd]
    refine List.cons_eq_cons.mpr ⟨by omega, List.cons_eq_cons.mpr ⟨by omega, ?_⟩⟩
    exact List.cons_eq_cons.mpr ⟨by omega, List.cons_eq_cons.mpr ⟨by omega, rfl⟩⟩
  | case2 a b c =>
    simp only [List.forall_mem_cons] at h
    obtain ⟨ha, hb, hc, -⟩ := h
    have hlast : c % 4 = 0 := by simpa [HasZeroSpare] using hspare
    rw [ofSextets, sextets, toNat_first ha hb, toNat_second b hc]
    refine List.cons_eq_cons.mpr ⟨by omega, List.cons_eq_cons.mpr ⟨by omega, ?_⟩⟩
    exact List.cons_eq_cons.mpr ⟨by omega, rfl⟩
  | case3 a b =>
    simp only [List.forall_mem_cons] at h
    obtain ⟨ha, hb, -⟩ := h
    have hlast : b % 16 = 0 := by simpa [HasZeroSpare] using hspare
    rw [ofSextets, sextets, toNat_first ha hb]
    exact List.cons_eq_cons.mpr ⟨by omega, List.cons_eq_cons.mpr ⟨by omega, rfl⟩⟩
  | case4 vs hfour hthree htwo =>
    obtain _ | ⟨a, _ | ⟨b, _ | ⟨c, _ | ⟨d, rest⟩⟩⟩⟩ := vs
    · simp [ofSextets, sextets]
    · simp at hlength
    · exact absurd rfl (htwo a b)
    · exact absurd rfl (hthree a b c)
    · exact absurd rfl (hfour a b c d rest)

/-! The scan. -/

section Scan

variable {value? : Char → Option Nat} {padded : Bool}

/-- After padding nothing but padding is read. -/
theorem eq_replicate_of_scan_padded (h : scan value? count pads true s = .ok vs) :
    vs = [] ∧ ∃ k, s = List.replicate k '=' := by
  induction s generalizing count pads with
  | nil =>
    rw [scan] at h
    split at h
    · exact ⟨(Except.ok.inj h).symm, 0, rfl⟩
    · split at h <;> cases h
  | cons c s ih =>
    by_cases hc : c = '='
    · subst hc
      rw [scan, if_pos rfl] at h
      split at h
      · obtain ⟨hvs, k, hs⟩ := ih h
        exact ⟨hvs, k + 1, by rw [hs, List.replicate_succ]⟩
      · split at h
        · obtain ⟨hvs, k, hs⟩ := ih h
          exact ⟨hvs, k + 1, by rw [hs, List.replicate_succ]⟩
        · split at h
          · next hend =>
            rw [List.isEmpty_iff.mp hend]
            exact ⟨(Except.ok.inj h).symm, 1, rfl⟩
          · cases h
    · rw [scan, if_neg hc] at h
      split at h <;> cases h

/-- Where padding can complete no group it is passed over. -/
theorem scan_replicate (h : count % 4 < 2) :
    scan value? count 0 padded (List.replicate k '=') = scan value? count 0 padded [] := by
  induction k generalizing padded with
  | zero => rfl
  | succ k ih =>
    calc scan value? count 0 padded (List.replicate (k + 1) '=')
        = scan value? count 0 true (List.replicate k '=') := by
          rw [List.replicate_succ, scan, if_pos rfl, if_pos h]
      _ = scan value? count 0 true [] := ih

/-- Padding is read where a group is complete, or where it completes one. -/
theorem scan_replicate_iff : scan value? count 0 padded (List.replicate k '=') = .ok [] ↔
    count % 4 = 0 ∨ count % 4 = 2 ∧ k = 2 ∨ count % 4 = 3 ∧ k = 1 := by
  have hcases : count % 4 = 0 ∨ count % 4 = 1 ∨ count % 4 = 2 ∨ count % 4 = 3 := by omega
  rcases hcases with h | h | h | h
  · simp [scan_replicate (by omega : count % 4 < 2), scan, h]
  · simp [scan_replicate (by omega : count % 4 < 2), scan, h]
  · obtain _ | _ | _ | k := k
    · simp [scan, h]
    · simp [scan, h]
    · simp [scan, h, List.replicate_succ]
    · simp [scan, h, List.replicate_succ]
  · obtain _ | _ | k := k
    · simp [scan, h]
    · simp [scan, h]
    · simp [scan, h, List.replicate_succ]

end Scan

namespace Url

def alphabet : List Char :=
  "ABCDEFGHIJKLMNOPQRSTUVWXYZabcdefghijklmnopqrstuvwxyz0123456789-_".toList

theorem digit_mem_alphabet {n : Nat} (h : n < 64) :
    digit n ∈ alphabet ∧ alphabet.idxOf (digit n) = n := by
  have hall : ∀ n : Fin 64, digit n ∈ alphabet ∧ alphabet.idxOf (digit n) = n := by
    decide +kernel
  exact hall ⟨n, h⟩

theorem exists_digit_of_mem {c : Char} (h : c ∈ alphabet) : ∃ n < 64, digit n = c := by
  have hall : alphabet = (List.range 64).map digit := by decide +kernel
  rw [hall, List.mem_map] at h
  obtain ⟨n, hn, hdigit⟩ := h
  exact ⟨n, List.mem_range.mp hn, hdigit⟩

theorem lt_of_value? {c : Char} {v : Nat} (h : value? c = some v) : c.toNat < 0x80 := by
  rw [value?] at h
  split_ifs at h with hminus hline
  · rw [hminus]
    decide
  · rw [hline]
    decide
  · rw [commonValue?] at h
    split_ifs at h with hupper hlower hdecimal
    · exact Nat.lt_of_le_of_lt (Text.toNat_le_toNat hupper.2) (by decide)
    · exact Nat.lt_of_le_of_lt (Text.toNat_le_toNat hlower.2) (by decide)
    · exact Nat.lt_of_le_of_lt (Text.toNat_le_toNat hdecimal.2) (by decide)

/-- What has a number is the character of that number. -/
theorem digit_of_value? {c : Char} {v : Nat} (h : value? c = some v) : v < 64 ∧ digit v = c := by
  have hcode : ∀ n < 0x80, ∀ v ∈ value? (Char.ofNat n), v < 64 ∧ digit v = Char.ofNat n := by
    decide
  exact Text.of_codes (p := fun c => ∀ v ∈ value? c, v < 64 ∧ digit v = c) hcode
    (lt_of_value? h) v h

/-- What the scan reads are characters of the alphabet, and then padding. -/
theorem exists_of_scan {vs : List Nat} {s : List Char}
    (h : scan value? count 0 false s = .ok vs) :
    (∀ v ∈ vs, v < 64) ∧ ∃ k, s = vs.map digit ++ List.replicate k '=' := by
  induction s generalizing count vs with
  | nil =>
    rw [scan] at h
    split at h
    · obtain rfl := Except.ok.inj h
      exact ⟨by simp, 0, rfl⟩
    · split at h <;> cases h
  | cons c s ih =>
    by_cases hc : c = '='
    · have hafter : vs = [] ∧ ∃ k, c :: s = List.replicate k '=' := by
        subst hc
        have hpadded : scan value? count 0 true ('=' :: s) = .ok vs := by
          rw [scan, if_pos rfl] at h ⊢
          exact h
        exact eq_replicate_of_scan_padded hpadded
      obtain ⟨rfl, k, hs⟩ := hafter
      exact ⟨by simp, k, hs⟩
    · rw [scan, if_neg hc] at h
      split at h
      · cases h
      · next v hv =>
        simp only [Bool.false_eq_true, if_false] at h
        cases hrest : scan value? (count + 1) 0 false s with
        | error fault => simp [hrest, Functor.map, Except.map] at h
        | ok ws =>
          simp only [hrest, Functor.map, Except.map, Except.ok.injEq] at h
          subst h
          obtain ⟨hws, k, hs⟩ := ih hrest
          obtain ⟨hlt, hdigit⟩ := digit_of_value? hv
          exact ⟨List.forall_mem_cons.mpr ⟨hlt, hws⟩, k, by rw [hs, List.map_cons, hdigit]; rfl⟩

/-- What is read of a padded text. -/
theorem read_eq_ok_iff {vs : List Nat} {s : List Char} : Base64.read value? s = .ok vs ↔
    (∀ v ∈ vs, v < 64) ∧ ∃ k, s = vs.map digit ++ List.replicate k '=' ∧ (vs = [] → k = 0) ∧
      (vs.length % 4 = 0 ∨ vs.length % 4 = 2 ∧ k = 2 ∨ vs.length % 4 = 3 ∧ k = 1) := by
  have hscan (hvs : ∀ v ∈ vs, v < 64) (k : Nat) :
      scan value? 0 0 false (vs.map digit ++ List.replicate k '=') = .ok vs ↔
        vs.length % 4 = 0 ∨ vs.length % 4 = 2 ∧ k = 2 ∨ vs.length % 4 = 3 ∧ k = 1 := by
    have hpads : scan value? vs.length 0 false (List.replicate k '=') = .ok [] ↔
        vs.length % 4 = 0 ∨ vs.length % 4 = 2 ∧ k = 2 ∨ vs.length % 4 = 3 ∧ k = 1 :=
      scan_replicate_iff
    rw [← hpads, scan_map_digit hvs, Nat.zero_add]
    cases scan value? vs.length 0 false (List.replicate k '=') <;> simp [Functor.map, Except.map]
  have hhead (hvs : ∀ v ∈ vs, v < 64) (k : Nat) :
      (vs.map digit ++ List.replicate k '=').head? = some '=' ↔ ¬ (vs = [] → k = 0) := by
    cases vs with
    | nil => cases k <;> simp [List.replicate_succ]
    | cons v vs => simpa using (digit_plain (hvs v List.mem_cons_self)).1
  constructor
  · intro h
    rw [Base64.read] at h
    split at h
    · cases h
    · next hfirst =>
      obtain ⟨hvs, k, rfl⟩ := exists_of_scan h
      exact ⟨hvs, k, rfl, not_not.mp (mt (hhead hvs k).mpr hfirst), (hscan hvs k).mp h⟩
  · rintro ⟨hvs, k, rfl, hfirst, hgrouped⟩
    rw [Base64.read, if_neg (mt (hhead hvs k).mp (not_not.mpr hfirst)), hscan hvs k]
    exact hgrouped

/-- Padding that is added joins the padding that is there. -/
theorem pad_eq_append_iff {digits s : List Char} {k : Nat} (h : '=' ∉ digits) :
    pad s = digits ++ List.replicate k '=' ↔ ∃ padding,
      s = digits ++ List.replicate padding '=' ∧ k = padding + (4 - s.length % 4) % 4 := by
  rw [pad]
  constructor
  · intro hpad
    obtain ⟨rest, hs, hrest⟩ | ⟨rest, hdigits, hrest⟩ := List.append_eq_append_iff.mp hpad
    · -- The text ends within the digits, which have no padding among them.
      have hnil : rest = [] := by
        cases rest with
        | nil => rfl
        | cons c rest =>
          have hc : c ∈ List.replicate ((4 - s.length % 4) % 4) '=' := hrest ▸ by simp
          exact absurd (hs ▸ by simp [List.eq_of_mem_replicate hc]) h
      subst hnil
      have hlength := congrArg List.length hrest
      simp only [List.length_replicate, List.nil_append] at hlength
      exact ⟨0, by simpa using hs.symm, by omega⟩
    · obtain ⟨hlength, hfirst, -⟩ := List.append_eq_replicate_iff.mp hrest.symm
      rw [List.length_replicate] at hlength
      exact ⟨rest.length, hfirst ▸ hdigits, hlength.symm⟩
  · rintro ⟨padding, hs, rfl⟩
    generalize (4 - s.length % 4) % 4 = more
    rw [hs, List.append_assoc, List.replicate_append_replicate]

/-- Is a text, but for the blanks around it, digits with padding after them? Padding may be missing,
in part or as a whole; after whole groups there may be any number of it. -/
structure IsSpelling (s : String) (digits : List Char) (padding : Nat) : Prop where
  text : Text.strip s.toList = digits ++ List.replicate padding '='
  mem_alphabet : ∀ c ∈ digits, c ∈ alphabet
  grouped : digits.length % 4 = 0 ∧ (0 < digits.length ∨ padding = 0) ∨
    digits.length % 4 = 2 ∧ padding ≤ 2 ∨ digits.length % 4 = 3 ∧ padding ≤ 1

def bits (digits : List Char) : List Bool := sextetBits (digits.map fun c => alphabet.idxOf c)

theorem exists_map_digit {digits : List Char} (h : ∀ c ∈ digits, c ∈ alphabet) :
    ∃ vs : List Nat, (∀ v ∈ vs, v < 64) ∧ vs.map digit = digits := by
  induction digits with
  | nil => exact ⟨[], by simp, rfl⟩
  | cons c digits ih =>
    obtain ⟨hc, hdigits⟩ := List.forall_mem_cons.mp h
    obtain ⟨v, hv, hdigit⟩ := exists_digit_of_mem hc
    obtain ⟨vs, hvs, hmap⟩ := ih hdigits
    exact ⟨v :: vs, List.forall_mem_cons.mpr ⟨hv, hvs⟩, by rw [List.map_cons, hdigit, hmap]⟩

theorem map_idxOf_map_digit {vs : List Nat} (h : ∀ v ∈ vs, v < 64) :
    (vs.map digit).map (fun c => alphabet.idxOf c) = vs := by
  rw [List.map_map]
  exact (List.map_congr_left fun v hv => (digit_mem_alphabet (h v hv)).2).trans (List.map_id vs)

theorem not_mem_map_digit {vs : List Nat} (h : ∀ v ∈ vs, v < 64) : '=' ∉ vs.map digit := by
  simp only [List.mem_map, not_exists, not_and]
  exact fun v hv => (digit_plain (h v hv)).1

/-- A spelling, in terms of the numbers of its characters. -/
theorem exists_isSpelling_iff {s : String} {vs : List Nat} (h : ∀ v ∈ vs, v < 64) :
    (∃ padding, IsSpelling s (vs.map digit) padding) ↔
      Base64.read value? (pad (Text.strip s.toList)) = .ok vs := by
  have hmem : ∀ c ∈ vs.map digit, c ∈ alphabet := by
    simp only [List.forall_mem_map]
    exact fun v hv => (digit_mem_alphabet (h v hv)).1
  have hempty : vs = [] ↔ vs.length = 0 := List.length_eq_zero_iff.symm
  rw [read_eq_ok_iff]
  constructor
  · rintro ⟨padding, htext, -, hgrouped⟩
    refine ⟨h, _, (pad_eq_append_iff (not_mem_map_digit h)).mpr ⟨padding, htext, rfl⟩, ?_⟩
    simp only [htext, List.length_append, List.length_map, List.length_replicate, hempty]
      at hgrouped ⊢
    omega
  · rintro ⟨-, k, hpad, hfirst, hgrouped⟩
    obtain ⟨padding, htext, rfl⟩ := (pad_eq_append_iff (not_mem_map_digit h)).mp hpad
    refine ⟨padding, htext, hmem, ?_⟩
    simp only [htext, List.length_append, List.length_map, List.length_replicate, hempty]
      at hfirst hgrouped ⊢
    omega

theorem decode_eq_ok_iff_read {s : String} {bytes : Bytes} : decode s = .ok bytes ↔
    ∃ vs, Base64.read value? (pad (Text.strip s.toList)) = .ok vs ∧ ofSextets vs = bytes := by
  constructor
  · intro h
    simp only [decode] at h
    split at h
    · cases h
    · split at h
      · cases hread : Base64.read value? (pad (Text.strip s.toList)) with
        | error fault => simp [hread, Except.map, Except.mapError] at h
        | ok vs =>
          simp only [hread, Except.map, Except.mapError, Except.ok.injEq] at h
          exact ⟨vs, rfl, h⟩
      · cases h
  · rintro ⟨vs, hread, rfl⟩
    obtain ⟨hvs, k, hpad, -⟩ := read_eq_ok_iff.mp hread
    rw [decode_of_plain, hread]
    · rfl
    · rw [hpad]
      exact fun c hc => plain_of_mem_pad hvs hc

theorem exists_isSpelling_of_read {s : String} {vs : List Nat}
    (h : Base64.read value? (pad (Text.strip s.toList)) = .ok vs) :
    (∀ v ∈ vs, v < 64) ∧ ∃ padding, IsSpelling s (vs.map digit) padding :=
  have hvs := (read_eq_ok_iff.mp h).1
  ⟨hvs, (exists_isSpelling_iff hvs).mpr h⟩

/-- A text is read if it is a spelling, and as the whole bytes in the bits of its digits. Every
other text is refused. -/
theorem decode_spelling (s : String) :
    (∀ bytes, decode s = .ok bytes ↔ ∃ digits padding, IsSpelling s digits padding ∧
      bytes.length = 6 * digits.length / 8 ∧ byteBits bytes <+: bits digits) ∧
    ((∃ bytes, decode s = .ok bytes) ↔ ∃ digits padding, IsSpelling s digits padding) ∧
    ((∃ fault, decode s = .error fault) ↔ ¬ ∃ digits padding, IsSpelling s digits padding) := by
  have hread {digits : List Char} {padding : Nat} (h : IsSpelling s digits padding) :
      ∃ bytes, decode s = .ok bytes ∧ bytes.length = 6 * digits.length / 8 ∧
        byteBits bytes <+: bits digits := by
    obtain ⟨vs, hvs, rfl⟩ := exists_map_digit h.mem_alphabet
    have hok := (exists_isSpelling_iff hvs).mp ⟨padding, h⟩
    refine ⟨ofSextets vs, decode_eq_ok_iff_read.mpr ⟨vs, hok, rfl⟩, ?_, ?_⟩
    · rw [length_ofSextets, List.length_map]
    · rw [bits, map_idxOf_map_digit hvs]
      exact byteBits_ofSextets hvs
  have hspelled {bytes : Bytes} (h : decode s = .ok bytes) :
      ∃ digits padding, IsSpelling s digits padding := by
    obtain ⟨vs, hok, -⟩ := decode_eq_ok_iff_read.mp h
    exact ⟨_, (exists_isSpelling_of_read hok).2⟩
  refine ⟨fun bytes => ⟨fun h => ?_, ?_⟩, ⟨?_, ?_⟩, ?_⟩
  · obtain ⟨digits, padding, hspelling⟩ := hspelled h
    obtain ⟨found, hfound, hresult⟩ := hread hspelling
    obtain rfl := Except.ok.inj (hfound.symm.trans h)
    exact ⟨digits, padding, hspelling, hresult⟩
  · rintro ⟨digits, padding, hspelling, hlength, hbits⟩
    obtain ⟨found, hfound, hfoundLength, hfoundBits⟩ := hread hspelling
    rw [hfound, eq_of_byteBits_prefix (hfoundLength.trans hlength.symm) hfoundBits hbits]
  · rintro ⟨bytes, h⟩
    exact hspelled h
  · rintro ⟨digits, padding, hspelling⟩
    obtain ⟨bytes, hok, -⟩ := hread hspelling
    exact ⟨bytes, hok⟩
  · cases hdecode : decode s with
    | ok bytes => simp [hspelled hdecode]
    | error fault =>
      refine iff_of_true ⟨fault, rfl⟩ ?_
      rintro ⟨digits, padding, hspelling⟩
      obtain ⟨bytes, hok, -⟩ := hread hspelling
      cases hdecode.symm.trans hok

/-- Blanks, missing padding, low bits that fill no byte and padding after whole groups are all
passed over. -/
example : decode " QUJ\n" = .ok [0x41, 0x42] ∧ decode "QUI=" = .ok [0x41, 0x42] ∧
    decode "QUJD=====" = .ok [0x41, 0x42, 0x43] := by
  decide +kernel

/-- Bytes and texts are read back from what is written for them, in which no character has to be
escaped. A text that is read is the one that is written for its bytes just if it has no blanks
around it, no padding and no low bits beyond its bytes. -/
theorem encode_inverse :
    (∀ bytes, decode (encode bytes) = .ok bytes ∧ ∀ c ∈ (encode bytes).toList,
      c ≠ '=' ∧ c ≠ '+' ∧ c ≠ '/' ∧ Text.isBlank c = false) ∧
    Function.Injective encode ∧
    (∀ s, decodeText (encodeText s) = .ok s) ∧
    ∀ s bytes, decode s = .ok bytes → (encode bytes = s ↔
      Text.strip s.toList = s.toList ∧ '=' ∉ s.toList ∧
        HasZeroSpare (s.toList.map fun c => alphabet.idxOf c)) := by
  have hplain (bytes : Bytes) : ∀ c ∈ (encode bytes).toList,
      c ≠ '=' ∧ c ≠ '+' ∧ c ≠ '/' ∧ Text.isBlank c = false := by
    intro c hc
    rw [encode, String.toList_ofList, List.mem_map] at hc
    obtain ⟨v, hv, rfl⟩ := hc
    have hdigit := digit_plain (sextets_lt bytes v hv)
    exact ⟨hdigit.1, hdigit.2.1, hdigit.2.2.1, hdigit.2.2.2.2⟩
  refine ⟨fun bytes => ⟨decode_encode bytes, hplain bytes⟩, ?_, decodeText_encodeText, ?_⟩
  · intro first second h
    have hread := congrArg decode h
    rw [decode_encode, decode_encode] at hread
    exact Except.ok.inj hread
  · intro s bytes h
    constructor
    · rintro rfl
      refine ⟨strip_eq_self fun c hc => (hplain bytes c hc).2.2.2, fun hmem => ?_, ?_⟩
      · exact (hplain bytes '=' hmem).1 rfl
      · rw [encode, String.toList_ofList, map_idxOf_map_digit (sextets_lt bytes)]
        exact hasZeroSpare_sextets bytes
    · rintro ⟨hstrip, hpadding, hspare⟩
      obtain ⟨vs, hread, rfl⟩ := decode_eq_ok_iff_read.mp h
      obtain ⟨hvs, padding, hspelling⟩ := exists_isSpelling_of_read hread
      have htext := hspelling.text
      rw [hstrip] at htext
      -- Without padding the digits are the whole text.
      have hnone : padding = 0 := by
        by_contra hne
        exact hpadding (htext ▸ by simp [hne])
      rw [hnone, List.replicate_zero, List.append_nil] at htext
      rw [htext, map_idxOf_map_digit hvs] at hspare
      have hgrouped := hspelling.grouped
      rw [List.length_map] at hgrouped
      rw [encode, sextets_ofSextets hvs (by omega) hspare, ← htext, String.ofList_toList]

theorem encode_inverse_low_bits : decode "QUJ" = .ok [0x41, 0x42] ∧
    (encode [0x41, 0x42] = "QUJ" ↔ Text.strip "QUJ".toList = "QUJ".toList ∧ '=' ∉ "QUJ".toList ∧
      HasZeroSpare ("QUJ".toList.map fun c => alphabet.idxOf c)) ∧ encode [0x41, 0x42] = "QUI" := by
  have hread : decode "QUJ" = .ok [0x41, 0x42] := by decide +kernel
  exact ⟨hread, encode_inverse.2.2.2 "QUJ" [0x41, 0x42] hread, by decide +kernel⟩

end Url

end Base64

end Sqrl
