import Sqrl.Proofs.Text
import Sqrl.Proofs.Utf8
import Sqrl.Text.Case

/-! Texts in small letters. A text that is in small letters stays as it is, and what has no case is
neither changed nor put into a text. The runs of the table are compared as a whole: no run holds a
letter that another run leads to. -/
namespace Sqrl.Text

def IsSmall (c : Char) : Prop := lowerChar [] c [] = [c]

instance (c : Char) : Decidable (IsSmall c) := inferInstanceAs (Decidable (_ = _))

/-- Is a character neither a letter with case nor the dot that stays above one? -/
def IsUncased (c : Char) : Prop := inRanges casedRanges c.toNat = false ∧ c ≠ '\u0307'

instance (c : Char) : Decidable (IsUncased c) := inferInstanceAs (Decidable (_ ∧ _))

variable {c d : Char} {s : List Char} {n : Nat}

namespace CaseRun

def holds (r : CaseRun) (n : Nat) : Bool :=
  r.first ≤ n && n ≤ r.last && (n - r.first) % r.step == 0

def low (r : CaseRun) : Nat := (r.first + r.shift).toNat

def high (r : CaseRun) : Nat := (r.last + r.shift).toNat

/-- As many code points as the run holds, in its steps from `start` on. -/
def codesFrom (r : CaseRun) (start : Nat) : List Nat :=
  List.range' start ((r.last - r.first) / r.step + 1) r.step

/-- Does the run lead to letters with case that are in ASCII already small, and that have no small
forms of their own? -/
def leadsToLetters (r : CaseRun) : Bool :=
  (Nat.ble 0x61 r.low && Nat.ble r.high 0x7A || Nat.ble 0x80 r.low &&
    (Nat.blt r.high 0xD800 || Nat.blt 0xDFFF r.low && Nat.blt r.high 0x110000)) &&
    (Nat.blt r.high 0x130 || Nat.blt 0x130 r.low) &&
    (Nat.blt r.high 0x3A3 || Nat.blt 0x3A3 r.low) &&
    casedRanges.any fun range => Nat.ble range.1 r.low && Nat.ble r.high range.2

end CaseRun

def heldCodes : List Nat := lowerRuns.flatMap fun r => r.codesFrom r.first

def smallCodes : List Nat := lowerRuns.flatMap fun r => r.codesFrom r.low

/-- The number whose bits are set at the code points. Two such numbers are compared at once. -/
def bits (codes : List Nat) : Nat := codes.foldr (fun n m => 1 <<< n ||| m) 0

theorem testBit_bits {codes : List Nat} : (bits codes).testBit n = true ↔ n ∈ codes := by
  induction codes with
  | nil => simp [bits]
  | cons code codes ih =>
    rw [bits, List.foldr_cons, ← bits, Nat.testBit_or, Bool.or_eq_true, ih, Nat.one_shiftLeft,
      Nat.testBit_two_pow, decide_eq_true_eq, List.mem_cons, eq_comm]

theorem held_land_small : bits heldCodes &&& bits smallCodes = 0 := by
  decide +kernel

theorem not_mem_heldCodes (h : n ∈ smallCodes) : n ∉ heldCodes := by
  intro hheld
  have hboth : (bits heldCodes &&& bits smallCodes).testBit n = true := by
    rw [Nat.testBit_and, testBit_bits.mpr h, testBit_bits.mpr hheld]
    rfl
  rw [held_land_small, Nat.zero_testBit] at hboth
  cases hboth

theorem all_leadsToLetters_lowerRuns : lowerRuns.all CaseRun.leadsToLetters = true := by
  decide +kernel

section

variable {r : CaseRun}

theorem leadsToLetters_of_mem (hr : r ∈ lowerRuns) : r.leadsToLetters = true :=
  List.all_eq_true.mp all_leadsToLetters_lowerRuns r hr

theorem CaseRun.holds_iff : r.holds n = true ↔
    r.first ≤ n ∧ n ≤ r.last ∧ (n - r.first) % r.step = 0 := by
  simp [holds, and_assoc]

/-- A code point that a run holds is led as far from the first one as it stands from it. -/
theorem CaseRun.toNat_add_shift (h : r.leadsToLetters = true) (hn : r.holds n = true) :
    (n + r.shift).toNat = r.low + (n - r.first) ∧ r.low + (n - r.first) ≤ r.high := by
  obtain ⟨hfirst, hlast, -⟩ := holds_iff.mp hn
  have hlow : 0 < r.low := by
    simp only [leadsToLetters, Bool.and_eq_true, Bool.or_eq_true, Nat.ble_eq] at h
    omega
  simp only [low, high] at hlow ⊢
  omega

theorem CaseRun.mem_codesFrom (hn : r.holds n = true) (start : Nat) :
    start + (n - r.first) ∈ r.codesFrom start := by
  obtain ⟨hfirst, hlast, hstep⟩ := holds_iff.mp hn
  rw [codesFrom, List.mem_range']
  refine ⟨(n - r.first) / r.step, Nat.lt_succ_of_le (Nat.div_le_div_right (by omega)), ?_⟩
  rw [Nat.mul_div_cancel' (Nat.dvd_of_mod_eq_zero hstep)]

theorem mem_heldCodes (hr : r ∈ lowerRuns) (hn : r.holds n = true) : n ∈ heldCodes := by
  have hmem := CaseRun.mem_codesFrom hn r.first
  rw [Nat.add_sub_cancel' (CaseRun.holds_iff.mp hn).1] at hmem
  exact List.mem_flatMap.mpr ⟨r, hr, hmem⟩

/-- A code point is led to itself, or by a run that holds it. -/
theorem shiftBy_cases (runs : List CaseRun) (n : Nat) : shiftBy runs n = n ∨
    ∃ r ∈ runs, r.holds n = true ∧ shiftBy runs n = (n + r.shift).toNat := by
  rw [shiftBy]
  split
  · next r hfind =>
    have hholds := List.find?_some hfind
    exact .inr ⟨r, List.mem_of_find?_eq_some hfind, hholds, rfl⟩
  · exact .inl rfl

theorem shiftBy_eq_self (h : n ∉ heldCodes) : shiftBy lowerRuns n = n := by
  have hfind : lowerRuns.find? (fun r => r.holds n) = none :=
    List.find?_eq_none.mpr fun r hr hn => h (mem_heldCodes hr hn)
  simp only [CaseRun.holds] at hfind
  rw [shiftBy, hfind]

end

theorem lowerChar_of_runs (hascii : ¬ c.toNat < 0x80) (hdotted : c ≠ '\u0130')
    (hsigma : c ≠ '\u03A3') (before after : List Char) :
    lowerChar before c after = [Char.ofNat (shiftBy lowerRuns c.toNat)] := by
  rw [lowerChar, if_neg hascii, if_neg hdotted, if_neg hsigma]

theorem isSmall_of_shiftBy (hascii : ¬ c.toNat < 0x80) (hdotted : c ≠ '\u0130')
    (hsigma : c ≠ '\u03A3') (h : shiftBy lowerRuns c.toNat = c.toNat) : IsSmall c := by
  rw [IsSmall, lowerChar_of_runs hascii hdotted hsigma, h, Char.ofNat_toNat]

theorem isSmall_toLower (h : c.toNat < 0x80) :
    IsSmall c.toLower ∧ (c.toLower = c ∨ ¬ IsUncased c.toLower) :=
  of_codes (p := fun c => IsSmall c.toLower ∧ (c.toLower = c ∨ ¬ IsUncased c.toLower))
    (by decide +kernel) h

theorem isSmall_of_letter (hletter : 0x61 ≤ c.toNat) (hascii : c.toNat ≤ 0x7A) : IsSmall c :=
  of_codes (p := fun c => 0x61 ≤ c.toNat → IsSmall c) (by decide : ∀ n < 0x7B, _)
    (by omega) hletter

/-- What a run leads to is a letter with case that is small already. -/
theorem isSmall_shift {r : CaseRun} (hr : r ∈ lowerRuns) (hn : r.holds n = true) :
    IsSmall (Char.ofNat (n + r.shift).toNat) ∧ ¬ IsUncased (Char.ofNat (n + r.shift).toNat) := by
  have hletters := leadsToLetters_of_mem hr
  obtain ⟨himage, hhigh⟩ := CaseRun.toNat_add_shift hletters hn
  have hself : shiftBy lowerRuns (n + r.shift).toNat = (n + r.shift).toNat := by
    apply shiftBy_eq_self
    rw [himage]
    exact not_mem_heldCodes (List.mem_flatMap.mpr ⟨r, hr, CaseRun.mem_codesFrom hn r.low⟩)
  simp only [CaseRun.leadsToLetters, Bool.and_eq_true, Bool.or_eq_true, Nat.ble_eq, Nat.blt_eq,
    List.any_eq_true] at hletters
  obtain ⟨⟨⟨hvalid, hdotted⟩, hsigma⟩, range, hrange, hcased⟩ := hletters
  generalize (n + r.shift).toNat = m at *
  have hcode : (Char.ofNat m).toNat = m := Utf8.toNat_char_ofNat (by omega)
  constructor
  · by_cases hascii : m < 0x80
    · exact isSmall_of_letter (by omega) (by omega)
    -- No run leads to one of the two letters that have small forms apart from the runs.
    · apply isSmall_of_shiftBy (by omega) _ _ (by rw [hcode, hself])
      all_goals
        intro hc
        rw [← Char.toNat_inj, hcode] at hc
        simp at hc
        omega
  · rintro ⟨huncased, -⟩
    rw [hcode, inRanges, List.any_eq_false] at huncased
    apply huncased range hrange
    simp only [Bool.and_eq_true, decide_eq_true_eq]
    omega

theorem of_mem_lowerChar {before after : List Char} (h : d ∈ lowerChar before c after) :
    IsSmall d ∧ (IsUncased d → d = c) := by
  have hsmall : ['i', '\u0307', '\u03C2', '\u03C3'].all
      (fun d => decide (IsSmall d ∧ ¬ IsUncased d)) = true := by
    decide
  have hother (hd : d ∈ ['i', '\u0307', '\u03C2', '\u03C3']) :
      IsSmall d ∧ (IsUncased d → d = c) := by
    obtain ⟨hdsmall, hdcased⟩ := of_decide_eq_true (List.all_eq_true.mp hsmall d hd)
    exact ⟨hdsmall, fun huncased => absurd huncased hdcased⟩
  by_cases hascii : c.toNat < 0x80
  · rw [lowerChar, if_pos hascii, List.mem_singleton] at h
    obtain ⟨hdsmall, hsame⟩ := isSmall_toLower hascii
    rw [h]
    exact ⟨hdsmall, hsame.resolve_right ∘ not_not.mpr⟩
  by_cases hdotted : c = '\u0130'
  · rw [lowerChar, if_neg hascii, if_pos hdotted] at h
    exact hother (by grind)
  by_cases hsigma : c = '\u03A3'
  · rw [lowerChar, if_neg hascii, if_neg hdotted, if_pos hsigma] at h
    exact hother (by grind)
  rw [lowerChar_of_runs hascii hdotted hsigma, List.mem_singleton] at h
  rcases shiftBy_cases lowerRuns c.toNat with hself | ⟨r, hr, hholds, hshift⟩
  · rw [hself, Char.ofNat_toNat] at h
    rw [h]
    exact ⟨isSmall_of_shiftBy hascii hdotted hsigma hself, fun _ => rfl⟩
  · obtain ⟨hdsmall, hdcased⟩ := isSmall_shift hr hholds
    rw [hshift] at h
    exact h ▸ ⟨hdsmall, fun huncased => absurd huncased hdcased⟩

theorem lowerChar_ne_nil (before : List Char) (c : Char) (after : List Char) :
    lowerChar before c after ≠ [] := by
  rw [lowerChar]
  split_ifs <;> simp

/-- What is small stays as it is wherever it stands. -/
theorem IsSmall.lowerChar_eq (h : IsSmall c) (before after : List Char) :
    lowerChar before c after = [c] := by
  have hsigma : c ≠ '\u03A3' := by
    rintro rfl
    revert h
    decide
  rw [IsSmall, lowerChar] at h
  rw [lowerChar, if_neg hsigma]
  rwa [if_neg hsigma] at h

theorem of_mem_lowerFrom {before : List Char} (h : d ∈ lowerFrom before s) :
    IsSmall d ∧ (IsUncased d → d ∈ s) := by
  induction s generalizing before with
  | nil => cases h
  | cons c s ih =>
    rw [lowerFrom, List.mem_append] at h
    rcases h with h | h
    · obtain ⟨hsmall, hsame⟩ := of_mem_lowerChar h
      exact ⟨hsmall, fun huncased => List.mem_cons.mpr (.inl (hsame huncased))⟩
    · obtain ⟨hsmall, hmem⟩ := ih h
      exact ⟨hsmall, fun huncased => List.mem_cons_of_mem c (hmem huncased)⟩

theorem isSmall_of_mem_lower (h : d ∈ lower s) : IsSmall d := (of_mem_lowerFrom h).1

theorem mem_of_mem_lower (hd : IsUncased d) (h : d ∈ lower s) : d ∈ s := (of_mem_lowerFrom h).2 hd

theorem mem_lowerFrom {before : List Char} (hc : IsSmall c) (h : c ∈ s) : c ∈ lowerFrom before s := by
  induction s generalizing before with
  | nil => cases h
  | cons d s ih =>
    rw [lowerFrom, List.mem_append]
    rcases List.mem_cons.mp h with rfl | h
    · exact .inl (by rw [hc.lowerChar_eq]; exact List.mem_singleton.mpr rfl)
    · exact .inr (ih h)

theorem mem_lower_iff (hsmall : IsSmall c) (huncased : IsUncased c) : c ∈ lower s ↔ c ∈ s :=
  ⟨mem_of_mem_lower huncased, mem_lowerFrom hsmall⟩

theorem lower_eq_nil_iff : lower s = [] ↔ s = [] := by
  cases s with
  | nil => simp [lower, lowerFrom]
  | cons c s => simp [lower, lowerFrom, lowerChar_ne_nil]

theorem lowerFrom_eq_self {before : List Char} (h : ∀ c ∈ s, IsSmall c) : lowerFrom before s = s := by
  induction s generalizing before with
  | nil => rfl
  | cons c s ih =>
    obtain ⟨hc, hs⟩ := List.forall_mem_cons.mp h
    rw [lowerFrom, hc.lowerChar_eq, ih hs, List.singleton_append]

theorem lower_eq_self_iff : lower s = s ↔ ∀ c ∈ s, IsSmall c := by
  refine ⟨fun h c hc => ?_, lowerFrom_eq_self⟩
  rw [← h] at hc
  exact isSmall_of_mem_lower hc

theorem lower_lower (s : List Char) : lower (lower s) = lower s :=
  lower_eq_self_iff.mpr fun _ => isSmall_of_mem_lower

end Sqrl.Text
