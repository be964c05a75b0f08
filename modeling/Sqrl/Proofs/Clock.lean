import Mathlib.Tactic.Ring
import Sqrl.Number

/-! Readings of a clock, whole or fractional, from zero up to 2^32 seconds. A difference of two
readings is rounded, but not across a whole number of seconds: what the rounded difference exceeds,
the exact one exceeds too. -/
namespace Sqrl

namespace Binary64

theorem one_eq_pow : ∃ e, one = 2 ^ e := ⟨_, rfl⟩

theorem one_pos : 0 < one := by
  obtain ⟨e, he⟩ := one_eq_pow
  rw [he]
  exact Nat.two_pow_pos e

theorem roundDiv_le {n d k : Nat} (h : n ≤ d * k) : roundDiv n d ≤ k := by
  have hdiv : n / d ≤ k := Nat.div_le_of_le_mul h
  simp only [roundDiv]
  split
  · exact hdiv
  · next hup =>
    -- Rounding up leaves a remainder, so `n` is not the end `d * k` of the range.
    by_contra hk
    have hq : n / d = k := by omega
    have hn := Nat.div_add_mod n d
    rw [hq] at hn
    have hr : n % d = 0 := by omega
    rcases Nat.eq_zero_or_pos d with rfl | hd
    · simp_all
    · simp [hr, hd] at hup

theorem roundDiv_mul {d : Nat} (hd : 0 < d) (k : Nat) : roundDiv (d * k) d = k := by
  simp [roundDiv, hd]

/-- Below 2^53 seconds neighbours are at most a second apart. -/
theorem quantum_dvd_one {n : Nat} (h : n < 2 ^ 53 * one) : quantum n ∣ one := by
  obtain ⟨e, he⟩ := one_eq_pow
  rw [he, ← Nat.pow_add] at h
  rw [he]
  apply Nat.pow_dvd_pow
  rcases Nat.eq_zero_or_pos n with rfl | hn
  · simp
  · have hlog := (Nat.log2_lt (by omega)).mpr h
    omega

theorem roundRatio_one (n : Nat) : roundRatio n 1 = roundDiv n (quantum n) * quantum n := by
  simp [roundRatio]

theorem roundRatio_le {n k : Nat} (hn : n < 2 ^ 53 * one) (h : n ≤ k * one) :
    roundRatio n 1 ≤ k * one := by
  obtain ⟨c, hc⟩ := quantum_dvd_one hn
  have hk : k * one = quantum n * (c * k) := by rw [← Nat.mul_assoc, ← hc, Nat.mul_comm]
  rw [roundRatio_one, hk, Nat.mul_comm]
  exact Nat.mul_le_mul_left _ (roundDiv_le (hk ▸ h))

theorem roundRatio_mul_one {k : Nat} (hk : k < 2 ^ 53) : roundRatio (k * one) 1 = k * one := by
  obtain ⟨c, hc⟩ := quantum_dvd_one (Nat.mul_lt_mul_of_pos_right hk one_pos)
  have hq : 0 < quantum (k * one) := Nat.two_pow_pos _
  have hn : k * one = quantum (k * one) * (c * k) := by rw [← Nat.mul_assoc, ← hc, Nat.mul_comm]
  have hdiv : roundDiv (k * one) (quantum (k * one)) = c * k := by
    conv_lhs => arg 1; rw [hn]
    exact roundDiv_mul hq _
  rw [roundRatio_one, hdiv, Nat.mul_comm]
  exact hn.symm

theorem lt_overflow {k : Nat} (hk : k < 2 ^ 53) : k * one < overflow := by
  have h : 2 ^ 53 * one ≤ overflow := by
    rw [one, overflow, Nat.pow_eq, Nat.pow_eq, ← Nat.pow_add]
    exact Nat.pow_le_pow_right (by omega) (by omega)
  exact Nat.lt_of_lt_of_le (Nat.mul_lt_mul_of_pos_right hk one_pos) h

theorem ofUnits_natCast (n : Nat) : ofUnits (n : Int) = ofRatio false n 1 := by
  have h : ¬ (n : Int) < 0 := by omega
  rw [ofUnits, Int.natAbs_natCast, decide_eq_false h]

theorem ofRatio_false {n : Nat} (h : roundRatio n 1 < overflow) :
    ofRatio false n 1 = .finite (roundRatio n 1) := by
  simp only [ofRatio, if_neg (Nat.not_le.mpr h), Bool.false_eq_true, if_false]

/-- A whole number of seconds is not rounded. -/
theorem ofInt_natCast {k : Nat} (hk : k < 2 ^ 53) : ofInt k = .finite (k * one) := by
  have h : roundRatio (k * one) 1 < overflow := by
    rw [roundRatio_mul_one hk]
    exact lt_overflow hk
  rw [ofInt, ← Int.natCast_mul, ofUnits_natCast, ofRatio_false h, roundRatio_mul_one hk]

theorem ofUnits_zero : ofUnits 0 = .finite 0 := by
  have h := ofInt_natCast (k := 0) (by decide)
  rwa [ofInt, Int.natCast_zero, Int.zero_mul] at h

/-- Rounding keeps what is at most a whole number of seconds there. -/
theorem units_ofUnits_le {u : Int} {k : Nat} (hlow : -(2 ^ 32 * one : Int) ≤ u)
    (hhigh : u ≤ 2 ^ 32 * one) (hk : u ≤ k * one) :
    ∃ v, (ofUnits u).units? = some v ∧ v ≤ k * one := by
  have hpos : (0 : Int) < one := by exact_mod_cast one_pos
  have hbound : u.natAbs ≤ 2 ^ 32 * one := by omega
  have hfine : u.natAbs < 2 ^ 53 * one :=
    Nat.lt_of_le_of_lt hbound (Nat.mul_lt_mul_of_pos_right (by decide) one_pos)
  have hover : ¬ overflow ≤ roundRatio u.natAbs 1 := by
    rw [Nat.not_le]
    exact Nat.lt_of_le_of_lt (roundRatio_le hfine hbound) (lt_overflow (by decide))
  rcases lt_or_ge u 0 with hneg | hnonneg
  · rw [ofUnits, decide_eq_true hneg]
    simp only [ofRatio, if_neg hover, if_true]
    have hkone : (0 : Int) ≤ k * one := Int.mul_nonneg (Int.natCast_nonneg k) hpos.le
    split
    · exact ⟨0, rfl, hkone⟩
    · exact ⟨_, rfl, by omega⟩
  · have hle : u.natAbs ≤ k * one := by
      have h : (u.natAbs : Int) ≤ (k * one : Nat) := by
        rw [Int.natAbs_of_nonneg hnonneg]
        exact_mod_cast hk
      exact_mod_cast h
    have hround := roundRatio_le hfine hle
    rw [ofUnits, decide_eq_false (by omega), ofRatio_false (Nat.not_le.mp hover)]
    exact ⟨_, rfl, by exact_mod_cast hround⟩

theorem eq_of_units {y : Binary64} {v : Int} (hy : y.units? = some v) :
    y = .finite v ∨ y = .negativeZero := by
  cases y with
  | finite w => exact .inl (congrArg _ (Option.some.inj hy))
  | negativeZero => exact .inr rfl
  | infinite negative => cases hy
  | nan => cases hy

theorem units_neg {y : Binary64} {v : Int} (hy : y.units? = some v) : y.neg.units? = some (-v) := by
  cases y with
  | finite w =>
    obtain rfl : w = v := Option.some.inj hy
    by_cases hw : w = 0 <;> simp [neg, units?, hw]
  | negativeZero =>
    obtain rfl : 0 = v := Option.some.inj hy
    rfl
  | infinite negative => cases hy
  | nan => cases hy

theorem units_add {x y : Binary64} {u v : Int} (hx : x.units? = some u) (hy : y.units? = some v) :
    (x.add y).units? = (ofUnits (u + v)).units? := by
  cases x <;> cases y <;> simp only [units?, Option.some.injEq, reduceCtorEq] at hx hy <;>
    subst hx hy
  case negativeZero.negativeZero =>
    rw [Int.add_zero, ofUnits_zero]
    rfl
  all_goals rfl

theorem units_sub {x y : Binary64} {u v : Int} (hx : x.units? = some u) (hy : y.units? = some v) :
    (x.sub y).units? = (ofUnits (u - v)).units? :=
  units_add hx (units_neg hy)

end Binary64

namespace Number

def units (x : Number) : Int := x.units?.getD 0

/-- A reading of a clock that a nut can hold: at least zero and below 2^32 seconds. -/
def IsReading (x : Number) : Prop := x.lt (.int 0) = false ∧ x.lt (.int (2 ^ 32)) = true

instance (x : Number) : Decidable x.IsReading := inferInstanceAs (Decidable (_ ∧ _))

theorem lt_of_units {a b : Number} {u v : Int} (ha : a.units? = some u) (hb : b.units? = some v) :
    a.lt b = decide (u < v) := by
  have hlt : a.lt b = decide (a.units?.getD 0 < b.units?.getD 0) := by
    cases a with
    | int n =>
      cases b with
      | int m => rfl
      | float y => rcases Binary64.eq_of_units hb with rfl | rfl <;> rfl
    | float x =>
      cases b with
      | int m => rcases Binary64.eq_of_units ha with rfl | rfl <;> rfl
      | float y =>
        rcases Binary64.eq_of_units ha with rfl | rfl <;>
          rcases Binary64.eq_of_units hb with rfl | rfl <;> rfl
  rw [hlt, ha, hb]
  rfl

theorem IsReading.units?_eq {x : Number} (h : x.IsReading) : x.units? = some x.units := by
  obtain ⟨h0, h1⟩ := h
  cases x with
  | int n => rfl
  | float x =>
    cases x with
    | finite u => rfl
    | negativeZero => rfl
    | infinite negative => cases negative <;> simp_all [lt]
    | nan => simp [lt] at h1

theorem IsReading.bounds {x : Number} (h : x.IsReading) :
    0 ≤ x.units ∧ x.units < 2 ^ 32 * Binary64.one := by
  have h0 := h.1
  have h1 := h.2
  rw [lt_of_units h.units?_eq rfl] at h0 h1
  simp only [decide_eq_false_iff_not, decide_eq_true_eq] at h0 h1
  omega

theorem natCast_lt {x : Number} {v : Int} (n : Nat) (hx : x.units? = some v) :
    (Number.int n).lt x = decide ((n : Int) * Binary64.one < v) :=
  lt_of_units rfl hx

/-- The exact size of a reading as a double-precision number. -/
theorem IsReading.units?_toBinary64 {x : Number} (h : x.IsReading) :
    x.toBinary64.units? = some x.units := by
  have hb := h.bounds
  have hu := h.units?_eq
  cases x with
  | int n =>
    have hpos : (0 : Int) < Binary64.one := by exact_mod_cast Binary64.one_pos
    obtain ⟨h0, h1⟩ : 0 ≤ n * (Binary64.one : Int) ∧
        n * (Binary64.one : Int) < 2 ^ 32 * Binary64.one := hb
    have hn : 0 ≤ n := Int.nonneg_of_mul_nonneg_left h0 hpos
    have hlt : n < 2 ^ 32 := Int.lt_of_mul_lt_mul_right h1 hpos.le
    obtain ⟨k, rfl⟩ := Int.eq_ofNat_of_zero_le hn
    rw [toBinary64, Binary64.ofInt_natCast (by omega)]
    rfl
  | float x => exact hu

/-- A difference that exceeds a whole number of seconds exceeds it before it is rounded. -/
theorem add_lt_of_lt_sub {a b : Number} {n : Nat} (ha : a.IsReading) (hb : b.IsReading)
    (h : (Number.int n).lt (a.sub b) = true) : b.units + n * Binary64.one < a.units := by
  by_contra hle
  have hba := hb.bounds
  have haa := ha.bounds
  have hk : a.units - b.units ≤ n * Binary64.one := by omega
  have hsub : ∃ v, (a.sub b).units? = some v ∧ v ≤ n * Binary64.one := by
    obtain ⟨v, hv, hvn⟩ :=
      Binary64.units_ofUnits_le (u := a.units - b.units) (by omega) (by omega) hk
    have hround : ((a.toBinary64.sub b.toBinary64)).units? = some v := by
      rw [Binary64.units_sub ha.units?_toBinary64 hb.units?_toBinary64]
      exact hv
    cases a with
    | float x => exact ⟨v, hround, hvn⟩
    | int i =>
      cases b with
      | float y => exact ⟨v, hround, hvn⟩
      | int j =>
        refine ⟨(i - j) * Binary64.one, rfl, ?_⟩
        rw [Int.sub_mul]
        exact hk
  obtain ⟨v, hv, hvn⟩ := hsub
  rw [natCast_lt n hv, decide_eq_true_eq] at h
  omega

/-- Nothing is later than itself by more than no time. -/
theorem natCast_lt_sub_self (n : Nat) (x : Number) : (Number.int n).lt (x.sub x) = false := by
  have hzero : ¬ (n : Int) * (Binary64.one : Int) < 0 := by
    have := Int.mul_nonneg (Int.natCast_nonneg n) (Int.natCast_nonneg Binary64.one)
    omega
  have hfinite {y : Binary64} {u : Int} (hy : y.units? = some u) :
      (Number.int n).lt (.float (y.sub y)) = false := by
    have hsub : (Number.float (y.sub y)).units? = some 0 := by
      rw [units?, Binary64.units_sub hy hy, Int.sub_self, Binary64.ofUnits_zero]
      rfl
    rw [natCast_lt n hsub, decide_eq_false hzero]
  cases x with
  | int i =>
    have hsub : ((Number.int i).sub (.int i)).units? = some 0 := by
      rw [sub, units?, Int.sub_self, Int.zero_mul]
    rw [natCast_lt n hsub, decide_eq_false hzero]
  | float y =>
    cases y with
    | finite u => exact hfinite (y := .finite u) rfl
    | negativeZero => exact hfinite (y := .negativeZero) rfl
    | infinite negative => cases negative <;> rfl
    | nan => rfl

theorem IsReading.truncate_eq {x : Number} (h : x.IsReading) :
    x.truncate = x.units / (Binary64.one : Int) := by
  cases x with
  | int n =>
    have hpos : (Binary64.one : Int) ≠ 0 := by exact_mod_cast Binary64.one_pos.ne'
    exact (Int.mul_ediv_cancel n hpos).symm
  | float x => exact Int.tdiv_eq_ediv_of_nonneg h.bounds.1

theorem IsReading.truncate_bounds {x : Number} (h : x.IsReading) :
    0 ≤ x.truncate ∧ x.truncate < 2 ^ 32 := by
  have hpos : (0 : Int) < Binary64.one := by exact_mod_cast Binary64.one_pos
  rw [h.truncate_eq]
  exact ⟨Int.ediv_nonneg h.bounds.1 hpos.le, Int.ediv_lt_of_lt_mul hpos h.bounds.2⟩

theorem truncate_le {a b : Number} (ha : a.IsReading) (hb : b.IsReading) (h : b.lt a = false) :
    a.truncate ≤ b.truncate := by
  have hpos : (0 : Int) < Binary64.one := by exact_mod_cast Binary64.one_pos
  rw [lt_of_units hb.units?_eq ha.units?_eq, decide_eq_false_iff_not] at h
  rw [ha.truncate_eq, hb.truncate_eq]
  exact Int.ediv_le_ediv hpos (by omega)

/-- In whole seconds a difference is no smaller than the whole seconds that it exceeds. -/
theorem truncate_add_le {a b : Number} {n : Nat} (ha : a.IsReading) (hb : b.IsReading)
    (h : (Number.int n).lt (a.sub b) = true) : b.truncate + n ≤ a.truncate := by
  have hpos : (0 : Int) < Binary64.one := by exact_mod_cast Binary64.one_pos
  have hlt := add_lt_of_lt_sub ha hb h
  rw [ha.truncate_eq, hb.truncate_eq, ← Int.add_mul_ediv_right _ _ hpos.ne']
  exact Int.ediv_le_ediv hpos hlt.le

end Number

end Sqrl
