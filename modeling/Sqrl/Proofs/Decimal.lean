import Mathlib.Algebra.Order.Field.Rat
import Mathlib.Data.Rat.Cast.Order
import Mathlib.Tactic.FieldSimp
import Mathlib.Tactic.NormNum
import Sqrl.Number.Shortest
import Sqrl.Proofs.Clock

/-! Decimals and numbers of double precision. A decimal is rounded by its value alone, and the shortest
decimal of a number is rounded to that number. -/
namespace Sqrl

theorem Number.lt_pow_maxDigits {n : Nat} (h : n < 10 ^ 100) : n < 10 ^ maxDigits :=
  Nat.lt_of_lt_of_le h (Nat.pow_le_pow_right (by decide) (by decide))

namespace Decimal

def value (d : Decimal) : ℚ := d.digits * 10 ^ d.exponent

theorem value_eq_div (d : Decimal) : d.value =
    (d.digits * 10 ^ d.exponent.toNat : Nat) / (10 ^ (-d.exponent).toNat : Nat) := by
  have hten : (10 : ℚ) ≠ 0 := by norm_num
  have hpower : (10 : ℚ) ^ d.exponent = 10 ^ d.exponent.toNat / 10 ^ (-d.exponent).toNat := by
    rw [← zpow_natCast, ← zpow_natCast, ← zpow_sub₀ hten]
    congr 1
    omega
  rw [value, hpower]
  push_cast
  ring

theorem value_mul_pow (n k : Nat) (e : Int) :
    (⟨n * 10 ^ k, e⟩ : Decimal).value = (⟨n, k + e⟩ : Decimal).value := by
  have hten : (10 : ℚ) ≠ 0 := by norm_num
  simp only [value]
  rw [zpow_add₀ hten, zpow_natCast]
  push_cast
  ring

end Decimal

namespace Binary64

variable {n d k : Nat}

/-! Rounding depends on the value of a ratio only. -/

theorem roundDiv_mul_right (n d : Nat) (hk : 0 < k) : roundDiv (n * k) (d * k) = roundDiv n d := by
  have hless : 2 * (n % d * k) < d * k ↔ 2 * (n % d) < d := by
    rw [← Nat.mul_assoc]
    exact Nat.mul_lt_mul_right hk
  have htie : 2 * (n % d * k) = d * k ↔ 2 * (n % d) = d := by
    rw [← Nat.mul_assoc]
    exact Nat.mul_left_inj (by omega)
  simp only [roundDiv, Nat.mul_mod_mul_right, Nat.mul_div_mul_right _ _ hk, hless, htie]

theorem roundRatio_mul_right (n d : Nat) (hk : 0 < k) :
    roundRatio (n * k) (d * k) = roundRatio n d := by
  rw [roundRatio, roundRatio, Nat.mul_div_mul_right _ _ hk, Nat.mul_right_comm,
    roundDiv_mul_right _ _ hk]

theorem ofRatio_congr (negative : Bool) {n' d' : Nat} (hd : 0 < d) (hd' : 0 < d')
    (h : n * d' = n' * d) : ofRatio negative n d = ofRatio negative n' d' := by
  have hround : roundRatio n d = roundRatio n' d' := by
    rw [← roundRatio_mul_right n d hd', h, Nat.mul_comm d, roundRatio_mul_right n' d' hd]
  rw [ofRatio, ofRatio, hround]

/-- A power of two below a number is not lost when the number is rounded. -/
theorem two_pow_le_roundRatio (h : 2 ^ k ≤ n) : 2 ^ k ≤ roundRatio n 1 := by
  have hn : n ≠ 0 := by
    have := Nat.two_pow_pos k
    omega
  have hk : 2 ^ k ≤ 2 ^ n.log2 := Nat.pow_le_pow_right (by decide) ((Nat.le_log2 hn).mpr h)
  have hdvd : quantum n ∣ 2 ^ n.log2 := Nat.pow_dvd_pow 2 (by omega)
  have hfloor : n / quantum n ≤ roundDiv n (quantum n) := by
    simp only [roundDiv]
    split <;> omega
  calc 2 ^ k ≤ 2 ^ n.log2 := hk
    _ = 2 ^ n.log2 / quantum n * quantum n := (Nat.div_mul_cancel hdvd).symm
    _ ≤ n / quantum n * quantum n :=
      Nat.mul_le_mul_right _ (Nat.div_le_div_right (Nat.log2_self_le hn))
    _ ≤ roundRatio n 1 := by
      rw [roundRatio_one]
      exact Nat.mul_le_mul_right _ hfloor

theorem roundRatio_eq_zero (h : 2 * n < d) : roundRatio n d = 0 := by
  have hdiv : n / d = 0 := Nat.div_eq_of_lt (by omega)
  have hquantum : quantum 0 = 1 := rfl
  rw [roundRatio, hdiv, hquantum, Nat.mul_one, Nat.mul_one, roundDiv, hdiv,
    Nat.mod_eq_of_lt (by omega)]
  exact if_pos (.inl h)

-- The exponents are variables in what follows, since these powers are too large to compute with.
theorem exists_one_eq : ∃ e, e = 1074 ∧ one = 2 ^ e := ⟨_, rfl, Nat.pow_eq⟩

theorem exists_overflow_eq : ∃ e, e = 2098 ∧ overflow = 2 ^ e := ⟨_, rfl, Nat.pow_eq⟩

theorem two_pow_le_ten_pow (k : Nat) : 2 ^ (3 * k) ≤ 10 ^ k := by
  rw [Nat.pow_mul]
  exact Nat.pow_le_pow_left (by decide) k

/-- What is above the range is not rounded into it. -/
theorem overflow_le_roundRatio {digits exponent : Nat} (hdigits : 0 < digits)
    (hexponent : 400 < exponent) : overflow ≤ roundRatio (digits * 10 ^ exponent * one) 1 := by
  obtain ⟨e, he, hone⟩ := exists_one_eq
  obtain ⟨k, hk, hoverflow⟩ := exists_overflow_eq
  rw [hoverflow]
  apply two_pow_le_roundRatio
  calc 2 ^ k ≤ 2 ^ (3 * exponent + e) := Nat.pow_le_pow_right (by decide) (by omega)
    _ = 2 ^ (3 * exponent) * one := by rw [hone, ← Nat.pow_add]
    _ ≤ 10 ^ exponent * one := Nat.mul_le_mul_right _ (two_pow_le_ten_pow exponent)
    _ ≤ digits * 10 ^ exponent * one :=
      Nat.mul_le_mul_right _ (Nat.le_mul_of_pos_left _ hdigits)

/-- What is below half a unit is rounded to none. -/
theorem roundRatio_eq_zero_of_tiny {digits exponent : Nat}
    (h : 400 + digits.log2 < exponent) : roundRatio (digits * one) (10 ^ exponent) = 0 := by
  obtain ⟨e, he, hone⟩ := exists_one_eq
  apply roundRatio_eq_zero
  calc 2 * (digits * one) < 2 * (2 ^ (digits.log2 + 1) * one) :=
        Nat.mul_lt_mul_of_pos_left (Nat.mul_lt_mul_of_pos_right Nat.lt_log2_self one_pos)
          (by decide)
    _ = 2 ^ (digits.log2 + 1 + e + 1) := by rw [hone, ← Nat.pow_add, ← Nat.pow_succ']
    _ ≤ 2 ^ (3 * exponent) := Nat.pow_le_pow_right (by decide) (by omega)
    _ ≤ 10 ^ exponent := two_pow_le_ten_pow exponent

/-- The ratio of units that a decimal stands for. -/
theorem ofDecimal_eq_ofRatio (negative : Bool) (digits : Nat) (exponent : Int) :
    ofDecimal negative digits exponent =
      ofRatio negative (digits * 10 ^ exponent.toNat * one) (10 ^ (-exponent).toNat) := by
  rw [ofDecimal]
  -- Decimals that are far out take a short way, with the result that rounding has.
  split_ifs with hzero hhuge htiny
  · exact ofRatio_congr negative (by decide) (Nat.pow_pos (by decide)) (by simp [hzero])
  · have hdenominator : (-exponent).toNat = 0 := by omega
    have hover := overflow_le_roundRatio (Nat.pos_of_ne_zero hzero)
      (show 400 < exponent.toNat by omega)
    rw [hdenominator, Nat.pow_zero, ofRatio, if_pos hover]
  · have hnumerator : exponent.toNat = 0 := by omega
    have hnone := roundRatio_eq_zero_of_tiny (show 400 + digits.log2 < (-exponent).toNat by omega)
    have hzero : roundRatio 0 1 = 0 := roundRatio_eq_zero (by decide)
    rw [hnumerator, Nat.pow_zero, Nat.mul_one, ofRatio, ofRatio, hnone, hzero]
  · simp only [Nat.pow_eq]

/-- A decimal is rounded by its value. -/
theorem ofDecimal_congr (negative : Bool) {a b : Decimal} (h : a.value = b.value) :
    ofDecimal negative a.digits a.exponent = ofDecimal negative b.digits b.exponent := by
  have hten (k : Nat) : 0 < 10 ^ k := Nat.pow_pos (by decide)
  have hrat (k : Nat) : ((10 ^ k : Nat) : ℚ) ≠ 0 := by exact_mod_cast (hten k).ne'
  rw [Decimal.value_eq_div, Decimal.value_eq_div, div_eq_div_iff (hrat _) (hrat _)] at h
  rw [ofDecimal_eq_ofRatio, ofDecimal_eq_ofRatio]
  refine ofRatio_congr negative (hten _) (hten _) ?_
  rw [Nat.mul_right_comm, Nat.mul_right_comm _ one]
  exact congrArg (· * one) (by exact_mod_cast h)

/-! Texts that read back. -/

/-- Is it a number of double precision? A finite number of units is one if it is not rounded. -/
def IsDouble : Binary64 → Prop
  | .finite units => ofUnits units = .finite units
  | _ => True

instance (x : Binary64) : Decidable x.IsDouble := by
  cases x <;> unfold IsDouble <;> infer_instance

theorem roundRatio_of_ofRatio {negative : Bool} {u : Int} (h : ofRatio negative n d = .finite u) :
    roundRatio n d = u.natAbs ∧ u.natAbs < overflow := by
  simp only [ofRatio] at h
  split_ifs at h with hover hnegative hzero
  all_goals
    obtain rfl := finite.inj h
    simp only [Int.natAbs_neg, Int.natAbs_natCast, true_and]
    omega

theorem ofRatio_of_roundRatio {u : Int} (h : roundRatio n d = u.natAbs)
    (hover : u.natAbs < overflow) : ofRatio (decide (u < 0)) n d = .finite u := by
  simp only [ofRatio, h, decide_eq_true_eq]
  rw [if_neg (by omega)]
  split_ifs with hnegative hzero
  · omega
  · rw [Int.ofNat_natAbs_of_nonpos (by omega), Int.neg_neg]
  · rw [Int.natAbs_of_nonneg (by omega)]

theorem readsBack_of_nearestOn {units : Nat} {exponent : Int} {d : Decimal}
    (h : nearestOn units exponent = some d) : readsBack units d = true := by
  simp only [nearestOn] at h
  split at h
  · next hlow hhigh =>
    obtain rfl := Option.some.inj h
    simp only [roundDiv]
    split
    · exact hlow
    · exact hhigh
  · next hlow _ => exact Option.some.inj h ▸ hlow
  · next _ hhigh => exact Option.some.inj h ▸ hhigh
  · cases h

/-- The exact expansion reads back, because a unit is a power of one half. -/
theorem readsBack_expansion {units : Nat} (h : ofUnits units = .finite units) :
    readsBack units ⟨units * Nat.pow 5 1074, -1074⟩ = true := by
  obtain ⟨e, hone, hexpansion⟩ : ∃ e : Nat, one = 2 ^ e ∧
      (⟨units * Nat.pow 5 1074, -1074⟩ : Decimal) = ⟨units * 5 ^ e, -e⟩ := ⟨_, Nat.pow_eq, rfl⟩
  have hnumerator : (-(e : Int)).toNat = 0 := by omega
  have hdenominator : (- -(e : Int)).toNat = e := by omega
  have hvalue : units * 5 ^ e * 10 ^ 0 * 2 ^ e * 1 = units * 10 ^ e := by
    have hten : 10 ^ e = 5 ^ e * 2 ^ e := Nat.mul_pow 5 2 e
    rw [hten, Nat.pow_zero]
    ring
  rw [readsBack, hexpansion, ofDecimal_eq_ofRatio, hnumerator, hdenominator, hone,
    ofRatio_congr false (Nat.pow_pos (by decide)) Nat.one_pos hvalue, ← ofUnits_natCast, h]
  exact beq_self_eq_true _

theorem readsBack_shortest {units : Nat} (h : ofUnits units = .finite units) :
    readsBack units (shortest units) = true := by
  rw [shortest]
  cases hfind : (List.range 17).findSome? fun i =>
      nearestOn units (decimalPoint units - ((i : Nat) + 1)) with
  | none => exact readsBack_expansion h
  | some d =>
    obtain ⟨i, -, hi⟩ := List.exists_of_findSome?_eq_some hfind
    exact readsBack_of_nearestOn hi

/-- The shortest decimal of a number is rounded to it, with its sign. -/
theorem ofDecimal_shortest {u : Int} (h : IsDouble (.finite u)) :
    ofDecimal (decide (u < 0)) (shortest u.natAbs).digits (shortest u.natAbs).exponent =
      .finite u := by
  obtain ⟨hround, hover⟩ := roundRatio_of_ofRatio h
  have hpositive : ofUnits u.natAbs = .finite u.natAbs := by
    rw [ofUnits_natCast, ofRatio_false (by rwa [hround]), hround]
  have hback := beq_iff_eq.mp (readsBack_shortest hpositive)
  rw [ofDecimal_eq_ofRatio] at hback ⊢
  exact ofRatio_of_roundRatio (roundRatio_of_ofRatio hback).1 hover

theorem digits_shortest_pos {u : Int} (hu : u ≠ 0) (h : IsDouble (.finite u)) :
    0 < (shortest u.natAbs).digits := by
  rw [Nat.pos_iff_ne_zero]
  intro hzero
  have hback := ofDecimal_shortest h
  have hnone : roundRatio 0 1 = 0 := roundRatio_eq_zero (by decide)
  rw [hzero, ofDecimal, if_pos rfl] at hback
  have habs := (roundRatio_of_ofRatio hback).1
  omega

end Binary64

end Sqrl
