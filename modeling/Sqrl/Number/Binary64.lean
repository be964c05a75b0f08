/-!
Double-precision numbers with exact arithmetic. A finite number is a whole number of least units of
2^-1074, so that order, difference and rounding are statements about integers. Every operation
rounds its exact result once, to 53 significant bits, a tie to the even neighbour.
-/
namespace Sqrl

inductive Binary64 where
  /-- The number of units of 2^-1074. -/
  | finite (units : Int)
  | negativeZero
  | infinite (negative : Bool)
  | nan
  deriving DecidableEq, Repr

namespace Binary64

def one : Nat := Nat.pow 2 1074

def overflow : Nat := Nat.pow 2 2098

/-- The quotient rounded to a whole number, a tie to the even neighbour. -/
def roundDiv (n d : Nat) : Nat :=
  let q := n / d
  if 2 * (n % d) < d ∨ (2 * (n % d) = d ∧ q % 2 = 0) then q else q + 1

/-- The distance of neighbours with 53 significant bits about `n`. -/
def quantum (n : Nat) : Nat := Nat.pow 2 (n.log2 + 1 - 53)

def roundRatio (n d : Nat) : Nat := roundDiv n (d * quantum (n / d)) * quantum (n / d)

def ofRatio (negative : Bool) (n d : Nat) : Binary64 :=
  let m := roundRatio n d
  if overflow ≤ m then .infinite negative
  else if negative then (if m = 0 then .negativeZero else .finite (-(m : Int)))
  else .finite m

def ofUnits (units : Int) : Binary64 := ofRatio (decide (units < 0)) units.natAbs 1

def ofInt (n : Int) : Binary64 := ofUnits (n * one)

/-- The number nearest to `digits · 10^exponent`. Far outside the range of finite numbers the
power is not computed. -/
def ofDecimal (negative : Bool) (digits : Nat) (exponent : Int) : Binary64 :=
  if digits = 0 then ofRatio negative 0 1
  else if 400 < exponent then .infinite negative
  else if exponent + digits.log2 < -400 then ofRatio negative 0 1
  else ofRatio negative (digits * Nat.pow 10 exponent.toNat * one) (Nat.pow 10 (-exponent).toNat)

def neg : Binary64 → Binary64
  | .finite units => if units = 0 then .negativeZero else .finite (-units)
  | .negativeZero => .finite 0
  | .infinite negative => .infinite !negative
  | .nan => .nan

def units? : Binary64 → Option Int
  | .finite units => some units
  | .negativeZero => some 0
  | _ => none

/-- The sum. It is the negative zero only of two negative zeros. -/
def add (x y : Binary64) : Binary64 :=
  match x, y with
  | .negativeZero, .negativeZero => .negativeZero
  | .nan, _ | _, .nan => .nan
  | .infinite a, .infinite b => if a = b then .infinite a else .nan
  | .infinite a, _ | _, .infinite a => .infinite a
  | x, y => ofUnits (x.units?.getD 0 + y.units?.getD 0)

def sub (x y : Binary64) : Binary64 := add x y.neg

end Binary64

end Sqrl
