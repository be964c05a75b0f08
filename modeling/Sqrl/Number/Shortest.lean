import Sqrl.Number

/-!
The text of a number. A double-precision number is written with the fewest digits that read back as
the same number, and of several such decimals with the nearest.
-/
namespace Sqrl

structure Decimal where
  digits : Nat
  exponent : Int
  deriving DecidableEq, Repr

namespace Binary64

def readsBack (units : Nat) (d : Decimal) : Bool :=
  ofDecimal false d.digits d.exponent == .finite units

/-- Of the two neighbours of the number among the multiples of `10^exponent`, one that reads back:
the nearer if both do, and the even one of two equally near. -/
def nearestOn (units : Nat) (exponent : Int) : Option Decimal :=
  let n := units * Nat.pow 10 (-exponent).toNat
  let d := one * Nat.pow 10 exponent.toNat
  let low : Decimal := ⟨n / d, exponent⟩
  let high : Decimal := ⟨n / d + 1, exponent⟩
  match readsBack units low, readsBack units high with
  | true, true => some ⟨roundDiv n d, exponent⟩
  | true, false => some low
  | false, true => some high
  | false, false => none

/-- The number of digits before the point; it is negative or zero below one tenth. Multiplied by
`10^400` every positive number is above one. -/
def decimalPoint (units : Nat) : Int :=
  ((Nat.toDigits 10 (units * Nat.pow 10 400 / one)).length : Int) - 400

/-- The shortest decimal that reads back, from one digit up. Seventeen digits always suffice; the
exact expansion stands behind them. -/
def shortest (units : Nat) : Decimal :=
  ((List.range 17).findSome? fun i => nearestOn units (decimalPoint units - ((i : Nat) + 1))).getD
    ⟨units * Nat.pow 5 1074, -1074⟩

structure Format where
  /-- The greatest number of digits before the point. -/
  maxPoint : Int
  /-- The greatest number of zeros after the point and before the first digit, negated. -/
  minPoint : Int
  /-- The least number of digits of an exponent. -/
  exponentDigits : Nat

/-- Positional from 10^-4 up to 10^16, then a signed exponent of at least two digits. -/
def plain : Format := ⟨16, -3, 2⟩

def Format.write (f : Format) (d : Decimal) : List Char :=
  let all := Nat.toDigits 10 d.digits
  let point := all.length + d.exponent
  let digits := (all.reverse.dropWhile (· = '0')).reverse
  if f.minPoint ≤ point ∧ point ≤ f.maxPoint then
    if point ≤ 0 then '0' :: '.' :: (List.replicate (-point).toNat '0' ++ digits)
    else if digits.length ≤ point then
      digits ++ List.replicate (point.toNat - digits.length) '0' ++ ['.', '0']
    else digits.take point.toNat ++ '.' :: digits.drop point.toNat
  else
    let exponent := Nat.toDigits 10 (point - 1).natAbs
    let mantissa :=
      match digits with
      | [] => []
      | [c] => [c]
      | c :: rest => c :: '.' :: rest
    mantissa ++ 'e' :: (if point - 1 < 0 then '-' else '+') ::
      (List.replicate (f.exponentDigits - exponent.length) '0' ++ exponent)

structure Words where
  infinity : String
  nan : String

def text (words : Words) : Binary64 → List Char
  | .nan => words.nan.toList
  | .infinite negative => (if negative then ['-'] else []) ++ words.infinity.toList
  | .negativeZero => "-0.0".toList
  | .finite units =>
    if units = 0 then "0.0".toList
    else (if units < 0 then ['-'] else []) ++ plain.write (shortest units.natAbs)

end Binary64

def intText (n : Int) : List Char :=
  if n < 0 then '-' :: Nat.toDigits 10 n.natAbs else Nat.toDigits 10 n.natAbs

def Number.text (words : Binary64.Words) : Number → List Char
  | .int n => intText n
  | .float x => x.text words

def Binary64.plainWords : Binary64.Words := ⟨"inf", "nan"⟩

def Binary64.dataWords : Binary64.Words := ⟨"Infinity", "NaN"⟩

end Sqrl
