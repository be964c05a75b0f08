import Sqrl.Number.Shortest

/-!
The text of a double-precision number with a chosen number of digits. The exact value is rounded to
them once, a tie to the even neighbour.
-/
namespace Sqrl.Binary64

inductive Style where
  | fixed
  | exponent
  | general
  deriving DecidableEq, Repr

/-- Digits, and how many of them stand before the point; if the point stands before them all, the
number of zeros between, negated. -/
structure Digits where
  digits : List Char
  point : Int
  deriving DecidableEq, Repr

def maxPlaces : Nat := 1074

def maxLength : Nat := 309 + maxPlaces

/-- The first `count` digits of a number other than zero, of which no more than `maxLength` need to be
found. Rounding up may bring one digit more, a zero. -/
def leading (count units : Nat) : Digits :=
  let point := decimalPoint units
  let found := min count maxLength
  let exponent := point - found
  let n := roundDiv (units * Nat.pow 10 (-exponent).toNat) (one * Nat.pow 10 exponent.toNat)
  let zeros := List.replicate (count - found) '0'
  if n = Nat.pow 10 found then ⟨(Nat.toDigits 10 n).take found ++ zeros, point + 1⟩
  else ⟨Nat.toDigits 10 n ++ zeros, point⟩

def significant (count units : Nat) : Digits :=
  if units = 0 then ⟨List.replicate count '0', 1⟩ else leading count units

/-- A fraction after its point. A point with nothing after it is written only if it is kept. -/
def fraction (keepPoint : Bool) (digits : List Char) : List Char :=
  if digits = [] ∧ !keepPoint then [] else '.' :: digits

def Digits.positional (keepPoint : Bool) (d : Digits) : List Char :=
  if d.point ≤ 0 then
    '0' :: fraction keepPoint (List.replicate (-d.point).toNat '0' ++ d.digits)
  else
    let point := d.point.toNat
    d.digits.take point ++ List.replicate (point - d.digits.length) '0' ++
      fraction keepPoint (d.digits.drop point)

def Digits.scientific (keepPoint : Bool) (d : Digits) : List Char :=
  let exponent := d.point - 1
  let digits := Nat.toDigits 10 exponent.natAbs
  d.digits.take 1 ++ fraction keepPoint (d.digits.drop 1) ++
    'e' :: (if exponent < 0 then '-' else '+') :: (List.replicate (2 - digits.length) '0' ++ digits)

/-- The number of units with `places` digits after the point, of which no more than `maxPlaces` need to
be found. -/
def fixedText (places : Nat) (keepPoint : Bool) (units : Nat) : List Char :=
  let found := min places maxPlaces
  let digits := Nat.toDigits 10 (roundDiv (units * Nat.pow 10 found) one)
  let digits := List.replicate (found + 1 - digits.length) '0' ++ digits
  Digits.positional keepPoint
    ⟨digits ++ List.replicate (places - found) '0', (digits.length : Int) - found⟩

/-- The number of units with `count` digits in all. Zeros at the end are left out unless the point is
kept. Positional from 10^-4 up to the greatest number of `count` digits. -/
def generalText (count : Nat) (keepPoint : Bool) (units : Nat) : List Char :=
  let d := significant count units
  let shown : Digits :=
    if keepPoint then d else { d with digits := (d.digits.reverse.dropWhile (· = '0')).reverse }
  if -4 < d.point ∧ d.point ≤ count then shown.positional keepPoint else shown.scientific keepPoint

def Style.write (style : Style) (precision : Nat) (keepPoint : Bool) (units : Nat) : List Char :=
  match style with
  | .fixed => fixedText precision keepPoint units
  | .exponent => (significant (precision + 1) units).scientific keepPoint
  | .general => generalText (max precision 1) keepPoint units

def rounded (style : Style) (precision : Nat) (keepPoint : Bool) : Binary64 → List Char × List Char
  | .nan => ([], "nan".toList)
  | .infinite negative => (if negative then ['-'] else [], "inf".toList)
  | .negativeZero => (['-'], style.write precision keepPoint 0)
  | .finite units =>
    (if units < 0 then ['-'] else [], style.write precision keepPoint units.natAbs)

end Sqrl.Binary64
