import Sqrl.Number.Binary64

/-!
Numbers as they are written: whole, of any size, or double-precision. A clock reading is such a
number and keeps its kind.
-/
namespace Sqrl

inductive Number where
  | int (n : Int)
  | float (x : Binary64)
  deriving DecidableEq, Repr

namespace Number

/-- How many digits a whole number may have to be written or read. -/
def maxDigits : Nat := 4300

def unwritableMessage : String :=
  "Exceeds the limit (4300 digits) for integer string conversion; use sys.set_int_max_str_digits() to increase the limit"

def oversizedMessage (digits : Nat) : String :=
  "Exceeds the limit (4300 digits) for integer string conversion: value has " ++ toString digits ++
    " digits; use sys.set_int_max_str_digits() to increase the limit"

def toBinary64 : Number → Binary64
  | .int n => .ofInt n
  | .float x => x

/-- The difference, exact between whole numbers and rounded otherwise. -/
def sub : Number → Number → Number
  | .int a, .int b => .int (a - b)
  | a, b => .float (a.toBinary64.sub b.toBinary64)

def units? : Number → Option Int
  | .int n => some (n * Binary64.one)
  | .float x => x.units?

/-- The exact order: whole and fractional numbers are compared without rounding. -/
def lt (a b : Number) : Bool :=
  match a, b with
  | .float .nan, _ | _, .float .nan => false
  | .float (.infinite true), b => b != .float (.infinite true)
  | _, .float (.infinite true) => false
  | a, .float (.infinite false) => a != .float (.infinite false)
  | .float (.infinite false), _ => false
  | a, b => decide (a.units?.getD 0 < b.units?.getD 0)

/-- The whole number next to it in the direction of zero. A number that is not finite counts as
zero. -/
def truncate : Number → Int
  | .int n => n
  | .float x => (x.units?.getD 0).tdiv Binary64.one

/-- The greatest whole number that is not above it. A number that is not finite counts as zero. -/
def floor : Number → Int
  | .int n => n
  | .float x => (x.units?.getD 0) / (Binary64.one : Int)

end Number

end Sqrl
