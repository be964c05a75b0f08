import Sqrl.Json
import Sqrl.Text.Blank

/-!
Settings as they are given: JSON values, or the strings of environment variables. A value is read as
a text, a whole number or a truth value; numbers and truth values may be given as strings.
-/
namespace Sqrl.Settings

inductive ValueFault where
  | notText
  | notInteger
  | notWhole
  | notFinite
  | unreadableInteger
  | oversizedInteger
  | notTruth
  | unreadableTruth
  deriving DecidableEq, Repr

def readText : Json → Except ValueFault String
  | .string s => .ok (CodePoint.toString s)
  | _ => .error .notText

/-- White space, which does not count at the ends of numbers. The separators of ASCII do. -/
def isSpace (c : Char) : Bool := Text.isBlank c && !(0x1C ≤ c.toNat && c.toNat ≤ 0x1F)

/-- The number without its leading zeros. Underscores among them are dropped with them; one zero is
kept if nothing else is left before the point. -/
def dropZeros : Char → List Char → List Char
  | last, [] => [last]
  | last, c :: rest =>
    if c = '0' ∨ c = '_' then dropZeros c rest
    else if c = '.' then last :: c :: rest
    else c :: rest

def dropFraction (s : List Char) : List Char :=
  match Text.trimEnd (· = '0') s with
  | whole => if whole.getLast? = some '.' ∧ whole.length < s.length then whole.dropLast else s

def dropUnderscores : List Char → List Char
  | c :: '_' :: d :: rest => if c = '_' ∨ d = '_' then c :: '_' :: d :: rest
    else c :: dropUnderscores (d :: rest)
  | c :: rest => c :: dropUnderscores rest
  | [] => []

def cleaned (s : List Char) : List Char :=
  let s := match s with
    | '0' :: rest => dropZeros '0' rest
    | s => s
  dropUnderscores (dropFraction s)

/-- The number of unsigned text: decimal digits, at most as many as whole numbers may have, and zero in
front only if it is the only one. Too many digits are told before what follows them. -/
def readDigits (s : List Char) : Except ValueFault Nat :=
  let digits := s.takeWhile Char.isDigit
  if digits = [] ∨ (digits.head? = some '0' ∧ digits ≠ ['0']) then .error .unreadableInteger
  else if Number.maxDigits < digits.length then .error .oversizedInteger
  else if digits.length < s.length then .error .unreadableInteger
  else .ok (Nat.ofDigitChars 10 digits 0)

def readSigned : List Char → Except ValueFault Int
  | '-' :: digits => (readDigits digits).map fun n => -(n : Int)
  | digits => (readDigits digits).map fun n => (n : Int)

/-- The whole number of a text. A sign in front is taken off before the text is cleaned; without a
minus sign in front there may be one after leading zeros. -/
def readWhole (s : List Char) : Except ValueFault Int :=
  match Text.trim isSpace s with
  | '-' :: rest => (readDigits (cleaned rest)).map fun n => -(n : Int)
  | '+' :: '-' :: _ => .error .unreadableInteger
  | '+' :: rest => readSigned (cleaned rest)
  | rest => readSigned (cleaned rest)

def isWord (n : Int) : Bool := -0x8000000000000000 ≤ n && n < 0x8000000000000000

/-- The whole number that a double-precision number is, if it is below two to the 63rd power. -/
def readFloat (x : Binary64) : Except ValueFault Int :=
  match x.units? with
  | none => .error .notFinite
  | some units =>
    if units % Binary64.one ≠ 0 then .error .notWhole
    else if 0x8000000000000000 ≤ (units / Binary64.one).natAbs then .error .oversizedInteger
    else .ok (units / Binary64.one)

def readInteger : Json → Except ValueFault Int
  | .number (.int n) => .ok n
  | .number (.float x) => readFloat x
  | .bool b => .ok (if b then 1 else 0)
  | .string s => readWhole (s.map CodePoint.toChar)
  | _ => .error .notInteger

def trueWords : List String := ["1", "on", "t", "true", "y", "yes"]

def falseWords : List String := ["0", "off", "f", "false", "n", "no"]

def readWord (s : String) : Except ValueFault Bool :=
  if s.toLower ∈ trueWords then .ok true
  else if s.toLower ∈ falseWords then .ok false
  else .error .unreadableTruth

def truthOfInteger (n : Int) : Except ValueFault Bool :=
  if n = 0 then .ok false
  else if n = 1 then .ok true
  else if isWord n then .error .unreadableTruth
  else .error .notTruth

def readTruth : Json → Except ValueFault Bool
  | .bool b => .ok b
  | .number (.int n) => truthOfInteger n
  | .number (.float x) =>
    match readFloat x with
    | .ok n => truthOfInteger n
    | .error _ => .error .notTruth
  | .string s => readWord (CodePoint.toString s)
  | _ => .error .notTruth

def ValueFault.code : ValueFault → String
  | .notText => "string_type"
  | .notInteger => "int_type"
  | .notWhole => "int_from_float"
  | .notFinite => "finite_number"
  | .unreadableInteger => "int_parsing"
  | .oversizedInteger => "int_parsing_size"
  | .notTruth => "bool_type"
  | .unreadableTruth => "bool_parsing"

def ValueFault.message : ValueFault → String
  | .notText => "Input should be a valid string"
  | .notInteger => "Input should be a valid integer"
  | .notWhole => "Input should be a valid integer, got a number with a fractional part"
  | .notFinite => "Input should be a finite number"
  | .unreadableInteger =>
    "Input should be a valid integer, unable to parse string as an integer"
  | .oversizedInteger =>
    "Unable to parse input string as an integer, exceeded maximum size"
  | .notTruth => "Input should be a valid boolean"
  | .unreadableTruth => "Input should be a valid boolean, unable to interpret input"

end Sqrl.Settings
