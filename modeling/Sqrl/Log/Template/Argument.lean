import Sqrl.Json.Display
import Sqrl.Number.Rounded

/-!
How an argument of a message template is written. The letter of its place chooses a form; a form says
which values it can write, and gives the sign and the body of the text.
-/
namespace Sqrl.Log.Template

structure Base where
  radix : Nat
  mark : List Char
  deriving DecidableEq, Repr

inductive Form where
  /-- A string as it is, another value as messages show it. -/
  | plain
  /-- Every value as messages show it. -/
  | shown
  /-- As messages show it, with escapes for all that is not ASCII. -/
  | escaped
  | whole
  | based (base : Base) (capitals : Bool)
  | real (style : Binary64.Style) (capitals : Bool)
  | character
  deriving DecidableEq, Repr

def Form.ofLetter? : Char → Option Form
  | 's' => some .plain
  | 'r' => some .shown
  | 'a' => some .escaped
  | 'd' | 'i' | 'u' => some .whole
  | 'o' => some (.based ⟨8, ['0', 'o']⟩ false)
  | 'x' => some (.based ⟨16, ['0', 'x']⟩ false)
  | 'X' => some (.based ⟨16, ['0', 'x']⟩ true)
  | 'e' => some (.real .exponent false)
  | 'E' => some (.real .exponent true)
  | 'f' => some (.real .fixed false)
  | 'F' => some (.real .fixed true)
  | 'g' => some (.real .general false)
  | 'G' => some (.real .general true)
  | 'c' => some .character
  | _ => none

def Form.isNumeric : Form → Bool
  | .whole | .based .. | .real .. => true
  | _ => false

inductive ArgumentFault where
  | notNumber (type : String)
  | notInteger (type : String)
  | notReal (type : String)
  | notCharacter
  /-- The whole number is no code point. -/
  | noCodePoint
  | infinite
  | nan
  | tooLarge
  | tooPrecise
  deriving DecidableEq, Repr

structure Written where
  sign : List Char := []
  mark : List Char := []
  body : List CodePoint

def plainText : Json → List CodePoint
  | .string s => s
  | v => CodePoint.ofChars v.display

def number? : Json → Option Number
  | .number n => some n
  | .bool b => some (.int (if b then 1 else 0))
  | _ => none

def escapeAscii (c : Char) : List Char := if c.toNat < 0x80 then [c] else Text.escapeNumber c.toNat

/-- The longest number of digits that whole numbers are filled up to. -/
def maxFilled : Nat := 0x7ffffffc

def writeWhole (radix : Nat) (mark : List Char) (precision : Nat) (n : Int) :
    Except ArgumentFault Written :=
  let digits := Nat.toDigits radix n.natAbs
  if maxFilled < precision then .error .tooPrecise
  else .ok {
    sign := if n < 0 then ['-'] else []
    mark := mark
    body := CodePoint.ofChars (List.replicate (precision - digits.length) '0' ++ digits) }

def wholeOf (v : Json) : Except ArgumentFault Int :=
  match number? v with
  | none => .error (.notNumber v.typeName)
  | some (.float .nan) => .error .nan
  | some (.float (.infinite _)) => .error .infinite
  | some n => .ok n.truncate

def realOf (v : Json) : Except ArgumentFault Binary64 :=
  match number? v with
  | none => .error (.notReal v.typeName)
  | some (.float x) => .ok x
  | some (.int n) =>
    match Binary64.ofInt n with
    | .infinite _ => .error .tooLarge
    | x => .ok x

def codePointOf : Json → Except ArgumentFault CodePoint
  | .string [p] => .ok p
  | .number (.int n) =>
    if 0 ≤ n ∧ n < 0x110000 then .ok (CodePoint.ofNat n.toNat) else .error .noCodePoint
  | .bool b => .ok (CodePoint.ofNat (if b then 1 else 0))
  | _ => .error .notCharacter

def capitalized (capitals : Bool) (s : List Char) : List Char :=
  if capitals then s.map Char.toUpper else s

/-- The text of an argument. A precision cuts text, fills up whole numbers with zeros and says how many
digits others have, six without it. -/
def Form.write (form : Form) (marked : Bool) (precision : Option Nat) (v : Json) :
    Except ArgumentFault Written :=
  let cut (s : List CodePoint) : Except ArgumentFault Written :=
    .ok { body := precision.elim s s.take }
  match form with
  | .plain => cut (plainText v)
  | .shown => cut (CodePoint.ofChars v.display)
  | .escaped => cut (CodePoint.ofChars (v.display.flatMap escapeAscii))
  | .whole => do writeWhole 10 [] (precision.getD 0) (← wholeOf v)
  | .based base capitals => do
    match number? v with
    | some (.int n) =>
      let written ← writeWhole base.radix (if marked then base.mark else []) (precision.getD 0) n
      let capital (p : CodePoint) : CodePoint :=
        if capitals then CodePoint.ofChar p.toChar.toUpper else p
      return { written with
        mark := capitalized capitals written.mark, body := written.body.map capital }
    | _ => throw (.notInteger v.typeName)
  | .real style capitals => do
    let (sign, body) := (← realOf v).rounded style (precision.getD 6) marked
    return { sign, body := CodePoint.ofChars (capitalized capitals body) }
  | .character => do return { body := [← codePointOf v] }

def ArgumentFault.message (letter : Char) : ArgumentFault → String
  | .notNumber type => "%" ++ letter.toString ++ " format: a real number is required, not " ++ type
  | .notInteger type => "%" ++ letter.toString ++ " format: an integer is required, not " ++ type
  | .notReal type => "must be real number, not " ++ type
  | .notCharacter => "%c requires int or char"
  | .noCodePoint => "%c arg not in range(0x110000)"
  | .infinite => "cannot convert float infinity to integer"
  | .nan => "cannot convert float NaN to integer"
  | .tooLarge => "int too large to convert to float"
  | .tooPrecise => "precision too large"

end Sqrl.Log.Template
