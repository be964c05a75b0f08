import Sqrl.Dictionary
import Sqrl.Text.Split
import Sqrl.Text.Utf8

/-!
Form data: named values in a text, in which characters may be escaped by percent signs.
-/
namespace Sqrl.Form

def isUnreserved (c : Char) : Bool := c.isAlphanum || c ∈ ['_', '.', '-', '~']

def escape (s : List Char) : List Char :=
  s.flatMap fun c =>
    if isUnreserved c then [c]
    else (Utf8.encodeChar c).flatMap fun b => '%' :: (Bytes.hex [b]).map Char.toUpper

/-- The bytes of a text with its escapes replaced. A percent sign without two digits stands for
itself. -/
def unescapeBytes : List Char → Bytes
  | '%' :: a :: b :: rest =>
    match Bytes.hexValue? a, Bytes.hexValue? b with
    | some high, some low => UInt8.ofNat (16 * high + low) :: unescapeBytes rest
    | _, _ => Utf8.encodeChar '%' ++ unescapeBytes (a :: b :: rest)
  | c :: rest => Utf8.encodeChar c ++ unescapeBytes rest
  | [] => []

/-- The text with its escapes replaced and with U+FFFD for bytes that are no text. -/
def unescape (s : List Char) : List Char := Utf8.decodeReplacing (unescapeBytes s)

/-- A name or a value, in which a plus sign stands for a blank. -/
def readPart (s : List Char) : String :=
  String.ofList (unescape (s.map fun c => if c = '+' then ' ' else c))

/-- A name and its value. Without an equals sign the value is empty. -/
def readPair (s : List Char) : String × String :=
  match Text.cut? '=' s with
  | some (name, value) => (readPart name, readPart value)
  | none => (readPart s, "")

/-- The named values of a text. Of those with one name the last counts. -/
def read (s : List Char) : Dictionary String String :=
  Dictionary.ofEntries (((Text.splitOn '&' s).filter fun piece => piece ≠ []).map readPair)

def readBody (body : Bytes) : Dictionary String String := read (Utf8.decodeReplacing body)

end Sqrl.Form
