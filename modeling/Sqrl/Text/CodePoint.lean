import Sqrl.Text.Utf8

/-!
Text over all code points. The strings of JSON data can hold code points that are no characters,
halves of surrogate pairs, which have no UTF-8 form.
-/
namespace Sqrl

abbrev CodePoint := Fin 0x110000

namespace CodePoint

/-- The code point of a number, which is taken modulo how many there are. -/
def ofNat (n : Nat) : CodePoint := Fin.ofNat 0x110000 n

def ofChar (c : Char) : CodePoint := ofNat c.toNat

def isSurrogate (p : CodePoint) : Bool := 0xD800 ≤ p.val && p.val ≤ 0xDFFF

/-- The character of a code point; U+FFFD stands for a surrogate. -/
def toChar (p : CodePoint) : Char := if p.isSurrogate then '\uFFFD' else Char.ofNat p.val

def ofChars (s : List Char) : List CodePoint := s.map ofChar

def ofString (s : String) : List CodePoint := ofChars s.toList

def toString (s : List CodePoint) : String := String.ofList (s.map toChar)

/-- The first surrogates of a text, all those that stand together, and where they start. -/
structure Fault where
  start : Nat
  run : List CodePoint
  deriving DecidableEq, Repr

def encode (s : List CodePoint) : Except Fault Bytes :=
  let head := s.takeWhile fun p => !p.isSurrogate
  match (s.drop head.length).takeWhile isSurrogate with
  | [] => .ok (s.flatMap fun p => Utf8.encodeChar p.toChar)
  | run => .error ⟨head.length, run⟩

def Fault.message (f : Fault) : String :=
  match f.run with
  | [p] =>
    "'utf-8' codec can't encode character '\\u" ++ Bytes.toHex (Bytes.bigEndian 2 p.val) ++
      "' in position " ++ Nat.repr f.start ++ ": surrogates not allowed"
  | run =>
    "'utf-8' codec can't encode characters in position " ++ Nat.repr f.start ++ "-" ++
      Nat.repr (f.start + run.length - 1) ++ ": surrogates not allowed"

end CodePoint

end Sqrl
