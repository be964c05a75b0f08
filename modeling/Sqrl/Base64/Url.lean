import Sqrl.Base64
import Sqrl.Text.Blank
import Sqrl.Text.Quoted
import Sqrl.Text.Utf8

/-!
Base64 with the alphabet for URLs and without padding, the form of every binary value on the wire.
The reader is wider than the writer: blanks around the text, padding and the unused low bits of the
last character do not matter to it.
-/
namespace Sqrl.Base64.Url

def digit (n : Nat) : Char :=
  if n < 26 then Char.ofNat (65 + n)
  else if n < 52 then Char.ofNat (71 + n)
  else if n < 62 then Char.ofNat (n - 4)
  else if n = 62 then '-'
  else '_'

def value? (c : Char) : Option Nat :=
  if c = '-' then some 62 else if c = '_' then some 63 else commonValue? c

def encode (b : Bytes) : String := String.ofList ((sextets b).map digit)

def encodeText (s : String) : String := encode (Utf8.encode s.toList)

/-- Why a text is refused. All of them are value errors, some of a kind of their own. -/
inductive Fault where
  /-- `+` or `/` occurs: a value error, and nothing more special. -/
  | otherAlphabet
  /-- The first characters outside ASCII, all those that stand together, and where they start: an error
  of writing text in ASCII. -/
  | notAscii (start : Nat) (run : List Char)
  /-- An error of the base64 decoder. -/
  | scan (fault : Base64.Fault)
  deriving DecidableEq, Repr

def pad (s : List Char) : List Char := s ++ List.replicate ((4 - s.length % 4) % 4) '='

def isForeign (c : Char) : Bool := 0x80 ≤ c.toNat

def decode (s : String) : Except Fault Bytes :=
  let s := pad (Text.strip s.toList)
  if s.any fun c => c = '+' || c = '/' then .error .otherAlphabet
  else
    let ascii := s.takeWhile fun c => !isForeign c
    match (s.drop ascii.length).takeWhile isForeign with
    | [] => (Base64.read value? s).map ofSextets |>.mapError .scan
    | run => .error (.notAscii ascii.length run)

/-- Why a text holds no UTF-8 text. Like the others, an error of reading UTF-8 is a value error. -/
inductive TextFault where
  | base64 (fault : Fault)
  | utf8 (fault : Utf8.Fault)
  deriving DecidableEq, Repr

def decodeText (s : String) : Except TextFault String := do
  let bytes ← (decode s).mapError .base64
  let chars ← (Utf8.decode bytes).mapError .utf8
  return String.ofList chars

def Fault.message : Fault → String
  | .otherAlphabet => "not URL-safe base64"
  | .notAscii start [c] =>
    "'ascii' codec can't encode character '" ++ String.ofList (Text.escapeNumber c.toNat) ++ "' in position " ++
      toString start ++ ": ordinal not in range(128)"
  | .notAscii start run =>
    "'ascii' codec can't encode characters in position " ++ toString start ++ "-" ++
      toString (start + run.length - 1) ++ ": ordinal not in range(128)"
  | .scan fault => fault.message

def TextFault.message : TextFault → String
  | .base64 fault => fault.message
  | .utf8 fault => fault.message

end Sqrl.Base64.Url
