import Sqrl.Base64.Url
import Sqrl.Dictionary
import Sqrl.Flag
import Sqrl.Number.Shortest
import Sqrl.Text.Split

/-!
Server responses. The text of a response has a fixed order of fields, because the client sends it
back under its signature.
-/
namespace Sqrl

/-- The bitmask of a response as it is given. A truth value counts as 0 or 1. -/
inductive Response.Mask where
  | int (n : Int)
  | truth (b : Bool)
  deriving DecidableEq, Repr

/-- A response. A field that is absent has no line. -/
structure Response where
  ver : Option String
  nut : Option String
  /-- Where the next request goes. -/
  qry : Option String
  mask : Response.Mask
  url : Option String
  suk : Option String
  /-- A question to the user. -/
  ask : Option String
  additional : Dictionary String (Option String)
  deriving DecidableEq, Repr

namespace Response

def Mask.value : Mask → Int
  | .int n => n
  | .truth b => if b then 1 else 0

/-- The number that the bitmask stands for. -/
def tif (r : Response) : Int := r.mask.value

/-- Why a response cannot be written. -/
inductive WriteFault where
  /-- The bitmask has too many digits: a value error. -/
  | oversizedMask
  deriving DecidableEq, Repr

def WriteFault.message : WriteFault → String
  | .oversizedMask => Number.unwritableMessage

/-- What is written for a bitmask: its digits, but for a truth value its name. -/
def Mask.text : Mask → Except WriteFault String
  | .int n =>
    if Number.maxDigits < (Nat.toDigits 10 n.natAbs).length then .error .oversizedMask
    else .ok (String.ofList (intText n))
  | .truth b => .ok (if b then "True" else "False")

/-- The fields in their order, absent ones included, once the bitmask has a text. -/
def fieldsWith (r : Response) (tif : String) : List (String × Option String) :=
  [("ver", r.ver), ("nut", r.nut), ("tif", some tif), ("qry", r.qry), ("url", r.url),
    ("suk", r.suk), ("ask", r.ask)] ++ r.additional

def fields (r : Response) : Except WriteFault (List (String × Option String)) :=
  r.mask.text.map r.fieldsWith

def filled (fields : List (String × Option String)) : List (String × String) :=
  fields.filterMap fun (name, value) => value.map (name, ·)

def present (r : Response) : Except WriteFault (List (String × String)) := r.fields.map filled

def line (name value : String) : List Char := name.toList ++ '=' :: value.toList

def textOf (present : List (String × String)) : String :=
  String.ofList (Text.join ['\r', '\n'] (present.map fun (name, value) => line name value))

def text (r : Response) : Except WriteFault String := r.present.map textOf

def encoded (r : Response) : Except WriteFault String := r.text.map Base64.Url.encodeText

def flags (r : Response) : List Flag := Flag.ofMask r.tif

/-- A question with two answers: each part in base64url, with `~` between them. -/
def askText (message button1 button2 : String) : String :=
  Base64.Url.encodeText message ++ "~" ++ Base64.Url.encodeText button1 ++ "~" ++
    Base64.Url.encodeText button2

def withAsk (r : Response) (message button1 button2 : String) : Response :=
  { r with ask := some (askText message button1 button2) }

def queryUrl (baseUri nut : String) : String := baseUri ++ "?nut=" ++ nut

def build (version baseUri nut : String) (suk : Option String) (flags : FlagSet) : Response where
  ver := some version
  nut := some nut
  qry := some (queryUrl baseUri nut)
  mask := .int flags.mask
  url := none
  suk := suk
  ask := none
  additional := []

/-- Flags as they are given for a response: listed in some order, or gathered in a set. -/
inductive GivenFlags where
  | listed (fs : List Flag)
  | gathered (s : FlagSet)

def GivenFlags.set : GivenFlags → FlagSet
  | .listed fs => .ofList fs
  | .gathered s => s

def buildGiven (version baseUri nut : String) (suk : Option String) (flags : GivenFlags) : Response :=
  build version baseUri nut suk flags.set

/-- The name and the value of a line. A line without `=` names an empty value. -/
def readLine (line : List Char) : String × String :=
  match Text.cut? '=' line with
  | some (name, value) => (String.ofList name, String.ofList value)
  | none => (String.ofList line, "")

/-- The fields of a text, in their order. Empty lines are skipped. -/
def readText (s : String) : Dictionary String String :=
  Dictionary.ofEntries
    (((Text.splitCrLf s.toList).filter fun line => line ≠ []).map readLine)

def read (encoded : String) : Except Base64.Url.TextFault (Dictionary String String) :=
  (Base64.Url.decodeText encoded).map readText

end Response

end Sqrl
