import Sqrl.Crypto.Sha3
import Sqrl.Json
import Sqrl.Text.Utf8

/-!
The fields that audit events share. What a client sends in bulk is recorded by length and digest only.
-/
namespace Sqrl.Audit

abbrev Event := Json.Members

/-- How many characters of a command are recorded. -/
def commandLength : Nat := 32

structure Common where
  nut : Option String := none
  responseNut : Option String := none
  address : Option String := none
  identityKey : Option String := none
  command : Option String := none
  /-- What the signature covers. -/
  message : Option Bytes := none
  signature : Option String := none

/-- A field, unless it is absent or empty. -/
def given (name : String) (value : Option String) : List (String × Json) :=
  match value with
  | some s => if s = "" then [] else [(name, .text s)]
  | none => []

def digested (name : String) (value : Option Bytes) : List (String × Json) :=
  match value with
  | some b =>
    [(name ++ "_len", .int b.length), (name ++ "_sha3_256", .text (Bytes.toHex (sha3 b)))]
  | none => []

def shortened (length : Nat) (s : String) : String := String.ofList (s.toList.take length)

/-- The time of an event in whole seconds. It is that of the clock of the server, where a running server
asks its system for the time. -/
def time (now : Number) : String × Json := ("ts", .int now.truncate)

def Common.fields (now : Number) (c : Common) : List (String × Json) :=
  time now ::
    (given "nut" c.nut ++ given "response_nut" c.responseNut ++ given "request_ip" c.address ++
      given "idk" c.identityKey ++ given "cmd" (c.command.map (shortened commandLength)) ++
      digested "message" c.message ++
      digested "signature" (c.signature.map fun s => Utf8.encode s.toList))

end Sqrl.Audit
