import Sqrl.Audit.Event
import Sqrl.Json.Display
import Sqrl.Json.Printer
import Sqrl.Json.Reader
import Sqrl.Text.Blank

/-!
The chain of audit events. Each event carries the digest of the digest before it and of its own
canonical bytes, so that the last digest commits to all events and their order.
-/
namespace Sqrl.Audit

def previousField : List CodePoint := CodePoint.ofString "prev_hash"

def hashField : List CodePoint := CodePoint.ofString "hash"

def genesis : String := String.ofList (List.replicate 64 '0')

def bare (event : Event) : Event := (Dictionary.erase previousField event).erase hashField

/-- The digest of an event after a head, if the event is nested at most `depth` deep. -/
def digest (depth : Nat) (head : String) (event : Event) : Except Json.CanonicalFault String :=
  ((Json.object (bare event)).canonicalWithin depth).map fun bytes =>
    Bytes.toHex (sha3 ((Bytes.readHex? head.toList).getD [] ++ bytes))

def chained (head hash : String) (event : Event) : Event :=
  Dictionary.put hashField (.text hash) (Dictionary.put previousField (.text head) (bare event))

def holds (field : List CodePoint) (s : String) (event : Event) : Bool :=
  match Dictionary.get? event field with
  | some (.string t) => t == CodePoint.ofString s
  | _ => false

/-- Why a chain has no verdict. -/
inductive ChainFault where
  /-- A line holds a value that is no object. -/
  | notObject (type : String)
  /-- The value of a line is nested too deeply. -/
  | tooDeep (container : Json.Container)
  | canonical (fault : Json.CanonicalFault)
  deriving DecidableEq, Repr

def isBlankByte (b : UInt8) : Bool := b = 0x20 || (0x09 ≤ b && b ≤ 0x0D)

/-- The value of a line, if it has one that is nested at most `depth` deep. -/
def readLine (depth : Nat) (line : Bytes) : Except ChainFault (Option Json) :=
  match Utf8.decode line with
  | .error _ => .ok none
  | .ok s =>
    match Json.readWithin depth s with
    | .ok v => .ok (some v)
    -- Whatever else is wrong with the text refutes the line, but does not stop the check.
    | .error (.tooDeep container) => .error (.tooDeep container)
    | .error _ => .ok none

/-- The head after an event, if the event is chained to the head before. -/
def follow (depth : Nat) (head : String) (event : Event) : Except ChainFault (Option String) :=
  if holds previousField head event then
    match digest depth head event with
    | .error fault => .error (.canonical fault)
    | .ok hash => .ok (if holds hashField hash event then some hash else none)
  else .ok none

/-- Is each line an event that is chained to the one before, and the first to the head? The events
may be nested `depth` deep. -/
def verifyFrom (depth : Nat) (head : String) : List Bytes → Except ChainFault Bool
  | [] => .ok true
  | line :: rest =>
    match Text.trim isBlankByte line with
    | [] => verifyFrom depth head rest
    | line =>
      match readLine depth line with
      | .error fault => .error fault
      | .ok none => .ok false
      | .ok (some (.object event)) =>
        match follow depth head event with
        | .error fault => .error fault
        | .ok none => .ok false
        | .ok (some hash) => verifyFrom depth hash rest
      | .ok (some v) => .error (.notObject v.typeName)

def ChainFault.message : ChainFault → String
  | .notObject type => "'" ++ type ++ "' object has no attribute 'get'"
  | .tooDeep container => container.deepMessage
  | .canonical fault => fault.message

end Sqrl.Audit
