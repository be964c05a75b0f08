import Sqrl.Audit.Chain
import Sqrl.Text.Split

/-!
The audit trail: a log of chained events, one on each line, and beside it the head of the chain. The
head is read back before each event, so that several servers can share a trail.
-/
namespace Sqrl.Audit

structure Trail where
  hasDirectory : Bool
  hasLock : Bool
  log : Option Bytes
  /-- The head of the chain, if there is one. -/
  state : Option Bytes

namespace Trail

def empty : Trail := ⟨false, false, none, none⟩

def defaultName : String := "sqrl_audit"

def fileNames (name : String) (t : Trail) : Option (List String) :=
  if t.hasDirectory then
    some ((if t.log.isSome then [name ++ ".jsonl"] else []) ++
      (if t.hasLock then [name ++ ".lock"] else []) ++
      (if t.state.isSome then [name ++ ".state"] else []))
  else none

def unifyLineEnds : List Char → List Char
  | '\r' :: '\n' :: rest => '\n' :: unifyLineEnds rest
  | [] => []
  | c :: rest => (if c = '\r' then '\n' else c) :: unifyLineEnds rest

/-- The head in the text of a state file: 64 characters that read as hexadecimal, or else that of a
chain without events. -/
def headOfText (s : List Char) : String :=
  let s := Text.strip (unifyLineEnds s)
  if s.length = 64 ∧ (Bytes.readHex? s).isSome then String.ofList (s.map Char.toLower) else genesis

def head (t : Trail) : Except Utf8.Fault String :=
  match t.state with
  | none => .ok genesis
  | some bytes => (Utf8.decode bytes).map headOfText

inductive AppendFault where
  /-- The state file is no text. -/
  | state (fault : Utf8.Fault)
  | event (fault : Json.CanonicalFault)
  deriving DecidableEq, Repr

def line (event : Event) : Bytes :=
  Utf8.encode ((Json.object event).canonicalText.map CodePoint.toChar) ++ [0x0A]

def write (t : Trail) (head hash : String) (event : Event) : Trail :=
  { t with
    log := some (t.log.getD [] ++ line (chained head hash event))
    state := some (Utf8.encode hash.toList ++ [0x0A]) }

/-- Appends an event that is nested at most `depth` deep. An event that is not appended leaves log
and head as they were. -/
def appendWithin (depth : Nat) (t : Trail) (event : Event) : Except AppendFault String × Trail :=
  -- Directory and lock are made before anything can fail.
  let t := { t with hasDirectory := true, hasLock := true }
  match t.head with
  | .error fault => (.error (.state fault), t)
  | .ok head =>
    match digest depth head event with
    | .error fault => (.error (.event fault), t)
    | .ok hash => (.ok hash, t.write head hash event)

def append (t : Trail) (event : Event) : Except AppendFault String × Trail :=
  t.appendWithin Json.maxDepth event

def verifyWithin (depth : Nat) (t : Trail) : Except ChainFault Bool :=
  match t.log with
  | none => .ok true
  | some bytes => verifyFrom depth genesis (Text.splitOn 0x0A bytes)

def verify (t : Trail) : Except ChainFault Bool := t.verifyWithin Json.maxDepth

inductive ReadFault where
  | text (fault : Utf8.Fault)
  | line (fault : Json.Fault)
  deriving DecidableEq, Repr

def readLines (depth : Nat) : List (List Char) → Except ReadFault (List Json)
  | [] => .ok []
  | line :: rest =>
    if Text.strip line = [] then readLines depth rest
    else
      match Json.readWithin depth line with
      | .error fault => .error (.line fault)
      | .ok v => (v :: ·) <$> readLines depth rest

/-- The lines of a text before its last, unfinished one. A carriage return at the end may be half of
the end of a line. -/
def finishedLines (s : List Char) : List (List Char) :=
  let s := if s.getLast? = some '\r' then s.dropLast else s
  (Text.splitOn '\n' (unifyLineEnds s)).dropLast

/-- How many bytes of a log are decoded at once. -/
def chunkLength : Nat := 8192

/-- How many bytes of a log have been decoded before the chunk in which a fault is noticed. Bytes of a
character that is cut off by the end of a chunk are decoded with the next one. -/
def decodedBefore (bytes : Bytes) (fault : Utf8.Fault) : Nat :=
  let noticed := fault.noticedAt bytes
  let chunkStart :=
    if noticed < bytes.length then noticed / chunkLength * chunkLength else bytes.length
  Utf8.soundLength (bytes.take chunkStart)

/-- The events of a log, nested at most `depth` deep. A log that is no text is read up to the chunk that
is at fault, and the fault is placed within what was still to be decoded. -/
def readLog (depth : Nat) (bytes : Bytes) : Except ReadFault (List Json) :=
  match Utf8.decode bytes with
  | .ok s => readLines depth (Text.splitOn '\n' (unifyLineEnds s))
  | .error fault =>
    let decoded := decodedBefore bytes fault
    match readLines depth (finishedLines (Utf8.decodeReplacing (bytes.take decoded))) with
    | .error fault => .error fault
    | .ok _ => .error (.text { fault with start := fault.start - decoded })

def readWithin (depth : Nat) (t : Trail) : Except ReadFault (List Json) :=
  match t.log with
  | none => .ok []
  | some bytes => readLog depth bytes

def read (t : Trail) : Except ReadFault (List Json) := t.readWithin Json.maxDepth

end Trail

end Sqrl.Audit
