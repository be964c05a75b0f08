import Sqrl.Calendar
import Sqrl.Json.Printer
import Sqrl.Log
import Sqrl.Log.Message
import Sqrl.Text.Split

/-!
Structured log lines: a record as one JSON object, for collectors of logs.
-/
namespace Sqrl.Log

structure Place where
  path : Option String
  function : Option String
  line : Int

/-- The file name of a path without its last extension. A dot at the start starts no extension. -/
def stem (path : List Char) : List Char :=
  let file := (Text.cutLast? '/' path).elim path Prod.snd
  match Text.cutLast? '.' file with
  | some (stem, _) => if stem.all (· = '.') then file else stem
  | none => file

def Place.module (place : Place) : String :=
  match place.path with
  | some path => String.ofList (stem path.toList)
  | none => "Unknown module"

structure Raised where
  kind : String
  text : String

def Raised.line (e : Raised) : String := if e.text = "" then e.kind else e.kind ++ ": " ++ e.text

/-- The object of a record. A further field with the name of a usual one takes its place. -/
def Record.structured (timestamp : String) (place : Place) (raised : Option Raised)
    (record : Record) : Json :=
  let usual := [
    ("timestamp", Json.text timestamp),
    ("level", .text record.level.name),
    ("logger", .text record.source),
    ("message", .string record.message),
    ("module", .text place.module),
    ("function", .optional place.function),
    ("line", .int place.line)]
  let raised := raised.toList.map fun e => ("exception", Json.text e.line)
  let named := (usual ++ raised).map fun (name, value) => (CodePoint.ofString name, value)
  .object (Dictionary.ofEntries (named ++ record.extra.getD []))

structure Call where
  level : Level
  source : String
  template : List CodePoint
  args : List Json
  extra : Option Json.Members

inductive LineFault where
  | time (fault : Calendar.Fault)
  | message (fault : Message.Fault)
  deriving DecidableEq, Repr

/-- The line of a call. The clock is read first. -/
def Call.line (created : Number) (place : Place) (raised : Option Raised) (call : Call) :
    Except LineFault String := do
  let timestamp ← (Calendar.timestamp created).mapError .time
  let message ← (Message.fill call.template call.args).mapError .message
  let record : Record := ⟨call.level, call.source, message, call.extra⟩
  return (record.structured timestamp place raised).toAscii .spacedAscii

end Sqrl.Log
