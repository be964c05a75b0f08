import Sqrl.Json

/-!
Log records: how grave something is, which part of the server tells it, and in which words.
-/
namespace Sqrl.Log

/-- How grave a record is. Ranks between the named ones may be used. -/
structure Level where
  rank : Int
  deriving DecidableEq, Repr

namespace Level

def notSet : Level := ⟨0⟩

def debug : Level := ⟨10⟩

def info : Level := ⟨20⟩

def warning : Level := ⟨30⟩

def error : Level := ⟨40⟩

def critical : Level := ⟨50⟩

def named : List (String × Level) :=
  [("NOTSET", notSet), ("DEBUG", debug), ("INFO", info), ("WARNING", warning), ("ERROR", error),
    ("CRITICAL", critical)]

def name (level : Level) : String :=
  match named.find? fun entry => entry.2 = level with
  | some (name, _) => name
  | none => "Level " ++ String.ofList (intText level.rank)

/-- The level of a name in capitals; two of them have a second name. -/
def ofName? (name : String) : Option Level :=
  (named ++ [("WARN", warning), ("FATAL", critical)]).lookup name

end Level

structure Record where
  level : Level
  /-- The part of the server that tells it. -/
  source : String
  message : List CodePoint
  /-- Further fields, for readers that are programs. -/
  extra : Option Json.Members

def Record.ofText (level : Level) (source message : String) (extra : Option Json.Members) : Record :=
  ⟨level, source, CodePoint.ofString message, extra⟩

end Sqrl.Log
