import Sqrl.Json.Display
import Sqrl.Log
import Sqrl.Text.Case

/-!
How the server logs: from which level on, and in which form.
-/
namespace Sqrl.Log

inductive Layout where
  | structured
  | plain
  deriving DecidableEq, Repr

def Layout.template? : Layout → Option String
  | .structured => none
  | .plain => some "%(asctime)s - %(name)s - %(levelname)s - %(message)s"

structure Setup where
  level : Level
  layout : Layout
  deriving DecidableEq, Repr

inductive LevelFault where
  | notText (type : String)
  | unknown (name : String)
  /-- The name stands for the template of the simplest lines. -/
  | simplestTemplate
  /-- The name stands for the table of the ways to write templates. -/
  | templateStyles
  deriving DecidableEq, Repr

def simplestFields : List String := ["levelname", "name", "message"]

def simplestTemplate (field : String → String) : String := ":".intercalate (simplestFields.map field)

/-- The ways to write templates: the mark of a field, the name of the way and how a field is
written. -/
def templateStyles : List (String × String × (String → String)) :=
  [("%", "PercentStyle", fun name => "%(" ++ name ++ ")s"),
    ("\x7b", "StrFormatStyle", fun name => "\x7b" ++ name ++ "\x7d"),
    ("$", "StringTemplateStyle", fun name => "$\x7b" ++ name ++ "\x7d")]

def stylesText : String :=
  let entry : String × String × (String → String) → String := fun (mark, name, field) =>
    "'" ++ mark ++ "': (<class 'logging." ++ name ++ "'>, '" ++ simplestTemplate field ++ "')"
  "\x7b" ++ ", ".intercalate (templateStyles.map entry) ++ "\x7d"

def LevelFault.message : LevelFault → String
  | .notText type => "'" ++ type ++ "' object has no attribute 'upper'"
  | .unknown name => "module 'logging' has no attribute '" ++ name ++ "'"
  | .simplestTemplate =>
    "Unknown level: '" ++ Log.simplestTemplate (fun name => "%(" ++ name ++ ")s") ++ "'"
  | .templateStyles => "Level not an integer or a valid string: " ++ stylesText

/-- The level of a name in letters of any case. Two names stand for something else. -/
def levelOfName (name : String) : Except LevelFault Level :=
  let name := String.ofList (Text.upper name.toList)
  match Level.ofName? name with
  | some level => .ok level
  | none =>
    if name = "BASIC_FORMAT" then .error .simplestTemplate
    else if name = "_STYLES" then .error .templateStyles
    else .error (.unknown name)

def Setup.ofJson (level : Json) (structured : Bool) : Except LevelFault Setup :=
  let layout : Layout := if structured then .structured else .plain
  match level with
  | .string name => (levelOfName (CodePoint.toString name)).map fun level => ⟨level, layout⟩
  | v => .error (.notText v.typeName)

end Sqrl.Log
