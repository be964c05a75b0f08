import Sqrl.Dictionary
import Sqrl.Number.Shortest
import Sqrl.Text.CodePoint

/-!
JSON values. An object is the list of its members in the order in which their keys first came; two
values that differ in that order alone have the same sorted form.
-/
namespace Sqrl

inductive Json where
  | null
  | bool (b : Bool)
  | number (n : Number)
  | string (s : List CodePoint)
  | array (items : List Json)
  | object (members : List (List CodePoint × Json))
  deriving Repr

namespace Json

def text (s : String) : Json := .string (CodePoint.ofString s)

def int (n : Int) : Json := .number (.int n)

def optional : Option String → Json
  | none => .null
  | some s => text s

abbrev Members := Dictionary (List CodePoint) Json

/-- An object with the given members, the last one of those with one key. -/
def ofMembers (members : List (String × Json)) : Json :=
  .object (Dictionary.ofEntries (members.map fun (k, v) => (CodePoint.ofString k, v)))

def precedes : List CodePoint → List CodePoint → Bool
  | [], _ => true
  | _ :: _, [] => false
  | a :: s, b :: t => if a = b then precedes s t else decide (a < b)

def insertSorted (key : List CodePoint) (value : Json) : Members → Members
  | [] => [(key, value)]
  | (k, v) :: rest =>
    if precedes key k then (key, value) :: (k, v) :: rest
    else (k, v) :: insertSorted key value rest

mutual

/-- The value with the members of every object in the order of their keys. -/
def sorted : Json → Json
  | .array items => .array (sortedItems items)
  | .object members => .object (sortedMembers members)
  | .null => .null
  | .bool b => .bool b
  | .number n => .number n
  | .string s => .string s

def sortedItems : List Json → List Json
  | [] => []
  | v :: rest => sorted v :: sortedItems rest

def sortedMembers : List (List CodePoint × Json) → List (List CodePoint × Json)
  | [] => []
  | (k, v) :: rest => insertSorted k (sorted v) (sortedMembers rest)

end

/-- How many arrays and objects may be open at once, unless something else is said. -/
def maxDepth : Nat := 987

end Json

end Sqrl
