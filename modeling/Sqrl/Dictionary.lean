/-!
Dictionaries as lists of entries in the order in which their keys first came.
-/
namespace Sqrl

/-- Entries of a key and a value. Operations keep at most one entry for each key. -/
abbrev Dictionary (κ α : Type) := List (κ × α)

namespace Dictionary

variable {κ α : Type} [DecidableEq κ]

def get? (d : Dictionary κ α) (key : κ) : Option α := d.lookup key

/-- Gives a key a value. A new key goes to the end, a present one keeps its place. -/
def put (key : κ) (value : α) : Dictionary κ α → Dictionary κ α
  | [] => [(key, value)]
  | (k, v) :: rest => if k = key then (k, value) :: rest else (k, v) :: put key value rest

/-- The dictionary of entries given one after the other: of those with one key the last counts, in
the place of the first. -/
def ofEntries (entries : List (κ × α)) : Dictionary κ α :=
  entries.foldl (fun d e => put e.1 e.2 d) []

def erase (key : κ) (d : Dictionary κ α) : Dictionary κ α := d.filter fun e => e.1 ≠ key

end Dictionary

end Sqrl
