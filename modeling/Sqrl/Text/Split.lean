/-!
Cutting a text at separators and joining pieces with one.
-/
namespace Sqrl.Text

def consHead {α : Type} (c : α) : List (List α) → List (List α)
  | [] => [[c]]
  | piece :: pieces => (c :: piece) :: pieces

/-- The pieces between the occurrences of `sep`; there is one more piece than separators. -/
def splitOn {α : Type} [DecidableEq α] (sep : α) : List α → List (List α)
  | [] => [[]]
  | c :: rest => if c = sep then [] :: splitOn sep rest else consHead c (splitOn sep rest)

def splitCrLf : List Char → List (List Char)
  | '\r' :: '\n' :: rest => [] :: splitCrLf rest
  | [] => [[]]
  | c :: rest => consHead c (splitCrLf rest)

def cut? {α : Type} [DecidableEq α] (sep : α) : List α → Option (List α × List α)
  | [] => none
  | c :: rest =>
    if c = sep then some ([], rest)
    else (cut? sep rest).map fun (before, after) => (c :: before, after)

/-- What stands before and after the last `sep`, if there is one. -/
def cutLast? {α : Type} [DecidableEq α] (sep : α) (s : List α) : Option (List α × List α) :=
  (cut? sep s.reverse).map fun (after, before) => (before.reverse, after.reverse)

def before {α : Type} [DecidableEq α] (sep : α) (s : List α) : List α := s.takeWhile (· ≠ sep)

def join {α : Type} (sep : List α) : List (List α) → List α
  | [] => []
  | [piece] => piece
  | piece :: pieces => piece ++ sep ++ join sep pieces

def contains {α : Type} [DecidableEq α] (part : List α) : List α → Bool
  | [] => part.isEmpty
  | c :: rest => part.isPrefixOf (c :: rest) || contains part rest

end Sqrl.Text
