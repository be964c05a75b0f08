import Sqrl.Text.Split

/-!
Patterns of paths. A name in braces is a parameter, which stands for one segment of a path unless a
kind after a colon says otherwise. Of several ways to match a path, the one counts in which earlier
parameters are longer.
-/
namespace Sqrl.Server

inductive ParameterKind where
  | segment
  /-- Segments and the slashes between them. -/
  | path
  | whole
  | decimal
  | uuid
  deriving DecidableEq, Repr

inductive PatternPart where
  | literal (s : List Char)
  | parameter (name : List Char) (kind : ParameterKind)
  deriving DecidableEq, Repr

abbrev Pattern := List PatternPart

structure Binding where
  name : List Char
  kind : ParameterKind
  value : List Char
  deriving DecidableEq, Repr

namespace ParameterKind

def ofWord? (word : List Char) : Option ParameterKind :=
  match String.ofList word with
  | "str" => some .segment
  | "path" => some .path
  | "int" => some .whole
  | "float" => some .decimal
  | "uuid" => some .uuid
  | _ => none

def downTo (low high : Nat) : List Nat := ((List.range (high + 1)).drop low).reverse

def countOf (p : Char → Bool) (s : List Char) : Nat := (s.takeWhile p).length

def isHexDigit (c : Char) : Bool := c.isDigit || ('a' ≤ c && c ≤ 'f') || ('A' ≤ c && c ≤ 'F')

/-- The length of groups of hexadecimal digits of the given sizes at the front of a text, each with or
without a hyphen before it. -/
def groupsLength? : List Nat → List Char → Option Nat
  | [], _ => some 0
  | size :: sizes, s =>
    let hyphen := if s.head? = some '-' then 1 else 0
    if countOf isHexDigit ((s.drop hyphen).take size) = size then
      (groupsLength? sizes (s.drop (hyphen + size))).map (hyphen + size + ·)
    else none

def uuidLength? (s : List Char) : Option Nat :=
  if countOf isHexDigit (s.take 8) = 8 then (groupsLength? [4, 4, 4, 12] (s.drop 8)).map (8 + ·)
  else none

/-- The lengths of the beginnings of a text that a parameter can stand for, longest first. -/
def lengths (kind : ParameterKind) (s : List Char) : List Nat :=
  match kind with
  | .segment => downTo 1 (countOf (· ≠ '/') s)
  | .path => downTo 0 (countOf (· ≠ '\n') s)
  | .whole => downTo 1 (countOf Char.isDigit s)
  | .decimal =>
    let digits := countOf Char.isDigit s
    let fraction :=
      match s.drop digits with
      | '.' :: rest => (downTo 1 (countOf Char.isDigit rest)).map (digits + 1 + ·)
      | _ => []
    if digits = 0 then [] else fraction ++ downTo 1 digits
  | .uuid => (uuidLength? s).toList

end ParameterKind

namespace Pattern

inductive Fault where
  | unknownKind (word : List Char)
  | repeatedNames (names : List (List Char)) (text : List Char)
  deriving DecidableEq, Repr

def isNameChar (c : Char) : Bool := c.isAlphanum || c = '_'

def cutName? (s : List Char) : Option (List Char × List Char) :=
  match s.span isNameChar with
  | (c :: name, rest) => if c.isDigit then none else some (c :: name, rest)
  | _ => none

def cutParameter? (s : List Char) : Option (List Char × List Char × List Char) :=
  match cutName? s with
  | some (name, '\x7d' :: rest) => some (name, "str".toList, rest)
  | some (name, ':' :: rest) =>
    match cutName? rest with
    | some (kind, '\x7d' :: rest) => some (name, kind, rest)
    | _ => none
  | _ => none

def partsAfterBrace (s : List Char) : Except Fault Pattern :=
  match cutParameter? s with
  | none => .ok [.literal ('\x7b' :: s)]
  | some (name, kind, rest) =>
    match ParameterKind.ofWord? kind with
    | none => .error (.unknownKind kind)
    | some kind => .ok [.parameter name kind, .literal rest]

def names (p : Pattern) : List (List Char) :=
  p.filterMap fun
    | .parameter name _ => some name
    | .literal _ => none

/-- Does a text stand before another in the order of code points? -/
def isBefore (a b : List Char) : Bool := a.lex b fun c d => c.toNat < d.toNat

/-- The pattern of a text. No two parameters may have one name. -/
def ofText (s : List Char) : Except Fault Pattern := do
  match Text.splitOn '\x7b' s with
  | [] => return []
  | first :: pieces =>
    let parts := .literal first :: (← pieces.mapM partsAfterBrace).flatten
    let repeated := (names parts).filter fun name => 1 < (names parts).count name
    if repeated = [] then return parts
    else throw (.repeatedNames (repeated.eraseDups.mergeSort fun a b => !isBefore b a) s)

/-- What the parameters stand for in a path, if the path matches. A line feed at its end does not
count. -/
def match? : Pattern → List Char → Option (List Binding)
  | [], s => if s = [] ∨ s = ['\n'] then some [] else none
  | .literal t :: parts, s => if t.isPrefixOf s then match? parts (s.drop t.length) else none
  | .parameter name kind :: parts, s =>
    (kind.lengths s).findSome? fun n =>
      (match? parts (s.drop n)).map (⟨name, kind, s.take n⟩ :: ·)

def Fault.message : Fault → String
  | .unknownKind word => "Unknown path convertor '" ++ String.ofList word ++ "'"
  | .repeatedNames names text =>
    let plural := if names.length = 1 then "" else "s"
    "Duplicated param name" ++ plural ++ " " ++ ", ".intercalate (names.map String.ofList) ++
      " at path " ++ String.ofList text

end Pattern

end Sqrl.Server
