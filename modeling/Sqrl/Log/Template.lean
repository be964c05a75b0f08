/-!
Message templates. A percent sign starts a place for an argument: a key in parentheses, flags, a
width, a precision after a point and a letter that says how the argument is written; all but the
letter may be left out. Two percent signs next to each other stand for one.
-/
namespace Sqrl.Log.Template

inductive Key where
  /-- The place takes the next argument. -/
  | absent
  | named (name : List Char)
  | unclosed
  deriving DecidableEq, Repr

structure Flags where
  left : Bool := false
  zeros : Bool := false
  plus : Bool := false
  blank : Bool := false
  marked : Bool := false
  deriving DecidableEq, Repr

inductive Amount where
  | given (n : Nat)
  | argument
  deriving DecidableEq, Repr

structure Place where
  key : Key := .absent
  flags : Flags := {}
  width : Option Amount := none
  precision : Option Amount := none
  deriving DecidableEq, Repr

inductive Ending where
  | letter (c : Char) (index : Nat)
  | cut
  | oversizedWidth
  | oversizedPrecision
  deriving DecidableEq, Repr

inductive Piece where
  | char (c : Char)
  | place (place : Place) (ending : Ending)
  deriving DecidableEq, Repr

/-- Where a reading of a template stands. -/
inductive Mode where
  | text
  | percent
  /-- In a key, with a number of open parentheses and the characters so far, last first. -/
  | key (opened : Nat) (name : List Char)
  | flags (place : Place)
  | width (place : Place) (n : Nat)
  | afterWidth (place : Place)
  | point (place : Place)
  | precision (place : Place) (n : Nat)
  | afterPrecision (place : Place)
  | letter (place : Place)
  deriving DecidableEq, Repr

def maxWidth : Nat := 0x7fffffffffffffff

def maxPrecision : Nat := 0x7fffffff

def Flags.with? (flags : Flags) : Char → Option Flags
  | '-' => some { flags with left := true }
  | '0' => some { flags with zeros := true }
  | '+' => some { flags with plus := true }
  | ' ' => some { flags with blank := true }
  | '#' => some { flags with marked := true }
  | _ => none

def digit (c : Char) : Nat := c.toNat - '0'.toNat

namespace Place

def close (place : Place) (ending : Ending) : Option Piece × Mode :=
  (some (.place place ending), .text)

def readLetter (place : Place) (index : Nat) (c : Char) : Option Piece × Mode :=
  place.close (.letter c index)

/-- Reads the letter or one of the size letters before it, which mean nothing. -/
def readSize (place : Place) (index : Nat) (c : Char) : Option Piece × Mode :=
  if c ∈ ['h', 'l', 'L'] then (none, .letter place) else place.readLetter index c

def readAfterWidth (place : Place) (index : Nat) (c : Char) : Option Piece × Mode :=
  if c = '.' then (none, .point { place with precision := some (.given 0) })
  else place.readSize index c

def readFlag (place : Place) (index : Nat) (c : Char) : Option Piece × Mode :=
  match place.flags.with? c with
  | some flags => (none, .flags { place with flags })
  | none =>
    if c = '*' then (none, .afterWidth { place with width := some .argument })
    else if c.isDigit then (none, .width { place with width := some (.given (digit c)) } (digit c))
    else place.readAfterWidth index c

def readWidth (place : Place) (n index : Nat) (c : Char) : Option Piece × Mode :=
  if !c.isDigit then place.readAfterWidth index c
  else
    let n := 10 * n + digit c
    if maxWidth < n then place.close .oversizedWidth
    else (none, .width { place with width := some (.given n) } n)

def readPoint (place : Place) (index : Nat) (c : Char) : Option Piece × Mode :=
  if c = '*' then (none, .afterPrecision { place with precision := some .argument })
  else if c.isDigit then
    (none, .precision { place with precision := some (.given (digit c)) } (digit c))
  else place.readSize index c

def readPrecision (place : Place) (n index : Nat) (c : Char) : Option Piece × Mode :=
  if !c.isDigit then place.readSize index c
  else
    let n := 10 * n + digit c
    if maxPrecision < n then place.close .oversizedPrecision
    else (none, .precision { place with precision := some (.given n) } n)

end Place

/-- Reads a character of a key. Parentheses inside it are in pairs. -/
def readKey (opened : Nat) (name : List Char) (c : Char) : Mode :=
  if c = '(' then .key (opened + 1) (c :: name)
  else if c ≠ ')' then .key opened (c :: name)
  else if opened = 1 then .flags { key := .named name.reverse }
  else .key (opened - 1) (c :: name)

/-- Reads one character: the piece that it completes, and where the reading stands after it. -/
def Mode.read (index : Nat) (c : Char) : Mode → Option Piece × Mode
  | .text => if c = '%' then (none, .percent) else (some (.char c), .text)
  | .percent =>
    if c = '%' then (some (.char c), .text)
    else if c = '(' then (none, .key 1 [])
    else Place.readFlag {} index c
  | .key opened name => (none, readKey opened name c)
  | .flags place => place.readFlag index c
  | .width place n => place.readWidth n index c
  | .afterWidth place => place.readAfterWidth index c
  | .point place => place.readPoint index c
  | .precision place n => place.readPrecision n index c
  | .afterPrecision place => place.readSize index c
  | .letter place => place.readLetter index c

/-- The piece that the end of a template cuts off. -/
def Mode.cut? : Mode → Option Piece
  | .text => none
  | .percent => some (.place {} .cut)
  | .key _ _ => some (.place { key := .unclosed } .cut)
  | .flags place | .width place _ | .afterWidth place | .point place | .precision place _
  | .afterPrecision place | .letter place => some (.place place .cut)

def piecesFrom : Mode → Nat → List Char → List Piece
  | mode, _, [] => mode.cut?.toList
  | mode, index, c :: rest =>
    let (piece, mode) := mode.read index c
    piece.toList ++ piecesFrom mode (index + 1) rest

def pieces (template : List Char) : List Piece := piecesFrom .text 0 template

end Sqrl.Log.Template
