import Sqrl.Json

/-!
The text of JSON values. Data that is hashed is written sorted, without blanks and with characters
outside ASCII as they are; what is sent and logged is written in ASCII.
-/
namespace Sqrl.Json

/-- What may differ between two ways to write a value. -/
structure Style where
  comma : String
  colon : String
  /-- Is what is outside printable ASCII escaped? -/
  ascii : Bool

/-- The form that is hashed and stored, once sorted. -/
def Style.compact : Style := ⟨",", ":", false⟩

def Style.compactAscii : Style := ⟨",", ":", true⟩

def Style.spacedAscii : Style := ⟨", ", ": ", true⟩

def escapeUnit (n : Nat) : List Char := '\\' :: 'u' :: Bytes.hex (Bytes.bigEndian 2 n)

/-- A code point inside quotes. Outside the basic plane the escape is a pair of surrogates. -/
def writePoint (style : Style) (p : CodePoint) : List CodePoint :=
  let n := p.val
  let short (c : Char) : List CodePoint := CodePoint.ofChars ['\\', c]
  if n = 0x22 then short '"'
  else if n = 0x5C then short '\\'
  else if n = 0x0A then short 'n'
  else if n = 0x0D then short 'r'
  else if n = 0x09 then short 't'
  else if n = 0x0C then short 'f'
  else if n = 0x08 then short 'b'
  else if n < 0x20 then CodePoint.ofChars (escapeUnit n)
  else if style.ascii && 0x7F ≤ n then
    if n < 0x10000 then CodePoint.ofChars (escapeUnit n)
    else
      let m := n - 0x10000
      CodePoint.ofChars (escapeUnit (0xD800 + m / 0x400) ++ escapeUnit (0xDC00 + m % 0x400))
  else [p]

def writeString (style : Style) (s : List CodePoint) : List CodePoint :=
  CodePoint.ofChar '"' :: (s.flatMap (writePoint style) ++ [CodePoint.ofChar '"'])

mutual

def write (style : Style) : Json → List CodePoint
  | .null => CodePoint.ofString "null"
  | .bool true => CodePoint.ofString "true"
  | .bool false => CodePoint.ofString "false"
  | .number n => CodePoint.ofChars (n.text Binary64.dataWords)
  | .string s => writeString style s
  | .array [] => CodePoint.ofString "[]"
  | .array (v :: rest) =>
    CodePoint.ofChar '[' :: (write style v ++ writeItems style rest)
  | .object [] => CodePoint.ofChars ['\x7b', '\x7d']
  | .object ((k, v) :: rest) =>
    CodePoint.ofChar '\x7b' :: (writeString style k ++ CodePoint.ofString style.colon ++
      write style v ++ writeMembers style rest)

def writeItems (style : Style) : List Json → List CodePoint
  | [] => [CodePoint.ofChar ']']
  | v :: rest => CodePoint.ofString style.comma ++ write style v ++ writeItems style rest

def writeMembers (style : Style) : List (List CodePoint × Json) → List CodePoint
  | [] => [CodePoint.ofChar '\x7d']
  | (k, v) :: rest =>
    CodePoint.ofString style.comma ++ writeString style k ++ CodePoint.ofString style.colon ++
      write style v ++ writeMembers style rest

end

inductive CanonicalFault where
  | oversizedInteger
  /-- Too many arrays and objects are open when one more begins. -/
  | tooDeep
  /-- A string holds surrogates; positions count the code points of the canonical text. -/
  | surrogates (fault : CodePoint.Fault)
  deriving DecidableEq, Repr

mutual

/-- What first stops a value from being written when `depth` arrays and objects may be open at
once. -/
def obstacle? (depth : Nat) : Json → Option CanonicalFault
  | .number (.int n) =>
    if Number.maxDigits < (Nat.toDigits 10 n.natAbs).length then some .oversizedInteger else none
  | .array items =>
    match depth with
    | 0 => some .tooDeep
    | depth + 1 => itemsObstacle? depth items
  | .object members =>
    match depth with
    | 0 => some .tooDeep
    | depth + 1 => membersObstacle? depth members
  | _ => none

def itemsObstacle? (depth : Nat) : List Json → Option CanonicalFault
  | [] => none
  | v :: rest => (obstacle? depth v).or (itemsObstacle? depth rest)

def membersObstacle? (depth : Nat) : List (List CodePoint × Json) → Option CanonicalFault
  | [] => none
  | (_, v) :: rest => (obstacle? depth v).or (membersObstacle? depth rest)

end

/-- The canonical text: keys sorted at every level and no blanks. -/
def canonicalText (v : Json) : List CodePoint := write .compact (sorted v)

/-- The canonical bytes, the UTF-8 form of the canonical text, of a value that opens at most `depth`
arrays and objects at once. -/
def canonicalWithin (depth : Nat) (v : Json) : Except CanonicalFault Bytes :=
  match (sorted v).obstacle? depth with
  | some fault => .error fault
  | none => (CodePoint.encode (canonicalText v)).mapError .surrogates

def canonical (v : Json) : Except CanonicalFault Bytes := canonicalWithin maxDepth v

def CanonicalFault.message : CanonicalFault → String
  | .oversizedInteger => Number.unwritableMessage
  | .tooDeep => "maximum recursion depth exceeded while encoding a JSON object"
  | .surrogates fault => fault.message

def toAscii (style : Style) (v : Json) : String := CodePoint.toString (write style v)

end Sqrl.Json
