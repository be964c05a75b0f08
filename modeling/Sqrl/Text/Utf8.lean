import Sqrl.Bytes

/-!
UTF-8. A byte string is read as a list of pieces: characters, and ill-formed runs with the reason
for which each is refused. A run is the longest beginning of a character that could still have been
completed, so every byte string has exactly one reading.
-/
namespace Sqrl.Utf8

/-- The bytes of a character: one below U+0080, then two, three and four. -/
def encodeChar (c : Char) : Bytes :=
  let n := c.toNat
  if n < 0x80 then [UInt8.ofNat n]
  else if n < 0x800 then [UInt8.ofNat (0xC0 + n / 64), UInt8.ofNat (0x80 + n % 64)]
  else if n < 0x10000 then
    [UInt8.ofNat (0xE0 + n / 4096), UInt8.ofNat (0x80 + n / 64 % 64), UInt8.ofNat (0x80 + n % 64)]
  else
    [UInt8.ofNat (0xF0 + n / 262144), UInt8.ofNat (0x80 + n / 4096 % 64),
      UInt8.ofNat (0x80 + n / 64 % 64), UInt8.ofNat (0x80 + n % 64)]

def encode (s : List Char) : Bytes := s.flatMap encodeChar

inductive Reason where
  | invalidStart
  | invalidContinuation
  | unexpectedEnd
  deriving DecidableEq, Repr

inductive Piece where
  | char (c : Char)
  | illFormed (bytes : Bytes) (reason : Reason)
  deriving DecidableEq, Repr

/-- What the first byte of a character announces: how many bytes follow, the range of the next one
and the leading bits of the code point. -/
structure Lead where
  follow : Nat
  low : Nat
  high : Nat
  bits : Nat

/-- Overlong forms, surrogates and numbers above U+10FFFF are excluded by the range of the second
byte, or by the first. -/
def lead? (n : Nat) : Option Lead :=
  if n < 0xC2 then none
  else if n < 0xE0 then some ⟨1, 0x80, 0xBF, n - 0xC0⟩
  else if n = 0xE0 then some ⟨2, 0xA0, 0xBF, 0⟩
  else if n = 0xED then some ⟨2, 0x80, 0x9F, 13⟩
  else if n < 0xF0 then some ⟨2, 0x80, 0xBF, n - 0xE0⟩
  else if n = 0xF0 then some ⟨3, 0x90, 0xBF, 0⟩
  else if n < 0xF4 then some ⟨3, 0x80, 0xBF, n - 0xF0⟩
  else if n = 0xF4 then some ⟨3, 0x80, 0x8F, 4⟩
  else none

abbrev Pending := Option (Bytes × Lead)

def start (b : UInt8) : List Piece × Pending :=
  if b.toNat < 0x80 then ([.char (Char.ofNat b.toNat)], none)
  else
    match lead? b.toNat with
    | some lead => ([], some ([b], lead))
    | none => ([.illFormed [b] .invalidStart], none)

/-- The next byte: a character goes on, is complete, or is broken off and another is begun. -/
def step : Pending → UInt8 → List Piece × Pending
  | none, b => start b
  | some (run, lead), b =>
    if lead.low ≤ b.toNat ∧ b.toNat ≤ lead.high then
      let bits := 64 * lead.bits + (b.toNat - 0x80)
      if lead.follow = 1 then ([.char (Char.ofNat bits)], none)
      else ([], some (b :: run, ⟨lead.follow - 1, 0x80, 0xBF, bits⟩))
    else
      let (pieces, pending) := start b
      (.illFormed run.reverse .invalidContinuation :: pieces, pending)

def readFrom : Pending → Bytes → List Piece
  | none, [] => []
  | some (run, _), [] => [.illFormed run.reverse .unexpectedEnd]
  | pending, b :: rest => (step pending b).1 ++ readFrom (step pending b).2 rest

def pieces (b : Bytes) : List Piece := readFrom none b

structure Fault where
  start : Nat
  bytes : Bytes
  reason : Reason
  deriving DecidableEq, Repr

def collect (position : Nat) : List Piece → Except Fault (List Char)
  | [] => .ok []
  | .char c :: rest => (c :: ·) <$> collect (position + (encodeChar c).length) rest
  | .illFormed bytes reason :: _ => .error ⟨position, bytes, reason⟩

def decode (b : Bytes) : Except Fault (List Char) := collect 0 (pieces b)

def soundLength (b : Bytes) : Nat :=
  match decode b with
  | .ok _ => b.length
  | .error fault => fault.start

/-- Do two bytes begin the form that a surrogate would have? -/
def beginsSurrogate (b : Bytes) : Bool :=
  match b with
  | first :: second :: _ => first = 0xED && 0xA0 ≤ second && second ≤ 0xBF
  | _ => false

/-- How many bytes stand before the one at which a fault is noticed when bytes come in one by one. What
the end of the bytes breaks off is noticed only there, and a surrogate at its last byte. -/
def Fault.noticedAt (f : Fault) (b : Bytes) : Nat :=
  match f.reason with
  | .invalidStart => f.start
  | .invalidContinuation =>
    if beginsSurrogate (b.drop f.start) then f.start + 2 else f.start + f.bytes.length
  | .unexpectedEnd => b.length

def decodeReplacing (b : Bytes) : List Char :=
  (pieces b).map fun
    | .char c => c
    | .illFormed _ _ => '\uFFFD'

def decodeEscaping (b : Bytes) : List Char :=
  (pieces b).flatMap fun
    | .char c => [c]
    | .illFormed bytes _ => bytes.flatMap fun byte => '\\' :: 'x' :: Bytes.hex [byte]

def Reason.message : Reason → String
  | .invalidStart => "invalid start byte"
  | .invalidContinuation => "invalid continuation byte"
  | .unexpectedEnd => "unexpected end of data"

/-- A run of one byte is named with its value, a longer one by its positions. -/
def Fault.message (f : Fault) : String :=
  match f.bytes with
  | [byte] =>
    "'utf-8' codec can't decode byte 0x" ++ Bytes.toHex [byte] ++ " in position " ++
      toString f.start ++ ": " ++ f.reason.message
  | bytes =>
    "'utf-8' codec can't decode bytes in position " ++ toString f.start ++ "-" ++
      toString (f.start + bytes.length - 1) ++ ": " ++ f.reason.message

end Sqrl.Utf8
