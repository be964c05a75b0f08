/-!
Byte strings, their big-endian and little-endian numbers and their hexadecimal text.
-/
namespace Sqrl

abbrev Bytes := List UInt8

namespace Bytes

def hexDigit (n : Nat) : Char :=
  if n < 10 then Char.ofNat (48 + n) else Char.ofNat (87 + n)

def hexValue? (c : Char) : Option Nat :=
  if '0' ≤ c ∧ c ≤ '9' then some (c.toNat - 48)
  else if 'a' ≤ c ∧ c ≤ 'f' then some (c.toNat - 87)
  else if 'A' ≤ c ∧ c ≤ 'F' then some (c.toNat - 55)
  else none

def hex : Bytes → List Char
  | [] => []
  | b :: rest => hexDigit (b.toNat / 16) :: hexDigit (b.toNat % 16) :: hex rest

def toHex (b : Bytes) : String := String.ofList (hex b)

/-- Reads pairs of hexadecimal digits; blanks of ASCII may stand before a pair and at the end. -/
def readHex? : List Char → Option Bytes
  | [] => some []
  | c :: rest =>
    if c = ' ' ∨ ('\t' ≤ c ∧ c ≤ '\r') then readHex? rest
    else
      match hexValue? c, rest with
      | some high, d :: rest =>
        match hexValue? d with
        | some low => (UInt8.ofNat (16 * high + low) :: ·) <$> readHex? rest
        | none => none
      | _, _ => none

/-- The last `width` base-256 digits of `n`, the most significant first. -/
def bigEndian : (width : Nat) → (n : Nat) → Bytes
  | 0, _ => []
  | width + 1, n => UInt8.ofNat (n / Nat.pow 256 width) :: bigEndian width n

def ofBigEndian (b : Bytes) : Nat := b.foldl (fun n byte => 256 * n + byte.toNat) 0

def littleEndian : (width : Nat) → (n : Nat) → Bytes
  | 0, _ => []
  | width + 1, n => UInt8.ofNat n :: littleEndian width (n / 256)

def ofLittleEndian : Bytes → Nat
  | [] => 0
  | byte :: rest => byte.toNat + 256 * ofLittleEndian rest

/-- Exclusive or, byte by byte, as long as both last. -/
def xor (a b : Bytes) : Bytes := List.zipWith (· ^^^ ·) a b

@[simp] theorem length_hex (b : Bytes) : (hex b).length = 2 * b.length := by
  induction b with
  | nil => rfl
  | cons b rest ih => simp [hex, ih]; omega

@[simp] theorem length_bigEndian (width n : Nat) : (bigEndian width n).length = width := by
  induction width with
  | zero => rfl
  | succ width ih => simp [bigEndian, ih]

@[simp] theorem length_littleEndian (width n : Nat) : (littleEndian width n).length = width := by
  induction width generalizing n with
  | zero => rfl
  | succ width ih => simp [littleEndian, ih]

@[simp] theorem length_xor (a b : Bytes) : (xor a b).length = min a.length b.length := by
  simp [xor]

end Bytes

end Sqrl
