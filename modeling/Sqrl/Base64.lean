import Sqrl.Bytes

/-!
Base64 groups: three bytes as four numbers below 64, and the strict scan of a padded text. The scan
takes an alphabet as a partial map from characters, so that it serves both alphabets in use.
-/
namespace Sqrl.Base64

/-- The numbers below 64 whose six bits, one after the other, are the bits of the bytes, filled up
with zeros. -/
def sextets : Bytes → List Nat
  | a :: b :: c :: rest =>
    a.toNat / 4 :: (a.toNat % 4 * 16 + b.toNat / 16) :: (b.toNat % 16 * 4 + c.toNat / 64) ::
      c.toNat % 64 :: sextets rest
  | [a, b] => [a.toNat / 4, a.toNat % 4 * 16 + b.toNat / 16, b.toNat % 16 * 4]
  | [a] => [a.toNat / 4, a.toNat % 4 * 16]
  | [] => []

/-- The whole bytes in the bits of numbers below 64. What does not fill a byte is dropped. -/
def ofSextets : List Nat → Bytes
  | a :: b :: c :: d :: rest =>
    UInt8.ofNat (a * 4 + b / 16) :: UInt8.ofNat (b % 16 * 16 + c / 4) ::
      UInt8.ofNat (c % 4 * 64 + d) :: ofSextets rest
  | [a, b, c] => [UInt8.ofNat (a * 4 + b / 16), UInt8.ofNat (b % 16 * 16 + c / 4)]
  | [a, b] => [UInt8.ofNat (a * 4 + b / 16)]
  | _ => []

def commonValue? (c : Char) : Option Nat :=
  if 'A' ≤ c ∧ c ≤ 'Z' then some (c.toNat - 65)
  else if 'a' ≤ c ∧ c ≤ 'z' then some (c.toNat - 71)
  else if '0' ≤ c ∧ c ≤ '9' then some (c.toNat + 4)
  else none

def standardValue? (c : Char) : Option Nat :=
  if c = '+' then some 62 else if c = '/' then some 63 else commonValue? c

inductive Fault where
  | leadingPadding
  | excessData
  | foreignCharacter
  | discontinuousPadding
  /-- A single character, here the last of `count`, holds no whole byte. -/
  | danglingCharacter (count : Nat)
  | incorrectPadding
  deriving DecidableEq, Repr

/-- Reads on after `count` characters of data, the last `pads` of them padding that counts towards
the group; `padded` tells whether padding has been seen. Padding before the third character of a
group is skipped, and the scan ends where padding completes a group. -/
def scan (value? : Char → Option Nat) (count pads : Nat) (padded : Bool) :
    List Char → Except Fault (List Nat)
  | [] =>
    if count % 4 = 0 then .ok []
    else if count % 4 = 1 then .error (.danglingCharacter count)
    else .error .incorrectPadding
  | c :: rest =>
    if c = '=' then
      if count % 4 < 2 then scan value? count pads true rest
      else if count % 4 + (pads + 1) < 4 then scan value? count (pads + 1) true rest
      else if rest.isEmpty then .ok []
      else .error .excessData
    else
      match value? c with
      | none => .error .foreignCharacter
      | some v =>
        if padded then .error .discontinuousPadding
        else (v :: ·) <$> scan value? (count + 1) 0 padded rest

def read (value? : Char → Option Nat) (s : List Char) : Except Fault (List Nat) :=
  if s.head? = some '=' then .error .leadingPadding else scan value? 0 0 false s

def Fault.message : Fault → String
  | .leadingPadding => "Leading padding not allowed"
  | .excessData => "Excess data after padding"
  | .foreignCharacter => "Only base64 data is allowed"
  | .discontinuousPadding => "Discontinuous padding not allowed"
  | .danglingCharacter count =>
    "Invalid base64-encoded string: number of data characters (" ++ toString count ++
      ") cannot be 1 more than a multiple of 4"
  | .incorrectPadding => "Incorrect padding"

end Sqrl.Base64
