import Sqrl.Address
import Sqrl.Base64.Url
import Sqrl.Crypto.Gcm
import Sqrl.Number

/-!
Nuts: what a server hands out for one transaction. On the wire a nut is the base64url text of a
nonce and of a sealed record of its time, the fingerprint of its address, random bytes and flags, so
that only the server that made it can read it or make another.
-/
namespace Sqrl

structure Nut where
  /-- The second of its creation. -/
  created : Int
  /-- The fingerprint of the address it was made for. -/
  ipHash : Bytes
  /-- Was it made to be shown as a code to another device? -/
  qr : Bool
  entropy : Bytes
  deriving DecidableEq, Repr

namespace Nut

def entropyLength : Nat := 7

def nonceLength : Nat := 12

def recordLength : Nat := 16

def create (now : Number) (address : Option String) (qr : Bool) (entropy : Bytes) : Nut :=
  ⟨now.truncate, Address.fingerprint address, qr, entropy⟩

/-- Why a nut has no record. -/
inductive PackFault where
  /-- The fingerprint or the random part has the wrong length. -/
  | wrongLength
  /-- The time does not fit 32 bits, but fits 64. -/
  | tooLate
  /-- The time is negative or does not fit 64 bits. -/
  | outOfRange
  deriving DecidableEq, Repr

/-- Time, fingerprint, random part and flags. -/
def record (nut : Nut) : Except PackFault Bytes :=
  if nut.ipHash.length ≠ 4 ∨ nut.entropy.length ≠ entropyLength then .error .wrongLength
  else if nut.created < 0 ∨ 0x10000000000000000 ≤ nut.created then .error .outOfRange
  else if 0x100000000 ≤ nut.created then .error .tooLate
  else
    .ok (Bytes.bigEndian 4 nut.created.toNat ++ nut.ipHash ++ nut.entropy ++
      [if nut.qr then 1 else 0])

/-- The nut of a record. Of the flags only the lowest one counts. -/
def ofRecord (record : Bytes) : Nut where
  created := Bytes.ofBigEndian (record.take 4)
  ipHash := (record.drop 4).take 4
  qr := (record.drop 15).head?.any fun flags => flags.toNat % 2 = 1
  entropy := (record.drop 8).take entropyLength

def sealRecord (key : Aes.Key) (iv record : Bytes) : String :=
  Base64.Url.encode (iv ++ Gcm.encrypt key iv record)

def encode (key : Aes.Key) (iv : Bytes) (nut : Nut) : Except PackFault String :=
  nut.record.map (sealRecord key iv)

/-- Why a text is no nut of the server. All of them are one kind of error, that of an invalid nut, which
is a value error. -/
inductive Rejection where
  /-- The base64 is wrong, for whichever reason. -/
  | notBase64
  | wrongLength
  /-- The tag is wrong, as it is under another key. -/
  | notAuthentic
  deriving DecidableEq, Repr

def decode (key : Aes.Key) (text : String) : Except Rejection Nut :=
  match Base64.Url.decode text with
  | .error _ => .error .notBase64
  | .ok blob =>
    if blob.length ≠ nonceLength + recordLength + 16 then .error .wrongLength
    else
      match Gcm.decrypt? key (blob.take nonceLength) (blob.drop nonceLength) with
      | none => .error .notAuthentic
      | some record => .ok (ofRecord record)

def age (nut : Nut) (now : Number) : Number := now.sub (.int nut.created)

def sameAddress (a b : Nut) : Bool := a.ipHash == b.ipHash

inductive KeyFault where
  | notAscii
  | base64 (fault : Base64.Fault)
  | wrongLength
  deriving DecidableEq, Repr

/-- The key of a text in the standard alphabet of base64. -/
def loadKey (text : String) : Except KeyFault Aes.Key :=
  let s := Text.strip text.toList
  if s.any Base64.Url.isForeign then .error .notAscii
  else
    match Base64.read Base64.standardValue? s with
    | .error fault => .error (.base64 fault)
    | .ok sextets =>
      match Aes.Key.ofBytes? (Base64.ofSextets sextets) with
      | none => .error .wrongLength
      | some key => .ok key

def PackFault.message : PackFault → String
  | .wrongLength => "nut ip_hash/entropy have the wrong length"
  | .tooLate => "'I' format requires 0 <= number <= 4294967295"
  | .outOfRange => "argument out of range"

def Rejection.message : Rejection → String
  | .notBase64 => "nut is not base64url"
  | .wrongLength => "nut has the wrong length"
  | .notAuthentic => "nut failed authentication"

def KeyFault.message : KeyFault → String
  | .notAscii => "string argument should contain only ASCII characters"
  | .base64 fault => fault.message
  | .wrongLength => "nut key must be 16, 24 or 32 bytes (base64 encoded)"

def badKeyMessage : String := "AESGCM key must be 128, 192, or 256 bits."

end Nut

end Sqrl
