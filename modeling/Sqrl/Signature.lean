import Sqrl.Base64.Url
import Sqrl.Crypto.Ed25519

/-!
The check of an identity's signature. Key and signature arrive as text; whatever is wrong with them
makes the check fail with a cause, which is for the server's own log.
-/
namespace Sqrl.Signature

def keyLength : Nat := 32

def signatureLength : Nat := 64

inductive KeyFault where
  | base64 (fault : Base64.Url.Fault)
  | wrongLength (length : Nat)
  deriving DecidableEq, Repr

/-- The bytes of an identity key. Any 32 bytes are taken. -/
def loadKey (idk : String) : Except KeyFault Bytes :=
  match Base64.Url.decode idk with
  | .error fault => .error (.base64 fault)
  | .ok bytes => if bytes.length = keyLength then .ok bytes else .error (.wrongLength bytes.length)

inductive Fault where
  /-- The message is no byte string. -/
  | notBytes
  | missingKey
  | missingSignature
  | badKey (fault : KeyFault)
  | badEncoding (fault : Base64.Url.Fault)
  | wrongLength (length : Nat)
  | mismatch
  deriving DecidableEq, Repr

def given? (s : Option String) : Option String := s.filter fun s => s ≠ ""

def check (message : Option Bytes) (idk ids : Option String) : Except Fault Unit :=
  match message, given? idk, given? ids with
  | none, _, _ => .error .notBytes
  | _, none, _ => .error .missingKey
  | _, _, none => .error .missingSignature
  | some message, some idk, some ids =>
    match loadKey idk with
    | .error fault => .error (.badKey fault)
    | .ok key =>
      match Base64.Url.decode ids with
      | .error fault => .error (.badEncoding fault)
      | .ok signature =>
        if signature.length ≠ signatureLength then .error (.wrongLength signature.length)
        else if Ed25519.verify key message signature then .ok ()
        else .error .mismatch

def KeyFault.message : KeyFault → String
  | .base64 fault => fault.message
  | .wrongLength length => "identity key must be 32 bytes, got " ++ toString length

def Fault.message : Fault → String
  | .notBytes => "message must be bytes"
  | .missingKey => "missing identity key"
  | .missingSignature => "missing signature"
  | .badKey fault => "bad identity key: " ++ fault.message
  | .badEncoding fault => "bad signature encoding: " ++ fault.message
  | .wrongLength length => "signature must be 64 bytes, got " ++ toString length
  | .mismatch => "signature mismatch"

end Sqrl.Signature
