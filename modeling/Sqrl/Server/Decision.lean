import Sqrl.Server

/-!
What a server decided and why, and the events in which it records that.
-/
namespace Sqrl.Server

inductive Decision where
  | issued
  | denied
  | transient
  | processed
  deriving DecidableEq, Repr

inductive Reason where
  | nutIssued
  | malformedRequest
  | invalidNut
  | versionMismatch
  | invalidSignature
  | nutExpired
  | nutReused
  | signatureValid
  deriving DecidableEq, Repr

def Decision.word : Decision → String
  | .issued => "issued"
  | .denied => "denied"
  | .transient => "transient"
  | .processed => "processed"

def Reason.word : Reason → String
  | .nutIssued => "nut_issued"
  | .malformedRequest => "malformed_request"
  | .invalidNut => "invalid_nut"
  | .versionMismatch => "version_mismatch"
  | .invalidSignature => "invalid_signature"
  | .nutExpired => "nut_expired"
  | .nutReused => "nut_reused"
  | .signatureValid => "signature_valid"

/-- The event of a decision. Its time is the one reading of the clock that the call has, where a running
server asks its system for the time. -/
def event (server : Server) (time : Number) (decision : Decision) (reason : Reason)
    (fields : List (String × Json)) : Audit.Event :=
  let all := [Audit.time time] ++ fields ++
    [("result", Json.text decision.word), ("reason", .text reason.word),
      ("v", .text server.settings.version)]
  Dictionary.ofEntries (all.map fun (name, value) => (CodePoint.ofString name, value))

def appendEvent (trail : Audit.Trail) (event : Audit.Event) : Action Unit := do
  demand .appendEvent
  let (result, trail) := trail.append event
  modify fun s => { s with trail := some trail }
  match result with
  | .ok _ => pure ()
  | .error fault => throw (.append fault)

def audit (server : Server) (decision : Decision) (reason : Reason)
    (fields : List (String × Json)) : Action Unit := do
  match (← get).trail with
  | none => pure ()
  | some trail => appendEvent trail (server.event (← now) decision reason fields)

def verifyTrail : Action Bool := do
  match (← get).trail with
  | none => throw .noTrail
  | some trail =>
    demand .verifyTrail
    match trail.verify with
    | .ok b => return b
    | .error fault => throw (.chain fault)

end Sqrl.Server
