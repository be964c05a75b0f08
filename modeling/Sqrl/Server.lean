import Sqrl.Audit.Trail
import Sqrl.Entropy
import Sqrl.Flag
import Sqrl.Nut
import Sqrl.Response
import Sqrl.Settings
import Sqrl.Store.Accounts
import Sqrl.Store.Sessions

/-!
A server and its state. What a server does is a function of its settings, its key, its source of
random bytes and its state, in which the clock and the number of draws are kept as well. Any of the
operations that it relies on may be out of service.
-/
namespace Sqrl

inductive Operation where
  | findAccount
  | rotateAccount
  | registerAccount
  | disableAccount
  | enableAccount
  | removeAccount
  | openTransaction
  | consumeNut
  | linkNut
  | authenticateNut
  | readIdentity
  | prune
  | createNut
  | encodeNut
  | decodeNut
  | appendEvent
  | verifyTrail
  deriving DecidableEq, Repr

structure Server where
  settings : Settings
  key : Aes.Key
  entropy : Entropy

namespace Server

structure State where
  /-- What the clock reads. By convention the clock stands still during a call: whatever reads it there,
  the stores, a new nut or the time of an audit event, gets this one reading. A running server may read
  its clock several times in a call, and takes the time of an event from its system. -/
  now : Number
  /-- The number of the next draw of random bytes. -/
  draw : Nat
  accounts : Accounts
  sessions : Sessions
  trail : Option Audit.Trail
  /-- The operations that are out of service, and what they say. -/
  outages : Dictionary Operation String
  /-- What has been logged, first record first. -/
  records : List Log.Record

/-- Why an operation fails. Whatever is wrong with a request is answered, so none of these comes
from a client. -/
inductive Fault where
  | outOfService (message : String)
  | pack (fault : Nut.PackFault)
  | append (fault : Audit.Trail.AppendFault)
  | chain (fault : Audit.ChainFault)
  | noTrail
  /-- The settings have no link. -/
  | link (fault : Url.Fault)
  | write (fault : Response.WriteFault)
  deriving DecidableEq, Repr

/-- A computation that reads and changes the state and may fail; what it changed before it failed
stays changed. -/
abbrev Action (α : Type) := ExceptT Fault (StateM State) α

def Action.outcome {α : Type} (action : Action α) (s : State) : Except Fault α × State :=
  (ExceptT.run action).run s

def demand (op : Operation) : Action Unit := do
  match (← get).outages.get? op with
  | some message => throw (.outOfService message)
  | none => pure ()

def log (level : Log.Level) (source message : String) (extra : Option Json.Members) :
    Action Unit :=
  modify fun s => { s with records := s.records ++ [.ofText level source message extra] }

def now : Action Number := do return (← get).now

def drawBytes (server : Server) (size : Nat) : Action Bytes := do
  let draw := (← get).draw
  modify fun s => { s with draw := draw + 1 }
  return server.entropy.bytes draw size

end Server

end Sqrl
