import Sqrl.Server

/-!
The operations of a server on its accounts and its sessions.
-/
namespace Sqrl.Server

def changeAccounts {α : Type} (change : Accounts → α × Accounts) : Action α := do
  let (result, accounts) := change (← get).accounts
  modify fun s => { s with accounts := accounts }
  return result

def findAccount (key : String) : Action (Option Account) := do
  demand .findAccount
  return (← get).accounts.find? key

def rotateAccount (previous key : String) : Action Bool := do
  demand .rotateAccount
  changeAccounts fun accounts => accounts.rotate previous key

def registerAccount (key : String) (suk vuk : Option String) : Action Account := do
  demand .registerAccount
  changeAccounts fun accounts => accounts.register key suk vuk

def disableAccount (key : String) : Action Bool := do
  demand .disableAccount
  changeAccounts fun accounts => accounts.setEnabled key false

def enableAccount (key : String) : Action Bool := do
  demand .enableAccount
  changeAccounts fun accounts => accounts.setEnabled key true

def removeAccount (key : String) : Action Bool := do
  demand .removeAccount
  changeAccounts fun accounts => accounts.remove key

def changeSessions (change : Sessions → Sessions) : Action Unit :=
  modify fun s => { s with sessions := change s.sessions }

/-- Forgets what is stale at a time, or by now. -/
def prune (time : Option Number) : Action Nat := do
  demand .prune
  let (count, sessions) := (← get).sessions.prune (time.getD (← now))
  modify fun s => { s with sessions := sessions }
  return count

/-- Opens a transaction; stale ones are forgotten first. -/
def openTransaction (nut : String) (address : Option String) : Action Unit := do
  demand .openTransaction
  let _ ← prune none
  let time ← now
  changeSessions fun sessions => sessions.start nut address time

def consumeNut (nut : String) : Action Bool := do
  demand .consumeNut
  let (fresh, sessions) := (← get).sessions.consume nut (← now)
  modify fun s => { s with sessions := sessions }
  return fresh

/-- Links a nut to the transaction of another; stale ones are forgotten first. -/
def linkNut (old new : String) : Action Unit := do
  demand .linkNut
  let _ ← prune none
  let time ← now
  changeSessions fun sessions => sessions.link old new time

def shownNutLength : Nat := 12

def authenticateNut (nut identity : String) : Action Unit := do
  demand .authenticateNut
  let time ← now
  let root := (← get).sessions.root nut
  changeSessions fun sessions => sessions.authenticate nut identity time
  log .info "storage"
    ("nut authenticated (transaction " ++ Audit.shortened shownNutLength root ++ ")") none

def readIdentity (nut : String) : Action (Option String) := do
  demand .readIdentity
  return (← get).sessions.identity? nut

end Sqrl.Server
