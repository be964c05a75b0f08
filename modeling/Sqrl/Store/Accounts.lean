import Std.Data.ExtTreeMap

/-!
The account store. Every account stands under its own identity key; an operation that is refused
leaves the store as it was.
-/
namespace Sqrl

structure Account where
  identityKey : String
  /-- The keys that the client gave to unlock the identity. -/
  serverUnlockKey : Option String
  verifyUnlockKey : Option String
  enabled : Bool
  deriving DecidableEq, Repr

abbrev Accounts := Std.ExtTreeMap String Account

namespace Accounts

def find? (accounts : Accounts) (key : String) : Option Account := accounts[key]?

/-- Moves the account of one key to another. It is refused if there is no such account or the other
key has one. -/
def rotate (accounts : Accounts) (previous key : String) : Bool × Accounts :=
  match accounts.find? previous with
  | none => (false, accounts)
  | some account =>
    if key ∈ accounts then (false, accounts)
    else (true, (accounts.erase previous).insert key { account with identityKey := key })

/-- The account of a key, made anew with the given unlock keys if there is none. -/
def register (accounts : Accounts) (key : String) (suk vuk : Option String) : Account × Accounts :=
  match accounts.find? key with
  | some account => (account, accounts)
  | none =>
    let account : Account := ⟨key, suk, vuk, true⟩
    (account, accounts.insert key account)

def setEnabled (accounts : Accounts) (key : String) (enabled : Bool) : Bool × Accounts :=
  match accounts.find? key with
  | none => (false, accounts)
  | some account => (true, accounts.insert key { account with enabled := enabled })

def remove (accounts : Accounts) (key : String) : Bool × Accounts :=
  if key ∈ accounts then (true, accounts.erase key) else (false, accounts)

end Accounts

end Sqrl
