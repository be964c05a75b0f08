import Sqrl.Number
import Std.Data.ExtTreeMap
import Std.Data.ExtTreeSet

/-!
The session store. A transaction stands under the nut that opened it, its root; every later nut is
linked to the root, so that whoever watches the root sees a login under any of them. Each nut is
consumed once, and consumed nuts are remembered as long as transactions are kept.
-/
namespace Sqrl

structure Transaction where
  nut : String
  /-- The address it was opened for, if this server opened it. -/
  address : Option String
  issuedAt : Number
  identity : Option String
  authenticatedAt : Option Number
  linked : Std.ExtTreeSet String

structure Sessions where
  ttl : Number
  transactions : Std.ExtTreeMap String Transaction
  /-- The root of each later nut. -/
  links : Std.ExtTreeMap String String
  /-- When each nut was consumed. -/
  used : Std.ExtTreeMap String Number

namespace Sessions

def empty (ttl : Number) : Sessions := ⟨ttl, ∅, ∅, ∅⟩

def fresh (nut : String) (address : Option String) (now : Number) : Transaction :=
  ⟨nut, address, now, none, none, ∅⟩

def root (s : Sessions) (nut : String) : String := (s.links[nut]?).getD nut

/-- Is a time further back than things are kept? -/
def isStale (s : Sessions) (now time : Number) : Bool := s.ttl.lt (now.sub time)

def stale (s : Sessions) (now : Number) : Std.ExtTreeMap String Transaction :=
  s.transactions.filter fun _ t => s.isStale now t.issuedAt

/-- Forgets stale transactions with their links, and nuts consumed as long ago. Tells how many
transactions were forgotten. -/
def prune (s : Sessions) (now : Number) : Nat × Sessions :=
  let stale := s.stale now
  let forgotten := stale.toList.map fun e => e.2.linked
  (stale.size,
    { s with
      transactions := s.transactions.filter fun _ t => !s.isStale now t.issuedAt
      links := s.links.filter fun nut _ => !forgotten.any fun linked => linked.contains nut
      used := s.used.filter fun _ time => !s.isStale now time })

/-- The transaction of a nut, opened under its root if it is not there. -/
def find (s : Sessions) (nut : String) (now : Number) : Transaction :=
  (s.transactions[s.root nut]?).getD (fresh (s.root nut) none now)

def start (s : Sessions) (nut : String) (address : Option String) (now : Number) : Sessions :=
  { s with transactions := s.transactions.insert nut (fresh nut address now) }

/-- Consumes a nut. It is refused if the nut is remembered as consumed. -/
def consume (s : Sessions) (nut : String) (now : Number) : Bool × Sessions :=
  if nut ∈ s.used then (false, s) else (true, { s with used := s.used.insert nut now })

def link (s : Sessions) (old new : String) (now : Number) : Sessions :=
  let root := s.root old
  let t := s.find old now
  { s with
    transactions := s.transactions.insert root { t with linked := t.linked.insert new }
    links := s.links.insert new root }

def authenticate (s : Sessions) (nut identity : String) (now : Number) : Sessions :=
  let t := s.find nut now
  { s with
    transactions := s.transactions.insert (s.root nut)
      { t with identity := some identity, authenticatedAt := some now } }

def identity? (s : Sessions) (nut : String) : Option String :=
  (s.transactions[s.root nut]?).bind fun t => t.identity

end Sessions

end Sqrl
