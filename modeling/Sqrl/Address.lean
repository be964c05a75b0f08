import Sqrl.Crypto.Sha256
import Sqrl.Text.Blank
import Sqrl.Text.Split
import Sqrl.Text.Utf8

/-!
Network addresses. A text denotes at most one address; the text written for an address is its normal
form, and what is compared between requests is a fingerprint of that form.
-/
namespace Sqrl

/-- An address of four octets, or of eight groups of sixteen bits with an optional scope. -/
inductive Address where
  | v4 (octets : Vector UInt8 4)
  | v6 (groups : Vector UInt16 8) (scope : Option (List Char))
  deriving DecidableEq

namespace Address

def ofLength? {α : Type} (n : Nat) (l : List α) : Option (Vector α n) :=
  if h : l.length = n then some ⟨l.toArray, h⟩ else none

/-- A decimal number of at most three digits and at most 255, without a leading zero. -/
def octet? (s : List Char) : Option UInt8 :=
  if s = [] ∨ 3 < s.length ∨ !s.all (fun c => '0' ≤ c ∧ c ≤ '9') then none
  else if s.head? = some '0' ∧ s.length ≠ 1 then none
  else
    let n := Nat.ofDigitChars 10 s 0
    if n ≤ 255 then some (UInt8.ofNat n) else none

def parseV4? (s : List Char) : Option (Vector UInt8 4) := do
  ofLength? 4 (← (Text.splitOn '.' s).mapM octet?)

def group? (s : List Char) : Option UInt16 :=
  if s = [] ∨ 4 < s.length then none
  else do
    let digits ← s.mapM Bytes.hexValue?
    return UInt16.ofNat (digits.foldl (fun n d => 16 * n + d) 0)

def groupsOfOctets : List UInt8 → List UInt16
  | a :: b :: rest => (a.toUInt16 * 256 + b.toUInt16) :: groupsOfOctets rest
  | _ => []

/-- Groups between colons, none in an empty text. The last one may be four octets in place of two
groups, if `dotted` allows it. -/
def groups? (dotted : Bool) (s : List Char) : Option (List UInt16) :=
  if s = [] then some []
  else
    let pieces := Text.splitOn ':' s
    match dotted, pieces.getLast?.bind parseV4? with
    | true, some octets => do
      let groups ← pieces.dropLast.mapM group?
      return groups ++ groupsOfOctets octets.toList
    | _, _ => pieces.mapM group?

def cutGap? : List Char → Option (List Char × List Char)
  | ':' :: ':' :: rest => some ([], rest)
  | [] => none
  | c :: rest => (cutGap? rest).map fun (before, after) => (c :: before, after)

/-- Eight groups between colons, or fewer with one gap, written `::`, for at least one zero. -/
def parseV6? (s : List Char) : Option (Vector UInt16 8) :=
  match cutGap? s with
  | none => do ofLength? 8 (← groups? true s)
  | some (before, after) => do
    let high ← groups? false before
    let low ← groups? true after
    if high.length + low.length < 8 then
      ofLength? 8 (high ++ List.replicate (8 - (high.length + low.length)) 0 ++ low)
    else none

/-- Eight groups with what follows the first `%` as scope: at least one character, and no second
`%`. -/
def parseScoped? (s : List Char) : Option Address :=
  match Text.cut? '%' s with
  | none => (parseV6? s).map fun groups => .v6 groups none
  | some (address, scope) =>
    if scope = [] ∨ '%' ∈ scope then none
    else (parseV6? address).map fun groups => .v6 groups (some scope)

def parse? (s : List Char) : Option Address :=
  match parseV4? s with
  | some octets => some (.v4 octets)
  | none => if '/' ∈ s then none else parseScoped? s

/-- Where the first longest run of zeros starts, and how long it is. -/
def longestZeros : List UInt16 → Nat × Nat
  | [] => (0, 0)
  | g :: rest =>
    let here := ((g :: rest).takeWhile (· = 0)).length
    let (start, length) := longestZeros rest
    if length ≤ here then (0, here) else (start + 1, length)

def groupsText (groups : List UInt16) : List Char :=
  Text.join [':'] (groups.map fun g => Nat.toDigits 16 g.toNat)

/-- The normal form of an address. A run of at least two zero groups becomes a gap. -/
def text : Address → List Char
  | .v4 octets => Text.join ['.'] (octets.toList.map fun o => Nat.toDigits 10 o.toNat)
  | .v6 groups scope =>
    let groups := groups.toList
    let (start, length) := longestZeros groups
    let digits :=
      if length < 2 then groupsText groups
      else groupsText (groups.take start) ++ [':', ':'] ++ groupsText (groups.drop (start + length))
    match scope with
    | none => digits
    | some scope => digits ++ '%' :: scope

/-- The normal form of the address that a text denotes, blanks at its ends apart. A text that denotes
none is kept as it is. -/
def normalize (s : List Char) : List Char :=
  let s := Text.strip s
  match parse? s with
  | some address => address.text
  | none => s

/-- The first four bytes of the hash of the normal form. No address counts as the empty text. -/
def fingerprint (address : Option String) : Bytes :=
  (sha256 (Utf8.encode (normalize (address.getD "").toList))).take 4

@[simp] theorem length_fingerprint (address : Option String) : (fingerprint address).length = 4 := by
  simp [fingerprint]

end Address

end Sqrl
