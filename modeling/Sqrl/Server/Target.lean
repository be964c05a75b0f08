import Sqrl.Form
import Sqrl.Url

/-!
What a client asks a server for: a path and a query, taken from the text of a reference. A reference
without scheme and host is relative to the root of the server. Dots in a path are resolved and its
fragment is dropped before its escapes are replaced, first by the client and then by the server.
-/
namespace Sqrl.Server

/-- A path, its escapes replaced, and a query as it is written. -/
structure Target where
  path : List Char
  query : List Char
  deriving DecidableEq, Repr

namespace Target

inductive Fault where
  | tooLong
  /-- A part of the reference has too many characters when it is escaped. -/
  | oversizedPart (name : String)
  | unprintable (c : Char) (position : Nat)
  | notAddress (family : Nat) (host : List Char)
  | notPort (text : List Char)
  /-- A path without a host begins like a host. -/
  | doubleSlash
  /-- A path without a scheme begins like one. -/
  | leadingColon
  /-- A server is reached by other schemes than this. -/
  | foreignScheme (scheme : List Char)
  deriving DecidableEq, Repr

def maxLength : Nat := 65536

def unprintable? (s : List Char) : Option (Char × Nat) :=
  let before := s.takeWhile fun c => 0x20 ≤ c.toNat && c.toNat ≠ 0x7F
  (s[before.length]?).map fun c => (c, before.length)

/-- A scheme, which may be the empty text before a colon, and what follows it. -/
def cutScheme : List Char → List Char × List Char
  | ':' :: rest => ([], rest)
  | s => Url.cutScheme s

structure Authority where
  user : List Char
  host : List Char
  port : List Char

/-- The parts of the text of an authority. Brackets enclose a host as far as they reach. -/
def Authority.ofText (s : List Char) : Authority :=
  let (user, s) := (Text.cut? '@' s).getD ([], s)
  let (host, rest) :=
    match s.head?, Text.cutLast? ']' s with
    | some '[', some (before, after) => (before ++ [']'], after)
    | _, _ => s.span fun c => c ≠ ':' && c ≠ '@'
  ⟨user, host, if rest.head? = some ':' then rest.drop 1 else rest⟩

def isGrouped (s : List Char) : Bool :=
  (Text.splitOn '_' s).all fun group => group ≠ [] && group.all Char.isDigit

def isWhole (s : List Char) : Bool :=
  match Text.strip s with
  | '+' :: digits | '-' :: digits => isGrouped digits
  | digits => isGrouped digits

def isDotted (host : List Char) : Bool :=
  let groups := Text.splitOn '.' host
  groups.length = 4 && groups.all fun group => group ≠ [] && group.all Char.isDigit

def Authority.check (a : Authority) : Except Fault Unit :=
  let inBrackets := a.host.head? = some '['
  if isDotted a.host ∧ (Address.parseV4? a.host).isNone then .error (.notAddress 4 a.host)
  else if inBrackets ∧ (Address.parseScoped? (a.host.drop 1).dropLast).isNone then
    .error (.notAddress 6 a.host)
  else if a.port ≠ [] ∧ !isWhole a.port then .error (.notPort a.port)
  else .ok ()

def Authority.isPresent (a : Authority) : Bool := a.user ≠ [] || a.host ≠ [] || a.port ≠ []

/-- The segments of a path without those that stand for the same place or for the one above, last one
first. `before` holds the segments so far. -/
def resolveDots (before : List (List Char)) : List (List Char) → List (List Char)
  | [] => before
  | ['.'] :: rest => resolveDots before rest
  | ['.', '.'] :: rest => resolveDots (if before = [[]] then before else before.drop 1) rest
  | segment :: rest => resolveDots (segment :: before) rest

def collapse (path : List Char) : List Char :=
  Text.join ['/'] (resolveDots [] (Text.splitOn '/' path)).reverse

/-- The path with its escapes replaced twice; an empty one is that of the root. -/
def decodePath (path : List Char) : List Char :=
  Form.unescape (Form.unescape (if path = [] then ['/'] else path))

def onServer (path query : List Char) : Target := ⟨decodePath (collapse path), query⟩

def ofPathText (s : List Char) : Target :=
  let (path, query) := Url.split '?' (Text.before '#' s)
  onServer path query

/-- How many characters a text has when all but ASCII and the given characters of it are escaped. -/
def escapedLength (reserved : List Char) (s : List Char) : Nat :=
  s.foldl (fun n c =>
    n + if c.toNat < 0x80 && c ∉ reserved then 1 else 3 * (Utf8.encodeChar c).length) 0

def reservedInQuery : List Char := [' ', '"', '#', '<', '>']

def reservedInPath : List Char := reservedInQuery ++ ['?', '\x60', '\x7b', '\x7d']

def relative (path query : List Char) : Except Fault Target :=
  let path := '/' :: path.dropWhile (· = '/')
  if maxLength < escapedLength reservedInPath path then .error (.oversizedPart "path")
  else if maxLength < escapedLength reservedInQuery query then .error (.oversizedPart "query")
  else .ok (onServer path query)

def schemes : List String := ["http", "https"]

def ofText (s : List Char) : Except Fault Target := do
  if maxLength < s.length then throw .tooLong
  if let some (c, position) := unprintable? s then throw (.unprintable c position)
  let (scheme, rest) := cutScheme (Text.before '#' s)
  let (authority, rest) := Url.cutAuthority rest
  let (path, query) := Url.split '?' rest
  let authority := Authority.ofText authority
  authority.check
  if scheme = [] ∧ !authority.isPresent then
    if path.take 2 = ['/', '/'] then throw .doubleSlash
    if path.head? = some ':' then throw .leadingColon
    relative path query
  else if scheme = [] ∨ authority.host = [] then relative (collapse path) query
  else if String.ofList scheme ∈ schemes then return onServer path query
  else throw (.foreignScheme scheme)

def Fault.message : Fault → String
  | .tooLong => "URL too long"
  | .oversizedPart name => "URL component '" ++ name ++ "' too long"
  | .unprintable c position =>
    "Invalid non-printable ASCII character in URL, " ++ String.ofList (Text.quoted [c]) ++
      " at position " ++ toString position ++ "."
  | .notAddress family host =>
    "Invalid IPv" ++ toString family ++ " address: " ++ String.ofList (Text.quoted host)
  | .notPort text => "Invalid port: " ++ String.ofList (Text.quoted text)
  | .doubleSlash => "Relative URLs cannot have a path starting with '//'"
  | .leadingColon => "Relative URLs cannot have a path starting with ':'"
  | .foreignScheme scheme => String.ofList (Text.quoted scheme)

end Target

end Sqrl.Server
