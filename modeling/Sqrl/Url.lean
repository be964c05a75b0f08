import Sqrl.Address
import Sqrl.Number
import Sqrl.Text.Case
import Sqrl.Text.Quoted

/-!
URLs taken apart: scheme, authority, path with parameters, query and fragment. The authority is split
further into user information, host and port only when one of them is asked for, so that a bad port
does not keep a URL from being read.
-/
namespace Sqrl

/-- The parts of a URL. A part that is absent is empty. -/
structure Url where
  scheme : List Char
  authority : List Char
  path : List Char
  parameters : List Char
  query : List Char
  fragment : List Char
  deriving DecidableEq, Repr

namespace Url

inductive Fault where
  | brackets
  /-- The host in brackets starts like an address of a future version and is none. -/
  | futureAddress
  /-- The host beside brackets is no address. -/
  | notAddress (host : List Char)
  /-- The host in brackets is an address of four octets. -/
  | shortAddress
  /-- The authority holds a character that stands for one of the delimiters. -/
  | delimiter (authority : List Char)
  deriving DecidableEq, Repr

def isSchemeChar (c : Char) : Bool := c.isAlphanum || c ∈ ['+', '-', '.']

/-- A scheme in small letters and what follows it, or no scheme and the whole text. -/
def cutScheme (s : List Char) : List Char × List Char :=
  match Text.cut? ':' s with
  | some (c :: before, after) =>
    if c.isAlpha && before.all isSchemeChar then ((c :: before).map Char.toLower, after) else ([], s)
  | _ => ([], s)

def isDelimiter (c : Char) : Bool := c ∈ ['/', '?', '#']

/-- An authority after two slashes and what follows it, or no authority and the whole text. -/
def cutAuthority : List Char → List Char × List Char
  | '/' :: '/' :: rest =>
    (rest.takeWhile fun c => !isDelimiter c, rest.dropWhile fun c => !isDelimiter c)
  | s => ([], s)

/-- What stands before and after the first `sep`; all stands before it if there is none. -/
def split (sep : Char) (s : List Char) : List Char × List Char := (Text.cut? sep s).getD (s, [])

def location (authority : List Char) : List Char :=
  (Text.cutLast? '@' authority).elim authority Prod.snd

def isFutureAddress (host : List Char) : Bool :=
  match host with
  | 'v' :: rest =>
    let digits := rest.takeWhile fun c => (Bytes.hexValue? c).isSome
    match rest.drop digits.length with
    | '.' :: c :: address => digits ≠ [] && !(c :: address).contains '\n'
    | _ => false
  | _ => false

/-- Checks a host that stands in brackets. -/
def checkHost (host : List Char) : Except Fault Unit :=
  if host.head? = some 'v' then if isFutureAddress host then .ok () else .error .futureAddress
  else
    match Address.parse? host with
    | some (.v6 ..) => .ok ()
    | some (.v4 _) => .error .shortAddress
    | none => .error (.notAddress host)

/-- Checks an authority with brackets: they enclose the host, and a port may follow. -/
def checkBracketed (authority : List Char) : Except Fault Unit :=
  match Text.cut? '[' (location authority) with
  | some (before, after) =>
    let (host, rest) := split ']' after
    if before ≠ [] ∨ (rest ≠ [] ∧ rest.head? ≠ some ':') then .error .brackets else checkHost host
  | none => checkHost (split ':' (location authority)).1

def checkBrackets (authority : List Char) : Except Fault Unit :=
  if ('[' ∈ authority) ≠ (']' ∈ authority) then .error .brackets
  else if '[' ∈ authority then checkBracketed authority
  else .ok ()

/-- Characters whose compatibility form holds one of the delimiters `/`, `?`, `#`, `@` and `:`. -/
def standsForDelimiter (c : Char) : Bool :=
  c.toNat ∈ [0x2047, 0x2048, 0x2049, 0x2100, 0x2101, 0x2105, 0x2106, 0x2A74, 0xFE13, 0xFE16, 0xFE55,
    0xFE56, 0xFE5F, 0xFE6B, 0xFF03, 0xFF0F, 0xFF1A, 0xFF1F, 0xFF20]

def schemesWithParameters : List String :=
  ["", "ftp", "hdl", "prospero", "http", "imap", "https", "shttp", "rtsp", "rtspu", "sip", "sips",
    "mms", "sftp", "tel"]

def cutParameters (path : List Char) : List Char × List Char :=
  match Text.cutLast? '/' path with
  | none => split ';' path
  | some (before, segment) =>
    let (segment, parameters) := split ';' segment
    (before ++ '/' :: segment, parameters)

/-- The text that counts: without blanks and control characters at the start and without line breaks
and tabs anywhere. -/
def cleaned (s : List Char) : List Char :=
  (s.dropWhile fun c => c ≤ ' ').filter fun c => c ∉ ['\t', '\r', '\n']

def parse (s : List Char) : Except Fault Url := do
  let (scheme, rest) := cutScheme (cleaned s)
  let (authority, rest) := cutAuthority rest
  checkBrackets authority
  let (rest, fragment) := split '#' rest
  let (rest, query) := split '?' rest
  if authority.any standsForDelimiter then throw (.delimiter authority)
  let (path, parameters) :=
    if String.ofList scheme ∈ schemesWithParameters then cutParameters rest else (rest, [])
  return { scheme, authority, path, parameters, query, fragment }

def hostAndPort (authority : List Char) : List Char × List Char :=
  match Text.cut? '[' (location authority) with
  | some (_, after) =>
    let (host, rest) := split ']' after
    (host, (split ':' rest).2)
  | none => split ':' (location authority)

def userInformation? (u : Url) : Option (List Char) := (Text.cutLast? '@' u.authority).map Prod.fst

/-- The host in small letters, its scope as it is written. -/
def host? (u : Url) : Option (List Char) :=
  match (hostAndPort u.authority).1 with
  | [] => none
  | host =>
    let (address, _) := split '%' host
    some (Text.lower address ++ host.drop address.length)

inductive PortFault where
  | notNumber (text : List Char)
  | oversized (digits : Nat)
  | outOfRange
  deriving DecidableEq, Repr

def port (u : Url) : Except PortFault (Option Nat) :=
  match (hostAndPort u.authority).2 with
  | [] => .ok none
  | text =>
    if !text.all Char.isDigit then .error (.notNumber text)
    else if Number.maxDigits < text.length then .error (.oversized text.length)
    else if Nat.ofDigitChars 10 text 0 ≤ 65535 then .ok (some (Nat.ofDigitChars 10 text 0))
    else .error .outOfRange

def originText (scheme authority : List Char) : List Char := scheme ++ ':' :: '/' :: '/' :: authority

def Fault.message : Fault → String
  | .brackets => "Invalid IPv6 URL"
  | .futureAddress => "IPvFuture address is invalid"
  | .notAddress host =>
    String.ofList (Text.quoted host) ++ " does not appear to be an IPv4 or IPv6 address"
  | .shortAddress => "An IPv4 address cannot be in brackets"
  | .delimiter authority =>
    "netloc '" ++ String.ofList authority ++ "' contains invalid characters under NFKC normalization"

def PortFault.message : PortFault → String
  | .notNumber text =>
    "Port could not be cast to integer value as " ++ String.ofList (Text.quoted text)
  | .oversized digits => Number.oversizedMessage digits
  | .outOfRange => "Port out of range 0-65535"

end Url

end Sqrl
