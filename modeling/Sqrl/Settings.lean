import Sqrl.Log
import Sqrl.Settings.Value
import Sqrl.Url

/-!
The settings of a server. Every text is brought to a normal form when the settings are made; a nut
that has been consumed is remembered at least as long as nuts are accepted.
-/
namespace Sqrl

structure Settings where
  version : String
  nutExpiration : Nat
  /-- Where clients send their requests: a path or a whole URL. -/
  baseUri : String
  origin : String
  /-- The key of the nuts in base64. Without one a server makes its own. -/
  nutKey : Option String
  sessionTtl : Nat
  auditEnabled : Bool
  auditDirectory : String
  logLevel : Log.Level
  logStructured : Bool
  nutExpiration_le_sessionTtl : nutExpiration ≤ sessionTtl

namespace Settings

inductive Name where
  | version
  | nutExpiration
  | baseUri
  | origin
  | nutKey
  | sessionTtl
  | auditEnabled
  | auditDirectory
  | logLevel
  | logStructured
  deriving DecidableEq, Repr

def Name.word : Name → String
  | .version => "SQRL_VERSION"
  | .nutExpiration => "NUT_EXPIRATION_SECONDS"
  | .baseUri => "SQRL_BASE_URI"
  | .origin => "ORIGIN"
  | .nutKey => "NUT_KEY_B64"
  | .sessionTtl => "SESSION_TTL_SECONDS"
  | .auditEnabled => "AUDIT_ENABLED"
  | .auditDirectory => "AUDIT_DIR"
  | .logLevel => "LOG_LEVEL"
  | .logStructured => "LOG_JSON"

def Name.all : List Name :=
  [.version, .nutExpiration, .baseUri, .origin, .nutKey, .sessionTtl, .auditEnabled, .auditDirectory,
    .logLevel, .logStructured]

inductive Fault where
  | value (fault : ValueFault)
  | emptyVersion
  | negative
  | emptyBaseUri
  | url (fault : Url.Fault)
  | port (fault : Url.PortFault)
  | foreignScheme
  | noHost
  | unknownLevel (name : String)
  | shortTtl
  deriving DecidableEq, Repr

def normalizeVersion (s : String) : Except Fault String :=
  if Text.stripped s = "" then .error .emptyVersion else .ok (Text.stripped s)

def dropSlashes (s : List Char) : List Char := Text.trimEnd (· = '/') s

def isAbsolute (s : List Char) : Bool := Text.contains [':', '/', '/'] s

/-- A path or URL without blanks at its ends, query and trailing slashes. What is neither gets a
slash in front. -/
def normalizeBaseUri (s : String) : Except Fault String :=
  let s := Text.strip s.toList
  if s = [] then .error .emptyBaseUri
  else
    let s := Text.before '?' s
    -- A slash alone is the path of the root.
    let s := if 1 < s.length then dropSlashes s else s
    let s := if !isAbsolute s && s.head? ≠ some '/' then '/' :: s else s
    .ok (String.ofList s)

/-- The origin of a URL with a scheme for the web and a host: both in small letters, and the port
unless it is absent or zero. -/
def normalizeOrigin (s : String) : Except Fault String := do
  let url ← (Url.parse (dropSlashes (Text.strip s.toList))).mapError .url
  if String.ofList url.scheme ∉ ["http", "https"] then throw .foreignScheme
  match url.host? with
  | none => throw .noHost
  | some host =>
    let host := Text.lower host
    let authority :=
      match ← url.port.mapError .port with
      | none | some 0 => host
      | some n => host ++ ':' :: Nat.toDigits 10 n
    return String.ofList (Url.originText url.scheme authority)

def normalizeNutKey (s : String) : Option String :=
  if Text.stripped s = "" then none else some (Text.stripped s)

/-- The level of a name in letters of any case; the empty name is that of the usual level. -/
def readLevel (s : String) : Except Fault Log.Level :=
  let name := if s = "" then "INFO" else String.ofList (Text.upper (Text.strip s.toList))
  let levels : List Log.Level := [.debug, .info, .warning, .error, .critical]
  match levels.find? fun level => level.name = name with
  | some level => .ok level
  | none => .error (.unknownLevel name)

def readSeconds (v : Json) : Except Fault Nat := do
  let n ← (readInteger v).mapError .value
  if n < 0 then throw .negative else return n.toNat

def readNormal {α : Type} (rule : String → Except Fault α) (v : Json) : Except Fault α := do
  rule (← (readText v).mapError .value)

def readNutKey : Json → Except Fault (Option String)
  | .null => .ok none
  | v => readNormal (fun s => .ok (normalizeNutKey s)) v

abbrev Given := Dictionary String Json

def lowered (name : String) : String := String.ofList (Text.lower name.toList)

def isExact (name : String) : Bool := Name.all.any fun n => n.word = name

/-- The values by names in small letters. A given value comes before one of the environment, and one
under the exact name before those under other spellings of it; of several others the last counts. -/
def gather (fields : List (String × Json)) (environment : List (String × String)) : Given :=
  let (exact, others) := fields.partition fun (name, _) => isExact name
  Dictionary.ofEntries
    (environment.map (fun (name, value) => (lowered name, Json.text value)) ++
      (others ++ exact).map fun (name, value) => (lowered name, value))

def choose {α : Type} (given : Given) (name : Name) (usual : α) (read : Json → Except Fault α) :
    Except Fault α :=
  match given.get? name.word.toLower with
  | none => .ok usual
  | some v => read v

structure Problem where
  name : Option Name
  fault : Fault
  deriving DecidableEq, Repr

def problem {α : Type} (name : Name) : Except Fault α → List Problem
  | .ok _ => []
  | .error fault => [⟨some name, fault⟩]

/-- The settings that are given, and the usual ones where none are. All faults are told; how the two
windows fit is looked at only if there are none. -/
def load (given : Given) : Except (List Problem) Settings :=
  let version := choose given .version "1" (readNormal normalizeVersion)
  let nutExpiration := choose given .nutExpiration 600 readSeconds
  let baseUri := choose given .baseUri "/sqrl" (readNormal normalizeBaseUri)
  let origin := choose given .origin "http://127.0.0.1:8080" (readNormal normalizeOrigin)
  let nutKey := choose given .nutKey none readNutKey
  let sessionTtl := choose given .sessionTtl 900 readSeconds
  let truth (v : Json) : Except Fault Bool := (readTruth v).mapError .value
  let auditEnabled := choose given .auditEnabled true truth
  let auditDirectory := choose given .auditDirectory "audit" (readNormal .ok)
  let logLevel := choose given .logLevel .info (readNormal readLevel)
  let logStructured := choose given .logStructured false truth
  match version, nutExpiration, baseUri, origin, nutKey, sessionTtl, auditEnabled, auditDirectory,
    logLevel, logStructured with
  | .ok version, .ok nutExpiration, .ok baseUri, .ok origin, .ok nutKey, .ok sessionTtl,
    .ok auditEnabled, .ok auditDirectory, .ok logLevel, .ok logStructured =>
    if h : nutExpiration ≤ sessionTtl then
      .ok ⟨version, nutExpiration, baseUri, origin, nutKey, sessionTtl, auditEnabled,
        auditDirectory, logLevel, logStructured, h⟩
    else .error [⟨none, .shortTtl⟩]
  | _, _, _, _, _, _, _, _, _, _ =>
    .error (problem .version version ++ problem .nutExpiration nutExpiration ++
      problem .baseUri baseUri ++ problem .origin origin ++ problem .nutKey nutKey ++
      problem .sessionTtl sessionTtl ++ problem .auditEnabled auditEnabled ++
      problem .auditDirectory auditDirectory ++ problem .logLevel logLevel ++
      problem .logStructured logStructured)

def routePath (s : Settings) : Except Url.Fault String :=
  let base := s.baseUri.toList
  if isAbsolute base then do
    let url ← Url.parse base
    return if url.path = [] then "/" else String.ofList url.path
  else .ok s.baseUri

/-- The link that hands a nut to a client, up to the query. Its scheme tells whether the server is
reached over a secure connection. -/
def linkBase (s : Settings) : Except Url.Fault String := do
  let url ← Url.parse s.origin.toList
  let scheme := if url.scheme = "https".toList then "sqrl" else "qrl"
  return scheme ++ "://" ++ String.ofList url.authority ++ (← s.routePath)

def Fault.code : Fault → String
  | .value fault => fault.code
  | _ => "value_error"

def Fault.rule : Fault → String
  | .value fault => fault.message
  | .emptyVersion => "SQRL_VERSION cannot be empty"
  | .negative => "must be >= 0"
  | .emptyBaseUri => "SQRL_BASE_URI cannot be empty"
  | .url fault => fault.message
  | .port fault => fault.message
  | .foreignScheme => "ORIGIN must start with http:// or https://"
  | .noHost => "ORIGIN must include a hostname"
  | .unknownLevel name => "unknown LOG_LEVEL: " ++ name
  | .shortTtl => "SESSION_TTL_SECONDS must be >= NUT_EXPIRATION_SECONDS"

def Fault.message : Fault → String
  | .value fault => fault.message
  | fault => "Value error, " ++ fault.rule

end Settings

end Sqrl
