import Sqrl.Base64.Url
import Sqrl.Dictionary
import Sqrl.Text.Quoted
import Sqrl.Text.Split

/-!
Client requests: three parameters, one of which is a block of named values in base64url. The
parameters are kept as they came, because the signature covers their very text.
-/
namespace Sqrl

inductive Command where
  | query
  | ident
  | disable
  | enable
  | remove
  deriving DecidableEq, Repr

namespace Command

def all : List Command := [.query, .ident, .disable, .enable, .remove]

def word : Command → String
  | .query => "query"
  | .ident => "ident"
  | .disable => "disable"
  | .enable => "enable"
  | .remove => "remove"

def ofWord? (s : String) : Option Command := all.find? fun c => c.word = s

end Command

/-- What a client asks for beside its command. -/
inductive OptionFlag where
  | sqrlOnly
  | hardLock
  | clientProvidedSession
  | serverUnlockKey
  | noIpTest
  deriving DecidableEq, Repr

namespace OptionFlag

def all : List OptionFlag :=
  [.sqrlOnly, .hardLock, .clientProvidedSession, .serverUnlockKey, .noIpTest]

def word : OptionFlag → String
  | .sqrlOnly => "sqrlonly"
  | .hardLock => "hardlock"
  | .clientProvidedSession => "cps"
  | .serverUnlockKey => "suk"
  | .noIpTest => "noiptest"

def name : OptionFlag → String
  | .sqrlOnly => "SQRL_ONLY"
  | .hardLock => "HARD_LOCK"
  | .clientProvidedSession => "CLIENT_PROVIDED_SESSION"
  | .serverUnlockKey => "SERVER_UNLOCK_KEY"
  | .noIpTest => "NO_IP_TEST"

def ofWord? (s : String) : Option OptionFlag := all.find? fun o => o.word = s

def unknownMessage (shown : String) : String := shown ++ " is not a valid SqrlOptionFlag"

end OptionFlag

abbrev ParameterBlock := Dictionary (List Char) (List Char)

/-- A line that is not blank and names no value. -/
structure BadLine where
  line : List Char
  deriving DecidableEq, Repr

/-- The words for such a line, of which the first forty characters are shown. -/
def BadLine.message (fault : BadLine) : String :=
  "bad line in parameter block: " ++ String.ofList (Text.quoted (fault.line.take 40))

namespace ParameterBlock

def parseLine (line : List Char) : Except BadLine (List Char × List Char) :=
  match Text.cut? '=' line with
  | some entry => .ok entry
  | none => .error ⟨line⟩

def parse (s : List Char) : Except BadLine ParameterBlock := do
  let lines := ((Text.splitCrLf s).map Text.strip).filter fun line => line ≠ []
  return Dictionary.ofEntries (← lines.mapM parseLine)

def given? (block : ParameterBlock) (name : String) : Option (List Char) :=
  (block.get? name.toList).filter fun v => v ≠ []

end ParameterBlock

structure Request where
  /-- The block of the client, as it came. -/
  client : String
  /-- What the server last sent, as it came. -/
  server : String
  /-- The signature of the identity. -/
  ids : String
  ver : String
  /-- The word of the command. -/
  cmd : String
  /-- The key of the identity. -/
  idk : String
  /-- The previous key of the identity. -/
  pidk : Option String
  suk : Option String
  vuk : Option String
  /-- The words of the options. -/
  opt : List String
  deriving DecidableEq, Repr

namespace Request

/-- Why parameters are no request. All of them are one kind of error, that of a malformed request, which
is a value error. -/
inductive Fault where
  | missingParameter (name : String)
  /-- The base64 or the UTF-8 of the client's block is wrong. -/
  | notText (fault : Base64.Url.TextFault)
  | badLine (fault : BadLine)
  | missingField (name : String)
  deriving DecidableEq, Repr

def parameter (params : Dictionary String (Option String)) (name : String) :
    Except Fault String :=
  match (params.get? name).join.filter fun v => v ≠ "" with
  | some v => .ok v
  | none => .error (.missingParameter name)

def field (block : ParameterBlock) (name : String) : Except Fault String :=
  match block.given? name with
  | some v => .ok (String.ofList v)
  | none => .error (.missingField name)

def readBlock (client : String) : Except Fault ParameterBlock := do
  let text ← (Base64.Url.decodeText client).mapError .notText
  (ParameterBlock.parse text.toList).mapError .badLine

def ofParams (params : Dictionary String (Option String)) : Except Fault Request := do
  let client ← parameter params "client"
  let server ← parameter params "server"
  let ids ← parameter params "ids"
  let block ← readBlock client
  let ver ← field block "ver"
  let cmd ← field block "cmd"
  let idk ← field block "idk"
  let optional (name : String) : Option String := (block.given? name).map String.ofList
  let words := Text.splitOn '~' ((block.get? "opt".toList).getD [])
  return {
    client, server, ids, ver, cmd, idk
    pidk := optional "pidk"
    suk := optional "suk"
    vuk := optional "vuk"
    opt := (words.filter fun w => w ≠ []).map String.ofList }

def command (r : Request) : Option Command := Command.ofWord? r.cmd

def optionFlags (r : Request) : List OptionFlag := r.opt.filterMap OptionFlag.ofWord?

/-- What the signature covers. -/
def signedMessage (r : Request) : Bytes := Utf8.encode (r.client ++ r.server).toList

def Fault.message : Fault → String
  | .missingParameter name => "missing parameter: " ++ name
  | .notText fault => "client block is not base64url text: " ++ fault.message
  | .badLine fault => fault.message
  | .missingField name => "missing client field: " ++ name

end Request

end Sqrl
