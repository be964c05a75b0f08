import Sqrl.Request
import Sqrl.Response
import Sqrl.Server.Decision
import Sqrl.Server.Nuts
import Sqrl.Server.Stores
import Sqrl.Signature

/-!
The protocol: nuts are issued and watched, and requests are answered. Whatever is wrong with a request
is told in the flags of its response, which always carries a nut for the next request. A refused
request changes no account and no transaction.
-/
namespace Sqrl.Server

def issue (server : Server) (address : Option String) (qr : Bool) : Action String := do
  let nut ← server.mint address qr
  openTransaction nut address
  log .debug "server" ("Creating nut " ++ nut) none
  server.audit .issued .nutIssued
    [("nut", .text nut), ("request_ip", .optional address), ("qr", .bool qr)]
  return nut

/-- The response for a nut. The unlock key of the account is never part of it, even if the client
asks for it. -/
def respond (server : Server) (nut : String) (flags : FlagSet) : Response :=
  Response.build server.settings.version server.settings.baseUri nut none flags

def common (request : Request) (nut : Option String) (responseNut : String)
    (address : Option String) : Audit.Common where
  nut := nut
  responseNut := responseNut
  address := address
  identityKey := request.idk
  command := request.cmd
  message := request.signedMessage
  signature := request.ids

def versionLength : Nat := 16

def detailLength : Nat := 200

/-- Refuses a request whose nut, version or signature is wrong. The response does not tell which. -/
def refuse (server : Server) (reason : Reason) (request : Request) (nut : Option String)
    (responseNut : String) (address : Option String) (detail : Option String) :
    Action Response := do
  server.audit .denied reason
    (("client_ver", .text (Audit.shortened versionLength request.ver)) ::
      ((common request nut responseNut address).fields (← now) ++
        Audit.given "detail" (detail.map (Audit.shortened detailLength))))
  return server.respond responseNut (.ofList [.clientFailure])

/-- The account of a request and the flags that tell how it was found. An account that is found under
the previous key moves to the new one. -/
def identify (request : Request) : Action (Option Account × List Flag) := do
  match ← findAccount request.idk with
  | some account => return (some account, [.idMatch])
  | none =>
    match request.pidk with
    | none => return (none, [])
    | some previous =>
      match ← findAccount previous with
      | none => return (none, [])
      | some account =>
        let _ ← rotateAccount previous request.idk
        log .info "server" "Rotated identity key for account" none
        return (some account, [.previousIdMatch])

def dispatch (request : Request) (account : Option Account) (responseNut : String) :
    Action (List Flag) := do
  match request.command with
  | some .query => return []
  | some .ident =>
    if account.isNone then
      let _ ← registerAccount request.idk request.suk request.vuk
      log .info "server" "Registered new SQRL account" none
    -- The nut of the response is linked by now, so this is the transaction of the presented one.
    authenticateNut responseNut request.idk
    return [.idMatch]
  | some .disable =>
    let _ ← disableAccount request.idk
    return []
  | some .enable =>
    let _ ← enableAccount request.idk
    return []
  | some .remove =>
    let _ ← removeAccount request.idk
    return []
  | none =>
    log .info "server"
      ("Unsupported command " ++
        Text.quotedString (Audit.shortened Audit.commandLength request.cmd)) none
    return [.functionNotSupported]

/-- The flag of an account that is disabled after the command. A removed account counts as it was
last. -/
def disabledFlag (key : String) (account : Option Account) : Action (List Flag) := do
  match account with
  | none => return []
  | some account =>
    let account := ((← get).accounts.find? key).getD account
    return if account.enabled then [] else [.sqrlDisabled]

/-- Processes a request with a good signature: its nut must be fresh and not yet consumed. -/
def process (server : Server) (request : Request) (nut : String) (presented response : Nut)
    (responseNut : String) : Action (FlagSet × Reason) := do
  -- A nut ages in whole seconds, while the stores forget by exact readings.
  let age := (← now).truncate - presented.created
  if server.settings.nutExpiration < age then
    log .info "server" ("Nut expired (age " ++ String.ofList (intText age) ++ "s)") none
    return (.ofList [.transientError], .nutExpired)
  if !(← consumeNut nut) then
    log .info "server" "Nut already used" none
    return (.ofList [.transientError], .nutReused)
  linkNut nut responseNut
  let addressFlags := if presented.sameAddress response then [Flag.ipMatched] else []
  let (account, accountFlags) ← identify request
  let commandFlags ← dispatch request account responseNut
  let stateFlags ← disabledFlag request.idk account
  return (.ofList (addressFlags ++ accountFlags ++ commandFlags ++ stateFlags), .signatureValid)

def oneLine (r : Response) : Action String := do
  match r.text with
  | .error fault => throw (.write fault)
  | .ok text => return String.ofList (Text.join [' '] (Text.splitCrLf text.toList))

def accept (server : Server) (request : Request) (nut : String) (presented response : Nut)
    (responseNut : String) (address : Option String) : Action Response := do
  let (flags, reason) ← server.process request nut presented response responseNut
  let answer := server.respond responseNut flags
  log .debug "server" ("Response: " ++ (← oneLine answer))
    (some [(CodePoint.ofString "tif", .int answer.tif),
      (CodePoint.ofString "cmd", .text (Audit.shortened Audit.commandLength request.cmd))])
  server.audit (if flags.contains .transientError then .transient else .processed) reason
    ((common request nut responseNut address).fields (← now) ++ [("tif", .int answer.tif)])
  return answer

def judge (server : Server) (request : Request) (nut : String) (presented : Nut)
    (address : Option String) : Action Response := do
  -- The nut of the response is made before any check, since a refusal carries one as well.
  let response ← server.createNut address presented.qr
  let responseNut ← server.encodeNut response
  if request.ver ≠ server.settings.version then
    log .info "server"
      ("Client version mismatch (got " ++ Text.quotedString request.ver ++ ", expected " ++
        Text.quotedString server.settings.version ++ ")") none
    server.refuse .versionMismatch request nut responseNut address none
  else
    match Signature.check (some request.signedMessage) request.idk request.ids with
    | .error fault =>
      log .debug "signature" ("signature rejected: " ++ fault.message) none
      log .info "server" ("Invalid identity signature: " ++ fault.message) none
      server.refuse .invalidSignature request nut responseNut address fault.message
    | .ok () => server.accept request nut presented response responseNut address

/-- What stands in logs, and is read, where no nut is presented. -/
def noNut : String := "None"

def handle (server : Server) (request : Request) (nut : Option String)
    (address : Option String) : Action Response := do
  let text := nut.getD noNut
  log .debug "server" ("Handling client request for nut " ++ text) none
  match ← server.decodeNut text with
  | .error rejection =>
    log .info "server" ("Rejecting request with undecodable nut: " ++ rejection.message) none
    let responseNut ← server.mint address false
    server.refuse .invalidNut request nut responseNut address none
  | .ok presented => server.judge request text presented address

def presentedAsCode (server : Server) (nut : Option String) : Action Bool := do
  match Signature.given? nut with
  | none => return false
  | some text =>
    match ← server.decodeNut text with
    | .error _ => return false
    | .ok presented => return presented.qr

def handleMalformed (server : Server) (nut : Option String) (address : Option String) :
    Action Response := do
  let responseNut ← server.mint address (← server.presentedAsCode nut)
  let known : Audit.Common := { nut := nut, responseNut := responseNut, address := address }
  server.audit .denied .malformedRequest (known.fields (← now))
  return server.respond responseNut (.ofList [.clientFailure])

end Sqrl.Server
