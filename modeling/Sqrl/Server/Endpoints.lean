import Sqrl.Form
import Sqrl.Server.Protocol

/-!
The endpoints of a server: one hands out nuts, one tells who has logged in, and one takes the
requests of clients.
-/
namespace Sqrl.Server

inductive Body where
  | none
  | json (v : Json)
  | plain (s : String)

structure Reply where
  status : Nat
  body : Body

def Body.contentType? : Body → Option String
  | .none => Option.none
  | .json _ => some "application/json"
  | .plain _ => some "text/plain; charset=utf-8"

def Reply.detail (status : Nat) (text : String) : Reply :=
  ⟨status, .json (.ofMembers [("detail", .text text)])⟩

def link (server : Server) (nut : String) : Except Url.Fault String :=
  server.settings.linkBase.map fun base =>
    base ++ "?nut=" ++ String.ofList (Form.escape nut.toList)

/-- Hands out a nut; unless it is said otherwise, to be shown as a code. -/
def postNut (server : Server) (qr : Option String) (address : String) : Action Reply := do
  match Settings.readWord (qr.getD "true") with
  | .error _ => return ⟨422, .none⟩
  | .ok qr =>
    let nut ← server.issue address qr
    match server.link nut with
    | .error fault => throw (.link fault)
    | .ok link =>
      return ⟨200, .json (.ofMembers [("nut", .text nut), ("sqrl_url", .text link),
        ("expires_in", .int server.settings.nutExpiration)])⟩

def getStatus (nut : String) : Action Reply := do
  match ← readIdentity nut with
  | none => return ⟨200, .json (.ofMembers [("ok", .bool true), ("authenticated", .bool false)])⟩
  | some key =>
    return ⟨200, .json (.ofMembers [("ok", .bool true), ("authenticated", .bool true),
      ("identity_key", .text key)])⟩

def answerBody (server : Server) (nut : String) (body : Bytes) (address : String) :
    Action Response := do
  let params := (Form.readBody body).map fun (name, value) => (name, some value)
  match Request.ofParams params with
  | .ok request => server.handle request nut address
  | .error fault =>
    log .info "endpoint" ("Malformed SQRL request: " ++ fault.message) none
    server.handleMalformed nut address

/-- Takes the request of a client. A client expects a response whatever is wrong with its request,
unless it presents no nut. -/
def postRequest (server : Server) (nut : Option String) (body : Bytes) (address : String) :
    Action Reply := do
  match Signature.given? nut with
  | none => return .detail 400 "missing nut"
  | some nut =>
    let response ← server.answerBody nut body address
    match response.encoded with
    | .error fault => throw (.write fault)
    | .ok text => return ⟨200, .plain text⟩

end Sqrl.Server
