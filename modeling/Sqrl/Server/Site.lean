import Sqrl.Server.Endpoints
import Sqrl.Server.Route
import Sqrl.Server.Target

/-!
A site: a server behind the routes to its endpoints. A request goes to the first route whose pattern
and method fit. Where no pattern fits, a path with or without a slash at its end leads to the other.
-/
namespace Sqrl.Server

inductive Method where
  | get
  | post
  deriving DecidableEq, Repr

inductive Endpoint where
  /-- A page about the site. Pages are only ever asked for by other methods than theirs. -/
  | page
  | nuts
  | status
  | requests
  deriving DecidableEq, Repr

structure Route where
  method : Method
  pattern : Pattern
  endpoint : Endpoint
  deriving DecidableEq, Repr

structure Site where
  server : Server
  requests : Pattern

namespace Site

inductive Fault where
  | url (fault : Url.Fault)
  | pattern (fault : Pattern.Fault)
  deriving DecidableEq, Repr

def ofServer (server : Server) : Except Fault Site := do
  let path ← server.settings.routePath.mapError .url
  return ⟨server, ← (Pattern.ofText path.toList).mapError .pattern⟩

def pages : List String := ["/openapi.json", "/docs", "/docs/oauth2-redirect", "/redoc"]

def nutsPath : String := "/api/v1/nut"

def nutName : String := "nut"

def statusPattern : Pattern :=
  [.literal (nutsPath ++ "/").toList, .parameter nutName.toList .segment, .literal "/status".toList]

def routes (site : Site) : List Route :=
  pages.map (fun page => ⟨.get, [.literal page.toList], .page⟩) ++
    [⟨.post, [.literal nutsPath.toList], .nuts⟩, ⟨.get, statusPattern, .status⟩,
      ⟨.post, site.requests, .requests⟩]

inductive Outcome where
  | endpoint (endpoint : Endpoint) (bindings : List Binding)
  /-- There are routes for the path, but none for the method. -/
  | otherMethod
  /-- There is a route for the path with its slash at the end toggled. -/
  | moved (path : List Char)
  | nowhere
  deriving DecidableEq, Repr

def endpoint? (site : Site) (method : Method) (path : List Char) :
    Option (Endpoint × List Binding) :=
  site.routes.findSome? fun route =>
    if route.method = method then (route.pattern.match? path).map fun b => (route.endpoint, b)
    else none

def hasRoute (site : Site) (path : List Char) : Bool :=
  site.routes.any fun route => (route.pattern.match? path).isSome

/-- A path with a slash at its end, or without if it has some. -/
def toggleSlash (path : List Char) : List Char :=
  if path.getLast? = some '/' then Text.trimEnd (· = '/') path else path ++ ['/']

/-- Where a request to a path goes. The root is not another path without its slash. -/
def lookUp (site : Site) (method : Method) (path : List Char) : Outcome :=
  match site.endpoint? method path with
  | some (endpoint, bindings) => .endpoint endpoint bindings
  | none =>
    if site.hasRoute path then .otherMethod
    else if path ≠ ['/'] ∧ site.hasRoute (toggleSlash path) then .moved (toggleSlash path)
    else .nowhere

/-- The target of a request that is sent on to another path with the same query. -/
def forwarded (path query : List Char) : Target :=
  .ofPathText (path ++ (if query = [] then [] else '?' :: query))

/-- Where a request goes when it is sent on at most `fuel` times, and the target that it has then. -/
def resolve (site : Site) (method : Method) : Nat → Target → Outcome × Target
  | 0, target => (.nowhere, target)
  | fuel + 1, target =>
    match site.lookUp method target.path with
    | .moved path => resolve site method fuel (forwarded path target.query)
    | outcome => (outcome, target)

def maxForwards : Nat := 20

def notFound : Reply := .detail 404 "Not Found"

/-- The nut of a request: the parameter of the path, or else the one of the query. A parameter that is
not read as text is refused. -/
def nutOf (bindings : List Binding) (query : List Char) : Option (Option String) :=
  match bindings.find? fun b => b.name = nutName.toList with
  | none => some ((Form.read query).get? nutName)
  | some b => if b.kind ∈ [.segment, .path] then some (some (String.ofList b.value)) else none

def answer (site : Site) (method : Method) (target : Target) (body : Bytes) (address : String) :
    Action Reply :=
  let (outcome, target) := site.resolve method (maxForwards + 1) target
  match outcome with
  | .endpoint .nuts _ => site.server.postNut ((Form.read target.query).get? "qr") address
  | .endpoint .status bindings =>
    match nutOf bindings target.query with
    | some nut => getStatus (nut.getD "")
    | none => return ⟨422, .none⟩
  | .endpoint .requests bindings =>
    match nutOf bindings target.query with
    | some nut => site.server.postRequest nut body address
    | none => return ⟨422, .none⟩
  | .otherMethod => return .detail 405 "Method Not Allowed"
  | .endpoint .page _ | .moved _ | .nowhere => return notFound

def reference (path name : String) (value : Option String) : List Char :=
  match value with
  | none => path.toList
  | some value => path.toList ++ '?' :: name.toList ++ '=' :: Form.escape value.toList

def nutsReference (qr : Option String) : List Char := reference nutsPath "qr" qr

def statusReference (nut : String) : List Char :=
  (nutsPath ++ "/").toList ++ Form.escape nut.toList ++ "/status".toList

/-- The reference for a request that presents a nut; without a path, to the path of the settings. -/
def requestReference (site : Site) (path nut : Option String) : Except Fault (List Char) := do
  let route ← site.server.settings.routePath.mapError .url
  return reference (path.getD route) nutName nut

def Fault.message : Fault → String
  | .url fault => fault.message
  | .pattern fault => fault.message

end Site

end Sqrl.Server
