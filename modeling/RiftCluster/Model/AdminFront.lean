import RiftCluster.Model.Replace
import RiftCluster.Model.Session
import RiftCluster.Model.SpecSchema

/-!
# The admin front

`handle` of `admin_front.rs` routes a request: to an imposter (`/__rift/`), to the console's
files, to the session routes, to a read or a write that the front answers itself, or to the
loopback admin listener. What it does is data: the requests it parks and submits, the route it
runs, what it dispatches and forwards and with which headers, and the reply.

A request is handled while the node goes on, so the node is read at each `Moment` anew. What the
routes behind the gate do (`terminate`, `fleet::body`, the listener) is left open.
-/

namespace RiftCluster.Front

open KV

open Auth (utf8 hexEncode)

open Spec (strip?)

open Session

/-! ## Requests -/

inductive Method where
  | get | head | options | post | put | delete
  | other (name : String)
  deriving DecidableEq, Repr

/-- `HeaderMap`: lower-case names with their values, which are any bytes. -/
abbrev Headers := List (String × List UInt8)

namespace Headers

/-- `get`: the first value of a name. -/
def get (headers : Headers) (name : String) : Option (List UInt8) := headers.lookup name

def getAll (headers : Headers) (name : String) : List (List UInt8) :=
  (headers.filter fun header => header.1 = name).map Prod.snd

def remove (headers : Headers) (name : String) : Headers := headers.filter fun header => header.1 ≠ name

def append (headers : Headers) (name : String) (value : List UInt8) : Headers := headers ++ [(name, value)]

end Headers

def isVisibleAscii (byte : UInt8) : Bool := (32 ≤ byte && byte < 127) || byte = 9

/-- `HeaderValue::to_str`. -/
def toStr (value : List UInt8) : Option String :=
  if value.all isVisibleAscii then String.fromUTF8? ⟨value.toArray⟩ else none

structure AdminRequest where
  method : Method
  /-- As the client sent it, without the query. -/
  path : String
  headers : Headers := []
  /-- What collecting the body under its limit gives. -/
  body : Except String (List UInt8) := .ok []

/-! ## Replies and effects -/

inductive ErrorKind where
  | badData | unavailable | requestTooLarge | insufficientAccess | noSuchResource | resourceConflict | internalError
  | timeout | unauthorized | invalidInjection
  deriving DecidableEq, Repr

inductive FleetRoute where
  | members | health
  | op (id : String)
  deriving DecidableEq, Repr

/-- A route that the front answers itself. -/
inductive Terminated where
  | create
  | replaceAllImposters
  | deleteAllImposters
  | deleteImposter (port : Port)
  | addStub (port : Port)
  | replaceStubs (port : Port)
  | replaceStubAt (port : Port) (index : String)
  | deleteStubAt (port : Port) (index : String)
  | replaceStubById (port : Port) (id : String)
  | deleteStubById (port : Port) (id : String)
  | setEnabled (port : Port) (enabled : Bool)
  | clearSavedProxyResponses (port : Port)
  | spaceTeardown (port : Port) (flow : String)
  | addSpaceStub (port : Port) (flow : String)
  | spacesList (port : Port)
  | tryImposter (port : Port)
  | putRoutes
  | deleteRoute (id : String)
  | fleetNamePut
  | specCompile
  deriving DecidableEq, Repr

inductive ProxyLeg where
  | admin | gateway
  deriving DecidableEq, Repr

inductive Body where
  | empty
  | error (kind : ErrorKind) (message : String)
  /-- A text that is no JSON. -/
  | plain (message : String)
  /-- A file of the console. -/
  | asset (key : String)
  deriving DecidableEq, Repr

inductive SetCookie where
  | session (token : String) (maxAge : ℕ)
  | cleared
  deriving DecidableEq, Repr

/-- A reply of the front's own, or another's that it passes on. -/
inductive Reply where
  | own (status : ℕ) (body : Body) (cookie : Option SetCookie)
  /-- What `fleet::body` renders. -/
  | fleet (route : FleetRoute)
  /-- The route table. -/
  | routes
  /-- `openapi.json`. -/
  | contract
  /-- What a terminated route answers. -/
  | terminated (kind : Terminated)
  /-- What an imposter answers. -/
  | imposter
  /-- What the loopback listener answers on a leg. -/
  | listener (leg : ProxyLeg)
  deriving DecidableEq, Repr

inductive Effect where
  /-- The engine is handed a gateway request: the path behind `/__rift/` and the headers. -/
  | dispatch (rest : String) (headers : Headers)
  | forward (leg : ProxyLeg) (headers : Headers)
  | terminate (kind : Terminated)
  | park (request : ControlRequest)
  | submit (request : ControlRequest)
  | unpark (opId : String)
  deriving DecidableEq

structure Handled where
  effects : List Effect := []
  reply : Reply
  deriving DecidableEq

def typedError (status : ℕ) (kind : ErrorKind) (message : String) : Reply := .own status (.error kind message) none

def internal (message : String) : Reply := typedError 500 .internalError message

def unauthorized : Reply := typedError 401 .unauthorized "Invalid authorization token"

def shuttingDown : Reply := typedError 503 .unavailable "cluster node is shutting down"

/-- `str::contains`. -/
def contains (text part : String) : Bool := (splitOnce part.toList text.toList).isSome

def refusalResponse (reason : String) : Reply :=
  -- a refused precondition on a missing record has both texts
  if (strip? "revision conflict" reason).isSome then typedError 409 .resourceConflict reason
  else if contains reason "no imposter on port" || contains reason "no stub with id" then
    typedError 404 .noSuchResource reason
  else typedError 400 .badData reason

/-! ## The front -/

/-- When a request reads the node: at the gate, and in the route behind it. -/
inductive Moment where
  | gate | route
  deriving DecidableEq, Repr

/-- What a request sees of a node. -/
structure LocalNode where
  hasEngine : Bool
  tables : Tables
  /-- After a signing key of the request's own is committed and awaited. -/
  awaited : Tables

/-- How a `submit` under the write deadline ends. -/
inductive Submitted where
  | timedOut
  | unavailable (detail : String)
  | failed (error : String)
  | committed (response : ControlResponse)
  deriving DecidableEq, Repr

structure FrontState where
  apiKey : Option String
  /-- The keys of the console's files, if it is built in. -/
  console : Option (List String)
  /-- `node.upgrade()`. -/
  node : Moment → Option LocalNode
  /-- `now_secs`. -/
  now : Moment → ℕ
  /-- The bytes and the op id that are drawn for a signing key. -/
  freshKey : List UInt8
  freshId : String
  /-- How its `park_intent` and its `submit` end. -/
  park : Except String Unit
  submit : Submitted

/-- The readers of other crates. -/
structure Readers where
  /-- `serde_json` for the body of a login: its `apiKey`. -/
  login : List UInt8 → Except String String
  uuid : String → Option String

variable (C : SessionCodec) (U : Upstream) (R : Readers) (front : FrontState) (req : AdminRequest)

/-! ## The gate -/

def sessionCookieName : String := "rift_session"

def csrfHeader : String := "x-rift-csrf"

def apiKeyMatches (provided expected : String) : Bool :=
  if (Auth.trim expected.toList).isEmpty then false else utf8 provided = utf8 expected

inductive BearerVerdict where
  | absent | accepted | refused
  deriving DecidableEq, Repr

def bearerVerdict (headers : Headers) (expected : String) : BearerVerdict :=
  match (headers.get "authorization").or (headers.get "x-api-key") with
  | none => .absent
  | some presented =>
    match toStr presented with
    | some provided => if apiKeyMatches provided expected then .accepted else .refused
    | none => .refused

/-- The name and the value of one `name=value`. -/
def cookiePair (pair : List Char) : Option (String × String) :=
  (splitOnce ['='] pair).map fun parts => (String.ofList (Auth.trim parts.1), String.ofList (Auth.trim parts.2))

def sessionCookie : Option String :=
  ((req.headers.get "cookie").bind toStr).bind fun raw => (raw.toList.splitOn ';').findSome? fun pair =>
    (cookiePair pair).bind fun (name, value) => if name = sessionCookieName then some value else none

def isSafe (method : Method) : Bool := method = .get || method = .head || method = .options

def csrfGate : Except Reply Unit :=
  if isSafe req.method then .ok ()
  else if (req.headers.get csrfHeader).isSome then .ok ()
  else .error (typedError 403 .insufficientAccess
    ("state-changing requests authenticated by session cookie must carry " ++ csrfHeader))

def authenticate : Except Reply Unit :=
  match front.apiKey with
  | none => .ok ()
  | some expected =>
    match front.node .gate with
    | none => .error shuttingDown
    | some node =>
      match bearerVerdict req.headers expected with
      | .accepted => .ok ()
      | .refused => .error unauthorized
      | .absent =>
        match resolveCookie C U node.tables expected (sessionCookie req) (front.now .gate) with
        | .ok true => csrfGate req
        | .ok false => .error unauthorized
        | .error e => .error (internal e)

/-- A route behind the gate. -/
def gated (route : Handled) : Handled :=
  match authenticate C U front req with
  | .ok () => route
  | .error reply => { reply }

/-! ## Sessions -/

def sessionTtlSecs : ℕ := 8 * 60 * 60

/-- `commit_new_session_key`. -/
def commitNewSessionKey : List Effect × Except Reply Unit :=
  let op := ControlOp.sessionKeyPut (String.ofList (hexEncode front.freshKey))
  match validate U op with
  | .error reason => ([], .error (refusalResponse reason))
  | .ok () =>
    let request := mintRequest front.freshId op .unconditional (front.now .route)
    match front.park with
    | .error e => ([.park request], .error (internal ("cannot durably accept the write: " ++ e)))
    | .ok () =>
      match front.submit with
      | .timedOut => ([.park request, .submit request],
          .error (typedError 504 .timeout "write did not commit within the deadline; parked for replay"))
      | .unavailable detail => ([.park request, .submit request],
          .error (typedError 503 .unavailable ("no quorum / leader unreachable (parked for replay): " ++ detail)))
      | .failed e => ([.park request, .submit request], .error (internal e))
      | .committed response => ([.park request, .submit request, .unpark request.opId],
          match response.outcome with
          | .failed reason => .error (refusalResponse reason)
          | .applied => .ok ())

/-- `ensure_session_key`: after a commit of its own it reads the record again. -/
def ensureSessionKey (node : LocalNode) : List Effect × Except Reply SessionKey :=
  match sessionRecord U node.tables with
  | .error e => ([], .error (internal e))
  | .ok (some record) => ([], .ok record)
  | .ok none =>
    match commitNewSessionKey U front with
    | (effects, .error reply) => (effects, .error reply)
    | (effects, .ok ()) => (effects,
        match sessionRecord U node.awaited with
        | .error e => .error (internal e)
        | .ok (some record) => .ok record
        | .ok none => .error (internal "session key committed but not yet visible on this node"))

def grantSession (token : String) : Reply :=
  .own 200 .empty (some (.session token sessionTtlSecs))

def sessionLogin : Handled :=
  match front.node .route with
  | none => { reply := shuttingDown }
  | some node =>
    match req.body with
    | .error e => { reply := typedError 413 .requestTooLarge ("admin request body refused: " ++ e) }
    | .ok body =>
      match R.login body with
      | .error e => { reply := typedError 400 .badData ("invalid request JSON: " ++ e) }
      | .ok apiKey =>
        match front.apiKey with
        | none => { reply := typedError 400 .badData ("this fleet runs with no --api-key, so the admin plane is open " ++
            "and there is no credential to exchange for a session") }
        | some expected =>
          if !apiKeyMatches apiKey expected then { reply := unauthorized }
          else
            match ensureSessionKey U front node with
            | (effects, .error reply) => { effects, reply }
            | (effects, .ok record) =>
              match derive C record expected with
              | .error e => { effects, reply := internal ("stored session-signing key is not usable: " ++ e.text) }
              | .ok key => { effects, reply := grantSession (Session.mint C key (front.now .route) sessionTtlSecs) }

def clearSession : Reply := .own 204 .empty (some .cleared)

def sessionRotate : Handled :=
  if front.apiKey.isNone then
    { reply := typedError 400 .badData ("this fleet runs with no --api-key, so the admin plane is open and there are no " ++
        "sessions to end") }
  else
    gated C U front req (match front.node .route with
      | none => { reply := shuttingDown }
      | some _ =>
        match commitNewSessionKey U front with
        | (effects, .error reply) => { effects, reply }
        | (effects, .ok ()) => { effects, reply := clearSession })

/-- Nobody has to be logged in to log out, but a cross-site page cannot. -/
def sessionLogout : Handled :=
  match csrfGate req with
  | .error reply => { reply }
  | .ok () => { reply := clearSession }

/-! ## The gateway -/

/-- A value that is the fleet's own key takes its header with it, unless the key is blank. -/
def stripAdminBearer (headers : Headers) (apiKey : Option String) : Headers :=
  match apiKey.filter fun key => !(Auth.trim key.toList).isEmpty with
  | none => headers
  | some expected => ["authorization", "x-api-key"].foldl (fun headers carrier =>
      if headers.getAll carrier |>.any (· = utf8 expected) then headers.remove carrier else headers) headers

/-- A cookie header without the session's pair; one without the pair stays as it is. -/
def stripCookieValue (value : List UInt8) : Option (List UInt8) :=
  (toStr value).bind fun raw =>
    let pairs := (raw.toList.splitOn ';').map Auth.trim
    let named := fun pair => (cookiePair pair).map Prod.fst
    if !pairs.any fun pair => named pair = some sessionCookieName then some value
    else
      let remaining := pairs.filter fun pair => (named pair).any (· ≠ sessionCookieName)
      if remaining.isEmpty then none
      else some (utf8 (String.ofList ([';', ' '].intercalate remaining)))

def stripSessionCookie (headers : Headers) : Headers :=
  ((headers.getAll "cookie").filterMap stripCookieValue).foldl (fun headers value => headers.append "cookie" value)
    (headers.remove "cookie")

/-- What the gateway leg forwards of a request's headers. -/
def gatewayHeaders : Headers := stripSessionCookie (stripAdminBearer req.headers front.apiKey)

def gateway (rest : String) : Handled :=
  if (front.node .route).any LocalNode.hasEngine then
    { effects := [.dispatch rest (gatewayHeaders front req)], reply := .imposter }
  else
    { effects := [.forward .gateway (gatewayHeaders front req)], reply := .listener .gateway }

/-! ## The console -/

def shell : String := "index.html"

def consoleMatches (path : String) : Bool := path = "/console" || (strip? "/console/" path).isSome

def assetKey (path : String) : String :=
  match strip? "/console/" path with
  | none => shell
  | some rest => if rest = "" then shell else rest

def isSafeKey (relative : String) : Bool :=
  relative.toList.head? ≠ some '/' && !relative.toList.contains '\\' && !(relative.toList.splitOn '/').contains ['.', '.']

/-- Of the last segment. -/
def hasExtension (relative : String) : Bool := ((relative.toList.splitOn '/').getLastD []).contains '.'

def consoleServe (assets : List String) : Reply :=
  if req.method ≠ .get ∧ req.method ≠ .head then
    .own 405 (.plain "the console serves static assets; only GET and HEAD are supported") none
  else
    let relative := assetKey req.path
    if !isSafeKey relative then .own 404 (.plain "no such console asset") none
    else if assets.contains relative then .own 200 (.asset relative) none
    else if hasExtension relative then .own 404 (.plain "no such console asset") none
    else if assets.contains shell then .own 200 (.asset shell) none
    else .own 500 (.plain "the console bundle embedded in this binary contains no index.html") none

/-! ## Routes -/

/-- `fleet::classify`. -/
def fleetRoute : Option FleetRoute :=
  if req.method ≠ .get then none
  else (strip? "/_fleet/" req.path).bind fun rest =>
    if rest = "members" then some .members
    else if rest = "health" then some .health
    else (strip? "ops/" rest).bind fun id => (R.uuid (String.ofList (id.toList.takeWhile (· ≠ '?')))).map .op

def segments (path : String) : List String := (path.toList.splitOn '/').map String.ofList

/-- `parse::<u16>`. -/
def parsePort (text : String) : Option Port := (Auth.parseSecs text.toList).filter (· < 65536)

def spacesListTarget (path : String) : Option Port :=
  let path := String.ofList (path.toList.takeWhile (· ≠ '?'))
  ((strip? "/admin/imposters/" path).or (strip? "/imposters/" path)).bind fun rest =>
    match segments rest with
    | [port, "spaces"] | [port, "spaces", ""] => parsePort port
    | _ => none

/-- The routes below `/imposters/{port}`. -/
def classifyBelow (method : Method) (port : Port) : List String → Option Terminated
  | [] => if method = .delete then some (.deleteImposter port) else none
  | ["enable"] => if method = .post then some (.setEnabled port true) else none
  | ["disable"] => if method = .post then some (.setEnabled port false) else none
  | ["savedProxyResponses"] => if method = .delete then some (.clearSavedProxyResponses port) else none
  | ["spaces", flow] => if method = .delete ∧ flow ≠ "" then some (.spaceTeardown port flow) else none
  | ["spaces", flow, "stubs"] => if method = .post ∧ flow ≠ "" then some (.addSpaceStub port flow) else none
  | ["stubs"] => match method with
    | .post => some (.addStub port)
    | .put => some (.replaceStubs port)
    | _ => none
  | ["stubs", "by-id", id] => if id = "" then none else match method with
    | .put => some (.replaceStubById port id)
    | .delete => some (.deleteStubById port id)
    | _ => none
  | ["stubs", index] => if index = "" then none else match method with
    | .put => some (.replaceStubAt port index)
    | .delete => some (.deleteStubAt port index)
    | _ => none
  | _ => none

/-- The routes that name an imposter. -/
def classifyImposter (method : Method) (path : String) : Option Terminated :=
  (strip? "/imposters/" path).bind fun rest =>
    match segments rest with
    | [] => none
    | port :: below => (parsePort port).bind fun port => classifyBelow method port below

def classify (method : Method) (path : String) : Option Terminated :=
  if path = "/admin/fleet/name" ∧ method = .put then some .fleetNamePut
  else if path = "/specs/compile" then if method = .post then some .specCompile else none
  else if path = "/front-door/routes" then if method = .put then some .putRoutes else none
  else match strip? "/front-door/routes/" path with
    | some id => if method = .delete ∧ id ≠ "" then some (.deleteRoute id) else none
    | none =>
      if path = "/imposters" then match method with
        | .post => some .create
        | .put => some .replaceAllImposters
        | .delete => some .deleteAllImposters
        | _ => none
      else match if method = .get then spacesListTarget path else none with
        | some port => some (.spacesList port)
        | none =>
          match (strip? "/admin/imposters/" path).map segments with
          | some [port, "try"] => if method = .post then (parsePort port).map .tryImposter else none
          | _ => classifyImposter method path

/-- What the admin leg presents to the listener: the fleet's key, if a header can hold it, and no
other credential. -/
def presentFleetKey (headers : Headers) : Headers :=
  let bare := (headers.remove "x-api-key").remove "authorization"
  match front.apiKey with
  | some key => if (utf8 key).all fun byte => 32 ≤ byte && byte ≠ 127 || byte = 9 then bare.append "authorization" (utf8 key) else bare
  | none => bare

/-- `proxy` on the admin leg. -/
def proxyAdmin : Handled where
  effects := [.forward .admin (presentFleetKey front req.headers)]
  reply := .listener .admin

def methodNotAllowed (message : String) : Handled := { reply := typedError 405 .badData message }

/-- `handle`. -/
def handle : Handled :=
  match strip? "/__rift/" req.path, front.console with
  | some rest, _ => gateway front req rest
  | none, console =>
    match console.filter fun _ => consoleMatches req.path with
    | some assets => { reply := consoleServe req assets }
    | none =>
      if req.path = "/session" then match req.method with
        | .post => sessionLogin C U R front req
        | .delete => sessionLogout req
        | _ => methodNotAllowed "/session supports POST (login) and DELETE (logout) only"
      else if req.path = "/session/rotate" then match req.method with
        | .post => sessionRotate C U front req
        | _ => methodNotAllowed "/session/rotate supports POST only"
      else match fleetRoute R req with
        | some route => gated C U front req (match front.node .route with
            | none => { reply := shuttingDown }
            | some _ => { reply := .fleet route })
        | none =>
          if req.method = .get ∧ req.path = "/front-door/routes" then gated C U front req (match front.node .route with
            | none => { reply := shuttingDown }
            | some _ => { reply := .routes })
          else if req.method = .get ∧ req.path = "/openapi.json" then
            gated C U front req { reply := .contract }
          else match classify req.method req.path with
            | some kind => gated C U front req
                { effects := [.terminate kind], reply := .terminated kind }
            | none => gated C U front req (proxyAdmin front req)

end RiftCluster.Front
