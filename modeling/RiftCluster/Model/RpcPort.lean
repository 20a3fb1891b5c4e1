import RiftCluster.Lib.Json
import RiftCluster.Model.Auth

/-!
# The cluster port

`rpc/server.rs` and `rpc/routes.rs`: the port on which the members answer each other. `dispatch`
checks a request's protocol version, the size of its body, its credential and the member it is
addressed to, and then calls the handler of its route. An error is answered as a status with a
JSON envelope (`errorResponse`), and `rpc/client.rs` reads it back (`statusToError`).

Handlers are left open: `dispatch` says which one is called, and with what. A body here has
arrived whole; one that breaks off is answered as one that is too large.
-/

namespace RiftCluster

/-! ## Errors -/

namespace Auth

/-- The error's label. -/
def AuthError.reason : AuthError → String
  | .malformed => "malformed"
  | .badMac => "bad_mac"
  | .staleTimestamp => "stale_timestamp"
  | .replayedNonce => "replayed_nonce"
  | .nonceCacheFull => "nonce_cache_full"

def AuthError.display : AuthError → String
  | .malformed => "malformed cluster auth header"
  | .badMac => "cluster auth MAC mismatch"
  | .staleTimestamp => "cluster auth timestamp outside skew window"
  | .replayedNonce => "cluster auth nonce replayed"
  | .nonceCacheFull => "cluster auth nonce cache full"

end Auth

namespace Rpc

open KV JsonText

structure ProtocolVersion where
  major : ℕ
  minor : ℕ
  deriving DecidableEq, Repr

/-- `PROTO_VERSION`. -/
def protoVersion : ProtocolVersion := ⟨1, 0⟩

def ProtocolVersion.display (v : ProtocolVersion) : String := toString v.major ++ "." ++ toString v.minor

/-- `{:?}` of an announced version. -/
def debugPeer : Option ProtocolVersion → String
  | none => "None"
  | some v => "Some(ProtocolVersion \x7b major: " ++ toString v.major ++ ", minor: " ++ toString v.minor ++ " \x7d)"

inductive RpcError where
  | unauthorized (error : Auth.AuthError)
  | versionSkew (peer : Option ProtocolVersion) (ours : ProtocolVersion)
  | unknownRoute (method path : String)
  | bodyTooLarge (limit : ℕ)
  | timeout
  | transport (detail : String)
  | shed
  | badRequest (detail : String)
  | unavailable (detail : String) (opId : Option String)
  | notLeader (leader : Option String)
  | handler (detail : String)
  | notFound (what : String)
  | wrongNode (expected actual : ℕ)
  deriving DecidableEq, Repr

namespace RpcError

def display : RpcError → String
  | .unauthorized e => "unauthorized: " ++ e.display
  | .versionSkew peer ours => "protocol version skew: peer " ++ debugPeer peer ++ ", ours " ++ ours.display
  | .unknownRoute method path => "unknown route: " ++ method ++ " " ++ path
  | .bodyTooLarge limit => "request body exceeds " ++ toString limit ++ " bytes"
  | .timeout => "request timed out"
  | .transport detail => "transport failure: " ++ detail
  | .shed => "shed: no bridge capacity"
  | .badRequest detail => "bad request: " ++ detail
  | .unavailable detail _ => "unavailable: " ++ detail
  | .notLeader leader => "not the leader" ++ (leader.map ("; leader is " ++ ·)).getD ""
  | .handler detail => "handler error: " ++ detail
  | .notFound what => "not found: " ++ what
  | .wrongNode expected actual =>
    "request for node " ++ toString expected ++ " was answered by node " ++ toString actual

def reason : RpcError → String
  | .unauthorized e => e.reason
  | .versionSkew _ _ => "version_skew"
  | .unknownRoute _ _ => "unknown_route"
  | .bodyTooLarge _ => "body_too_large"
  | .timeout => "timeout"
  | .transport _ => "transport"
  | .shed => "shed"
  | .badRequest _ => "bad_request"
  | .unavailable _ _ => "unavailable"
  | .notLeader _ => "not_leader"
  | .handler _ => "handler"
  | .notFound _ => "not_found"
  | .wrongNode _ _ => "wrong_node"

def status : RpcError → ℕ
  | .unauthorized _ => 401
  | .versionSkew _ _ => 426
  | .unknownRoute _ _ => 404
  | .bodyTooLarge _ => 413
  | .timeout => 504
  | .transport _ => 502
  | .shed => 503
  | .badRequest _ => 400
  | .unavailable _ _ => 503
  | .notLeader _ => 421
  | .handler _ => 500
  | .notFound _ => 404
  | .wrongNode _ _ => 409

def isLivenessFailure : RpcError → Bool
  | .timeout | .transport _ | .shed => true
  | _ => false

end RpcError

/-! ## An error on the wire -/

structure ErrorResponse where
  status : ℕ
  body : String

/-- The bytes a header's value may have. -/
def headerValueOk (s : String) : Bool := (Auth.utf8 s).all fun b => (32 ≤ b && b ≠ 127) || b = 9

/-- The members of the envelope, in the order of their keys. -/
def RpcError.envelope (e : RpcError) : List (String × Json) :=
  match e with
  | .wrongNode expected actual =>
    [("actual", .str (toString actual)), ("error", .str e.reason), ("expected", .str (toString expected)),
      ("message", .str e.display)]
  | .notLeader (some leader) => [("error", .str e.reason), ("leader", .str leader), ("message", .str e.display)]
  | .unavailable _ (some opId) => [("error", .str e.reason), ("message", .str e.display), ("opId", .str opId)]
  | _ => [("error", .str e.reason), ("message", .str e.display)]

/-- `error_response`. An op id is also set as a header, and one that cannot be leaves a bare
`500`. -/
def errorResponse (e : RpcError) : ErrorResponse :=
  match e with
  | .unavailable _ (some opId) =>
    if headerValueOk opId then ⟨e.status, (Json.object e.envelope).write⟩ else ⟨500, (Json.object []).write⟩
  | _ => ⟨e.status, (Json.object e.envelope).write⟩

/-- `as_str`. -/
def asStr : Json → Option String
  | .str s => some s
  | _ => none

/-- `auth_error_from_reason`. -/
def authErrorFromReason : Option String → Auth.AuthError
  | some "malformed" => .malformed
  | some "stale_timestamp" => .staleTimestamp
  | some "replayed_nonce" => .replayedNonce
  | some "nonce_cache_full" => .nonceCacheFull
  | _ => .badMac

/-- A member of a response's envelope that is a string. -/
def envelopeField (body name : String) : Option String := ((Json.read body).bind (Json.member name)).bind asStr

/-- `status_to_error`. -/
def statusToError (r : ErrorResponse) (method path : String) : RpcError :=
  let field := envelopeField r.body
  let detail := (field "message").getD ("peer returned status " ++ toString r.status)
  match r.status with
  | 401 => .unauthorized (authErrorFromReason (field "error"))
  | 400 => .badRequest detail
  | 404 => if field "error" = some "not_found" then .notFound detail else .unknownRoute method path
  | 413 => .bodyTooLarge 0
  | 409 =>
    match field "error", (field "expected").bind (Auth.parseSecs ·.toList), (field "actual").bind (Auth.parseSecs ·.toList) with
    | some "wrong_node", some expected, some actual => .wrongNode expected actual
    | _, _, _ => .handler detail
  | 421 => .notLeader (field "leader")
  | 426 => .versionSkew none protoVersion
  | 503 => if field "error" = some "unavailable" then .unavailable detail (field "opId") else .shed
  | 504 => .timeout
  | _ => .handler detail

/-- The error that a caller sees, of the one its peer answered `method path` with. -/
def received (method path : String) (e : RpcError) : RpcError := statusToError (errorResponse e) method path

/-! ## Versions -/

/-- `parse::<u16>`. -/
def parseU16 (s : List Char) : Option ℕ := (Auth.parseSecs s).filter (· < 2 ^ 16)

def ProtocolVersion.parse (value : String) : Option ProtocolVersion := do
  let (major, minor) ← splitOnce ['.'] (Auth.trim value.toList)
  return ⟨← parseU16 major, ← parseU16 minor⟩

/-- `negotiate`. -/
def negotiate (header : Option String) : Except RpcError ProtocolVersion :=
  match header.bind ProtocolVersion.parse with
  | none => .error (.versionSkew none protoVersion)
  | some peer => if protoVersion.major = peer.major then .ok peer else .error (.versionSkew (some peer) protoVersion)

/-! ## Addresses -/

/-- `route_path`: what stands before the query. -/
def routePath (path : String) : List Char := (splitOnce ['?'] path.toList).elim path.toList Prod.fst

/-- `addressed`. -/
def addressed (path : String) (dest : ℕ) : String :=
  path ++ (if '?' ∈ path.toList then "&" else "?") ++ "to=" ++ toString dest

/-- The value of a pair `to=value`. -/
def toValue (pair : List Char) : Option (List Char) := if ['t', 'o', '='].isPrefixOf pair then some (pair.drop 3) else none

/-- One value of the loop of `recipient`. -/
def readRecipient (found : Option ℕ) (value : List Char) : Except RpcError (Option ℕ) :=
  if found.isSome then .error (.badRequest "the recipient \x60to\x60 is given more than once")
  else if value.isEmpty || !value.all isAsciiDigit then
    .error (.badRequest ("the recipient \x60to=" ++ String.ofList value ++ "\x60 is not a node id"))
  else match parseU64 value with
    | none => .error (.badRequest ("the recipient \x60to=" ++ String.ofList value ++ "\x60 is out of range"))
    | some id => .ok (some id)

/-- The member that a query names. -/
def queryRecipient (query : List Char) : Except RpcError (Option ℕ) :=
  if ['t', 'o'] ∈ query.splitOn '&' then .error (.badRequest "the recipient \x60to\x60 has no value")
  else ((query.splitOn '&').filterMap toValue).foldlM readRecipient none

/-- `recipient`: the member that a request is addressed to. -/
def recipient (path : String) : Except RpcError (Option ℕ) :=
  match splitOnce ['?'] path.toList with
  | none => .ok none
  | some (_, query) => queryRecipient query

/-! ## Routes -/

/-- A route for the paths under a prefix. -/
structure PrefixRoute (H : Type) where
  method : String
  under : String
  handler : H

/-- The routes as they were registered, under methods in capitals. -/
structure Router (H : Type) where
  routes : Table (String × String) H := ∅
  prefixRoutes : List (PrefixRoute H) := []
  streamRoutes : List (PrefixRoute H) := []

/-- `to_ascii_uppercase`. -/
def upper (method : String) : String := String.ofList (method.toList.map Char.toUpper)

variable {H : Type}

namespace Router

def lookup (r : Router H) (method path : String) : Option H := r.routes[(upper method, String.ofList (routePath path))]?

end Router

/-- The route's method is `method`, and the path stands under its prefix. -/
def PrefixRoute.covers (method : String) (path : List Char) (p : PrefixRoute H) : Bool :=
  p.method == method && p.under.toList.isPrefixOf path

/-- `max_by_key`: of several that are greatest, the last. -/
def maxByKey {α : Type} (key : α → ℕ) (l : List α) : Option α := l.reverse.argmax key

/-- The route of the longest prefix, and what stands behind it in the whole path. -/
def lookupUnder (routes : List (PrefixRoute H)) (method path : String) : Option (H × String) :=
  (maxByKey (·.under.utf8ByteSize) (routes.filter (·.covers (upper method) (routePath path)))).map
    fun p => (p.handler, String.ofList (path.toList.drop p.under.toList.length))

namespace Router

def lookupPrefix (r : Router H) (method path : String) : Option (H × String) := lookupUnder r.prefixRoutes method path

def lookupStreamPrefix (r : Router H) (method path : String) : Option (H × String) := lookupUnder r.streamRoutes method path

end Router

/-! ## Dispatch -/

/-- A handler that is called, and what it is called with. -/
inductive HandlerRun (H : Type) where
  | exact (handler : H) (body : List UInt8)
  | under (handler : H) (suffix : String) (body : List UInt8)
  | streamed (handler : H) (suffix : String)
  deriving DecidableEq

/-- What becomes of a request. -/
inductive Served (H : Type) where
  | ran (run : HandlerRun H)
  | refused (error : RpcError)
  /-- Reading the credential panicked, and the connection with it. -/
  | panicked
  deriving DecidableEq

/-- The handler of a request's route. -/
def Router.serve (r : Router H) (req : Auth.SignedRequest) : Served H :=
  match r.lookup req.method req.path with
  | some handler => .ran (.exact handler req.body)
  | none =>
    match r.lookupPrefix req.method req.path with
    | some (handler, suffix) => .ran (.under handler suffix req.body)
    | none =>
      match r.lookupStreamPrefix req.method req.path with
      | some (handler, suffix) => .ran (.streamed handler suffix)
      | none => .refused (.unknownRoute req.method req.path)

structure ServerConfig (H : Type) where
  verifier : Option Auth.Verifier
  router : Router H
  maxBodyBytes : ℕ := 32 * 1024 * 1024
  nodeId : Option ℕ := none

/-- A request as it arrives: its version, and the rest as the verifier is called with it. -/
structure Incoming where
  proto : Option String
  call : Auth.VerifyCall

namespace ServerConfig

/-- What `dispatch` does once the credential has passed. -/
def deliver (config : ServerConfig H) (req : Auth.SignedRequest) : Served H :=
  match recipient req.path, config.nodeId with
  | .error e, _ => .refused e
  | .ok (some dest), some me => if dest ≠ me then .refused (.wrongNode dest me) else config.router.serve req
  | .ok _, _ => config.router.serve req

/-- `dispatch`: what becomes of the request, and the nonces seen after it. -/
def dispatch (tag : List UInt8 → List UInt8) (config : ServerConfig H) (seen : Table String ℕ) (r : Incoming) :
    Served H × Table String ℕ :=
  match negotiate r.proto with
  | .error e => (.refused e, seen)
  | .ok _ =>
    if config.maxBodyBytes < r.call.req.body.length then (.refused (.bodyTooLarge config.maxBodyBytes), seen)
    else
      match config.verifier with
      | none => (config.deliver r.call.req, seen)
      | some v =>
        match v.verifyAt tag seen r.call with
        | (.accepted, seen) => (config.deliver r.call.req, seen)
        | (.refused e, seen) => (.refused (.unauthorized e), seen)
        | (.panicked, seen) => (.panicked, seen)

end ServerConfig

/-! ## A fleet of ports -/

/-- A request reaches a port, from wherever it comes, or a process starts again. -/
inductive PortEvent where
  | deliver (port : ℕ) (r : Incoming)
  | restart (port : ℕ)

variable (tag : List UInt8 → List UInt8) (fleet : ℕ → ServerConfig H)

/-- The nonces seen at every port. A new process has seen none. -/
def fleetStep (seen : ℕ → Table String ℕ) : PortEvent → ℕ → Table String ℕ
  | .deliver port r => Function.update seen port ((fleet port).dispatch tag (seen port) r).2
  | .restart port => Function.update seen port ∅

def fleetAt (events : List PortEvent) (n : ℕ) : ℕ → Table String ℕ :=
  Trace.stateAt (fleetStep tag fleet) (fun _ => ∅) events n

/-- What becomes of the `n`-th event's request. -/
def servedAt (events : List PortEvent) (n : ℕ) : Option (Served H) :=
  events[n]?.bind fun
    | .deliver port r => some ((fleet port).dispatch tag (fleetAt tag fleet events n port) r).1
    | .restart _ => none

/-! ## Reaching a member -/

/-- Why no address of a peer gave a reply. -/
inductive SweepFailure (A : Type) where
  | noAddresses
  | attempted (peer : A) (error : RpcError)

def RpcError.isWrongNode : RpcError → Bool
  | .wrongNode _ _ => true
  | _ => false

/-- An answer that is no word of the peer itself: silence, or another node's. -/
def RpcError.skipped (e : RpcError) : Bool := e.isLivenessFailure || e.isWrongNode

/-- The loop of `sweep_addresses`, from the failure before. -/
def sweepFrom {A T : Type} (call : A → Except RpcError T) (last : SweepFailure A) : List A → Except (SweepFailure A) T
  | [] => .error last
  | peer :: addrs =>
    match call peer with
    | .ok reply => .ok reply
    | .error e => if e.skipped then sweepFrom call (.attempted peer e) addrs else .error (.attempted peer e)

def sweepAddresses {A T : Type} (addrs : List A) (call : A → Except RpcError T) : Except (SweepFailure A) T :=
  sweepFrom call .noAddresses addrs

end Rpc

end RiftCluster
