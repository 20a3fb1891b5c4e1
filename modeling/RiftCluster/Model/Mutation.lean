import RiftCluster.Model.AdminFront

/-!
# Mutations

A terminated route that writes is a `Mutation`: `build_mutation` translates it into control
operations, from the request's body and the node's applied state. `run_mutation` passes it
through its gates, in this order, and mints a request for every operation: `requestsOf` is what
it goes on to park and submit. The reply's revision header is `{port}@{revision}`, with the
revision of the answer to the last request.

The decoders of the bodies, the script engine's two passes and the check of `lookup` files are
other crates' (`Doors`, `Scripts`). How the reply's body is rendered is left out.
-/

namespace RiftCluster.Front

open KV

open Auth (parseSecs)

open Spec (strip?)

/-- Whether a write adds content, and so must leave a config the engine admits. -/
inductive Admit where
  | content
  | nothing
  deriving DecidableEq, Repr

structure Mutation where
  ops : List ControlOp
  /-- The port of the revision header; none for a mutation of no single imposter. -/
  port : Option Port
  admission : Admit
  deriving DecidableEq, Repr

/-! ## Building one -/

/-- The decoders of the bodies. -/
structure Doors where
  config : List UInt8 → Except String ImposterConfig
  batch : List UInt8 → Except String (List ImposterConfig)
  stub : List UInt8 → Except String Stub
  addStub : List UInt8 → Except String (Stub × Option ℕ)
  stubs : List UInt8 → Except String (List Stub)
  /-- Why a JSON value is no stub, if it is not. -/
  notAStub : List UInt8 → Except String (Option String)
  fleetName : List UInt8 → Except String String
  routes : List UInt8 → Except String RouteTable

/-- `decode_config`: a refusal leads with the label of its door. -/
def decode {α : Type} (door : String) (read : Except String α) : Except Reply α :=
  read.mapError fun e => typedError 400 .badData (door ++ ": " ++ e)

variable (U : Upstream)

/-- `stored_config`. -/
def committedConfig (t : Tables) (port : Port) : Except Reply ImposterConfig :=
  match t.configs[port]? with
  | none => .error (typedError 404 .noSuchResource s!"no imposter on port {port}")
  | some row =>
    match U.imposter.read row with
    | .error e => .error (internal e)
    | .ok record => (U.config.read record.config).mapError fun e => internal (s!"stored config for {port}: " ++ e)

/-- `stub_position`: the canonical decimal of a position that exists. -/
def stubPosition (raw : String) (len : ℕ) : Option ℕ :=
  (parseSecs raw.toList).filter fun n => toString n = raw && n < len

def badStubIndex : Reply :=
  typedError 404 .badData "'stubIndex' must be a valid integer, representing the array index position of the stub to replace"

def needsPort : String := "a clustered imposter needs an explicit port: auto-assigned ports cannot replicate"

/-- One operation on one imposter. -/
def Mutation.single (port : Port) (admission : Admit) (op : ControlOp) : Mutation := { ops := [op], port := some port, admission }

/-- `put_config_mutation`. -/
def putConfigMutation (port : Port) (config : ImposterConfig) (admission : Admit) (restart : Option Restart) : Mutation :=
  .single port admission (.putImposter config restart)

/-- What the front reads to build a mutation. -/
structure BuildState where
  tables : Tables
  /-- Whether the loopback read of an imposter is answered `404`. -/
  missing : Port → Bool
  /-- `?reconcile=`. -/
  reconcile : Bool

/-- `build_mutation`. -/
def buildMutation (D : Doors) (s : BuildState) (body : List UInt8) : Terminated → Except Reply Mutation
  | .create => do
    let config ← decode "Invalid imposter JSON" (D.config body)
    match config.port with
    | none => .error (typedError 400 .badData needsPort)
    | some port => return putConfigMutation port config .content none
  | .replaceAllImposters => do
    let imposters ← decode "Invalid batch JSON" (D.batch body)
    let ops ← (replaceOps s.reconcile (existingPorts s.tables) imposters).mapError (typedError 400 .badData)
    return { ops, port := none, admission := .content }
  | .fleetNamePut => do
    let name ← decode "invalid request JSON" (D.fleetName body)
    return { ops := [.fleetNamePut name], port := none, admission := .nothing }
  | .deleteAllImposters => .ok { ops := [.deleteAll], port := none, admission := .nothing }
  | .deleteImposter port =>
    -- an imposter that is not there is deleted already
    if s.missing port then .error (.own 200 .empty none)
    else .ok (.single port .nothing (.deleteImposter port))
  | .addStub port => do
    let (stub, index) ← decode "Invalid stub JSON" (D.addStub body)
    return .single port .content (.patchStubs port [.add stub index])
  | .addSpaceStub port flow => do
    match ← decode "Invalid stub JSON" (D.notAStub body) with
    | some reason => .error (typedError 400 .badData reason)
    | none =>
      let stub ← decode "Invalid stub JSON" (D.stub body)
      return .single port .content (.patchStubs port [.add { stub with space := some flow } none])
  | .replaceStubs port => do
    let stubs ← decode "Invalid stubs JSON" (D.stubs body)
    let config ← committedConfig U s.tables port
    return putConfigMutation port { config with stubs } .content (some .allStubs)
  | .replaceStubAt port raw => do
    let config ← committedConfig U s.tables port
    match stubPosition raw config.stubs.length with
    | none => .error badStubIndex
    | some index =>
      let stub ← decode "Invalid stub JSON" (D.stub body)
      return putConfigMutation port { config with stubs := config.stubs.set index stub } .content (some (.stubAt index))
  | .deleteStubAt port raw => do
    let config ← committedConfig U s.tables port
    match stubPosition raw config.stubs.length with
    | none => .error badStubIndex
    | some index => return putConfigMutation port { config with stubs := config.stubs.eraseIdx index } .nothing none
  | .replaceStubById port id => do
    let stub ← decode "Invalid stub JSON" (D.stub body)
    return .single port .content (.patchStubs port [.replaceById id stub])
  | .deleteStubById port id => .ok (.single port .nothing (.patchStubs port [.deleteById id]))
  | .setEnabled port enabled => .ok (.single port .nothing (.setEnabled port enabled))
  | .putRoutes => do
    let table ← decode "invalid request JSON" (D.routes body)
    return { ops := [.putRoutes table], port := none, admission := .nothing }
  | .deleteRoute id =>
    match desiredRoutes U s.tables.routes with
    | .error (_, e) => .error (internal e)
    | .ok table =>
      if table.routes.any fun route => route.id = id then .ok { ops := [.deleteRoute id], port := none, admission := .nothing }
      else .error (typedError 404 .noSuchResource ("no route with id " ++ U.debugStr id))
  | .clearSavedProxyResponses port => .ok (.single port .nothing (.proxyRecordedClear port))
  | .spaceTeardown _ _ =>
    .error (internal "space teardown is served by terminate_space_teardown, not build_mutation")
  | .spacesList _ => .error (internal "the spaces listing is served by terminate_spaces_list, not build_mutation")
  | .tryImposter _ => .error (internal "a try is served by terminate_try_imposter, not build_mutation")
  | .specCompile => .error (internal "the OpenAPI compile is served by terminate_spec_compile, not build_mutation")

/-! ## Preconditions -/

def routesRevisionSubject : String := "routes"

/-- The revision header of a write. -/
def revisionHeader (port : Option Port) (revision : ℕ) : String :=
  match port with
  | some port => toString port ++ "@" ++ toString revision
  | none => routesRevisionSubject ++ "@" ++ toString revision

/-- `precondition_port`: the port a token must name, or none for the route table. -/
def preconditionPort (mutation : Mutation) : Except Reply (Option Port) :=
  match mutation.port with
  | some port => .ok (some port)
  | none =>
    if !mutation.ops.isEmpty && mutation.ops.all fun op => preconditionTarget op = some .routeTable then .ok none
    else .error (typedError 400 .badData "If-Match applies to single-imposter and route-table operations only")

/-- A text without one pair of double quotes around it. -/
def unquote (s : List Char) : List Char :=
  match s with
  | '"' :: rest => if rest.getLast? = some '"' then rest.dropLast else s
  | _ => s

/-- `parse_if_match`. -/
def parseIfMatch (raw : String) (expected : Option Port) : Except Reply ℕ :=
  let bad : Reply := typedError 400 .badData ("If-Match must be the value from rift-cluster-revision (" ++
    (match expected with
      | some port => toString port
      | none => routesRevisionSubject) ++ "@<revision>) or a bare revision integer")
  let text := unquote (Auth.trim raw.toList)
  match parseSecs text with
  | some revision => .ok revision
  | none =>
    match splitOnce ['@'] text with
    | none => .error bad
    | some (addressed, revision) =>
      let named : Bool := match expected with
        | some port => parsePort (String.ofList addressed) = some port
        | none => String.ofList addressed = routesRevisionSubject
      if named then (parseSecs revision).elim (.error bad) .ok else .error bad

/-! ## The gates -/

/-- The script engine's passes, the `lookup` check and the entry's size. -/
structure Scripts where
  usesScript : ControlOp → Bool
  /-- `resolve_scripts`. -/
  resolveConfig : ImposterConfig → Except String ImposterConfig
  /-- `resolve_stub_scripts`, with the scripts of the imposter it is for, if there is one. -/
  resolveStub : Option ImposterConfig → Stub → Except String Stub
  checkLookups : ControlOp → Except String Unit
  /-- `validate_stubs`, of a whole config. -/
  validateStubs : List Stub → Except String Unit
  /-- `validate_stub`, at its index. -/
  validateStub : Stub → ℕ → Except String Unit
  /-- The bytes of a serialized request. -/
  entrySize : ControlRequest → ℕ
  resolve_port : ∀ {config config'}, resolveConfig config = .ok config' → config'.port = config.port

def maxEntryBytes : ℕ := 8 * 1024 * 1024

/-- `admit_entry_size`. -/
def admitEntrySize (G : Scripts) (request : ControlRequest) : Except String Unit :=
  if G.entrySize request > maxEntryBytes then
    .error ("log entry is " ++ toString (G.entrySize request) ++ s!" bytes serialized, over the {maxEntryBytes}-byte " ++
      "log entry bound")
  else .ok ()

structure GateState where
  tables : Tables
  allowInjection : Bool
  /-- `PUT /imposters`. -/
  isBatch : Bool
  /-- `POST /imposters`. -/
  createOnly : Bool
  ifMatch : Option String
  /-- The base op id, and the name-based id of an index under it. -/
  base : String
  v5 : String → ℕ → String
  /-- The clock's reading for each request. -/
  now : ℕ → ℕ

variable (G : Scripts) (s : GateState)

/-- The precondition of every request. -/
def preconditionOf (mutation : Mutation) : Except Reply Precondition :=
  match s.ifMatch with
  | some raw => do return .revision (← parseIfMatch raw (← preconditionPort mutation))
  | none => .ok (if s.createOnly then .absent else .unconditional)

def injectionDisallowed : Reply :=
  typedError 400 .invalidInjection ("inject requires --allowInjection to be set. See " ++
    "http://www.mbtest.org/docs/api/injection for more information.")

def injectionGate (mutation : Mutation) : Except Reply Unit :=
  if !s.allowInjection && mutation.ops.any G.usesScript then .error injectionDisallowed else .ok ()

/-- `imposter[{idx}] (port {:?})`, of an imposter of a batch. -/
def inBatch (index : Option ℕ) (port : Option Port) : String :=
  match index with
  | none => ""
  | some index => s!" in imposter[{index}] (port " ++ (match port with
      | some port => s!"Some({port})"
      | none => "None") ++ ")"

/-- The payload index of every put of a batch. -/
def batchIndices (isBatch : Bool) (ops : List ControlOp) : List (Option ℕ) :=
  ops.mapIdx fun index op => match op with
    | .putImposter _ _ =>
      if isBatch then some ((ops.take index).countP fun
        | .putImposter _ _ => true
        | _ => false) else none
    | _ => none

/-- One step of a stub edit with its stub resolved. -/
def resolveStep (config : Option ImposterConfig) : StubEdit → Except String StubEdit
  | .add stub index => (G.resolveStub config stub).map (StubEdit.add · index)
  | .replaceById id stub => (G.resolveStub config stub).map (StubEdit.replaceById id)
  | step => .ok step

/-- The imposter whose scripts a stub may name; none on the port is none. -/
def scriptContext (port : Port) : Except Reply (Option ImposterConfig) :=
  match s.tables.configs[port]? with
  | none => .ok none
  | some _ => (committedConfig U s.tables port).map some

/-- `resolve_op_scripts`. -/
def resolveOpScripts (op : ControlOp) (batchIndex : Option ℕ) : Except Reply ControlOp :=
  match op with
  | .putImposter config restart =>
    ((G.resolveConfig config).mapError fun e =>
      typedError 400 .badData ("Script resolution failed" ++ inBatch batchIndex config.port ++ ": " ++ e)).map
      (ControlOp.putImposter · restart)
  | .patchStubs port edit =>
    if edit.any StubEdit.addsContent then do
      let config ← scriptContext U s port
      let edit ← (edit.mapM (resolveStep G config)).mapError fun e =>
        typedError 400 .badData ("Script resolution failed: " ++ e)
      return .patchStubs port edit
    else .ok op
  | op => .ok op

/-- `validate_op_scripts`. -/
def validateOpScripts (op : ControlOp) (batchIndex : Option ℕ) : Except Reply Unit :=
  match op with
  | .putImposter config _ => (G.validateStubs config.stubs).mapError fun e =>
      typedError 400 .badData ("Script validation failed" ++ inBatch batchIndex config.port ++ ": " ++ e)
  | .patchStubs _ edit => (edit.forM fun
      | .add stub index => G.validateStub stub (index.getD 0)
      | .replaceById _ stub => G.validateStub stub 0
      | _ => .ok ()).mapError fun e => typedError 400 .badData ("Script validation failed: " ++ e)
  | _ => .ok ()

/-- `admission_refusal`. What the state machine will refuse is left to it. -/
def admissionRefusal (op : ControlOp) : Option String :=
  match op with
  | .putImposter config _ => match U.admissionVerdict config with
    | .error reason => some reason
    | .ok () => none
  | .patchStubs port edit =>
    if edit.any StubEdit.addsContent then
      match committedConfig U s.tables port with
      | .error _ => none
      | .ok config => match applyEdit U config.stubs edit with
        | .error _ => none
        | .ok stubs => match U.admissionVerdict { config with stubs } with
          | .error reason => some reason
          | .ok () => none
    else none
  | _ => none

/-- `admit_op`. -/
def admitOp (op : ControlOp) (batchIndex : Option ℕ) : Except Reply Unit :=
  match admissionRefusal U s op with
  | none => .ok ()
  | some reason => .error (typedError 400 .badData
      (if batchIndex.isSome then "Invalid imposter set (imposters unchanged): " ++ reason else reason))

/-- The content checks, which a write that only removes is spared. -/
def ifContent (mutation : Mutation) (check : Except Reply Unit) : Except Reply Unit :=
  if mutation.admission = .content then check else .ok ()

/-- The operations after the gates, scripts resolved. -/
def gatedOps (mutation : Mutation) : Except Reply (List ControlOp) := do
  mutation.ops.forM fun op => (validate U op).mapError refusalResponse
  let _ ← preconditionOf s mutation
  injectionGate G s mutation
  let indexed := mutation.ops.zip (batchIndices s.isBatch mutation.ops)
  -- every operation is resolved before any is validated
  let ops ← indexed.mapM fun (op, index) => resolveOpScripts U G s op index
  ifContent mutation (ops.forM fun op => (G.checkLookups op).mapError (typedError 400 .badData))
  let indexed := ops.zip (batchIndices s.isBatch mutation.ops)
  indexed.forM fun (op, index) => validateOpScripts G op index
  ifContent mutation (indexed.forM fun (op, index) => admitOp U s op index)
  return ops

/-- `run_mutation` up to its parking: the requests it goes on with. -/
def requestsOf (mutation : Mutation) : Except Reply (List ControlRequest) := do
  let ops ← gatedOps U G s mutation
  let precondition ← preconditionOf s mutation
  let requests := ops.mapIdx fun index op => mintRequest (opIdFor s.v5 s.base index ops.length) op precondition (s.now index)
  requests.forM fun request => (admitEntrySize G request).mapError fun e =>
    typedError 413 .requestTooLarge ("the write is too large to replicate: " ++ e)
  return requests

end RiftCluster.Front
