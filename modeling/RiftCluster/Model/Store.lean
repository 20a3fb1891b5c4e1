import RiftCluster.Model.Recording

/-!
# The replicated tables

`mutate_tables` and what it is made of: the state machine's tables, the desired
engine state read off them, the preconditions, and one function per operation.

A transaction has no rollback per entry, so every operation takes the tables and
returns them next to its outcome: an operation that wrote a row and refused
afterwards would show it.
-/

namespace RiftCluster

open KV

/-! ## Tables and actions -/

/-- The tables an operation can write. The three last-row tables hold one row,
under its own name. -/
structure Tables where
  configs : Table Port String := ∅
  routes : Table String String := ∅
  routesRevision : Table String ℕ := ∅
  sessionKey : Table String String := ∅
  fleetName : Table String String := ∅
  proxyRecorded : Table (Port × String) String := ∅
  deriving DecidableEq

def routesRevisionRow : String := "revision"

def sessionKeyRow : String := "key"

def fleetNameRow : String := "name"

/-- What a whole-set drive is told: every port that has a row, the configs this
engine admits, and the rows it refuses with the reason. -/
structure DesiredSet where
  held : List Port
  admitted : List ImposterConfig
  refused : List (Port × String)
  deriving DecidableEq, Repr

inductive EngineAction where
  | sync (desired : DesiredSet)
  | put (config : ImposterConfig) (restart : Option Restart)
  | clearProxyResponses (port : Port)
  | restart (port : Port) (restart : Restart) (stubs : List Stub)
  | delete (port : Port)
  | patch (port : Port) (edit : StubEditScript)
  | appendResponses (port : Port) (id : String) (responses : List StubResponse) (merged : Stub)
  | setEnabled (port : Port) (enabled : Bool)
  | syncRoutes (table : RouteTable)
  | refuseRoutesSync (id error : String)
  deriving DecidableEq, Repr

/-- The result of an operation: the tables it leaves, and the engine actions of an
applied operation or the reason of a refused one. -/
abbrev Outcome := Tables × Except String (List EngineAction)

variable (U : Upstream)

/-! ## Desired state -/

/-- Decode a row and ask the engine: its config, or why this engine refuses it. -/
def admitRow (row : String) : Except String ImposterConfig :=
  match U.imposter.read row with
  | .error e => .error ("stored record will not parse: " ++ e)
  | .ok record =>
    match U.config.read record.config with
    | .error e => .error ("stored config will not parse: " ++ e)
    | .ok config =>
      match U.admissionVerdict config with
      | .error reason => .error reason
      | .ok () => .ok config

def desiredConfigs (configs : Table Port String) : DesiredSet where
  held := configs.toList.map Prod.fst
  admitted := configs.toList.filterMap fun kv => (admitRow U kv.2).toOption
  refused := configs.toList.filterMap fun kv =>
    match admitRow U kv.2 with
    | .ok _ => none
    | .error reason => some (kv.1, reason)

def syncAction (configs : Table Port String) : EngineAction := .sync (desiredConfigs U configs)

/-- The drive for an edit that left `config`: none where the engine refuses it, the
whole config where the engine never ran what the edit started from, else the
incremental action. -/
def editDrive (wasAdmitted : Bool) (config : ImposterConfig) (action : EngineAction) : List EngineAction :=
  match U.admissionVerdict config with
  | .error _ => []
  | .ok () => if wasAdmitted then [action] else [.put config none]

/-- Every stored route, in id order, or the first that will not parse. -/
def desiredRoutes (routes : Table String String) : Except (String × String) RouteTable :=
  (routes.toList.mapM fun (kv : String × String) =>
    match U.route.read kv.2 with
    | .ok route => Except.ok route
    | .error e => .error (kv.1, "stored route will not parse: " ++ e)).map RouteTable.mk

def syncRoutesAction (routes : Table String String) : EngineAction :=
  match desiredRoutes U routes with
  | .ok table => .syncRoutes table
  | .error (id, error) => .refuseRoutesSync id error

/-! ## Preconditions -/

def checkExpectAbsent (t : Tables) (op : ControlOp) : Except String Unit :=
  match preconditionTarget op with
  | some (.imposter port) =>
    if t.configs[port]?.isSome then .error s!"Port {port} is already in use" else .ok ()
  | _ => .error "revision conflict: an absent-record precondition applies to single-imposter operations only"

/-- The route table's revision; no row means it has never been written. -/
def Tables.routeRevision (t : Tables) : ℕ := t.routesRevision[routesRevisionRow]?.getD 0

def checkExpectedRevision (t : Tables) (op : ControlOp) (expected : ℕ) : Except String Unit :=
  match preconditionTarget op with
  | none => .error ("revision conflict: expected-revision preconditions apply to single-imposter and " ++
      "route-table operations only")
  | some (.imposter port) =>
    match t.configs[port]? with
    | none => .error s!"revision conflict: expected revision {expected} but no imposter on port {port}"
    | some row =>
      match U.imposter.read row with
      | .ok record =>
        if record.revision = expected then .ok ()
        else .error (s!"revision conflict: expected revision {expected}, stored revision " ++
          toString record.revision ++ s!" on port {port}")
      | .error e => .error s!"corrupt stored record for port {port}: {e}"
  | some .routeTable =>
    if t.routeRevision = expected then .ok ()
    else .error (s!"revision conflict: expected revision {expected}, stored revision " ++
      toString t.routeRevision ++ " for the route table")

def checkPreconditions (t : Tables) (request : ControlRequest) : Except String Unit :=
  match request.expectedRevision, request.expectAbsent with
  | none, false => .ok ()
  | some expected, false => checkExpectedRevision U t request.op expected
  | none, true => checkExpectAbsent t request.op
  | some _, true => .error "revision conflict: expect_absent and expected_revision cannot be combined"

/-! ## Table writes the operations share -/

/-- Decode the row of a port that an edit starts from. -/
def storedImposter (t : Tables) (port : Port) : Except String (StoredImposter × ImposterConfig) :=
  match t.configs[port]? with
  | none => .error s!"no imposter on port {port}"
  | some row =>
    match U.imposter.read row with
    | .error e => .error s!"corrupt stored record for port {port}: {e}"
    | .ok record =>
      match U.config.read record.config with
      | .error e => .error s!"corrupt stored config for port {port}: {e}"
      | .ok config => .ok (record, config)

/-- Write a port's row. -/
def Tables.store (t : Tables) (port : Port) (config : ImposterConfig) (enabled : Bool) (revision : ℕ) : Tables :=
  { t with configs := t.configs.insert port (U.imposterRow config enabled revision) }

/-- Remove the markers of some signature hashes of a port. -/
def Tables.forget (t : Tables) (port : Port) (hashes : List String) : Tables :=
  { t with proxyRecorded := hashes.foldl (fun rows h => rows.erase (port, h)) t.proxyRecorded }

/-- Remove every marker of a port. -/
def Tables.forgetPort (t : Tables) (port : Port) : Tables :=
  { t with proxyRecorded := t.proxyRecorded.retain fun key _ => key.1 != port }

/-- Write a marker. -/
def Tables.mark (t : Tables) (port : Port) (sigHash : String) (resp : RecordedResponse) : Tables :=
  { t with proxyRecorded := t.proxyRecorded.insert (port, sigHash) (U.recorded.write resp) }

/-- Stamp the route table with the applying log index. -/
def Tables.stampRoutes (t : Tables) (index : ℕ) : Tables :=
  { t with routesRevision := t.routesRevision.insert routesRevisionRow index }

/-! ## Operations -/

/-- Whether a port has any marker: the first row at or after its least key is its own. -/
def hasMarkers (t : Tables) (port : Port) : Bool :=
  (t.proxyRecorded.rangeFrom (port, "")).head?.any fun kv => kv.1.1 == port

/-- The markers a put forgets, judged against the config it replaces. -/
def Tables.forgetReplaced (t : Tables) (port : Port) (config : ImposterConfig) : Tables :=
  if hasMarkers t port then
    match t.configs[port]?.map U.readRow with
    | some (.ok before) => t.forget port (orphanedRecordings U before.stubs config.stubs)
    | none | some (.error _) => t.forgetPort port
  else t

/-- The signature hashes of a port's markers that no stub of the config records. -/
def stubLessMarkers (t : Tables) (port : Port) (stubs : List Stub) : List String :=
  (t.proxyRecorded.section1 port "").filterMap fun kv =>
    let hash := kv.1.2
    if stubs.any fun s => s.id.bind recordedSigHash == some hash then none else some hash

def putImposter (t : Tables) (config : ImposterConfig) (restart : Option Restart) (index : ℕ) (degraded : Bool) :
    Outcome :=
  match config.port with
  | none => (t, .error "config must carry an explicit port")
  | some port =>
    let t := t.forgetReplaced U port config
    let t := if restart = some .imposter then t.forget port (stubLessMarkers t port config.stubs) else t
    let t := t.store U port config config.enabled index
    -- one port's drive, unless something on this node is failing
    if degraded then
      (t, .ok (syncAction U t.configs :: (restart.map fun r => EngineAction.restart port r config.stubs).toList))
    else (t, .ok [.put config restart])

def patchStubs (t : Tables) (port : Port) (edit : StubEditScript) (index : ℕ) : Outcome :=
  match storedImposter U t port with
  | .error reason => (t, .error reason)
  | .ok (record, before) =>
    match applyEdit U before.stubs edit with
    | .error reason => (t, .error reason)
    | .ok stubs =>
      let config := { before with stubs }
      let t := t.store U port config record.enabled index
      let t := t.forget port (orphanedRecordings U before.stubs stubs)
      (t, .ok (editDrive U (U.admits before) config (.patch port edit)))

def deleteImposter (t : Tables) (port : Port) (degraded : Bool) : Outcome :=
  let t := { t with configs := t.configs.erase port }
  let t := t.forgetPort port
  if degraded then (t, .ok [syncAction U t.configs]) else (t, .ok [.delete port])

def deleteAll (t : Tables) : Outcome :=
  let t := { t with configs := t.configs.retain fun _ _ => false }
  let t := { t with proxyRecorded := t.proxyRecorded.retain fun _ _ => false }
  (t, .ok [syncAction U t.configs])

def setEnabled (t : Tables) (port : Port) (enabled : Bool) (index : ℕ) : Outcome :=
  match storedImposter U t port with
  | .error reason => (t, .error reason)
  | .ok (_, before) =>
    let config := { before with enabled }
    (t.store U port config enabled index,
      .ok (editDrive U (U.admits before) config (.setEnabled port enabled)))

def putRoutes (t : Tables) (table : RouteTable) (index : ℕ) : Outcome :=
  let routes := t.routes.retain fun _ _ => false
  let t := { t with routes := routes.load (table.routes.map fun (route : Route) => (route.id, U.route.write route)) }
  (t.stampRoutes index, .ok [syncRoutesAction U t.routes])

def deleteRoute (t : Tables) (id : String) (index : ℕ) : Outcome :=
  let t := { t with routes := t.routes.erase id }
  (t.stampRoutes index, .ok [syncRoutesAction U t.routes])

def sessionKeyPut (t : Tables) (key : String) (index : ℕ) : Outcome :=
  ({ t with sessionKey := t.sessionKey.insert sessionKeyRow (U.sessionKey.write { key, revision := index }) }, .ok [])

def fleetNamePut (t : Tables) (name : String) : Outcome :=
  ({ t with fleetName := t.fleetName.insert fleetNameRow name }, .ok [])

/-- Whether a recording merges: the same signature commits once per request. -/
def merging (stub : Option RecordedStub) : Bool := stub.any fun recorded => recorded.placement == .afterProxyMerging

/-- The drive of a placed recording. -/
def recordingAction (port : Port) (stubs : List Stub) (appended : List StubResponse) : PlacedRecording → Option EngineAction
  | .inserted index => stubs[index]?.map fun stub => .patch port [.add stub (some index)]
  | .mergedInto index id => stubs[index]?.map fun stub => .appendResponses port id appended stub
  -- nothing addresses a stub without an id, so its drive is the whole set's
  | .mergedAnonymous => none

def proxyRecorded (t : Tables) (port : Port) (sigHash : String) (resp : RecordedResponse) (stub : Option RecordedStub)
    (index : ℕ) : Outcome :=
  if t.proxyRecorded[(port, sigHash)]?.isSome && !merging stub then (t, .ok [])
  else if t.configs[port]?.isNone then (t, .error s!"no imposter on port {port}")
  else
    match stub with
    | none => (t.mark U port sigHash resp, .ok [])
    | some recorded =>
      match storedImposter U t port with
      | .error reason => (t, .error reason)
      | .ok (record, before) =>
        let stubValue := recordedStubValue before.stubs recorded sigHash index
        let placed := placeRecordedStub before.stubs stubValue recorded.placement recorded.proxyTo recorded.anchorIndex
        let config := { before with stubs := placed.1 }
        let t := t.store U port config record.enabled index
        let t := if merging stub then t else t.mark U port sigHash resp
        match recordingAction port config.stubs stubValue.responses placed.2 with
        | none => (t, .ok [syncAction U t.configs])
        | some action => (t, .ok (editDrive U (U.admits before) config action))

def proxyRecordedClear (t : Tables) (port : Port) (index : ℕ) (degraded : Bool) : Outcome :=
  let t := t.forgetPort port
  match storedImposter U t port with
  -- no row, or one that will not decode: the markers only
  | .error _ => (t, .ok [])
  | .ok (record, before) =>
    let stripped := stripProxyResponses before.stubs
    let config := { before with stubs := stripped.1 }
    let t := if stripped.2 then t.store U port config record.enabled index else t
    if degraded || !U.admits config then (t, .ok [syncAction U t.configs, .clearProxyResponses port])
    else (t, .ok [.clearProxyResponses port])

def mutateTables (t : Tables) (op : ControlOp) (index : ℕ) (degraded : Bool) : Outcome :=
  match op with
  | .putImposter config restart => putImposter U t config restart index degraded
  | .patchStubs port edit => patchStubs U t port edit index
  | .deleteImposter port => deleteImposter U t port degraded
  | .deleteAll => deleteAll U t
  | .setEnabled port enabled => setEnabled U t port enabled index
  | .putRoutes table => putRoutes U t table index
  | .deleteRoute id => deleteRoute U t id index
  | .sessionKeyPut key => sessionKeyPut U t key index
  | .fleetNamePut name => fleetNamePut t name
  | .proxyRecorded port sigHash resp stub => proxyRecorded U t port sigHash resp stub index
  | .proxyRecordedClear port => proxyRecordedClear U t port index degraded

end RiftCluster
