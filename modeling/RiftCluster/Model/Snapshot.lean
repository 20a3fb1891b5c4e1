import RiftCluster.Model.Machine

/-!
# Snapshots

`snapshot_payload`, the file it is written to, and `install_snapshot`. Rows travel
as the raw JSON they are; a row that is not JSON travels as a JSON string, told
apart by its leading quote.

The snapshot's own bookkeeping (the file, its id, the row that names it) is not
replicated state and is left out.
-/

namespace RiftCluster

open KV

def stateFormat : ℕ := 1

def zstdMagic : List UInt8 := [0x28, 0xB5, 0x2F, 0xFD]

/-- What a snapshot carries; the rows are raw JSON values. -/
structure SnapshotPayload where
  format : ℕ
  configs : List (Port × String)
  routes : List (String × String)
  routesRevision : Option ℕ
  sessionKey : Option String
  fleetName : Option String
  proxyRecorded : List (Port × String × String)
  dedup : List (String × String)
  lastAppliedLog : Option LogId
  lastMembership : StoredMembership
  logicalClockSecs : ℕ
  deriving DecidableEq, Repr

/-- The payload's JSON bytes and their compression. Both are lossless, and a
compressed frame starts with zstd's magic number. -/
structure SnapshotCodec where
  toJson : SnapshotPayload → List UInt8
  fromJson : List UInt8 → Except String SnapshotPayload
  compress : List UInt8 → List UInt8
  decompress : List UInt8 → Except String (List UInt8)
  fromJson_toJson : ∀ p, fromJson (toJson p) = .ok p
  decompress_compress : ∀ bytes, decompress (compress bytes) = .ok bytes
  compress_magic : ∀ bytes, zstdMagic.isPrefixOf (compress bytes) = true

inductive SnapshotError where
  | unreadable (error : String)
  | format (found : ℕ)
  | corruptRow (error : String)
  deriving DecidableEq, Repr

variable (U : Upstream) (C : SnapshotCodec)

/-! ## Building -/

def nestedRow (row : String) : String :=
  match U.raw row with
  | some nested => nested
  | none => U.quote row

def snapshotPayload (s : State) : SnapshotPayload where
  format := stateFormat
  configs := s.tables.configs.toList.map fun kv => (kv.1, nestedRow U kv.2)
  routes := s.tables.routes.toList.map fun kv => (kv.1, nestedRow U kv.2)
  routesRevision := s.tables.routesRevision[routesRevisionRow]?
  sessionKey := s.tables.sessionKey[sessionKeyRow]?
  fleetName := s.tables.fleetName[fleetNameRow]?
  proxyRecorded := s.tables.proxyRecorded.toList.map fun kv => (kv.1.1, kv.1.2, nestedRow U kv.2)
  dedup := s.dedup.toList.map fun kv => (kv.1, nestedRow U kv.2)
  lastAppliedLog := s.applied.lastAppliedLog
  lastMembership := s.applied.lastMembership
  logicalClockSecs := s.applied.logicalClockSecs

def buildSnapshot (s : State) : List UInt8 := C.compress (C.toJson (snapshotPayload U s))

/-! ## Installing -/

def storedRow (nested : String) : Except SnapshotError String :=
  if nested.toList.head? = some '"' then (U.unquote nested).mapError .corruptRow else .ok nested

/-- Decode the received bytes, compressed or plain, and refuse another format. -/
def parseSnapshot (received : List UInt8) : Except SnapshotError SnapshotPayload := do
  let bytes ← if zstdMagic.isPrefixOf received then (C.decompress received).mapError .unreadable else .ok received
  let payload ← (C.fromJson bytes).mapError .unreadable
  if payload.format ≠ stateFormat then .error (.format payload.format) else .ok payload

/-- Empty a table and fill it with the rows a payload carries. -/
def installRows {K : Type} [Ord K] [Std.TransOrd K] (old : Table K String) (rows : List (K × String)) :
    Except SnapshotError (Table K String) := do
  let restored ← rows.mapM fun kv => (storedRow U kv.2).map fun row => (kv.1, row)
  return (old.retain fun _ _ => false).load restored

/-- Empty a one-row table and fill it with the row a payload carries. -/
def installRow {V : Type} (old : Table String V) (key : String) (row : Option V) : Table String V :=
  (old.retain fun _ _ => false).load (row.map fun v => (key, v)).toList

def installSnapshotBlocking (old : State) (payload : SnapshotPayload) :
    Except SnapshotError (State × List AttributedAction) := do
  let configs ← installRows U old.tables.configs payload.configs
  let routes ← installRows U old.tables.routes payload.routes
  let proxyRecorded ← installRows U old.tables.proxyRecorded
    (payload.proxyRecorded.map fun r => ((r.1, r.2.1), r.2.2))
  let dedup ← installRows U old.dedup payload.dedup
  let tables : Tables := {
    configs, routes, proxyRecorded
    routesRevision := installRow old.tables.routesRevision routesRevisionRow payload.routesRevision
    sessionKey := installRow old.tables.sessionKey sessionKeyRow payload.sessionKey
    fleetName := installRow old.tables.fleetName fleetNameRow payload.fleetName }
  let applied : AppliedState := {
    lastAppliedLog := payload.lastAppliedLog
    lastMembership := payload.lastMembership
    logicalClockSecs := payload.logicalClockSecs }
  return ({ tables, dedup, applied }, [⟨none, syncAction U configs⟩, ⟨none, syncRoutesAction U routes⟩])

def installSnapshot (old : State) (received : List UInt8) : Except SnapshotError (State × List AttributedAction) := do
  let payload ← parseSnapshot C received
  installSnapshotBlocking U old payload

end RiftCluster
