import RiftCluster.Lib.Table

/-!
# Configurations and control operations

The data the control plane replicates: the imposter configuration as upstream
defines it, and the log entries that carry operations on it.

Of the upstream types (`ImposterConfig`, `Stub`, `StubResponse`, `Route`) the
fields this crate reads are named; everything else of a value is the JSON text
`rest`, carried and compared but never looked into.
-/

namespace RiftCluster

/-- A port number. -/
abbrev Port := ℕ

/-! ## Upstream configuration -/

/-- One response of a stub. `is` keeps its numeric `_proxyResponseTime`, the mark
of a response recorded by a proxy. -/
inductive StubResponse where
  | is (proxyResponseTime : Option ℕ) (rest : String)
  | proxy (proxyTo : String) (key : Option String) (rest : String)
  | other (rest : String)
  deriving DecidableEq, Repr

/-- Whether the response was recorded by a proxy. -/
def StubResponse.isRecorded : StubResponse → Bool
  | .is t _ => t.isSome
  | _ => false

/-- Whether the response proxies to `target`. -/
def StubResponse.proxiesTo (target : String) : StubResponse → Bool
  | .proxy proxyTo _ _ => proxyTo == target
  | _ => false

structure Stub where
  id : Option String
  space : Option String := none
  predicates : List String := []
  responses : List StubResponse
  recordedFrom : Option String := none
  rest : String := ""
  deriving DecidableEq, Repr

/-- A JSON value as `flowState` reads it: its string content, if it is a string,
and its rendering. -/
structure JsonValue where
  asStr : Option String
  text : String
  deriving DecidableEq, Repr

/-- The `_rift.flowState` block. -/
structure FlowState where
  ttlSeconds : ℤ
  extra : List (String × JsonValue)
  deriving DecidableEq, Repr

structure ImposterConfig where
  port : Option Port
  protocol : String
  enabled : Bool := true
  stubs : List Stub := []
  flowState : Option FlowState := none
  /-- `_rift.sequencing.mode`, of a config that has the block. -/
  sequencing : Option (Option String) := none
  rest : String := ""
  deriving DecidableEq, Repr

structure Route where
  id : String
  rest : String
  deriving DecidableEq, Repr

structure RouteTable where
  routes : List Route
  deriving DecidableEq, Repr

structure RecordedResponse where
  status : ℕ
  headers : List (String × String)
  body : List UInt8
  latencyMs : Option ℕ
  timestampSecs : ℕ
  deriving DecidableEq, Repr

/-! ## Operations -/

/-- What a put restarts on each node after its reconcile. -/
inductive Restart where
  | stubAt (index : ℕ)
  | allStubs
  | imposter
  | unknown
  deriving DecidableEq, Repr

/-- One step of a stub edit script. -/
inductive StubEdit where
  | add (stub : Stub) (index : Option ℕ)
  | replaceById (id : String) (stub : Stub)
  | deleteById (id : String)
  | deleteBySpace (space : String)
  | move (src dst : ℕ)
  deriving DecidableEq, Repr

abbrev StubEditScript := List StubEdit

inductive RecordedStubPlacement where
  | beforeProxy
  | afterProxyMerging
  deriving DecidableEq, Repr

/-- The stub half of a recording, with what its placement depends on. -/
structure RecordedStub where
  stub : Stub
  placement : RecordedStubPlacement
  proxyTo : String
  anchorIndex : Option ℕ
  deriving DecidableEq, Repr

inductive ControlOp where
  | putImposter (config : ImposterConfig) (restart : Option Restart)
  | patchStubs (port : Port) (edit : StubEditScript)
  | deleteImposter (port : Port)
  | deleteAll
  | setEnabled (port : Port) (enabled : Bool)
  | putRoutes (table : RouteTable)
  | deleteRoute (id : String)
  | sessionKeyPut (key : String)
  | fleetNamePut (name : String)
  | proxyRecorded (port : Port) (sigHash : String) (resp : RecordedResponse) (stub : Option RecordedStub)
  | proxyRecordedClear (port : Port)
  deriving DecidableEq, Repr

/-- The envelope of a log entry. `opId` is the request's UUID in its canonical
text, which is what the dedup table is keyed by. -/
structure ControlRequest where
  opId : String
  principal : Option String := none
  issuedAtSecs : ℕ := 0
  expectedRevision : Option ℕ := none
  expectAbsent : Bool := false
  op : ControlOp
  deriving DecidableEq, Repr

inductive ControlOutcome where
  | applied
  | failed (reason : String)
  deriving DecidableEq, Repr

/-- The answer to a request; `revision` is the applying log index. -/
structure ControlResponse where
  revision : ℕ
  outcome : ControlOutcome
  deriving DecidableEq, Repr

def ControlResponse.ofApplied (revision : ℕ) : ControlResponse := ⟨revision, .applied⟩

def ControlResponse.ofFailed (revision : ℕ) (reason : String) : ControlResponse :=
  ⟨revision, .failed reason⟩

/-! ## Log entries -/

/-- A log id. An index is a 64-bit number. -/
structure LogId where
  term : ℕ
  nodeId : ℕ
  index : ℕ
  index_lt : index < 2 ^ 64 := by decide
  deriving DecidableEq, Repr

/-- A membership configuration: the voter sets of a (joint) configuration and the
address of every node. -/
structure Membership where
  configs : List (List ℕ)
  nodes : List (ℕ × String)
  deriving DecidableEq, Repr

structure StoredMembership where
  logId : Option LogId := none
  membership : Membership := ⟨[], []⟩
  deriving DecidableEq, Repr

inductive EntryPayload where
  | blank
  | normal (request : ControlRequest)
  | membership (membership : Membership)
  deriving DecidableEq, Repr

structure Entry where
  logId : LogId
  payload : EntryPayload
  deriving DecidableEq, Repr

/-! ## Stored records -/

/-- What `sm_configs` stores for a port. `config` is the config's JSON as written. -/
structure StoredImposter where
  config : String
  enabled : Bool
  revision : ℕ
  deriving DecidableEq, Repr

/-- What `sm_op_dedup` stores for an op id. -/
structure DedupEntry where
  response : ControlResponse
  expiresAtSecs : ℕ
  deriving DecidableEq, Repr

/-- The session-signing key as applied state. -/
structure SessionKey where
  key : String
  revision : ℕ
  deriving DecidableEq, Repr

/-- The state machine's cursor: the last applied log id, the membership and the
replicated logical clock. -/
structure AppliedState where
  lastAppliedLog : Option LogId := none
  lastMembership : StoredMembership := {}
  logicalClockSecs : ℕ := 0
  deriving DecidableEq, Repr

end RiftCluster
