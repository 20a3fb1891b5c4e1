import RiftCluster.Model.Shard
import RiftCluster.Model.Snapshot

/-!
# The orphan sweep

`reconcile_engine` ends with `sweep_orphaned_imposter_state`: the flow state a shard
holds under ports that have no imposter any more is dropped. The ports it holds are
read first, then the ports that are configured, and the flows under the difference are
cleared one after another (`clear_imposter_scopes`). Neither the reads nor the clears
exclude the apply loop, so between any two of them a batch may commit, a snapshot may be
installed and the shard may serve writes. `SweepNode.step` is one atomic step of any of
these.
-/

namespace RiftCluster

open KV

variable {V : Type}

/-! ## The port in a flow id -/

/-- `parse::<u16>`: digits, with or without a plus sign. -/
def parsePort (s : List Char) : Option Port :=
  let digits := match s with
    | '+' :: rest => rest
    | _ => s
  if !digits.isEmpty && digits.all isAsciiDigit then
    let n := Nat.ofDigitChars 10 digits 0
    if n < 2 ^ 16 then some n else none
  else none

/-- The imposter a scoped flow id belongs to: `i<port>:`. A fleet flow (`f:`) has none. -/
def imposterPort (scopedFlowId : String) : Option Port :=
  match scopedFlowId.toList with
  | 'i' :: rest => (splitOnce [':'] rest).bind fun parts => parsePort parts.1
  | _ => none

/-! ## Reads -/

/-- The ports a shard holds flows under. -/
def Shard.imposterPortsHeld (s : Shard V) : Finset Port := (s.flowIds.filterMap imposterPort).toFinset

/-- The ports `sm_configs` has a row for. -/
def configuredPorts (t : Tables) : Finset Port := (t.configs.toList.map Prod.fst).toFinset

/-! ## Clearing scopes -/

/-- `clear_imposter_scopes` under way. -/
structure ScopeClear (V : Type) where
  ports : Finset Port
  /-- The flows it has not visited yet, of those held when it began. -/
  flows : List String
  /-- How many flows it has dropped, by port. -/
  dropped : Table Port ℕ := ∅
  /-- What is left of the clear of the last flow. -/
  pending : List (Task V) := []
  deriving DecidableEq

def ScopeClear.start (s : Shard V) (ports : Finset Port) : ScopeClear V :=
  { ports, flows := if ports = ∅ then [] else s.flowIds }

def ScopeClear.finished (c : ScopeClear V) : Bool := c.flows.isEmpty && c.pending.isEmpty

/-- The next step: of the clear of the last flow, or the visit of the next flow. -/
def ScopeClear.step (now : ℕ) (s : Shard V) (c : ScopeClear V) : Shard V × ScopeClear V :=
  match c.pending, c.flows with
  | task :: pending, _ =>
    let next := task.step s
    (next.1, { c with pending := next.2 ++ pending })
  | [], [] => (s, c)
  | [], flowId :: flows =>
    match imposterPort flowId with
    | none => (s, { c with flows })
    | some port =>
      if port ∈ c.ports then
        let began := (ShardCall.clearFlow flowId .async).begin s now
        (began.1, { c with
          flows
          dropped := c.dropped.insert port (c.dropped[port]?.getD 0 + 1)
          pending := began.2 })
      else (s, { c with flows })

/-! ## The sweep -/

inductive Sweep (V : Type) where
  /-- No sweep runs; what the last one dropped. -/
  | idle (dropped : Table Port ℕ)
  /-- It has read the ports held. -/
  | held (ports : Finset Port)
  /-- It has read the ports configured, and some of those held are not among them. -/
  | orphaned (ports : Finset Port)
  | clearing (clear : ScopeClear V)
  deriving DecidableEq

/-- A node's durable state, the shard of its flow net, where one is bound, and the sweep. -/
structure SweepNode (V : Type) where
  state : State := {}
  flowNet : Option (Traffic V) := none
  sweep : Sweep V := .idle ∅
  deriving DecidableEq

namespace SweepNode

/-- The next step of `sweep_orphaned_imposter_state`. -/
def advance (n : SweepNode V) (now : ℕ) : SweepNode V :=
  match n.flowNet with
  | none => n
  | some t =>
    match n.sweep with
    | .idle _ => { n with sweep := .held t.shard.imposterPortsHeld }
    | .held ports =>
      -- none held is none orphaned: the source returns before it reads the tables
      let orphaned := ports \ configuredPorts n.state.tables
      { n with sweep := if orphaned = ∅ then .idle ∅ else .orphaned orphaned }
    | .orphaned ports => { n with sweep := .clearing (.start t.shard ports) }
    | .clearing c =>
      if c.finished then { n with sweep := .idle c.dropped }
      else
        let next := c.step now t.shard
        { n with flowNet := some { t with shard := next.1 }, sweep := .clearing next.2 }

end SweepNode

inductive SweepMove (V : Type) where
  /-- The apply loop commits a batch. -/
  | apply (degraded : Bool) (entries : List Entry)
  /-- A snapshot is installed. -/
  | install (received : List UInt8)
  /-- The shard serves something else. -/
  | shard (move : ShardMove V)
  | sweep (now : ℕ)

variable (U : Upstream) (C : SnapshotCodec)

/-- What a step leaves of the durable state. A batch or a snapshot that fails commits
nothing. -/
def SweepMove.commits (s : State) : SweepMove V → State
  | .apply degraded entries =>
    match RiftCluster.apply U degraded s entries with
    | .ok applied => applied.state
    | .error _ => s
  | .install received =>
    match installSnapshot U C s received with
    | .ok installed => installed.1
    | .error _ => s
  | .shard _ | .sweep _ => s

def SweepNode.step (n : SweepNode V) (move : SweepMove V) : SweepNode V :=
  match move with
  | .apply _ _ | .install _ => { n with state := move.commits U C n.state }
  | .shard m => { n with flowNet := n.flowNet.map fun t => t.step m }
  | .sweep now => n.advance now

/-- A flow as the node's shard holds it. -/
def SweepNode.flow? (n : SweepNode V) (flowId : String) : Option (FlowMem V) :=
  n.flowNet.bind fun t => t.shard.memory[flowId]?

end RiftCluster
