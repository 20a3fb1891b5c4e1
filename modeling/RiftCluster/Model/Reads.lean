import RiftCluster.Model.Engine

/-!
# Reading an imposter while batches are applied

`GET /imposters/{port}`: the front reads the revision of the port's row from the applied
tables (`imposter_read_token`), and then has the local engine answer with the config it
serves. `apply` commits a batch to the tables and then drives the engine, action after action.
`ReadNode.step` is one atomic step of `apply`; a read happens at two moments of a run, and
changes nothing.
-/

namespace RiftCluster

open KV

structure ReadNode where
  sm : State := {}
  engine : Engine := {}
  /-- What is left to drive of the batch that is committed. -/
  pending : List EngineAction := []
  /-- The events of the batches that are committed. -/
  events : List Event := []

inductive ReadMove where
  /-- `apply` commits a batch, once the one before it is driven. -/
  | commit (entries : List Entry)
  /-- The next action of the drive. -/
  | drive
  deriving DecidableEq, Repr

variable (U : Upstream) (F : Calls)

def ReadNode.step (n : ReadNode) : ReadMove → ReadNode
  | .commit entries =>
    if n.pending.isEmpty then
      match apply U n.engine.isDegraded n.sm entries with
      | .ok applied =>
        { n with
          sm := applied.state, pending := applied.actions.map AttributedAction.action,
          events := n.events ++ .sweep :: entries.map (.entry n.engine.isDegraded) }
      | .error _ => n
    else n
  | .drive => match n.pending with
    | action :: rest => { n with engine := n.engine.driveOne U F action, pending := rest }
    | [] => n

/-- The node after the first `k` moves. -/
def readAt (n : ReadNode) (moves : List ReadMove) (k : ℕ) : ReadNode := Trace.stateAt (ReadNode.step U F) n moves k

/-- `imposter_revision`: the revision of the applied row. The token of a read is
`{port}@{revision}`. -/
def imposterRevision (t : Tables) (port : Port) : Option ℕ :=
  t.configs[port]?.bind fun row => (U.imposter.read row).toOption.map StoredImposter.revision

/-- The config of the applied row. -/
def storedConfig (t : Tables) (port : Port) : Option ImposterConfig :=
  t.configs[port]?.bind fun row => (U.readRow row).toOption

end RiftCluster
