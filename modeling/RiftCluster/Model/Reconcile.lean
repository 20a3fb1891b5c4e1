import RiftCluster.Model.Engine

/-!
# Apply next to reconcile

Two tasks share a node's tables and its engine. `apply` commits a batch to the
tables and only then takes `engine_drive` and runs the batch's actions;
`reconcile_engine` takes `engine_drive`, reads the tables, drives the whole set it
read and releases. The lock orders the two drives, and keeps the reconcile's read
with its drive; it does not cover what lies between a batch's commit and its
drive, nor keep a batch from committing while the reconcile holds it.

`System` is both tasks' state, `System.move` one atomic move of either, and a run
is any list of moves that are possible where they stand.
-/

namespace RiftCluster

open KV

/-- The shared state, and where each task stands: the actions of a batch that is
committed and not driven yet, and those a reconcile has read and not driven yet. A
reconcile holds `engine_drive` from its read to its drive. -/
structure System where
  sm : State := {}
  engine : Engine := {}
  pending : Option (List EngineAction) := none
  holding : Option (List EngineAction) := none
  deriving DecidableEq

inductive Move where
  /-- `apply` commits a batch, having asked `is_degraded` at some moment before. -/
  | commit (degraded : Bool) (entries : List Entry)
  /-- `apply` takes `engine_drive` and runs the batch's actions. -/
  | drive
  /-- `reconcile_engine` takes `engine_drive` and reads the tables. -/
  | read
  /-- `reconcile_engine` drives what it read, and releases. -/
  | sync
  deriving DecidableEq, Repr

variable (U : Upstream) (F : Calls)

/-- What `sync_engine_under_drive_lock` drives. -/
def reconcileActions (t : Tables) : List EngineAction := [syncAction U t.configs, syncRoutesAction U t.routes]

/-- One move, where it is possible. -/
def System.move (s : System) : Move → Option System
  | .commit degraded entries =>
    match s.pending, apply U degraded s.sm entries with
    | none, .ok applied =>
      some { s with sm := applied.state, pending := some (applied.actions.map AttributedAction.action) }
    | _, _ => none
  | .drive =>
    match s.pending, s.holding with
    | some actions, none => some { s with engine := s.engine.drive U F actions, pending := none }
    | _, _ => none
  | .read =>
    match s.holding with
    | none => some { s with holding := some (reconcileActions U s.sm.tables) }
    | some _ => none
  | .sync =>
    match s.holding with
    | some actions => some { s with engine := s.engine.drive U F actions, holding := none }
    | none => none

def System.moves (s : System) (ms : List Move) : Option System := ms.foldlM (System.move U F) s

/-- Neither task is under way. -/
def System.quiet (s : System) : Bool := s.pending.isNone && s.holding.isNone

end RiftCluster
