import Mathlib

/-!
# The node's identity

`raft/identity.rs`: a node mints its id on its first start and keeps it in the file `node-id`. The
text is written to a temporary file and synced, the file is renamed, and the directory is synced.
The file is the id it holds: `load` reads back the digits that `load_or_mint` writes.
-/

namespace RiftCluster.NodeIdentity

/-- The file `node-id`: what a process finds, and what a power loss leaves of it. -/
structure IdFile where
  seen : Option ℕ := none
  durable : Option ℕ := none

/-- How far a start comes: the process ends before the rename, or before the directory is synced,
or `load_or_mint` returns. -/
inductive Reach where
  | written | renamed | returned

inductive Fate where
  | start (proposed : ℕ) (reach : Reach)
  /-- The power fails. A rename that was not synced may be on the disk. -/
  | powerLoss (kept : Bool)

/-- `load_or_mint`: the file after it, and the id it returns. -/
def loadOrMint (f : IdFile) (proposed : ℕ) (reach : Reach) : IdFile × Option ℕ :=
  match f.seen with
  | some existing => (f, some existing)
  | none =>
    match reach with
    | .written => (f, none)
    | .renamed => ({ f with seen := some proposed }, none)
    | .returned => (⟨some proposed, some proposed⟩, some proposed)

def step (f : IdFile) : Fate → IdFile × Option ℕ
  | .start proposed reach => loadOrMint f proposed reach
  | .powerLoss kept => (if kept then ⟨f.seen, f.seen⟩ else ⟨f.durable, f.durable⟩, none)

def fileAfter (f : IdFile) (fates : List Fate) : IdFile := fates.foldl (fun f fate => (step f fate).1) f

/-- The ids that the starts return. -/
def ids (f : IdFile) : List Fate → List ℕ
  | [] => []
  | fate :: fates => (step f fate).2.toList ++ ids (step f fate).1 fates

end RiftCluster.NodeIdentity
