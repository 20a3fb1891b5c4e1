import RiftCluster.Model.Flow

/-!
# Nodes that exchange flow state

The nodes of a cluster, and everything they have sent each other. A message may be
delivered late, out of order, more than once or never, so messages are never taken off
the network. The answer to a pull is sent entry by entry, as pushes in memory only:
that is the merge an adoption and an anti-entropy pass make of it.
-/

namespace RiftCluster

open KV

variable {V : Type}

structure Cluster (V : Type) where
  nodes : ℕ → FlowNode V
  /-- The messages sent, with their destinations. -/
  net : List (ℕ × ReplicateReq V) := []

inductive ClusterMove (V : Type) where
  /-- A node takes a step of its own. -/
  | node (i : ℕ) (move : FlowMove V)
  /-- A message reaches its destination. -/
  | deliver (slot now : ℕ)
  /-- A node answers another's pull of some flows. -/
  | pull (asker holder now : ℕ) (flowIds : List String)

/-- A step that is not the arrival of something from outside. -/
def FlowMove.isOwn : FlowMove V → Bool
  | .push _ _ | .repair _ _ _ _ => false
  | _ => true

/-- The entries of an answer to a pull, on their way to the node that asked. -/
def SyncReply.messages (reply : SyncReply V) (asker : ℕ) : List (ℕ × ReplicateReq V) :=
  reply.flatMap fun flow => flow.2.map fun kv => (asker, ⟨flow.1, .put kv.1 kv.2, repairDurability⟩)

def Cluster.step [FlowValue V] [DecidableEq V] (score : ℕ → OwnedKey → ℕ) (c : Cluster V) : ClusterMove V → Cluster V
  | .node i move =>
    if move.isOwn then
      let next := (c.nodes i).step score move
      { nodes := Function.update c.nodes i next, net := c.net ++ next.sent.drop (c.nodes i).sent.length }
    else c
  | .deliver slot now =>
    match c.net[slot]? with
    | none => c
    | some (i, req) => { c with nodes := Function.update c.nodes i ((c.nodes i).step score (.push now req)) }
  | .pull asker holder now flowIds => { c with net := c.net ++ ((c.nodes holder).shard.sync now flowIds).messages asker }

end RiftCluster
