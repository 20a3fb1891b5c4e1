import RiftCluster.Model.Types

/-!
# The ownership ring

`raft/ring.rs`: rendezvous hashing over the voters of an applied membership. The
hash is left open: the score of a member for a key is a parameter of every
definition that uses it.
-/

namespace RiftCluster

inductive KeyClass where
  | config
  | flowKv
  | sequence
  | proxy
  deriving DecidableEq, Repr

structure OwnedKey where
  keyClass : KeyClass
  key : String
  deriving DecidableEq, Repr

/-- The key of a flow's state. -/
def OwnedKey.flow (flowId : String) : OwnedKey := ⟨.flowKv, flowId⟩

/-- The ownership of one applied membership, at the log index of that membership. -/
structure Ring where
  members : List ℕ
  mIdx : ℕ
  deriving DecidableEq, Repr

namespace Ring

/-- The members sorted, without duplicates. -/
def new (members : List ℕ) (mIdx : ℕ) : Ring := ⟨(members.insertionSort (· ≤ ·)).destutter (· ≠ ·), mIdx⟩

def isEmpty (r : Ring) : Bool := r.members.isEmpty

variable (score : ℕ → OwnedKey → ℕ)

/-- What members are compared by: the score for the key, then the id. -/
def rank (key : OwnedKey) (node : ℕ) : ℕ ×ₗ ℕ := toLex (score node key, node)

/-- The member of highest rank. -/
def owner (r : Ring) (key : OwnedKey) : Option ℕ := r.members.argmax (rank score key)

/-- The `n` members of highest rank, the owner first. -/
def owners (r : Ring) (key : OwnedKey) (n : ℕ) : List ℕ :=
  (r.members.insertionSort fun a b => rank score key b ≤ rank score key a).take n

end Ring

end RiftCluster
