import RiftCluster.Lib.RaftLog
import RiftCluster.Model.Ring

/-!
# The ring of a node

`RaftNode::ring` reads the metrics' `membership_config`: the effective membership, that is the
newest membership entry of the node's log, committed or not. The ring is of its voters, and
`m_idx` is its log index. The logs are those of `RaftLog`, with the entries of the control
plane.
-/

namespace RiftCluster

open RaftLog

/-- `voter_ids`: of every voter set of the configuration. -/
def Membership.voterIds (m : Membership) : List ℕ := m.configs.flatten

/-- A membership entry of a log: its index, its term and the membership. -/
structure LogMembership where
  index : ℕ
  term : ℕ
  membership : Membership
  deriving DecidableEq

/-- The newest membership entry of a log. -/
def effective (log : List (Slot EntryPayload)) : Option LogMembership :=
  log.zipIdx.reverse.findSome? fun (slot, index) => match slot.payload with
    | .membership m => some ⟨index, slot.term, m⟩
    | _ => none

/-- More than half of every voter set of the candidate's membership. -/
def voteQuorum (log : List (Slot EntryPayload)) (voters : List ℕ) : Bool :=
  (effective log).any fun m => m.membership.configs.all fun c => c.length < 2 * (c.filter (· ∈ voters)).length

/-- The fleet after the first `n` moves. A leader begins its term with a blank entry. -/
def raftAt (moves : List (RaftLog.Move EntryPayload)) (n : ℕ) : Fleet EntryPayload := runAt .blank voteQuorum moves n

/-- `RaftNode::ring`. Without a membership, `m_idx` is zero. -/
def ringOf (log : List (Slot EntryPayload)) : Ring :=
  match effective log with
  | some m => Ring.new m.membership.voterIds m.index
  | none => Ring.new [] 0

/-- The ring a node has after the first `n` moves. -/
def ringAt (moves : List (RaftLog.Move EntryPayload)) (n node : ℕ) : Ring := ringOf ((raftAt moves n).peers node).log

end RiftCluster
