import RiftCluster.Lib.Table
import RiftCluster.Lib.Trace

/-!
# The write barrier

`await_applied`, run by the node that accepted a write: it captures the membership, resolves each
member's address once, and polls the members that are pending round after round, until none is
left or the timeout has passed. A member is retired by an answer that confirms the write or says
not Ready, and given up by a refusal, or by silence after `BARRIER_UNREACHABLE_AFTER` if it never
answered. Who is pending at the end is named, as unapplied or as unreachable.

What the network and the clock do in one round is a `BarrierRound`. The errors of a call are of
any type, of which some are liveness failures.
-/

namespace RiftCluster

open KV

/-- `BARRIER_UNREACHABLE_AFTER`, in milliseconds. -/
def barrierUnreachableAfter : ℕ := 500

structure BarrierOutcome where
  unapplied : List ℕ := []
  unreachable : List ℕ := []
  deriving DecidableEq, Repr

def BarrierOutcome.isConfirmed (o : BarrierOutcome) : Bool := o.unapplied.isEmpty && o.unreachable.isEmpty

structure AppliedReply where
  applied : Option ℕ
  /-- Absent from an older build, which is read as Ready. -/
  ready : Option Bool
  deriving DecidableEq, Repr

/-- One member's answer to one round. -/
inductive BarrierPoll (E : Type) where
  | confirmed
  | notReady
  | behind
  | silent
  | refused (error : E)
  deriving DecidableEq, Repr

variable {E : Type}

def BarrierPoll.rank : BarrierPoll E → ℕ
  | .confirmed => 2
  | .notReady => 1
  | .behind | .silent | .refused _ => 0

def AppliedReply.poll (revision : ℕ) (reply : AppliedReply) : BarrierPoll E :=
  if reply.ready = some false then .notReady
  else if reply.applied.any (revision ≤ ·) then .confirmed
  else .behind

/-- What `settle_barrier_poll` keeps over the answers. -/
structure PollFold (E : Type) where
  verdict : Option (BarrierPoll E) := none
  silent : Bool := false
  refused : Option E := none

def PollFold.answer (isLivenessFailure : E → Bool) (revision : ℕ) (f : PollFold E) :
    Except E AppliedReply → PollFold E
  | .ok reply =>
    if f.verdict.all (·.rank < (reply.poll revision : BarrierPoll E).rank) then
      { f with verdict := some (reply.poll revision) }
    else f
  | .error e => if isLivenessFailure e then { f with silent := true } else { f with refused := some e }

/-- Fold one member's answers, one per address, into a single verdict. -/
def settleBarrierPoll (isLivenessFailure : E → Bool) (answers : List (Except E AppliedReply)) (revision : ℕ) :
    BarrierPoll E :=
  let f := answers.foldl (PollFold.answer isLivenessFailure revision) {}
  match f.verdict, f.refused with
  | some verdict, _ => verdict
  | none, some e => if f.silent then .silent else .refused e
  | none, none => .silent

/-- A member the barrier is still waiting for. -/
structure BarrierMember where
  /-- Its resolved addresses; none for the node itself, which reads its own state. -/
  peers : List String
  answered : Bool
  deriving DecidableEq, Repr

/-- What happens in one round. -/
structure BarrierRound (E : Type) where
  /-- The node's own applied index. -/
  own : Option ℕ
  /-- What a call for a member to an address ends with. -/
  reply : ℕ → String → Except E AppliedReply
  /-- The time since the start when the answers are in, and when the deadline is looked at. -/
  polledAt : ℕ
  checkedAt : ℕ

/-- A barrier: who runs it, over which membership, and for what. -/
structure Barrier (E : Type) where
  isLivenessFailure : E → Bool
  self : ℕ
  members : Table ℕ String
  /-- The addresses an authority resolves to, unless it does not. -/
  resolve : String → Option (List String)
  revision : ℕ
  timeout : ℕ

structure BarrierState where
  pending : Table ℕ BarrierMember := ∅
  unreachable : List ℕ := []
  deriving DecidableEq

namespace Barrier

variable (b : Barrier E)

/-- One member is taken up before the rounds. -/
def enlist (s : BarrierState) (m : ℕ × String) : BarrierState :=
  if m.1 = b.self then { s with pending := s.pending.insert m.1 ⟨[], true⟩ }
  else
    match b.resolve m.2 with
    | some peers => { s with pending := s.pending.insert m.1 ⟨peers, false⟩ }
    | none => { s with unreachable := s.unreachable ++ [m.1] }

def start : BarrierState := b.members.toList.foldl b.enlist {}

/-- One round for one member. -/
def pollApplied (r : BarrierRound E) (id : ℕ) (peers : List String) : BarrierPoll E :=
  if id = b.self then if r.own.any (b.revision ≤ ·) then .confirmed else .behind
  else settleBarrierPoll b.isLivenessFailure (peers.map (r.reply id)) b.revision

/-- What a verdict does to its member. -/
def settleMember (givenUp : Bool) (s : BarrierState) (p : ℕ × BarrierPoll E) : BarrierState :=
  match p.2 with
  | .confirmed | .notReady => { s with pending := s.pending.erase p.1 }
  | .behind =>
    match s.pending[p.1]? with
    | some member => { s with pending := s.pending.insert p.1 { member with answered := true } }
    | none => s
  | .silent =>
    if givenUp && s.pending[p.1]?.any (!·.answered) then
      { pending := s.pending.erase p.1, unreachable := s.unreachable ++ [p.1] }
    else s
  | .refused _ => { pending := s.pending.erase p.1, unreachable := s.unreachable ++ [p.1] }

/-- One round: every pending member is polled, and then the verdicts are gone through. -/
def round (s : BarrierState) (r : BarrierRound E) : BarrierState :=
  let polls := s.pending.toList.map fun m => (m.1, b.pollApplied r m.1 m.2.peers)
  polls.foldl (settleMember (decide (barrierUnreachableAfter ≤ r.polledAt))) s

/-- The rounds, up to the one after which none is pending or the timeout has passed. -/
def rounds (s : BarrierState) : List (BarrierRound E) → Option BarrierState
  | [] => none
  | r :: rest =>
    let s := b.round s r
    if s.pending.isEmpty || b.timeout ≤ r.checkedAt then some s else rounds s rest

/-- Who is pending at the end is named. -/
def finish (s : BarrierState) : BarrierOutcome :=
  let (answered, silent) := s.pending.toList.partition (·.2.answered)
  { unapplied := answered.map Prod.fst
    unreachable := (s.unreachable ++ silent.map Prod.fst).insertionSort (· ≤ ·) }

/-- None if the given rounds do not end it. -/
def awaitApplied (rs : List (BarrierRound E)) : Option BarrierOutcome := (b.rounds b.start rs).map finish

/-- The state before the `k`-th round. -/
def stateAt (rs : List (BarrierRound E)) (k : ℕ) : BarrierState := Trace.stateAt b.round b.start rs k

end Barrier

end RiftCluster
