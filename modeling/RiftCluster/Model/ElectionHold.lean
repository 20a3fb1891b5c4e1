import RiftCluster.Lib.Trace

/-!
# Who may lift the election hold

`ElectionHold`: a caller that holds elections across a rejoin (`hold_elections`,
`release_elections`) and the restart's grace timer (`release_grace`) each store a flag of
their own, and load the other's before they turn elections on. A step is one atomic load or
store, or one `runtime_config().elect(..)`; a move of a thread that has nothing to do
changes nothing.
-/

namespace RiftCluster

/-- Where the caller stands. -/
inductive HoldCaller where
  /-- No call is under way. -/
  | rest
  /-- `hold_elections` has stored `held`. -/
  | holdStored
  /-- `release_elections` has cleared `held`. -/
  | releaseStored
  /-- `release_elections` has found the grace over. -/
  | releaseElects
  deriving DecidableEq, Repr

/-- Where the grace timer stands. -/
inductive GraceTimer where
  | waiting
  /-- `release_grace` has stored `grace_over`. -/
  | stored
  /-- `release_grace` has found no hold. -/
  | elects
  | done
  deriving DecidableEq, Repr

structure ElectionHold where
  held : Bool := false
  graceOver : Bool
  /-- The runtime's elect flag. -/
  elect : Bool
  caller : HoldCaller := .rest
  timer : GraceTimer
  deriving DecidableEq, Repr

inductive HoldMove where
  /-- `hold_elections` is called. -/
  | hold
  /-- `release_elections` is called. -/
  | release
  /-- The next step of the call under way. -/
  | caller
  /-- The next step of the grace timer. -/
  | timer
  deriving DecidableEq, Repr

namespace ElectionHold

/-- A node that has just started. One that had state waits out the grace
(`hold_elections_until_leader_heard`). -/
def started (hasState : Bool) : ElectionHold :=
  if hasState then { graceOver := false, elect := false, timer := .waiting }
  else { graceOver := true, elect := true, timer := .done }

def callerStep (s : ElectionHold) : ElectionHold :=
  match s.caller with
  | .rest => s
  | .holdStored => { s with elect := false, caller := .rest }
  | .releaseStored => { s with caller := if s.graceOver then .releaseElects else .rest }
  | .releaseElects => { s with elect := true, caller := .rest }

def timerStep (s : ElectionHold) : ElectionHold :=
  match s.timer with
  | .waiting => { s with graceOver := true, timer := .stored }
  | .stored => { s with timer := if s.held then .done else .elects }
  | .elects => { s with elect := true, timer := .done }
  | .done => s

def step (s : ElectionHold) : HoldMove → ElectionHold
  | .hold => if s.caller = .rest then { s with held := true, caller := .holdStored } else s
  | .release => if s.caller = .rest then { s with held := false, caller := .releaseStored } else s
  | .caller => s.callerStep
  | .timer => s.timerStep

/-- The state after the first moves of a run. -/
def stateAt (hasState : Bool) (moves : List HoldMove) (n : ℕ) : ElectionHold :=
  Trace.stateAt step (started hasState) moves n

/-- `hold_elections` has returned, and `release_elections` has not been called since. -/
def Holding (s : ElectionHold) : Prop := s.caller = .rest ∧ s.held = true

/-- Every call that has started is finished. -/
def Settled (s : ElectionHold) : Prop := s.caller = .rest ∧ (s.timer = .waiting ∨ s.timer = .done)

/-- A held node does not campaign, and once all is settled a node may campaign if the grace
is over and nothing holds it. -/
def Quiet (s : ElectionHold) : Prop :=
  (s.Holding → s.elect = false) ∧ (s.Settled → (s.elect = true ↔ s.graceOver = true ∧ s.held = false))

/-- The timer, having found no hold before, turns elections on under a hold that has returned. -/
def LateRelease (s : ElectionHold) (move : HoldMove) : Prop := move = .timer ∧ s.timer = .elects ∧ s.Holding

instance (s : ElectionHold) : Decidable s.Holding := inferInstanceAs (Decidable (_ ∧ _))

instance (s : ElectionHold) : Decidable s.Settled := inferInstanceAs (Decidable (_ ∧ _))

instance (s : ElectionHold) : Decidable s.Quiet := inferInstanceAs (Decidable (_ ∧ _))

end ElectionHold

end RiftCluster
