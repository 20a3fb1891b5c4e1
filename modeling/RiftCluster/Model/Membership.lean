import RiftCluster.Lib.Trace

/-!
# Membership changes

`raft/network.rs`: a leader admits a node (`admit`), promotes learners that have caught up
(`promote_ready_learners`) and removes a node (`evict`). Each of these reads the committed
membership under its node's gate, decides, and submits one change (`membership_change`),
waiting and submitting again while another change is under way. A call may be cancelled
wherever it waits.

Of openraft, `MemberLog` keeps what the calls depend on: the membership entries that are
committed, those that are in some log but not committed, and who leads with which of them at
the end of the log. A change is computed from the last configuration of the committed
membership, and accepted only if no other is uncommitted; by way of a joint configuration it
takes two entries, and the second one is submitted even if the caller is gone.
-/

namespace RiftCluster

def minVoters : ℕ := 2

def admitMaxAttempts : ℕ := 12

/-! ## Configurations -/

/-- A configuration: its voters, and those it is joint with. -/
structure VoterConfig where
  old : Option (Finset ℕ) := none
  last : Finset ℕ
  nodes : Finset ℕ
  deriving DecidableEq

/-- What `change_membership` and `add_learner` ask for. -/
inductive Change where
  | addNode (id : ℕ)
  | addVoter (id : ℕ)
  | removeVoter (id : ℕ)
  | removeNode (id : ℕ)
  deriving DecidableEq, Repr

/-- `add_learner`, which is one entry and not two. -/
def Change.addsNode : Change → Bool
  | .addNode _ => true
  | _ => false

namespace VoterConfig

def isUniform (m : VoterConfig) : Bool := m.old.isNone

/-- `voter_ids`: of a joint configuration, the union. -/
def voterIds (m : VoterConfig) : Finset ℕ := m.old.getD ∅ ∪ m.last

/-- `next_coherent`: straight to a voter set that is part of the configuration, and to any
other by way of the joint one. Voters that are none any more leave the nodes. -/
def toward (m : VoterConfig) (goal : Finset ℕ) : VoterConfig :=
  let next : VoterConfig :=
    if goal = m.last ∨ m.old = some goal then ⟨none, goal, m.nodes⟩ else ⟨some m.last, goal, m.nodes⟩
  { next with nodes := m.nodes \ (m.voterIds \ next.voterIds) }

/-- `ensure_valid`. -/
def valid (m : VoterConfig) : Bool := m.voterIds ⊆ m.nodes && m.last ≠ ∅

/-- `Membership::change`, on the last voter set. -/
def change (m : VoterConfig) (c : Change) : Option VoterConfig :=
  let next := match c with
    | .addNode id => { m with nodes := insert id m.nodes }
    | .addVoter id => m.toward (insert id m.last)
    | .removeVoter id => m.toward (m.last.erase id)
    | .removeNode id => { m with nodes := m.nodes.erase id }
  if next.valid then some next else none

end VoterConfig

/-! ## The membership entries of the log -/

/-- A membership entry: the configuration, and the change that made it. -/
structure MemberEntry where
  config : VoterConfig
  change : Change
  deriving DecidableEq

structure MemberLog where
  /-- The configuration before the first of the entries. -/
  founding : VoterConfig
  /-- The committed entries, the oldest first. -/
  committed : List MemberEntry := []
  /-- Entries that some node's log has after the committed ones. -/
  floating : List MemberEntry := []
  leader : ℕ
  /-- The uncommitted entry at the end of the leader's log. -/
  head : Option MemberEntry := none
  /-- How many of the committed entries a node knows to be committed. -/
  known : ℕ → ℕ := fun _ => 0

/-- The answer to a submission. -/
inductive Submitted where
  | forwardToLeader
  | inProgress
  | refused
  | accepted (config : VoterConfig)

namespace MemberLog

/-- The configuration after the first `n` committed entries. -/
def configAt (l : MemberLog) (n : ℕ) : VoterConfig := ((l.committed.take n).getLast?.map (·.config)).getD l.founding

/-- The last committed configuration. -/
def latest (l : MemberLog) : VoterConfig := l.configAt l.committed.length

/-- `membership_state.committed()`, as a node has it. -/
def knownAt (l : MemberLog) (node : ℕ) : VoterConfig := l.configAt (l.known node)

/-- `change_membership` up to the entry it appends. A leader's log has every committed entry, so
its effective membership is committed when there is no other after them, and it knows that. -/
def submit (l : MemberLog) (node : ℕ) (c : Change) : Submitted :=
  if l.leader ≠ node then .forwardToLeader
  else if l.head.isSome ∨ l.known node ≠ l.committed.length then .inProgress
  else match l.latest.change c with
    | some config => .accepted config
    | none => .refused

/-- Whether an entry of a change, appended after `pos` committed ones, has been committed; it
may also turn out that another entry has taken its place. -/
def outcome (l : MemberLog) (pos : ℕ) (c : Change) : Option Bool := l.committed[pos]?.map (·.change = c)

def append (l : MemberLog) (c : Change) (config : VoterConfig) : MemberLog :=
  { l with head := some ⟨config, c⟩, floating := l.floating ++ [⟨config, c⟩] }

/-- The leader's entry is committed. No other that was in its place can be, from now on. -/
def commit (l : MemberLog) : MemberLog :=
  match l.head with
  | some e =>
    { l with
      committed := l.committed ++ [e], floating := [], head := none,
      known := Function.update l.known l.leader (l.committed.length + 1) }
  | none => l

/-- A node learns that the next entry is committed. -/
def learn (l : MemberLog) (node : ℕ) : MemberLog :=
  { l with known := Function.update l.known node (min (l.known node + 1) l.committed.length) }

/-- Another node leads. Its log may have one of the uncommitted entries. -/
def elect (l : MemberLog) (node : ℕ) (keep : Option ℕ) : MemberLog :=
  { l with leader := node, head := keep.bind (l.floating[·]?) }

end MemberLog

/-! ## Calls -/

/-- `should_promote`. -/
def shouldPromote (voters : Finset ℕ) (id maxVoters : ℕ) : Bool := voters.card < maxVoters && id ∉ voters

/-- `still_promotable`. -/
def stillPromotable (members voters : Finset ℕ) (id maxVoters : ℕ) : Bool :=
  id ∈ members && shouldPromote voters id maxVoters

/-- `held_by_floor`. -/
def heldByFloor (voters : Finset ℕ) (id : ℕ) : Bool := id ∈ voters && voters.card ≤ minVoters

/-- What a call wants the gate for. A sweep has candidates left after this one. -/
inductive GateJob where
  | evict (id : ℕ)
  | admitNode (id : ℕ)
  | promote (id : ℕ) (rest : List ℕ)
  deriving DecidableEq, Repr

/-- Where a call waits. `left` is how often it may submit again. -/
inductive CallStage where
  /-- `promote_ready_learners`, between two candidates. -/
  | candidates (ids : List ℕ)
  | locking (job : GateJob)
  /-- The gate is taken, and the committed membership not read yet. -/
  | counting (job : GateJob)
  | submitting (job : GateJob) (change : Change) (left : ℕ)
  /-- The first entry is in the log, after `pos` committed ones; the second comes after it. -/
  | half (job : GateJob) (change : Change) (left pos : ℕ)
  /-- The change is in the log, after `pos` committed ones; it is waited for. -/
  | settling (job : GateJob) (change : Change) (pos : ℕ)
  /-- Another change was under way, which is waited for. -/
  | blocked (job : GateJob) (change : Change) (left : ℕ)
  /-- The caller is gone; the second entry is still to come. -/
  | dropped (change : Change) (pos : ℕ)
  | ended
  deriving DecidableEq, Repr

/-- The change a call is about to submit, or has submitted. -/
def CallStage.change? : CallStage → Option Change
  | .submitting _ c _ | .half _ c _ _ | .settling _ c _ | .blocked _ c _ | .dropped c _ => some c
  | .candidates _ | .locking _ | .counting _ | .ended => none

structure MemberCall where
  node : ℕ
  stage : CallStage
  deriving DecidableEq, Repr

structure MemberFleet where
  log : MemberLog
  calls : List MemberCall := []
  /-- The call that holds a node's gate. -/
  gate : ℕ → Option ℕ := fun _ => none

inductive MemberMove where
  | evict (node id : ℕ)
  | admitNode (node id : ℕ)
  | sweep (node : ℕ)
  /-- The sweep looks at its next candidate, which catches up or does not. -/
  | candidate (call : ℕ) (catchingUp : Bool)
  | lock (call : ℕ)
  | count (call : ℕ) (catchingUp : Bool)
  | submit (call : ℕ)
  /-- The second entry of a change by way of a joint configuration. -/
  | resume (call : ℕ)
  /-- The change that was under way has been waited for. -/
  | wake (call : ℕ)
  /-- The call's own change has been applied. -/
  | settle (call : ℕ)
  /-- The call is cancelled, or one of its waits has timed out. -/
  | cancel (call : ℕ)
  | commit
  | learn (node : ℕ)
  | elect (node : ℕ) (keep : Option ℕ)
  deriving DecidableEq, Repr

namespace MemberFleet

def enter (f : MemberFleet) (node : ℕ) (stage : CallStage) : MemberFleet := { f with calls := f.calls ++ [⟨node, stage⟩] }

def setStage (f : MemberFleet) (call node : ℕ) (stage : CallStage) : MemberFleet :=
  { f with calls := f.calls.set call ⟨node, stage⟩ }

/-- The guard drops. -/
def unlock (f : MemberFleet) (call node : ℕ) : MemberFleet :=
  if f.gate node = some call then { f with gate := Function.update f.gate node none } else f

def finish (f : MemberFleet) (call node : ℕ) : MemberFleet := (f.unlock call node).setStage call node .ended

/-- What a call does with the membership it has read under the gate. -/
def decision (maxVoters : ℕ) (m : VoterConfig) (catchingUp : Bool) : GateJob → Option Change
  | .evict id =>
    if heldByFloor m.voterIds id then none
    else if id ∈ m.voterIds then some (.removeVoter id)
    else if id ∈ m.nodes then some (.removeNode id)
    else none
  | .admitNode id => if shouldPromote m.voterIds id maxVoters && !catchingUp then some (.addVoter id) else none
  | .promote id _ => if stillPromotable m.nodes m.voterIds id maxVoters then some (.addVoter id) else none

/-- A call is done with its job: a sweep goes on to its next candidate. -/
def jobDone (f : MemberFleet) (call node : ℕ) : GateJob → MemberFleet
  | .promote _ rest => (f.unlock call node).setStage call node (.candidates rest)
  | .evict _ | .admitNode _ => f.finish call node

/-- What a move submits, and at which node. -/
def offers (f : MemberFleet) : MemberMove → Option (ℕ × Change)
  | .submit call => match f.calls[call]? with
    | some ⟨node, .submitting _ c (_ + 1)⟩ => some (node, c)
    | _ => none
  | .resume call => match f.calls[call]? with
    | some ⟨node, .half _ c _ pos⟩ | some ⟨node, .dropped c pos⟩ =>
      if f.log.outcome pos c = some true then some (node, c) else none
    | _ => none
  | _ => none

/-- One move. A call that is not where the move takes it from stays where it is. -/
def step (maxVoters : ℕ) (f : MemberFleet) : MemberMove → MemberFleet
  | .evict node id => f.enter node (.locking (.evict id))
  | .admitNode node id => f.enter node (.submitting (.admitNode id) (.addNode id) admitMaxAttempts)
  | .sweep node => f.enter node (.candidates ((f.log.knownAt node).nodes.sort (· ≤ ·)))
  | .candidate call catchingUp => match f.calls[call]? with
    | some ⟨node, .candidates []⟩ => f.finish call node
    | some ⟨node, .candidates (id :: rest)⟩ =>
      if id ∈ (f.log.knownAt node).voterIds || !shouldPromote (f.log.knownAt node).voterIds id maxVoters || catchingUp then
        f.setStage call node (.candidates rest)
      else f.setStage call node (.locking (.promote id rest))
    | _ => f
  | .lock call => match f.calls[call]? with
    | some ⟨node, .locking job⟩ =>
      if f.gate node = none then
        { f.setStage call node (.counting job) with gate := Function.update f.gate node (some call) }
      else f
    | _ => f
  | .count call catchingUp => match f.calls[call]? with
    | some ⟨node, .counting job⟩ => match decision maxVoters (f.log.knownAt node) catchingUp job with
      | some c => f.setStage call node (.submitting job c admitMaxAttempts)
      | none => f.jobDone call node job
    | _ => f
  | .submit call => match f.calls[call]? with
    | some ⟨node, .submitting _ _ 0⟩ => f.finish call node
    | some ⟨node, .submitting job c (left + 1)⟩ => match f.log.submit node c with
      | .forwardToLeader | .refused => f.finish call node
      | .inProgress => f.setStage call node (.blocked job c left)
      | .accepted config =>
        -- a learner is added by one entry, also to a joint configuration
        let stage := if config.isUniform || c.addsNode then
            CallStage.settling job c f.log.committed.length
          else .half job c left f.log.committed.length
        { f.setStage call node stage with log := f.log.append c config }
    | _ => f
  | .resume call => match f.calls[call]? with
    | some ⟨node, .half job c left pos⟩ => match f.log.outcome pos c with
      | none => f
      | some false => f.finish call node
      | some true => match f.log.submit node c with
        | .forwardToLeader | .refused => f.finish call node
        | .inProgress => f.setStage call node (.blocked job c left)
        | .accepted config =>
          { f.setStage call node (.settling job c f.log.committed.length) with log := f.log.append c config }
    | some ⟨node, .dropped c pos⟩ => match f.log.outcome pos c with
      | none => f
      | some false => f.setStage call node .ended
      | some true => match f.log.submit node c with
        | .accepted config => { f.setStage call node .ended with log := f.log.append c config }
        | _ => f.setStage call node .ended
    | _ => f
  | .wake call => match f.calls[call]? with
    | some ⟨node, .blocked job c left⟩ => f.setStage call node (.submitting job c left)
    | _ => f
  | .settle call => match f.calls[call]? with
    | some ⟨node, .settling job c pos⟩ =>
      if pos < f.log.known node then
        match f.log.outcome pos c, job, c with
        | some true, .admitNode id, .addNode _ => f.setStage call node (.locking (.admitNode id))
        | some true, job, _ => f.jobDone call node job
        | _, _, _ => f.finish call node
      else f
    | _ => f
  | .cancel call => match f.calls[call]? with
    | some ⟨node, .half _ c _ pos⟩ => (f.unlock call node).setStage call node (.dropped c pos)
    | some ⟨_, .dropped _ _⟩ => f
    | some ⟨node, _⟩ => f.finish call node
    | none => f
  | .commit => { f with log := f.log.commit }
  | .learn node => { f with log := f.log.learn node }
  | .elect node keep => { f with log := f.log.elect node keep }

/-- The fleet after the first `n` moves. -/
def runAt (maxVoters : ℕ) (f : MemberFleet) (moves : List MemberMove) (n : ℕ) : MemberFleet :=
  Trace.stateAt (step maxVoters) f moves n

end MemberFleet

end RiftCluster
