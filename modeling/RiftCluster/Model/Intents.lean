import RiftCluster.Model.Mutation

/-!
# Parked intents

A write is accepted by parking its requests in `pending_intents`, durably, before any of them
is submitted. Four paths take a row out again: the loop of `run_mutation`, the background task
of an asynchronous write, the commits of a signing key and of a space teardown, which are like
the first with one request, and `drain_parked_intents`, which submits what is parked.

`IntentNode.step` is one atomic step of any of them: one transaction on the table, one submit,
one entry of the log, or a crash of the node, after which a removal may be undone. Any number
of writes is under way at a time. A request that has reached a leader may be committed later,
whoever waits for it.
-/

namespace RiftCluster

open KV

/-- A row of `pending_intents`. -/
inductive IntentRow where
  | intent (request : ControlRequest)
  /-- A text that does not parse. -/
  | garbled (text : String)
  deriving DecidableEq

def IntentRow.request? : IntentRow → Option ControlRequest
  | .intent request => some request
  | .garbled _ => none

inductive TaskMode where
  /-- Under the write deadline, and up to the first request that fails. -/
  | sync
  /-- The background task of a write that is answered `202`. -/
  | background
  deriving DecidableEq, Repr

/-- A write that has passed its gates. -/
structure WriteTask where
  mode : TaskMode
  /-- The requests to park yet. -/
  toPark : List ControlRequest
  /-- The requests to submit yet, the one under way first. -/
  queue : List ControlRequest
  /-- Whether the first is submitted, and not answered yet. -/
  waiting : Bool := false
  deriving DecidableEq

/-- A sweep of `drain_parked_intents`. -/
structure IntentSweep where
  /-- The rows it has read that do not parse, with the op ids they are dropped by. -/
  doomed : List (String × IntentRow)
  queue : List ControlRequest
  waiting : Bool := false
  deriving DecidableEq

structure IntentNode where
  /-- `pending_intents`. -/
  parked : Table String IntentRow := ∅
  /-- The rows whose removal a crash may undo. -/
  removed : Table String IntentRow := ∅
  /-- What the leader's state machine has applied. -/
  log : List Event := []
  /-- The requests that have reached a leader and may be committed yet. -/
  inflight : List ControlRequest := []
  /-- The writes, in the order they began; none for one that is over. -/
  tasks : List (Option WriteTask) := []
  sweep : Option IntentSweep := none
  deriving DecidableEq

/-- What the node's storage and its submits depend on. -/
structure IntentEnv where
  /-- `admit_entry_size` refuses the request. -/
  oversize : ControlRequest → Bool
  /-- The op id that a key of the table is read as. -/
  uuid : String → Option String

inductive IntentMove where
  /-- A write passes its gates. -/
  | begin (mode : TaskMode) (requests : List ControlRequest)
  /-- A write parks its next request. -/
  | park (i : ℕ)
  /-- It cannot, and is refused; what it wrote may be durable nevertheless. -/
  | parkFails (i : ℕ) (durable : Bool)
  /-- It submits its next request, which reaches a leader or is lost. -/
  | submit (i : ℕ) (reaches : Bool)
  /-- Its submit ends; `unparks` is whether the row's removal succeeds. -/
  | answer (i : ℕ) (a : SubmitAnswer) (unparks : Bool)
  /-- A sweep reads the table. -/
  | sweep
  /-- The sweep drops the next row that does not parse. -/
  | drop (unparks : Bool)
  | sweepSubmit (reaches : Bool)
  | sweepAnswer (a : SubmitAnswer) (unparks : Bool)
  /-- A request that has reached a leader is committed and applied. -/
  | commit (k : ℕ) (degraded : Bool) (logId : LogId)
  /-- Another event of the state machine. -/
  | apply (ev : Event)
  /-- The node stops and starts again; the removals of some rows are undone. -/
  | crash (undone : List String)
  deriving DecidableEq

/-- Whether the log has an entry with a request. -/
def logged (log : List Event) (request : ControlRequest) : Bool :=
  log.any fun
    | .entry _ e => e.payload = .normal request
    | .sweep => false

namespace IntentNode

variable (env : IntentEnv)

/-- `park_intent`. -/
def write (n : IntentNode) (request : ControlRequest) : IntentNode :=
  { n with
    parked := n.parked.insert request.opId (.intent request)
    removed := n.removed.erase request.opId }

/-- `unpark_intent`: a row that is not there is no error. -/
def unpark (n : IntentNode) (opId : String) (unparks : Bool) : IntentNode :=
  match n.parked[opId]?, unparks with
  | some row, true => { n with parked := n.parked.erase opId, removed := n.removed.insert opId row }
  | _, _ => n

/-- A submit of a request within the size limit may reach a leader. -/
def propose (n : IntentNode) (request : ControlRequest) (reaches : Bool) : IntentNode :=
  if reaches && !env.oversize request then { n with inflight := n.inflight ++ [request] } else n

def setTask (n : IntentNode) (i : ℕ) (task : Option WriteTask) : IntentNode := { n with tasks := n.tasks.set i task }

/-- Whether a submit of a request can end with an answer. -/
def canAnswer (n : IntentNode) (request : ControlRequest) : SubmitAnswer → Bool
  -- `Ok` is an entry that is committed and applied
  | .done _ => logged n.log request
  | .tooLarge => env.oversize request
  | .timedOut | .unavailable | .error => true

/-- The end of a write's submit. -/
def answered (n : IntentNode) (i : ℕ) (mode : TaskMode) (request : ControlRequest) (rest : List ControlRequest)
    (unparks : Bool) : SubmitAnswer → IntentNode
  | .done failed =>
    (n.unpark request.opId unparks).setTask i
      (if failed && mode = .sync then none else some { mode, toPark := [], queue := rest })
  -- only the synchronous loop has a deadline
  | .timedOut => if mode = .sync then n.setTask i none else n
  | .unavailable | .tooLarge | .error => n.setTask i none

/-- The end of a sweep's submit. -/
def sweepAnswered (n : IntentNode) (request : ControlRequest) (rest : List ControlRequest) (unparks : Bool) :
    SubmitAnswer → IntentNode
  | .done _ => { n.unpark request.opId unparks with sweep := some { doomed := [], queue := rest } }
  | .timedOut => n
  -- no quorum fails every intent alike
  | .unavailable => { n with sweep := none }
  -- never to be proposed: dropped, without an outcome
  | .tooLarge => { n.unpark request.opId unparks with sweep := some { doomed := [], queue := rest } }
  | .error => { n with sweep := some { doomed := [], queue := rest } }

/-- `parked_intents`: the rows as the table has them. -/
def readRows (n : IntentNode) : IntentSweep where
  doomed := n.parked.toList.filterMap fun kv => match kv.2 with
    | .garbled _ => (env.uuid kv.1).map fun opId => (opId, kv.2)
    | .intent _ => none
  queue := n.parked.toList.filterMap fun kv => kv.2.request?

/-- The table after a crash. -/
def restore (n : IntentNode) (undone : List String) : Table String IntentRow :=
  undone.foldl (fun parked opId => match parked[opId]?, n.removed[opId]? with
    | none, some row => parked.insert opId row
    | _, _ => parked) n.parked

def step (n : IntentNode) : IntentMove → IntentNode
  | .begin mode requests => { n with tasks := n.tasks ++ [some { mode, toPark := requests, queue := requests }] }
  | .park i => match n.tasks[i]? with
    | some (some ⟨mode, request :: left, queue, waiting⟩) => (n.write request).setTask i (some ⟨mode, left, queue, waiting⟩)
    | _ => n
  | .parkFails i durable => match n.tasks[i]? with
    | some (some ⟨_, request :: _, _, _⟩) => (if durable then n.write request else n).setTask i none
    | _ => n
  | .submit i reaches => match n.tasks[i]? with
    | some (some ⟨mode, [], request :: rest, false⟩) =>
      (n.propose env request reaches).setTask i (some ⟨mode, [], request :: rest, true⟩)
    | _ => n
  | .answer i a unparks => match n.tasks[i]? with
    | some (some ⟨mode, [], request :: rest, true⟩) =>
      if n.canAnswer env request a then n.answered i mode request rest unparks a else n
    | _ => n
  | .sweep => match n.sweep with
    | none | some ⟨[], [], _⟩ => { n with sweep := some (n.readRows env) }
    | _ => n
  | .drop unparks => match n.sweep with
    | some ⟨(opId, _) :: doomed, queue, waiting⟩ => { n.unpark opId unparks with sweep := some ⟨doomed, queue, waiting⟩ }
    | _ => n
  | .sweepSubmit reaches => match n.sweep with
    | some ⟨[], request :: rest, false⟩ => { n.propose env request reaches with sweep := some ⟨[], request :: rest, true⟩ }
    | _ => n
  | .sweepAnswer a unparks => match n.sweep with
    | some ⟨[], request :: rest, true⟩ => if n.canAnswer env request a then n.sweepAnswered request rest unparks a else n
    | _ => n
  | .commit k degraded logId => match n.inflight[k]? with
    | some request =>
      { n with log := n.log ++ [.entry degraded ⟨logId, .normal request⟩], inflight := n.inflight.eraseIdx k }
    | none => n
  | .apply ev => { n with log := n.log ++ [ev] }
  | .crash undone =>
    { n with parked := n.restore undone, removed := ∅, tasks := n.tasks.map fun _ => none, sweep := none }

def run (n : IntentNode) (moves : List IntentMove) : IntentNode := moves.foldl (step env) n

/-- The node after the first `k` moves. -/
def runAt (n : IntentNode) (moves : List IntentMove) (k : ℕ) : IntentNode := Trace.stateAt (step env) n moves k

/-- The op id whose `park_intent` returns `Ok` in a move. -/
def acceptedBy (n : IntentNode) : IntentMove → Option String
  | .park i => match n.tasks[i]? with
    | some (some ⟨_, request :: _, _, _⟩) => some request.opId
    | _ => none
  | _ => none

/-- The op id whose row a sweep drops in a move, without an outcome, and the row as the sweep
has read it. -/
def doomedBy (n : IntentNode) : IntentMove → Option (String × IntentRow)
  | .drop true => match n.sweep with
    | some ⟨doomed :: _, _, _⟩ => some doomed
    | _ => none
  | .sweepAnswer .tooLarge true => match n.sweep with
    | some ⟨[], request :: _, true⟩ => if env.oversize request then some (request.opId, .intent request) else none
    | _ => none
  | _ => none

/-- The row that is dropped, as the table has it. -/
def droppedBy (n : IntentNode) (move : IntentMove) : Option (String × IntentRow) := do
  let (opId, _) ← n.doomedBy env move
  let row ← n.parked[opId]?
  return (opId, row)

/-- `run_mutation` up to its parking: a refusal at a gate, or a write that begins. -/
def accept (n : IntentNode) (mode : TaskMode) : Except Front.Reply (List ControlRequest) → IntentNode × Option Front.Reply
  | .error reply => (n, some reply)
  | .ok requests => (n.step env (.begin mode requests), none)

end IntentNode

end RiftCluster
