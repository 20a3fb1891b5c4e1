import RiftCluster.Model.Machine

/-!
# Replacing the imposters of a fleet

`PUT /imposters` is a put for every imposter of the body and then a delete for every other
port that is configured. The requests have op ids of their position (`op_id_for`). They are
parked, durably and all of them, before the first is submitted. The request's own loop
submits them one after another; `drain_parked_intents` submits what is parked, in the order
of the op ids. `ReplaceNode.step` is one atomic step of the two loops, of the log or of the
node's crashing. A submit that is given up may still commit.
-/

namespace RiftCluster

open KV

/-! ## The requests -/

/-- `configured_ports`: ascending, as the table has them. -/
def existingPorts (t : Tables) : List Port := t.configs.toList.map Prod.fst

/-- What `terminate` makes of a put of `PUT /imposters`: it restarts the imposter, unless the
query has `reconcile=true`. -/
def restartOf (reconcile : Bool) : Option Restart := if reconcile then none else some .imposter

/-- `build_mutation` of `ReplaceAllImposters`. -/
def replaceOps (reconcile : Bool) (existing : List Port) (body : List ImposterConfig) :
    Except String (List ControlOp) :=
  if body.any (·.port.isNone) then
    .error "a clustered imposter needs an explicit port: auto-assigned ports cannot replicate"
  else if body.isEmpty then .ok [.deleteAll]
  else
    let keep := body.map ImposterConfig.port
    .ok (body.map (ControlOp.putImposter · (restartOf reconcile)) ++
      (existing.filter (some · ∉ keep)).map ControlOp.deleteImposter)

/-- `op_id_for`. `v5 base index` is the name-based UUID of an index under a base. -/
def opIdFor (v5 : String → ℕ → String) (base : String) (index total : ℕ) : String :=
  if total = 1 then base else v5 base index

inductive Precondition where
  | unconditional
  | revision (revision : ℕ)
  | absent
  deriving DecidableEq, Repr

/-- `mint`, at a reading of the node's clock. -/
def mintRequest (opId : String) (op : ControlOp) (precondition : Precondition) (issuedAtSecs : ℕ) : ControlRequest where
  opId := opId
  issuedAtSecs := issuedAtSecs
  expectedRevision := match precondition with
    | .revision revision => some revision
    | _ => none
  expectAbsent := precondition = .absent
  op := op

/-- The requests of a mutation without a precondition. -/
def mintAll (v5 : String → ℕ → String) (base : String) (now : ℕ → ℕ) (ops : List ControlOp) : List ControlRequest :=
  ops.mapIdx fun index op => mintRequest (opIdFor v5 base index ops.length) op .unconditional (now index)

/-! ## The accepting node -/

/-- A loop that submits one request after another. -/
structure Submitter where
  /-- What is left, the one under way first. -/
  queue : List ControlRequest
  /-- Whether the first is submitted, and not answered yet. -/
  waiting : Bool := false
  deriving DecidableEq

inductive FrontTask where
  | idle
  /-- `run_mutation` has `left` to park of its requests. -/
  | parking (left requests : List ControlRequest)
  | submitting (loop : Submitter)
  deriving DecidableEq

/-- How a `node.submit` ends. -/
inductive SubmitAnswer where
  /-- The state machine's answer, and whether it is `Failed`. -/
  | done (failed : Bool)
  /-- The write deadline passes first. -/
  | timedOut
  | unavailable
  | tooLarge
  | error
  deriving DecidableEq, Repr

structure ReplaceNode where
  /-- The parked intents, by op id. -/
  parked : Table String ControlRequest := ∅
  /-- The requests that are committed, in the order of the log. -/
  log : List ControlRequest := []
  /-- Those that have reached a leader and may be committed yet. -/
  inflight : List ControlRequest := []
  front : FrontTask := .idle
  drain : Option Submitter := none
  deriving DecidableEq

inductive ReplaceMove where
  /-- `run_mutation` parks its next request; after the last it begins to submit. -/
  | park
  | parkFails
  /-- Its loop submits the next request, which reaches a leader or is lost. -/
  | submit (reaches : Bool)
  /-- Its submit ends; `unparks` is whether the row's removal succeeds. -/
  | answer (a : SubmitAnswer) (unparks : Bool)
  /-- `drain_parked_intents` reads the parked rows. -/
  | sweep
  | drainSubmit (reaches : Bool)
  | drainAnswer (a : SubmitAnswer) (unparks : Bool)
  /-- A request that has reached a leader is committed. -/
  | commit (i : ℕ)
  /-- The node stops, and starts again with what is durable. -/
  | crash
  deriving DecidableEq, Repr

namespace ReplaceNode

def unpark (n : ReplaceNode) (request : ControlRequest) (unparks : Bool) : ReplaceNode :=
  if unparks then { n with parked := n.parked.erase request.opId } else n

def propose (n : ReplaceNode) (request : ControlRequest) (reaches : Bool) : ReplaceNode :=
  if reaches then { n with inflight := n.inflight ++ [request] } else n

/-- The end of a submit in `run_mutation`'s loop. -/
def frontAnswered (async : Bool) (n : ReplaceNode) (request : ControlRequest) (rest : List ControlRequest)
    (unparks : Bool) : SubmitAnswer → ReplaceNode
  | .done failed =>
    if request ∈ n.log then
      { n.unpark request unparks with
        front := if failed && !async then .idle else .submitting { queue := rest } }
    else n
  -- there is a deadline in the synchronous loop only
  | .timedOut => if async then n else { n with front := .idle }
  | .unavailable | .tooLarge | .error => { n with front := .idle }

/-- The end of a submit in `drain_parked_intents`. -/
def drainAnswered (n : ReplaceNode) (request : ControlRequest) (rest : List ControlRequest) (unparks : Bool) :
    SubmitAnswer → ReplaceNode
  | .done _ =>
    if request ∈ n.log then { n.unpark request unparks with drain := some { queue := rest } } else n
  | .timedOut => n
  -- no quorum fails every intent alike
  | .unavailable => { n with drain := none }
  | .tooLarge => { n.unpark request unparks with drain := some { queue := rest } }
  | .error => { n with drain := some { queue := rest } }

/-- `async` is whether writes are answered before they are submitted. -/
def step (async : Bool) (n : ReplaceNode) : ReplaceMove → ReplaceNode
  | .park => match n.front with
    | .parking (request :: left) requests =>
      { n with parked := n.parked.insert request.opId request, front := .parking left requests }
    | .parking [] requests => { n with front := .submitting { queue := requests } }
    | _ => n
  | .parkFails => match n.front with
    | .parking (_ :: _) _ => { n with front := .idle }
    | _ => n
  | .submit reaches => match n.front with
    | .submitting ⟨request :: rest, false⟩ =>
      { n.propose request reaches with front := .submitting ⟨request :: rest, true⟩ }
    | _ => n
  | .answer a unparks => match n.front with
    | .submitting ⟨request :: rest, true⟩ => n.frontAnswered async request rest unparks a
    | _ => n
  | .sweep => match n.drain with
    | none | some ⟨[], _⟩ => { n with drain := some { queue := n.parked.toList.map Prod.snd } }
    | _ => n
  | .drainSubmit reaches => match n.drain with
    | some ⟨request :: rest, false⟩ =>
      { n.propose request reaches with drain := some ⟨request :: rest, true⟩ }
    | _ => n
  | .drainAnswer a unparks => match n.drain with
    | some ⟨request :: rest, true⟩ => n.drainAnswered request rest unparks a
    | _ => n
  | .commit i => match n.inflight[i]? with
    | some request => { n with log := n.log ++ [request], inflight := n.inflight.eraseIdx i }
    | none => n
  | .crash => { n with front := .idle, drain := none }

/-- The node that has accepted a replace, with nothing parked yet. -/
def start (requests : List ControlRequest) : ReplaceNode := { front := .parking requests requests }

/-- The node after the first `k` moves. -/
def runAt (async : Bool) (n : ReplaceNode) (moves : List ReplaceMove) (k : ℕ) : ReplaceNode :=
  Trace.stateAt (step async) n moves k

end ReplaceNode

end RiftCluster
