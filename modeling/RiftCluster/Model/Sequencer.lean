import RiftCluster.Model.Engine
import RiftCluster.Model.Ring

/-!
# The response sequencer

`stores/sequencer.rs`: which response of a stub is served next. An imposter in owner mode
has one cursor per stub and scope, kept by the ring owner of its key. The node that takes a
request asks the owner, and cycles its own cursor whenever the owner does not answer. Owned
cursors, those of local-mode imposters and those of fallbacks are rows of one map, and only a
reset takes a row out of it.

A fleet is a step function over moves. A call reads the node's membership and isolation in
one move and takes the lock of the cursors in a later one, on the owner's side as on the
caller's, so that every other move may come between.
-/

namespace RiftCluster

open KV

/-- The engine's `RuleCycler`, left open. -/
structure RuleCycler where
  State : Type
  /-- What `or_default` puts into the map. -/
  fresh : State
  /-- `get_response_index_advance`, on the number of responses and their repeats: the index
  to serve and the state after it. -/
  advance : State → ℕ → (ℕ → Option ℕ) → ℕ × State
  /-- `peek_response_index`. -/
  peek : State → ℕ → ℕ

/-- Port, stub key and scope. -/
abbrev CursorKey := Port × String × String

/-- `wire_key`: the key of a cursor in the ring. -/
def wireKey (key : CursorKey) : String := toString key.1 ++ "\x01" ++ key.2.1 ++ "\x01" ++ key.2.2

/-- A `next` (`advance`) or a `peek`. -/
structure SeqOp where
  key : CursorKey
  responseCount : ℕ
  repeats : List ℕ
  advance : Bool
  deriving DecidableEq, Repr

/-- `response_count as u32`. -/
def SeqOp.count32 (op : SeqOp) : ℕ := op.responseCount % 2 ^ 32

/-- `DecisionPath`: how a decision was reached. -/
inductive DecisionPath where
  | owner
  | forward
  | ofLocal
  | fallback
  deriving DecidableEq, Repr

inductive SeqReply where
  | index (index : ℕ)
  | fenced (ownerMIdx : ℕ)
  | notOwner (owner : ℕ)
  | error (reason : String)
  deriving DecidableEq, Repr

/-- What `owner_index` takes from a reply: an index the contract of the seam allows. -/
def SeqReply.accepted (responseCount : ℕ) : SeqReply → Option ℕ
  | .index i => if i < responseCount then some i else none
  | .fenced _ | .notOwner _ | .error _ => none

/-- `ClusteredSequencer`, with what it reads from its node. -/
structure Sequencer (C : RuleCycler) where
  /-- `bind` has been called. -/
  bridge : Bool := true
  /-- The ring of the node's effective membership, of a node that is alive. -/
  ring : Option Ring := none
  isolated : Bool := false
  modes : Table Port SequencingMode := ∅
  cursors : Table CursorKey C.State := ∅

namespace Sequencer

variable {C : RuleCycler}

def view (s : Sequencer C) : Option Ring := s.ring.filter fun ring => !ring.isEmpty

/-- `SequencingRegistry::mode`. -/
def mode (s : Sequencer C) (port : Port) : SequencingMode := s.modes[port]?.getD .ofLocal

/-- The cursor of a key: an absent one is made by its first use. -/
def cursor (s : Sequencer C) (key : CursorKey) : C.State := s.cursors[key]?.getD C.fresh

/-- `locally`: the node's own cursor, whoever asks. The cycler can return a stale index once
after the responses shrank, hence the clamp. -/
def locally (s : Sequencer C) (op : SeqOp) : ℕ × Sequencer C :=
  if op.responseCount = 0 then (0, s)
  else
    let cycler := s.cursor op.key
    let r := if op.advance then C.advance cycler op.count32 (op.repeats[·]?)
      else (C.peek cycler op.count32, cycler)
    (min r.1 (op.responseCount - 1), { s with cursors := s.cursors.insert op.key r.2 })

variable (score : ℕ → OwnedKey → ℕ)

/-- Who decides a call. -/
inductive Routed where
  /-- This node, from its own cursor. -/
  | here (path : DecisionPath)
  | ask (owner mIdx : ℕ)
  deriving DecidableEq, Repr

/-- `route` and `owner_index` up to the first use of a cursor or of the wire, on node `me`. -/
def route (s : Sequencer C) (me : ℕ) (key : CursorKey) : Routed :=
  if s.mode key.1 ≠ .owner then .here .ofLocal
  else if s.bridge = false then .here .fallback
  else
    match s.view with
    | none => .here .fallback
    | some ring =>
      match ring.owner score ⟨.sequence, wireKey key⟩ with
      | none => .here .fallback
      | some owner =>
        if owner = me then
          -- a healed majority may have given the key to another node already
          if s.isolated then .here .fallback else .here .owner
        else .ask owner ring.mIdx

/-- The checks of `owner_decide` on node `me`: why it refuses, if it does. -/
def refuses (s : Sequencer C) (me mIdx : ℕ) (key : CursorKey) : Option SeqReply :=
  match s.view with
  | none => some (.error "sequencer: no applied membership yet")
  | some ring =>
    if mIdx ≠ ring.mIdx then some (.fenced ring.mIdx)
    else
      match ring.owner score ⟨.sequence, wireKey key⟩ with
      | none => some (.error "sequencer: ring has no members")
      | some owner =>
        if owner = me then
          if s.isolated then some (.error "sequencer: owner is isolated from the cluster") else none
        else some (.notOwner owner)

end Sequencer

/-! ## A fleet -/

/-- Where a call stands. -/
inductive SeqStage where
  /-- The caller's own cursor is next. -/
  | ready (path : DecisionPath)
  /-- For the owner's reply. -/
  | waiting
  | replied (reply : SeqReply)
  | done (index : ℕ) (path : DecisionPath)
  /-- The caller's process is gone. -/
  | dead
  deriving DecidableEq, Repr

structure SeqCall where
  node : ℕ
  op : SeqOp
  /-- The owner a request was addressed to, with the membership index in it. -/
  asked : Option (ℕ × ℕ)
  /-- A copy of the request is on its way. -/
  onWire : Bool
  stage : SeqStage
  deriving DecidableEq, Repr

/-- A call once it is routed. -/
def SeqCall.begin (node : ℕ) (op : SeqOp) : Sequencer.Routed → SeqCall
  | .here path => ⟨node, op, none, false, .ready path⟩
  | .ask owner mIdx => ⟨node, op, some (owner, mIdx), true, .waiting⟩

/-- One use of a cursor of `node` for the call `slot`. -/
structure Turn where
  slot : ℕ
  node : ℕ
  op : SeqOp
  path : DecisionPath
  index : ℕ
  deriving DecidableEq, Repr

/-- The node answered as the owner of the key: a call of its own, or another member's. -/
def Turn.asOwner (t : Turn) : Bool := t.path == .owner || t.path == .forward

inductive SeqEvent where
  | turn (t : Turn)
  /-- The ring of the node is now this one. -/
  | moved (node : ℕ) (ring : Option Ring)
  | crashed (node : ℕ)
  deriving DecidableEq, Repr

structure SeqFleet (C : RuleCycler) where
  nodes : ℕ → Sequencer C
  /-- Every call so far; a call is named by its place. -/
  calls : List SeqCall := []
  /-- Requests that passed the owner's checks, each with that owner. -/
  tasks : List (ℕ × ℕ) := []
  /-- What has happened to the cursors and the rings, oldest first. -/
  log : List SeqEvent := []

inductive SeqMove where
  | call (node : ℕ) (op : SeqOp)
  /-- The call takes its node's cursor. -/
  | turn (slot : ℕ)
  /-- The request reaches the owner, which makes its checks. -/
  | deliver (slot : ℕ)
  /-- The owner takes its cursor for the task in this place, and replies. -/
  | serve (task : ℕ)
  /-- The reply reaches the caller. -/
  | receive (slot : ℕ)
  /-- The transport sends the request once more. -/
  | resend (slot : ℕ)
  /-- The bridge sheds the call or its time is over, or the transport fails. -/
  | giveUp (slot : ℕ)
  | membership (node : ℕ) (ring : Option Ring)
  | isolate (node : ℕ) (isolated : Bool)
  /-- The process starts anew, without its cursors. -/
  | crash (node : ℕ)
  deriving DecidableEq, Repr

namespace SeqFleet

variable {C : RuleCycler}

/-- Processes that have just started. -/
def start (nodes : ℕ → Sequencer C) : SeqFleet C := { nodes := fun n => { nodes n with cursors := ∅ } }

def setNode (f : SeqFleet C) (node : ℕ) (s : Sequencer C) : SeqFleet C :=
  { f with nodes := Function.update f.nodes node s }

def setCall (f : SeqFleet C) (slot : ℕ) (c : SeqCall) : SeqFleet C := { f with calls := f.calls.set slot c }

def note (f : SeqFleet C) (e : SeqEvent) : SeqFleet C := { f with log := f.log ++ [e] }

/-- `locally` on `node`, for the call `slot`. -/
def takeTurn (f : SeqFleet C) (slot node : ℕ) (op : SeqOp) (path : DecisionPath) : SeqFleet C :=
  let r := (f.nodes node).locally op
  (f.setNode node r.2).note (.turn ⟨slot, node, op, path, r.1⟩)

/-- The reply to a call that still waits; any other is dropped. -/
def reply (f : SeqFleet C) (slot : ℕ) (c : SeqCall) (r : SeqReply) : SeqFleet C :=
  if c.stage = .waiting then f.setCall slot { c with stage := .replied r } else f

/-- The call's own turn. -/
def turnOf (f : SeqFleet C) (slot : ℕ) (c : SeqCall) : SeqFleet C :=
  match c.stage with
  | .ready path =>
    (f.takeTurn slot c.node c.op path).setCall slot
      { c with stage := .done ((f.nodes c.node).locally c.op).1 path }
  | _ => f

variable (score : ℕ → OwnedKey → ℕ)

/-- `owner_decide` up to the cursor. -/
def deliverTo (f : SeqFleet C) (slot : ℕ) (c : SeqCall) : SeqFleet C :=
  match c.asked, c.onWire with
  | some (owner, mIdx), true =>
    let c := { c with onWire := false }
    match (f.nodes owner).refuses score owner mIdx c.op.key with
    | some refusal => (f.setCall slot c).reply slot c refusal
    | none => { f.setCall slot c with tasks := f.tasks ++ [(owner, slot)] }
  | _, _ => f

/-- The rest of `owner_decide`, for the task in place `task`. -/
def serveCall (f : SeqFleet C) (task owner slot : ℕ) (c : SeqCall) : SeqFleet C :=
  ({ f with tasks := f.tasks.eraseIdx task }.takeTurn slot owner c.op .forward).reply slot c
    (.index ((f.nodes owner).locally c.op).1)

/-- The end of `owner_index`. -/
def receiveReply (f : SeqFleet C) (slot : ℕ) (c : SeqCall) : SeqFleet C :=
  match c.stage with
  | .replied r =>
    match r.accepted c.op.responseCount with
    | some index => f.setCall slot { c with stage := .done index .forward }
    | none => f.setCall slot { c with stage := .ready .fallback }
  | _ => f

def giveUpOn (f : SeqFleet C) (slot : ℕ) (c : SeqCall) : SeqFleet C :=
  match c.stage with
  | .waiting | .replied _ => f.setCall slot { c with stage := .ready .fallback }
  | _ => f

/-- A process that ends takes its unfinished calls and the requests it was handling with it;
the next one has to learn its membership. -/
def crashNode (f : SeqFleet C) (node : ℕ) : SeqFleet C :=
  { (f.setNode node { f.nodes node with ring := none, cursors := ∅ }).note (.crashed node) with
    calls := f.calls.map fun c =>
      match c.stage with
      | .done _ _ => c
      | _ => if c.node = node then { c with stage := .dead } else c
    tasks := f.tasks.filter fun t => t.1 ≠ node }

/-- What a move on a call does; nothing if there is no such call. -/
def onCall (f : SeqFleet C) (slot : ℕ) (act : SeqCall → SeqFleet C) : SeqFleet C :=
  match f.calls[slot]? with
  | some c => act c
  | none => f

def step (f : SeqFleet C) : SeqMove → SeqFleet C
  | .call node op => { f with calls := f.calls ++ [.begin node op ((f.nodes node).route score node op.key)] }
  | .turn slot => f.onCall slot (f.turnOf slot)
  | .deliver slot => f.onCall slot (f.deliverTo score slot)
  | .serve task =>
    match f.tasks[task]? with
    | some (owner, slot) => f.onCall slot (f.serveCall task owner slot)
    | none => f
  | .receive slot => f.onCall slot (f.receiveReply slot)
  | .resend slot => f.onCall slot fun c => f.setCall slot { c with onWire := c.asked.isSome }
  | .giveUp slot => f.onCall slot (f.giveUpOn slot)
  | .membership node ring =>
    (f.setNode node { f.nodes node with ring := ring }).note (.moved node ring)
  | .isolate node isolated => f.setNode node { f.nodes node with isolated := isolated }
  | .crash node => f.crashNode node

def run (f : SeqFleet C) (moves : List SeqMove) : SeqFleet C := moves.foldl (step score) f

end SeqFleet

end RiftCluster
