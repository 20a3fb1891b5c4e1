import RiftCluster.Model.Ring
import RiftCluster.Model.Shard

/-!
# The clustered flow store

`stores/flow.rs`: the write path of a flow's owner, and the repairs that reach a node
from outside.

`owner_write` is several steps, between which anything else may happen on the node:
it captures the ring and checks the request against it (`admitted`), pulls the flow from
its fellow holders (`adopt`), takes the lock that serialises writes (`lock`), reads
(`read`), changes the memory (`store`), and learns whether the durable write worked
(`settle`). Pushes from other owners and repairs merge into the shard at any time,
and so do the shard's own steps; none of them takes the lock.
-/

namespace RiftCluster

open KV

/-- The JSON values of flow state, as far as the store looks into them. -/
class FlowValue (V : Type) where
  null : V
  asI64 : V → Option ℤ
  ofI64 : ℤ → V

variable {V : Type}

/-! ## Requests and replies -/

inductive WriteOp (V : Type) where
  | set (value : V)
  | delete
  | incr (amount : ℤ)
  | cas (expected : Option V) (new : V)
  /-- Zero or less drops the flow. -/
  | setTtl (ttlSeconds : ℤ)
  | setKeyTtl (ttlSeconds : ℤ)
  | clearFlow
  deriving DecidableEq, Repr

structure WriteReq (V : Type) where
  flowId : String
  /-- Unused by `setTtl` and `clearFlow`. -/
  key : String
  op : WriteOp V
  /-- The time to live of entries the request writes. -/
  ttlSeconds : Option ℤ := none
  durability : Durability := .async
  /-- The ring index of the sender, which the owner's has to match. -/
  mIdx : ℕ
  deriving DecidableEq, Repr

inductive WriteReply (V : Type) where
  | applied (entry : Option (Versioned V)) (incremented : Option ℤ) (existed : Option Bool)
  | casConflict (current : Option V)
  | fenced (ownerMIdx : ℕ)
  | notOwner (owner : ℕ)
  | error (reason : String)
  deriving DecidableEq, Repr

inductive ReplicaOp (V : Type) where
  | put (key : String) (entry : Versioned V)
  /-- Sent by earlier builds only. -/
  | delete (key : String)
  | clearFlow
  deriving DecidableEq, Repr

structure ReplicateReq (V : Type) where
  flowId : String
  op : ReplicaOp V
  durability : Durability
  deriving DecidableEq, Repr

inductive ShardError where
  | storage (reason : String)
  | encoding (reason : String)
  | writerStopped
  deriving DecidableEq, Repr

def ShardError.text : ShardError → String
  | .storage reason => "flow shard storage: " ++ reason
  | .encoding reason => "flow shard encoding: " ++ reason
  | .writerStopped => "flow shard writer stopped"

def isolatedRefusal : String := "flow store: owner is isolated from the cluster"
def notReadyStarting : String := "flow store: cluster is still starting"
def notReadyShutDown : String := "flow store: cluster node has shut down"
def notReadyNoMembership : String := "flow store: no applied membership yet"
def notReadyNoOwner : String := "flow store: ring has no members"

/-- How long a tombstone lives, in milliseconds. -/
def tombstoneTtl : ℕ := 60 * 1000

/-- Copies of a flow: the owner's and its successors'. -/
def replicas : ℕ := 3

/-! ## Pushes and repairs -/

/-- A repair is in memory only. -/
def repairDurability : Durability := .none

/-- What a replica does with a pushed operation. -/
def applyReplica (req : ReplicateReq V) : ShardCall V :=
  match req.op with
  | .put key entry => .merge req.flowId key entry req.durability
  | .delete key => .delete req.flowId key req.durability
  | .clearFlow => .clearFlow req.flowId req.durability

/-- Flows with their live entries, tombstones included. -/
abbrev SyncReply (V : Type) := List (String × List (String × Versioned V))

/-- The answer to a pull of some flows. -/
def Shard.sync (s : Shard V) (now : ℕ) (flowIds : List String) : SyncReply V :=
  flowIds.map fun flowId => (flowId, s.flow now flowId)

/-- The merges an adoption or an anti-entropy pass makes of an answer. -/
def SyncReply.merges (reply : SyncReply V) : List (ShardCall V) :=
  reply.flatMap fun flow => flow.2.map fun kv => .merge flow.1 kv.1 kv.2 repairDurability

/-! ## What a request does under the lock -/

/-- The next version counter, a `u64`. -/
def bump (v : ℕ) : ℕ := (v + 1) % 2 ^ 64

def mint (mIdx id expiry : ℕ) (prev : Option (Versioned V)) (value : V) : Versioned V :=
  { mIdx, v := prev.elim 1 fun p => bump p.v, origin := id, expiresAt := expiry, value }

/-- The record of a delete, made at `stamp`. -/
def tombstone [FlowValue V] (mIdx id stamp : ℕ) (prev : Option (Versioned V)) : Versioned V :=
  { mint mIdx id (expiryFrom stamp (some tombstoneTtl)) prev FlowValue.null with deleted := true }

/-- An entry with a new expiry. -/
def restamp (mIdx id expiry : ℕ) (prev : Versioned V) : Versioned V :=
  { prev with mIdx, v := bump prev.v, origin := id, expiresAt := expiry }

/-- A change of the shard. -/
inductive Effect (V : Type) where
  /-- An entry for a key, minted after what was read there. -/
  | put (key : String) (prev : Option (Versioned V)) (entry : Versioned V)
  | clear
  deriving DecidableEq, Repr

/-- What a request does once it has read: changes one by one, then the reply. -/
structure Plan (V : Type) where
  effects : List (Effect V)
  reply : WriteReply V
  deriving DecidableEq, Repr

def checkedAdd (a b : ℤ) : Option ℤ := if -2 ^ 63 ≤ a + b ∧ a + b < 2 ^ 63 then some (a + b) else none

def overflowReason (current amount : ℤ) : String :=
  "increment_by overflow: " ++ toString current ++ " + " ++ toString amount ++ " exceeds i64 range"

/-- A duration in milliseconds. -/
def ttlMillis (seconds : ℤ) : ℕ := seconds.natAbs * 1000

/-- New expiries for one key of a flow, or for all, in the order the keys are visited
(which the map's iteration leaves open). -/
def rewriteExpiries (mIdx id expiry : ℕ) (entries : List (String × Versioned V)) (onlyKey : Option String)
    (rank : String → ℕ) : List (Effect V) :=
  ((entries.insertionSort fun a b => rank a.1 ≤ rank b.1).filter fun kv => onlyKey.all (· == kv.1)).map fun kv =>
    .put kv.1 (some kv.2) (restamp mIdx id expiry kv.2)

/-- What a request does, from what it reads at `now`. `expiry` was taken with the lock;
`stamp` is the clock when an expiry is taken here. -/
def WriteReq.plan [FlowValue V] [DecidableEq V] (req : WriteReq V) (mIdx id expiry : ℕ) (s : Shard V) (now stamp : ℕ)
    (rank : String → ℕ) : Plan V :=
  -- a tombstone anchors the version and counts as absent
  let prev := s.getVersioned now req.flowId req.key
  let current := prev.filter fun e => !e.deleted
  match req.op with
  | .set value =>
    let entry := mint mIdx id expiry prev value
    ⟨[.put req.key prev entry], .applied (some entry) none none⟩
  | .delete => ⟨[.put req.key prev (tombstone mIdx id stamp prev)], .applied none none none⟩
  | .incr amount =>
    let count := (current.bind fun e => FlowValue.asI64 e.value).getD 0
    match checkedAdd count amount with
    | none => ⟨[], .error (overflowReason count amount)⟩
    | some sum => ⟨[.put req.key prev (mint mIdx id expiry prev (FlowValue.ofI64 sum))], .applied none (some sum) none⟩
  | .cas expected new =>
    if current.map (·.value) = expected then
      let entry := mint mIdx id expiry prev new
      ⟨[.put req.key prev entry], .applied (some entry) none none⟩
    else ⟨[], .casConflict (current.map (·.value))⟩
  | .setTtl seconds =>
    if seconds ≤ 0 then ⟨[.clear], .applied none none none⟩
    else
      ⟨rewriteExpiries mIdx id (expiryFrom stamp (some (ttlMillis seconds))) (s.flow now req.flowId) none rank,
        .applied none none none⟩
  | .setKeyTtl seconds =>
    if seconds ≤ 0 then ⟨[.put req.key prev (tombstone mIdx id stamp prev)], .applied none none (some true)⟩
    else
      ⟨rewriteExpiries mIdx id (expiryFrom stamp (some (ttlMillis seconds))) (s.flow now req.flowId) (some req.key) rank,
        .applied none none (some true)⟩
  | .clearFlow => ⟨[.clear], .applied none none none⟩

def Effect.call (req : WriteReq V) : Effect V → ShardCall V
  | .put key _ entry => .set req.flowId key entry req.durability
  | .clear => .clearFlow req.flowId req.durability

def Effect.replicaOp : Effect V → ReplicaOp V
  | .put key _ entry => .put key entry
  | .clear => .clearFlow

/-! ## A node -/

/-- The node behind the store. -/
inductive NodeSlot where
  | unbound
  | bound
  | gone
  deriving DecidableEq, Repr

/-- A call that passed the checks, with the ring it was checked against. -/
structure Waiting (V : Type) where
  ring : Ring
  req : WriteReq V
  /-- The adoption is done, and the call waits for the lock. -/
  ready : Bool := false
  deriving DecidableEq, Repr

/-- How far the call that holds the lock is. -/
inductive Stage (V : Type) where
  | locked
  /-- `setKeyTtl` has found its key. -/
  | found
  /-- The first effect is next. -/
  | planned (plan : Plan V)
  /-- The first effect is in the memory, and its durable write is awaited. -/
  | storing (plan : Plan V)
  deriving DecidableEq, Repr

structure Held (V : Type) where
  ring : Ring
  req : WriteReq V
  expiry : ℕ
  stage : Stage V
  deriving DecidableEq, Repr

/-- How a call came to its reply. -/
inductive Fate where
  /-- Before anything was read. -/
  | refused
  | executed
  /-- A durable write failed after the memory had changed. -/
  | failed
  deriving DecidableEq, Repr

structure Answer (V : Type) where
  req : WriteReq V
  reply : WriteReply V
  fate : Fate
  deriving DecidableEq, Repr

structure FlowNode (V : Type) where
  id : ℕ
  slot : NodeSlot := .bound
  ring : Ring
  isolated : Bool := false
  /-- The ring index each flow was last adopted at. -/
  adopted : Table String ℕ := ∅
  /-- The shard and the calls on it that are under way. -/
  traffic : Traffic V
  waiting : List (Waiting V) := []
  /-- The call that holds the lock. -/
  held : Option (Held V) := none
  /-- The answers given, in order. -/
  answered : List (Answer V) := []
  /-- The pushes sent, with their destinations. -/
  sent : List (ℕ × ReplicateReq V) := []

inductive FlowMove (V : Type) where
  /-- The node's applied membership changes, or the node comes and goes. -/
  | view (slot : NodeSlot) (ring : Ring)
  | isolation (isolated : Bool)
  | receive (req : WriteReq V)
  /-- The pulls of a waiting call are over; `reached` if a fellow holder answered. -/
  | adopt (slot : ℕ) (reached : Bool)
  | lock (slot now : ℕ)
  | read (now stamp : ℕ) (rank : String → ℕ)
  | store (now : ℕ)
  | settle (failure : Option ShardError)
  | push (now : ℕ) (req : ReplicateReq V)
  /-- One merge of an adoption or of an anti-entropy pass. -/
  | repair (now : ℕ) (flowId key : String) (entry : Versioned V)
  /-- One clear of `clear_imposter_scopes`. -/
  | clearScope (now : ℕ) (flowId : String)
  /-- A step of a shard call, of the writer, or its sweep. -/
  | run (slot : ℕ)
  | commit (now n : ℕ)
  | tick (now : ℕ)

namespace FlowNode

variable (score : ℕ → OwnedKey → ℕ) (n : FlowNode V)

def shard : Shard V := n.traffic.shard

def view : Except String Ring :=
  match n.slot with
  | .unbound => .error notReadyStarting
  | .gone => .error notReadyShutDown
  | .bound => if n.ring.isEmpty then .error notReadyNoMembership else .ok n.ring

/-- The checks of a request as it comes in, and the ring they were made against. -/
def admitted (req : WriteReq V) : Except (WriteReply V) Ring :=
  match n.view with
  | .error reason => .error (.error reason)
  | .ok ring =>
    if req.mIdx ≠ ring.mIdx then .error (.fenced ring.mIdx)
    else
      match ring.owner score (.flow req.flowId) with
      | none => .error (.error notReadyNoOwner)
      | some owner =>
        if owner ≠ n.id then .error (.notOwner owner)
        else if n.isolated then .error (.error isolatedRefusal)
        else .ok ring

/-- The members that hold a copy of a flow besides this node. -/
def fellows (ring : Ring) (flowId : String) : List ℕ :=
  (ring.owners score (.flow flowId) replicas).filter (· != n.id)

def answer (req : WriteReq V) (reply : WriteReply V) (fate : Fate) : FlowNode V :=
  { n with held := none, answered := n.answered ++ [⟨req, reply, fate⟩] }

/-- The call has read; a plan that changes nothing is answered at once. -/
def planned [FlowValue V] [DecidableEq V] (h : Held V) (now stamp : ℕ) (rank : String → ℕ) : FlowNode V :=
  let plan := h.req.plan h.ring.mIdx n.id h.expiry n.shard now stamp rank
  if plan.effects.isEmpty then n.answer h.req plan.reply .executed
  else { n with held := some { h with stage := .planned plan } }

def read [FlowValue V] [DecidableEq V] (h : Held V) (now stamp : ℕ) (rank : String → ℕ) : FlowNode V :=
  match h.stage, h.req.op with
  | .locked, .setKeyTtl _ =>
    if (n.shard.get now h.req.flowId h.req.key).isSome then { n with held := some { h with stage := .found } }
    else n.answer h.req (.applied none none (some false)) .executed
  | .locked, _ => n.planned h now stamp rank
  | .found, _ => n.planned h now stamp rank
  | _, _ => n

/-- The pushes of an effect, one to each fellow holder. -/
def replicate (h : Held V) (effect : Effect V) : List (ℕ × ReplicateReq V) :=
  (n.fellows score h.ring h.req.flowId).map fun id => (id, ⟨h.req.flowId, effect.replicaOp, h.req.durability⟩)

/-- The durable write of the first effect has ended. At durability `none`, and without a
writer, it cannot fail. -/
def settle (h : Held V) (effect : Effect V) (rest : List (Effect V)) (reply : WriteReply V)
    (failure : Option ShardError) : FlowNode V :=
  match failure.filter fun _ => h.req.durability != .none && n.shard.writer with
  | some e => n.answer h.req (.error e.text) .failed
  | none =>
    let pushed := { n with sent := n.sent ++ n.replicate score h effect }
    if rest.isEmpty then pushed.answer h.req reply .executed
    else { pushed with held := some { h with stage := .planned ⟨rest, reply⟩ } }

/-- The adoption of a flow at a ring index: nothing to do if it was adopted there, or if
there is no other holder. -/
def adopt (ring : Ring) (flowId : String) (reached : Bool) : Table String ℕ :=
  if n.adopted[flowId]? = some ring.mIdx then n.adopted
  else if (n.fellows score ring flowId).isEmpty || reached then n.adopted.insert flowId ring.mIdx
  else n.adopted

def lock (w : Waiting V) (slot now : ℕ) : FlowNode V :=
  let taken := { n with waiting := n.waiting.eraseIdx slot }
  -- a partition may have been noticed since the call came in
  if n.isolated then taken.answer w.req (.error isolatedRefusal) .refused
  else { taken with held := some ⟨w.ring, w.req, expiryFrom now (w.req.ttlSeconds.map ttlMillis), .locked⟩ }

def onShard (move : ShardMove V) : FlowNode V := { n with traffic := n.traffic.step move }

def step [FlowValue V] [DecidableEq V] (n : FlowNode V) : FlowMove V → FlowNode V
  | .view slot ring => { n with slot, ring }
  | .isolation isolated => { n with isolated }
  | .receive req =>
    match n.admitted score req with
    | .error reply => { n with answered := n.answered ++ [⟨req, reply, .refused⟩] }
    | .ok ring => { n with waiting := n.waiting ++ [⟨ring, req, false⟩] }
  | .adopt slot reached =>
    match n.waiting[slot]? with
    | none => n
    | some w =>
      { n with adopted := n.adopt score w.ring w.req.flowId reached
               waiting := n.waiting.set slot { w with ready := true } }
  | .lock slot now =>
    match n.held, n.waiting[slot]? with
    | none, some w => if w.ready then n.lock w slot now else n
    | _, _ => n
  | .read now stamp rank =>
    match n.held with
    | none => n
    | some h => n.read h now stamp rank
  | .store now =>
    match n.held with
    | some ⟨ring, req, expiry, .planned ⟨effect :: rest, reply⟩⟩ =>
      { n.onShard (.call now (effect.call req)) with held := some ⟨ring, req, expiry, .storing ⟨effect :: rest, reply⟩⟩ }
    | _ => n
  | .settle failure =>
    match n.held with
    | some ⟨ring, req, expiry, .storing ⟨effect :: rest, reply⟩⟩ =>
      n.settle score ⟨ring, req, expiry, .storing ⟨effect :: rest, reply⟩⟩ effect rest reply failure
    | _ => n
  | .push now req => n.onShard (.call now (applyReplica req))
  | .repair now flowId key entry => n.onShard (.call now (.merge flowId key entry repairDurability))
  | .clearScope now flowId => n.onShard (.call now (.clearFlow flowId .async))
  | .run slot => n.onShard (.run slot)
  | .commit now k => n.onShard (.commit now k)
  | .tick now => n.onShard (.tick now)

end FlowNode

end RiftCluster
