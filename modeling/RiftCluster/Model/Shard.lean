import RiftCluster.Model.Machine

/-!
# The flow shard

`stores/shard.rs`: a node's slice of flow state. A memory mirror serves every
read; a writer commits queued mutations to the file in the order they were sent.

An operation is several atomic steps: a hold of the memory lock, the selection of
the flows to evict, and sends to the writer. `ShardCall.begin` and `Task.step` are
those steps, and `Traffic` runs any number of calls side by side with the writer's
commits and its sweep. `Shard.set`, `merge`, `delete` and `clearFlow` are a call from
its first step to its last with nothing in between.
-/

namespace RiftCluster

open KV

/-! ## Entries -/

/-- A value with the version that decides between copies of it. -/
structure Versioned (V : Type) where
  mIdx : ℕ
  v : ℕ
  origin : ℕ
  /-- Unix milliseconds; `0` is never. -/
  expiresAt : ℕ
  value : V
  /-- A tombstone: the record that the key was deleted. -/
  deleted : Bool := false
  deriving DecidableEq, Repr

variable {V : Type}

/-- `(m_idx, v, origin)`, compared from the left. -/
def Versioned.version (e : Versioned V) : ℕ ×ₗ ℕ ×ₗ ℕ := toLex (e.mIdx, toLex (e.v, e.origin))

def Versioned.supersededBy (e other : Versioned V) : Bool :=
  e.mIdx < other.mIdx ||
    (e.mIdx == other.mIdx && (e.v < other.v || (e.v == other.v && e.origin < other.origin)))

def isLive (e : Versioned V) (now : ℕ) : Bool := e.expiresAt == 0 || e.expiresAt > now

/-- The expiry of a time to live in milliseconds, from `now` on; none is never. -/
def expiryFrom (now : ℕ) : Option ℕ → ℕ
  | some millis => saturatingAdd now (min millis u64Max)
  | none => 0

/-! ## Memory -/

/-- One flow's keys, and when it was last written. The sequence orders touches within
one millisecond. -/
structure FlowMem (V : Type) where
  keys : Table String (Versioned V) := ∅
  lastTouch : ℕ := 0
  touchSeq : ℕ := 0
  deriving DecidableEq

abbrev Memory (V : Type) := Table String (FlowMem V)

/-- Whether a touch is no later than another. -/
def touchedBefore (a b : ℕ × ℕ) : Bool := a.1 < b.1 || (a.1 == b.1 && a.2 ≤ b.2)

/-- The flows, least recently touched first. -/
def byAge (memory : Memory V) : List (String × ℕ × ℕ) :=
  (memory.toList.map fun kv => (kv.1, kv.2.lastTouch, kv.2.touchSeq)).insertionSort fun a b =>
    touchedBefore a.2 b.2 = true

/-! ## The file and the writer's queue -/

inductive Mutation (V : Type) where
  | set (flowId key : String) (entry : Versioned V)
  | delete (flowId key : String)
  | clearFlow (flowId : String)
  deriving DecidableEq, Repr

structure Disk (V : Type) where
  flowKv : Table (String × String) (Versioned V) := ∅
  /-- When each flow was last written. -/
  flowMeta : Table String ℕ := ∅
  deriving DecidableEq

/-- One mutation of a batch, committed at `now`. -/
def Disk.apply (now : ℕ) (d : Disk V) : Mutation V → Disk V
  | .set flowId key entry =>
    { flowKv := d.flowKv.insert (flowId, key) entry, flowMeta := d.flowMeta.insert flowId now }
  | .delete flowId key => { d with flowKv := d.flowKv.erase (flowId, key) }
  | .clearFlow flowId =>
    { flowKv := d.flowKv.retain fun row _ => row.1 != flowId, flowMeta := d.flowMeta.erase flowId }

def commitBatch (now : ℕ) (d : Disk V) (batch : List (Mutation V)) : Disk V := batch.foldl (Disk.apply now) d

def commitDeletes (d : Disk V) (deletes : List (String × String)) : Disk V :=
  { d with flowKv := deletes.foldl (fun kv row => kv.erase row) d.flowKv }

def maxBatch : ℕ := 256

/-- A shard. Without a writer (in memory, or closed) nothing is queued. -/
structure Shard (V : Type) where
  maxFlows : ℕ
  memory : Memory V := ∅
  /-- The next value of the touch counter. -/
  touchSeq : ℕ := 0
  writer : Bool := true
  queue : List (Mutation V) := []
  disk : Disk V := {}
  deriving DecidableEq

namespace Shard

/-! ## Reads -/

/-- The record of a key, live or not. -/
def entry (s : Shard V) (flowId key : String) : Option (Versioned V) := s.memory[flowId]?.bind fun flow => flow.keys[key]?

def getVersioned (s : Shard V) (now : ℕ) (flowId key : String) : Option (Versioned V) :=
  (s.entry flowId key).filter fun e => isLive e now

def get (s : Shard V) (now : ℕ) (flowId key : String) : Option (Versioned V) :=
  (s.entry flowId key).filter fun e => isLive e now && !e.deleted

/-- Every live key of a flow, tombstones included. -/
def flow (s : Shard V) (now : ℕ) (flowId : String) : List (String × Versioned V) :=
  match s.memory[flowId]? with
  | none => []
  | some flow => flow.keys.toList.filter fun kv => isLive kv.2 now

def flowIds (s : Shard V) : List String := s.memory.toList.map Prod.fst

/-! ## Atomic steps -/

/-- Hand requests to the writer, under one hold of its lock. -/
def send (s : Shard V) (requests : List (Mutation V)) : Shard V :=
  if s.writer then { s with queue := s.queue ++ requests } else s

/-- Put a record in place and touch its flow. -/
def install (s : Shard V) (now : ℕ) (flowId key : String) (e : Versioned V) : Shard V :=
  let flow := s.memory[flowId]?.getD {}
  { s with
    memory := s.memory.insert flowId { keys := flow.keys.insert key e, lastTouch := now, touchSeq := s.touchSeq }
    touchSeq := s.touchSeq + 1 }

/-- Remove a key; a flow without keys goes with it. -/
def remove (s : Shard V) (now : ℕ) (flowId key : String) : Shard V :=
  match s.memory[flowId]? with
  | none => s
  | some flow =>
    let keys := flow.keys.erase key
    { s with
      memory := if keys.isEmpty then s.memory.erase flowId
        else s.memory.insert flowId { keys, lastTouch := now, touchSeq := s.touchSeq }
      touchSeq := s.touchSeq + 1 }

def drop (s : Shard V) (flowId : String) : Shard V := { s with memory := s.memory.erase flowId }

/-- Whether a merge leaves the stored record: it is live, and not superseded. -/
def refuses (s : Shard V) (now : ℕ) (flowId key : String) (e : Versioned V) : Bool :=
  (s.getVersioned now flowId key).any fun current => !current.supersededBy e

/-- The flows over the cap, least recently touched first. -/
def victims (s : Shard V) : List String :=
  ((byAge s.memory).take (s.memory.size - s.maxFlows)).map Prod.fst

def shed (s : Shard V) (flows : List String) : Shard V :=
  { s with memory := flows.foldl (fun memory flowId => memory.erase flowId) s.memory }

end Shard

/-! ## Calls -/

inductive ShardCall (V : Type) where
  | set (flowId key : String) (entry : Versioned V) (durability : Durability)
  | merge (flowId key : String) (entry : Versioned V) (durability : Durability)
  | delete (flowId key : String) (durability : Durability)
  | clearFlow (flowId : String) (durability : Durability)
  deriving DecidableEq, Repr

/-- What a call has left to do after its first hold of the memory lock. -/
inductive Task (V : Type) where
  /-- `evict_if_needed`, then the call's own request. -/
  | evict (next : List (Mutation V))
  /-- The victims are out of memory; the writer is told, then the own request. -/
  | clear (flows : List String) (next : List (Mutation V))
  | submit (request : List (Mutation V))
  deriving DecidableEq, Repr

/-- The request a call submits: none at durability `none`. -/
def persisted (durability : Durability) (m : Mutation V) : List (Mutation V) :=
  if durability = .none then [] else [m]

/-- The first step of a call: everything under the memory lock. A merge sends there, the
other calls after they have released it. -/
def ShardCall.begin (s : Shard V) (now : ℕ) : ShardCall V → Shard V × List (Task V)
  | .set flowId key entry durability =>
    (s.install now flowId key entry, [.evict (persisted durability (.set flowId key entry))])
  | .merge flowId key entry durability =>
    if s.refuses now flowId key entry then (s, [])
    else ((s.install now flowId key entry).send (persisted durability (.set flowId key entry)), [.evict []])
  | .delete flowId key durability =>
    (s.remove now flowId key, [.submit (persisted durability (.delete flowId key))])
  | .clearFlow flowId durability => (s.drop flowId, [.submit (persisted durability (.clearFlow flowId))])

/-- The next step of a call. -/
def Task.step (s : Shard V) : Task V → Shard V × List (Task V)
  | .evict next =>
    -- victims are chosen and removed under one lock
    if s.victims.isEmpty then (s, [.submit next]) else (s.shed s.victims, [.clear s.victims next])
  | .clear flows next => (s.send (flows.map .clearFlow), [.submit next])
  | .submit request => (s.send request, [])

/-! ## A call by itself -/

namespace Shard

def evictIfNeeded (s : Shard V) : Shard V := (s.shed s.victims).send (s.victims.map .clearFlow)

def set (s : Shard V) (now : ℕ) (flowId key : String) (e : Versioned V) (durability : Durability) : Shard V :=
  (s.install now flowId key e).evictIfNeeded.send (persisted durability (.set flowId key e))

def merge (s : Shard V) (now : ℕ) (flowId key : String) (e : Versioned V) (durability : Durability) : Shard V :=
  if s.refuses now flowId key e then s
  else ((s.install now flowId key e).send (persisted durability (.set flowId key e))).evictIfNeeded

def delete (s : Shard V) (now : ℕ) (flowId key : String) (durability : Durability) : Shard V :=
  (s.remove now flowId key).send (persisted durability (.delete flowId key))

def clearFlow (s : Shard V) (flowId : String) (durability : Durability) : Shard V :=
  (s.drop flowId).send (persisted durability (.clearFlow flowId))

/-! ## The writer -/

/-- The next batch of the queue, committed at `now`. -/
def commit (s : Shard V) (now n : ℕ) : Shard V :=
  let batch := s.queue.take (min n maxBatch)
  { s with queue := s.queue.drop (min n maxBatch), disk := commitBatch now s.disk batch }

/-- The records the sweep at `now` removes. -/
def expired (s : Shard V) (now : ℕ) : List (String × String) :=
  s.memory.toList.flatMap fun flow =>
    (flow.2.keys.toList.filter fun kv => !isLive kv.2 now).map fun kv => (flow.1, kv.1)

/-- The live records; a flow none of whose keys is live goes whole. -/
def sweepExpired (s : Shard V) (now : ℕ) : Memory V :=
  let memory : Memory V := s.memory.map fun _ flow => { flow with keys := flow.keys.retain fun _ e => isLive e now }
  Table.retain memory fun _ flow => !flow.keys.isEmpty

/-- The writer's tick: sweep the memory, and delete what went from the file. -/
def tick (s : Shard V) (now : ℕ) : Shard V :=
  { s with memory := s.sweepExpired now, disk := commitDeletes s.disk (s.expired now) }

/-- `close`: the writer commits what is queued and stops. -/
def close (s : Shard V) (now : ℕ) : Shard V :=
  { s with queue := [], disk := commitBatch now s.disk s.queue, writer := false }

end Shard

/-! ## Recovery -/

/-- A row of the file, taken into memory unless it is expired. -/
def loadRow (now : ℕ) (memory : Memory V) (row : (String × String) × Versioned V) : Memory V :=
  if isLive row.2 now then
    let flow := memory[row.1.1]?.getD {}
    memory.insert row.1.1 { flow with keys := flow.keys.insert row.1.2 row.2 }
  else memory

/-- Remove the least recently touched flow until the cap holds, or `fuel` are gone. -/
def trim (maxFlows : ℕ) : ℕ → Memory V → Memory V
  | 0, memory => memory
  | fuel + 1, memory =>
    if memory.size > maxFlows then
      match (byAge memory).head? with
      | some oldest => trim maxFlows fuel (memory.erase oldest.1)
      | none => memory
    else memory

/-- The live rows of the file, with the touch times it holds. `rank` is the order in which
the flows are visited, which the map's iteration leaves open. -/
def loadFile (d : Disk V) (now : ℕ) (rank : String → ℕ) : Memory V :=
  (d.flowKv.toList.foldl (loadRow now) ∅).map fun flowId flow =>
    { flow with lastTouch := d.flowMeta[flowId]?.getD now, touchSeq := rank flowId }

/-- Read the file back, down to the cap. -/
def recover (d : Disk V) (maxFlows now : ℕ) (rank : String → ℕ) : Memory V :=
  let memory := loadFile d now rank
  trim maxFlows memory.size memory

/-- Open the file. The touch counter is past every flow's. -/
def Shard.open (d : Disk V) (maxFlows now : ℕ) (rank : String → ℕ) : Shard V :=
  let memory := recover d maxFlows now rank
  { maxFlows, memory, disk := d
    touchSeq := (memory.toList.map fun kv => kv.2.touchSeq).foldl max 0 + 1 }

/-! ## Calls side by side -/

/-- A shard with the calls that are under way. -/
structure Traffic (V : Type) where
  shard : Shard V
  tasks : List (Task V) := []
  deriving DecidableEq

inductive ShardMove (V : Type) where
  | call (now : ℕ) (call : ShardCall V)
  /-- The call in a slot takes its next step. -/
  | run (slot : ℕ)
  /-- The writer commits a batch. -/
  | commit (now n : ℕ)
  | tick (now : ℕ)
  deriving DecidableEq, Repr

def Traffic.step (t : Traffic V) : ShardMove V → Traffic V
  | .call now call =>
    let began := call.begin t.shard now
    { shard := began.1, tasks := t.tasks ++ began.2 }
  | .run slot =>
    match t.tasks[slot]? with
    | none => t
    | some task =>
      let next := task.step t.shard
      { shard := next.1, tasks := t.tasks.take slot ++ next.2 ++ t.tasks.drop (slot + 1) }
  | .commit now n => { t with shard := t.shard.commit now n }
  | .tick now => { t with shard := t.shard.tick now }

/-! ## One call after another -/

/-- What happens to a shard whose calls are made one at a time, restarts included. -/
inductive ShardEvent (V : Type) where
  | call (now : ℕ) (call : ShardCall V)
  | commit (now n : ℕ)
  | tick (now : ℕ)
  /-- The file is opened again; what the writer had not committed is gone. -/
  | restart (maxFlows now : ℕ) (rank : String → ℕ)

/-- What the clock reads at an event. -/
def ShardEvent.now : ShardEvent V → ℕ
  | .call now _ | .commit now _ | .tick now | .restart _ now _ => now

/-- A call from its first step to its last. -/
def ShardCall.whole (s : Shard V) (now : ℕ) : ShardCall V → Shard V
  | .set flowId key entry durability => s.set now flowId key entry durability
  | .merge flowId key entry durability => s.merge now flowId key entry durability
  | .delete flowId key durability => s.delete now flowId key durability
  | .clearFlow flowId durability => s.clearFlow flowId durability

def Shard.next (s : Shard V) : ShardEvent V → Shard V
  | .call now call => call.whole s now
  | .commit now n => s.commit now n
  | .tick now => s.tick now
  | .restart maxFlows now rank => Shard.open s.disk maxFlows now rank

/-- A shard over an empty file, or in memory. -/
def Shard.fresh (V : Type) (maxFlows : ℕ) (writer : Bool) : Shard V := { maxFlows, writer }

def Shard.after (s : Shard V) (history : List (ShardEvent V)) (n : ℕ) : Shard V := Trace.stateAt Shard.next s history n

/-- Whether a call touches a flow. -/
def ShardCall.touches (s : Shard V) (now : ℕ) (f : String) : ShardCall V → Bool
  | .set flowId _ _ _ => flowId == f
  | .merge flowId key entry _ => flowId == f && !s.refuses now flowId key entry
  | .delete flowId _ _ => flowId == f && s.memory[flowId]?.isSome
  | .clearFlow _ _ => false

/-- The record a call is made to write. -/
def ShardCall.record : ShardCall V → Option (String × String × Versioned V)
  | .set flowId key entry _ | .merge flowId key entry _ => some (flowId, key, entry)
  | .delete _ _ _ | .clearFlow _ _ => none

/-- The last touches after the event at place `n`, from those before it. -/
def ShardEvent.retouch (s : Shard V) (n : ℕ) (touched : String → Option ℕ) : ShardEvent V → String → Option ℕ
  | .call now c, f => if c.touches s now f then some n else touched f
  | .restart _ _ _, _ => none
  | .commit _ _, f | .tick _, f => touched f

/-- The place in the history of the call that touched a flow last, since the shard was
opened. -/
def lastTouched (s : Shard V) (history : List (ShardEvent V)) : ℕ → String → Option ℕ
  | 0, _ => none
  | n + 1, f =>
    match history[n]? with
    | some event => event.retouch (s.after history n) n (lastTouched s history n) f
    | none => lastTouched s history n f

end RiftCluster
