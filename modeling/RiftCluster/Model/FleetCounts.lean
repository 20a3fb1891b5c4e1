import RiftCluster.Model.Flow
import RiftCluster.Model.FlowScope

/-!
# Counts over the whole fleet

`fleet_entry_counts` and `fleet_spaces` of `stores/flow.rs`: the caller counts what it owns
itself, and asks every other member for what that one owns. A peer whose ring has another
`m_idx` refuses. The replies come in any order, and what has not come when the budget is
over is left out.
-/

namespace RiftCluster

open KV

variable {V : Type}

/-- A node when it counts. -/
structure CountsNode (V : Type) where
  /-- The voters of its effective membership and their log index, or why there is none. -/
  membership : Except String (List ℕ × ℕ)
  shard : Shard V
  now : ℕ

/-- `FlowNet::view`. -/
def CountsNode.view (node : CountsNode V) : Except String Ring := do
  let m ← node.membership
  if (Ring.new m.1 m.2).isEmpty then .error notReadyNoMembership else .ok (Ring.new m.1 m.2)

/-- The entries of a flow that a read would serve. -/
def FlowMem.liveCount (flow : FlowMem V) (now : ℕ) : ℕ :=
  (flow.keys.toList.filter fun kv => isLive kv.2 now && !kv.2.deleted).length

/-- `entries_by_flow`. -/
def CountsNode.entriesByFlow (node : CountsNode V) : List (String × ℕ) :=
  node.shard.memory.toList.map fun kv => (kv.1, kv.2.liveCount node.now)

/-! ## Fan-outs -/

/-- How the task that asks a peer ends. -/
inductive Joined where
  /-- With what the peer's handler answered. -/
  | replied (peer : ℕ)
  /-- With an error on the way. -/
  | lost (peer : ℕ)
  | panicked (peer : ℕ)
  deriving DecidableEq, Repr

def Joined.peer : Joined → ℕ
  | .replied peer | .lost peer | .panicked peer => peer

/-- The tasks in the order they end within the budget. -/
structure FanOut (peers : List ℕ) where
  joined : List Joined
  /-- All ended within the budget. -/
  drained : Bool
  once : (joined.map Joined.peer).Nodup
  asked : ∀ j ∈ joined, j.peer ∈ peers
  all : drained = true → ∀ peer ∈ peers, peer ∈ joined.map Joined.peer

variable (score : ℕ → OwnedKey → ℕ) (fleet : ℕ → CountsNode V)

/-- The members a caller asks. -/
def Ring.peersOf (ring : Ring) (me : ℕ) : List ℕ := ring.members.filter fun id => id ≠ me

/-! ## Counts -/

def zeroCounts (ports : List Port) : Table Port ℕ := ports.foldl (fun counts port => counts.insert port 0) ∅

def ownedCounts (me : ℕ) (ring : Ring) (ports : List Port) : Table Port ℕ :=
  (fleet me).entriesByFlow.foldl (fun counts e =>
      match (imposterPort e.1).filter fun port => port ∈ ports with
      | none => counts
      | some port =>
        if ring.owner score (.flow e.1) ≠ some me then counts else counts.insert port (counts[port]?.getD 0 + e.2))
    (zeroCounts ports)

def ringDiverged (what : String) (caller own : ℕ) : String :=
  what ++ " (caller m_idx " ++ toString caller ++ ", this node " ++ toString own ++ ")"

/-- The handler of `POST /_cluster/flow/counts`. -/
def countsHandler (peer : ℕ) (ports : List Port) (mIdx : ℕ) : Except String (List (Port × ℕ)) := do
  let ring ← (fleet peer).view
  if mIdx ≠ ring.mIdx then .error (ringDiverged "flow/counts: ring diverged" mIdx ring.mIdx)
  else .ok (ports.map fun port => (port, (ownedCounts score fleet peer ring ports)[port]?.getD 0))

def mergePeerCounts (totals : Table Port ℕ) (slots : List (Port × ℕ)) : Table Port ℕ :=
  slots.foldl (fun totals slot =>
    match totals[slot.1]? with
    | none => totals
    | some total => totals.insert slot.1 (saturatingAdd total slot.2)) totals

/-- What has been counted. -/
structure FleetTotals where
  totals : Table Port ℕ
  isPartial : Bool := false
  /-- The peers whose counts are in the totals. -/
  merged : List ℕ := []

def FleetTotals.join (ports : List Port) (mIdx : ℕ) (c : FleetTotals) : Joined → FleetTotals
  | .replied peer =>
    match countsHandler score fleet peer ports mIdx with
    | .ok slots => { c with totals := mergePeerCounts c.totals slots, merged := c.merged ++ [peer] }
    | .error _ => { c with isPartial := true }
  | .lost _ | .panicked _ => { c with isPartial := true }

def fleetEntryCounts (me : ℕ) (fan : ∀ peers, FanOut peers) (ports : List Port) : FleetTotals :=
  if ports.isEmpty then { totals := ∅ }
  else
    match (fleet me).view with
    | .error _ => { totals := ∅, isPartial := true }
    | .ok ring =>
      let counted : FleetTotals := { totals := ownedCounts score fleet me ring ports }
      let peers := ring.peersOf me
      if peers.isEmpty then counted
      else
        let counted := (fan peers).joined.foldl (FleetTotals.join score fleet ports ring.mIdx) counted
        if (fan peers).drained then counted else { counted with isPartial := true }

/-! ## Spaces -/

structure SpaceRow where
  space : String
  entryCount : ℕ
  owner : ℕ
  deriving DecidableEq, Repr

/-- The spaces a node owns under a scope. -/
def spacesOf (me : ℕ) (ring : Ring) (scope : String) : List (String × ℕ) :=
  ownedSpaces (fleet me).entriesByFlow scope (fun scopedId => ring.owner score (.flow scopedId)) me

/-- The handler of `POST /_cluster/flow/spaces`. -/
def spacesHandler (peer : ℕ) (port : Port) (scope : String) (mIdx : ℕ) : Except String (List (String × ℕ)) := do
  let ring ← (fleet peer).view
  if mIdx ≠ ring.mIdx then
    .error (ringDiverged ("flow/spaces: ring diverged for port " ++ toString port) mIdx ring.mIdx)
  else .ok (spacesOf score fleet peer ring scope)

def spaceRows (owner : ℕ) (rows : List (String × ℕ)) : List SpaceRow := rows.map fun row => ⟨row.1, row.2, owner⟩

def mergeSpaceRows (own : List (String × ℕ)) (me : ℕ) (peers : List (ℕ × Option (List (String × ℕ)))) (timedOut : Bool) :
    List SpaceRow × Bool :=
  peers.foldl (fun merged answer =>
    match answer.2 with
    | some rows => (merged.1 ++ spaceRows answer.1 rows, merged.2)
    | none => (merged.1, true)) (spaceRows me own, timedOut)

/-- What a task that ended adds to the answers. One that panicked names no peer. -/
def spaceAnswer (port : Port) (scope : String) (mIdx : ℕ) : Joined → List (ℕ × Option (List (String × ℕ)))
  | .replied peer => [(peer, (spacesHandler score fleet peer port scope mIdx).toOption)]
  | .lost peer => [(peer, none)]
  | .panicked _ => []

def fleetSpaces (me : ℕ) (fan : ∀ peers, FanOut peers) (port : Port) (scope : String) : List SpaceRow × Bool :=
  match (fleet me).view with
  | .error _ => ([], true)
  | .ok ring =>
    let own := spacesOf score fleet me ring scope
    let peers := ring.peersOf me
    if peers.isEmpty then mergeSpaceRows own me [] false
    else
      let answers := (fan peers).joined.flatMap (spaceAnswer score fleet port scope ring.mIdx)
      let unanswered := peers.filter fun peer => peer ∉ answers.map Prod.fst
      mergeSpaceRows own me (answers ++ unanswered.map fun peer => (peer, none)) (!(fan peers).drained)

end RiftCluster
