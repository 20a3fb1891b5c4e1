import RiftCluster.Proof.OwnerStep

/-!
# The versions an owner mints

A call captures the ring before it waits for the lock, and mints at the index it
captured. The lock keeps other writes out, so it overwrites what it has read
(`readOk_step`), and what it stores is newer exactly if its index is not below the
index of that entry (`version_grows_iff`): a call that waited while the membership
advanced, and while another call wrote at the new index, stores an entry that is older
than the one it replaces.
-/

namespace RiftCluster

open KV

variable {V : Type}

theorem lt_bump_iff {v : ℕ} : v < bump v ↔ v < u64Max := by
  unfold bump u64Max
  rcases Nat.lt_or_ge v (2 ^ 64 - 1) with h | h
  · rw [Nat.mod_eq_of_lt (by omega)]
    omega
  · have hmod : (v + 1) % 2 ^ 64 ≤ v := by
      rcases Nat.eq_or_lt_of_le h with h | h
      · rw [← h]; decide
      · have := Nat.mod_lt (v + 1) (show 0 < 2 ^ 64 by norm_num)
        omega
    omega

theorem bump_ne (v : ℕ) : bump v ≠ v := by
  unfold bump
  intro h
  have hlt := Nat.mod_lt (v + 1) (show 0 < 2 ^ 64 by norm_num)
  rcases Nat.lt_or_ge (v + 1) (2 ^ 64) with h' | h'
  · rw [Nat.mod_eq_of_lt h'] at h
    omega
  · obtain rfl : v = 2 ^ 64 - 1 := by omega
    revert h
    decide

theorem Minted.newer_iff {mIdx id : ℕ} {old entry : Versioned V} (h : Minted mIdx id (some old) entry) :
    old.version < entry.version ↔ old.mIdx < mIdx ∨ old.mIdx = mIdx ∧ old.v < u64Max := by
  have hv : entry.v = bump old.v := h.v
  have hup := lt_bump_iff (v := old.v)
  have hne := bump_ne old.v
  rw [← supersededBy_iff]
  simp only [Versioned.supersededBy, h.mIdx, hv, Bool.or_eq_true, Bool.and_eq_true, decide_eq_true_eq, beq_iff_eq]
  omega

variable [FlowValue V] [DecidableEq V] {score : ℕ → OwnedKey → ℕ} {n : FlowNode V}

/-- Every entry a call under way is to store was minted at the index it captured. -/
def MintedOk (n : FlowNode V) : Prop :=
  ∀ h, n.held = some h → ∀ key prev entry, .put key prev entry ∈ h.stage.effects → Minted h.ring.mIdx n.id prev entry

theorem mintedOk_step (hok : MintedOk n) (move : FlowMove V) : MintedOk (n.step score move) := by
  have hstep := nodeStep score n move
  generalize n.step score move = n' at hstep ⊢
  intro h hheld key prev entry hmem
  cases hstep with
  | lock => cases hheld; cases hmem
  | found => cases hheld; cases hmem
  | plan _ _ _ => cases hheld; exact (plan_put hmem).1
  | store hold => cases hheld; exact hok _ hold key prev entry hmem
  | next hold heq _ =>
    subst heq
    cases hheld
    exact hok _ hold key prev entry (List.mem_cons_of_mem _ hmem)
  | isolated | absent | done | failed | last => cases hheld
  | idle | view | isolation | refuse | admitted | adopt | shard => exact hok h hheld key prev entry hmem

/-! ## What a write overwrites -/

/-- The key an effect is about; a clear is about the whole flow. -/
def Effect.key? : Effect V → Option String
  | .put key _ _ => some key
  | .clear => none

def Stage.pending : Stage V → List (Effect V)
  | .locked | .found => []
  | .planned plan => plan.effects
  | .storing plan => plan.effects.tail

def Effect.Apart (a b : Effect V) : Prop := ∃ key key', a.key? = some key ∧ b.key? = some key' ∧ key ≠ key'

omit [FlowValue V] [DecidableEq V] in
theorem rewriteExpiries_apart (mIdx id expiry now : ℕ) (s : Shard V) (f : String) (onlyKey : Option String)
    (rank : String → ℕ) : (rewriteExpiries mIdx id expiry (s.flow now f) onlyKey rank).Pairwise Effect.Apart := by
  have hkeys : ((s.flow now f).map Prod.fst).Nodup := by
    unfold Shard.flow
    split
    · exact List.nodup_nil
    · exact (nodup_toList_keys _).sublist (List.filter_sublist.map _)
  have hsorted : (((s.flow now f).insertionSort fun a b => rank a.1 ≤ rank b.1).map Prod.fst).Nodup :=
    ((List.perm_insertionSort _ _).map _).nodup_iff.2 hkeys
  unfold rewriteExpiries
  rw [List.pairwise_map]
  refine (List.pairwise_map.1 (hsorted.sublist (List.filter_sublist.map _))).imp ?_
  exact fun {a b} hne => ⟨a.1, b.1, rfl, rfl, hne⟩

theorem plan_pairwise_apart (req : WriteReq V) (mIdx id expiry now stamp : ℕ) (s : Shard V) (rank : String → ℕ) :
    (req.plan mIdx id expiry s now stamp rank).effects.Pairwise Effect.Apart := by
  unfold WriteReq.plan
  cases req.op with
  | set value => exact List.pairwise_singleton _ _
  | delete => exact List.pairwise_singleton _ _
  | incr amount =>
    dsimp only
    split
    · exact .nil
    · exact List.pairwise_singleton _ _
  | cas expected new =>
    dsimp only
    split
    · exact List.pairwise_singleton _ _
    · exact .nil
  | setTtl seconds =>
    dsimp only
    split
    · exact List.pairwise_singleton _ _
    · exact rewriteExpiries_apart ..
  | setKeyTtl seconds =>
    dsimp only
    split
    · exact List.pairwise_singleton _ _
    · exact rewriteExpiries_apart ..
  | clearFlow => exact List.pairwise_singleton _ _

/-- Whether a call is still to store an entry of the key it has read. -/
def Held.writes (f k : String) (h : Held V) : Bool :=
  h.req.flowId == f && h.stage.pending.any fun effect => effect.key? == some k

/-- Reads find the record live, and between a write's read of the record and its store no
step of the shard changes it: no merge, clear, eviction or expiry. -/
def FlowMove.steady (n : FlowNode V) (f k : String) : FlowMove V → Bool
  | .read now _ _ => (n.shard.entry f k).all fun e => isLive e now
  | move => move.outside.all fun m =>
      !n.held.any (Held.writes f k) || decide (m.leaves n.traffic f k = n.shard.entry f k)

/-- What a call has read for the record it is to store is what the record holds. -/
structure ReadOk (f k : String) (n : FlowNode V) : Prop where
  apart : ∀ h, n.held = some h → h.stage.pending.Pairwise Effect.Apart
  read : ∀ h, n.held = some h → h.req.flowId = f → ∀ prev entry, .put k prev entry ∈ h.stage.pending →
    n.shard.entry f k = prev

omit [FlowValue V] in
theorem steady_outside {f k : String} {move : FlowMove V} {m : ShardMove V} {h : Held V} {prev : Option (Versioned V)}
    {entry : Versioned V} (hsteady : move.steady n f k = true) (hout : move.outside = some m) (hheld : n.held = some h)
    (hflow : h.req.flowId = f) (hmem : .put k prev entry ∈ h.stage.pending) :
    (n.onShard m).shard.entry f k = n.shard.entry f k := by
  have hwrites : h.writes f k = true := by
    simp only [Held.writes, hflow, beq_self_eq_true, Bool.true_and, List.any_eq_true]
    exact ⟨_, hmem, by simp [Effect.key?]⟩
  have hleaves : m.leaves n.traffic f k = n.shard.entry f k := by
    cases move with
    | read => cases hout
    | _ => simpa [FlowMove.steady, hout, hheld, hwrites] using hsteady
  rw [FlowNode.shard, FlowNode.onShard, Traffic.entry_step]
  exact hleaves

theorem readOk_step {f k : String} {move : FlowMove V} (hok : ReadOk f k n) (hsteady : move.steady n f k = true) :
    ReadOk f k (n.step score move) := by
  have hstep := nodeStep score n move
  generalize n.step score move = n' at hstep ⊢
  cases hstep with
  | lock | found =>
    constructor
    · rintro h ⟨⟩
      exact .nil
    · rintro h ⟨⟩ _ prev entry hmem
      cases hmem
  | @plan now stamp rank h _ _ _ =>
    constructor
    · rintro h ⟨⟩
      exact plan_pairwise_apart ..
    · rintro h' ⟨⟩ rfl prev entry hmem
      rw [(plan_put hmem).2.1, Shard.getVersioned]
      cases he : n.shard.entry h.req.flowId k with
      | none => exact he
      | some e =>
        have hlive : isLive e now = true := by simpa [FlowMove.steady, he] using hsteady
        rw [Option.filter_some, if_pos hlive]
        exact he
  | @store now ring req expiry effect rest reply hheld =>
    have hpair := List.pairwise_cons.1 (hok.apart _ hheld)
    constructor
    · rintro h ⟨⟩
      exact hpair.2
    · rintro h ⟨⟩ rfl prev entry hmem
      obtain ⟨key, _, hkey, ⟨⟩, hne⟩ := hpair.1 _ hmem
      obtain ⟨prev', entry', rfl⟩ : ∃ prev' entry', effect = .put key prev' entry' := by
        cases effect with
        | put => cases hkey; exact ⟨_, _, rfl⟩
        | clear => cases hkey
      have hother : ((n.onShard (.call now (Effect.call req (.put key prev' entry')))).shard.entry req.flowId k) =
          n.shard.entry req.flowId k :=
        (Effect.stored _ _ _ _).trans (if_neg fun h => hne h.2)
      exact hother.trans (hok.read _ hheld rfl prev entry (List.mem_cons_of_mem _ hmem))
  | next hheld heq _ =>
    subst heq
    have hapart := hok.apart _ hheld
    have hread := hok.read _ hheld
    constructor
    · rintro h ⟨⟩
      exact hapart
    · rintro h ⟨⟩
      exact hread
  | isolated | absent | done | failed | last => exact ⟨by rintro h ⟨⟩, by rintro h ⟨⟩⟩
  | idle | view | isolation | refuse | admitted | adopt => exact ⟨hok.apart, hok.read⟩
  | shard hout =>
    refine ⟨hok.apart, fun h hheld hflow prev entry hmem => ?_⟩
    rw [steady_outside hsteady hout hheld hflow hmem]
    exact hok.read h hheld hflow prev entry hmem

/-- **When an owner's write moves the version forward.** In every run of a node that starts
with the lock free, and in which nothing changes the record between a write's read and
its store: a write that replaces an entry stores a newer version exactly if the ring
index its call captured is higher than the entry's, or the same with a counter that is
not at its end. -/
theorem version_grows_iff (score : ℕ → OwnedKey → ℕ) (n : FlowNode V) (hfree : n.held = none) (moves : List (FlowMove V))
    (i now : ℕ) (hmove : moves[i]? = some (.store now)) (call : Held V) (hcall : (n.after score moves i).held = some call)
    (key : String) (prev : Option (Versioned V)) (entry old : Versioned V) (rest : List (Effect V)) (reply : WriteReply V)
    (hnext : call.stage = .planned ⟨.put key prev entry :: rest, reply⟩)
    (hold : (n.after score moves i).shard.entry call.req.flowId key = some old)
    (hsteady : ∀ a (ha : a < moves.length), a < i → moves[a].steady (n.after score moves a) call.req.flowId key = true) :
    (n.after score moves (i + 1)).shard.entry call.req.flowId key = some entry ∧
      (old.version < entry.version ↔
        old.mIdx < call.ring.mIdx ∨ old.mIdx = call.ring.mIdx ∧ old.v < u64Max) := by
  obtain ⟨hlt, hget⟩ := List.getElem?_eq_some_iff.1 hmove
  have hunlocked : ∀ h, n.held ≠ some h := fun h hheld => by
    rw [hfree] at hheld
    cases hheld
  have hminted : MintedOk (n.after score moves i) :=
    Trace.stateAt_inv (P := MintedOk) (fun h hheld => absurd hheld (hunlocked h)) (fun s move _ h => mintedOk_step h move) i
  have hreads : ReadOk call.req.flowId key (n.after score moves i) := by
    refine Trace.stateAt_stretch (Nat.zero_le i) hlt.le ?_ fun a ha _ hai h => readOk_step h (hsteady a ha hai)
    rw [Trace.stateAt_zero]
    exact ⟨fun h hheld => absurd hheld (hunlocked h), fun h hheld => absurd hheld (hunlocked h)⟩
  have hmem : .put key prev entry ∈ call.stage.pending := by rw [hnext]; exact List.mem_cons_self
  -- the lock has kept other writes out, so the call overwrites what it has read
  obtain rfl : prev = some old := (hreads.read call hcall rfl prev entry hmem).symm.trans hold
  obtain ⟨ring, req, expiry, stage⟩ := call
  obtain rfl : stage = .planned ⟨.put key (some old) entry :: rest, reply⟩ := hnext
  constructor
  · have hstep : n.after score moves (i + 1) = (n.after score moves i).step score (.store now) := by
      rw [FlowNode.after, Trace.stateAt_succ hlt, hget]
      rfl
    rw [hstep]
    simp only [FlowNode.step, hcall, FlowNode.shard, FlowNode.onShard, Effect.stored]
    exact if_pos ⟨rfl, rfl⟩
  · exact (hminted _ hcall key (some old) entry List.mem_cons_self).newer_iff

/-! ## Runs -/

/-- Integers and `null`. -/
instance : FlowValue (Option ℤ) := ⟨none, id, some⟩

def soloNode : FlowNode (Option ℤ) := { id := 1, ring := ⟨[1], 1⟩, traffic := { shard := { maxFlows := 8 } } }

def setTo (mIdx : ℕ) (value : ℤ) : WriteReq (Option ℤ) := { flowId := "f", key := "k", op := .set (some value), mIdx }

/-- The call in a waiting slot, from the lock to its answer, with the shard's own steps. -/
def serve (slot now : ℕ) : List (FlowMove (Option ℤ)) :=
  [.lock slot now, .read now now fun _ => 0, .store now, .run 0, .run 0, .settle none]

def twoSets : List (FlowMove (Option ℤ)) :=
  [.receive (setTo 1 10), .adopt 0 false] ++ serve 0 5 ++ [.receive (setTo 1 20), .adopt 0 false] ++ serve 0 6

def firstSet : Versioned (Option ℤ) := { mIdx := 1, v := 1, origin := 1, expiresAt := 0, value := some 10 }

def keyedNode : FlowNode (Option ℤ) :=
  let memory : Memory (Option ℤ) := Std.ExtTreeMap.insert ∅ "f" { keys := Std.ExtTreeMap.insert ∅ "k" firstSet }
  { soloNode with traffic := { shard := { maxFlows := 8, memory } } }

theorem twoSets_move_forward :
    (soloNode.after (fun node _ => node) twoSets 13).shard.entry "f" "k" = some { firstSet with v := 2, value := some 20 } ∧
      (firstSet.version < Versioned.version { firstSet with v := 2, value := some 20 } ↔
        1 < 1 ∨ 1 = 1 ∧ 1 < u64Max) :=
  version_grows_iff (fun node _ => node) soloNode rfl twoSets 12 6 rfl
    ⟨⟨[1], 1⟩, setTo 1 20, 0, .planned
      ⟨[.put "k" (some firstSet) { firstSet with v := 2, value := some 20 }],
        .applied (some { firstSet with v := 2, value := some 20 }) none none⟩⟩
    (by decide +kernel) "k" (some firstSet) { firstSet with v := 2, value := some 20 } firstSet [] _ rfl
    (by decide +kernel) (by decide +kernel)

/-- Two sets, of which the first is still adopting the flow while the membership advances
and the second is written at the new index. -/
def overtakenSet : List (FlowMove (Option ℤ)) :=
  [.receive (setTo 1 10), .view .bound ⟨[1], 2⟩, .receive (setTo 2 20), .adopt 1 false] ++ serve 1 5 ++
    [.adopt 0 false] ++ serve 0 6

/-- **A write is acknowledged and lowers the version.** -/
theorem overtakenSet_lowers_version :
    let before := soloNode.after (fun node _ => node) overtakenSet 13
    let node := soloNode.after (fun node _ => node) overtakenSet 17
    before.shard.entry "f" "k" = some { firstSet with mIdx := 2, value := some 20 } ∧
      node.shard.entry "f" "k" = some { firstSet with v := 2 } ∧
      Versioned.version { firstSet with v := 2 } < Versioned.version { firstSet with mIdx := 2, value := some 20 } ∧
      node.answered.getLast? = some ⟨setTo 1 10, .applied (some { firstSet with v := 2 }) none none, .executed⟩ := by
  decide +kernel

end RiftCluster
