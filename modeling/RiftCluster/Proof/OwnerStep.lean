import RiftCluster.Model.Flow
import RiftCluster.Proof.Record

/-!
# What a step of a node does

`NodeStep` lists the outcomes of a step, one constructor each, with what has to hold for
it; `nodeStep` says there are no others. The lemmas on `WriteReq.plan` say what a plan
can contain: entries minted after what was read, for the request's own key unless it
is a `setTtl`.
-/

namespace RiftCluster

open KV

variable {V : Type} {f k key : String} {now stamp : ℕ}

/-! ## Reads -/

theorem mem_flow {s : Shard V} {e : Versioned V} : (k, e) ∈ s.flow now f ↔ s.getVersioned now f k = some e := by
  unfold Shard.flow Shard.getVersioned Shard.entry
  cases s.memory[f]? with
  | none => simp
  | some flow => simp [Option.filter_eq_some_iff]

/-! ## Plans -/

section Plans

variable {mIdx id expiry : ℕ} {s : Shard V} {rank : String → ℕ} {prev : Option (Versioned V)} {entry : Versioned V}

theorem mem_rewriteExpiries {entries : List (String × Versioned V)} {onlyKey : Option String} {effect : Effect V} :
    effect ∈ rewriteExpiries mIdx id expiry entries onlyKey rank ↔
      ∃ key e, (key, e) ∈ entries ∧ onlyKey.all (· == key) = true ∧
        effect = .put key (some e) (restamp mIdx id expiry e) := by
  unfold rewriteExpiries
  rw [List.mem_map]
  constructor
  · rintro ⟨⟨key, e⟩, hmem, rfl⟩
    rw [List.mem_filter, List.mem_insertionSort] at hmem
    exact ⟨key, e, hmem.1, hmem.2, rfl⟩
  · rintro ⟨key, e, hmem, honly, rfl⟩
    exact ⟨(key, e), List.mem_filter.2 ⟨(List.mem_insertionSort _).2 hmem, honly⟩, rfl⟩

/-- An entry minted at a ring index by a node, after what was read. -/
structure Minted (mIdx id : ℕ) (prev : Option (Versioned V)) (entry : Versioned V) : Prop where
  mIdx : entry.mIdx = mIdx
  v : entry.v = prev.elim 1 fun p => bump p.v
  origin : entry.origin = id

variable [FlowValue V] [DecidableEq V] {req : WriteReq V}

/-- **What a plan stores** was minted after what the shard held for the key. -/
theorem plan_put (h : .put key prev entry ∈ (req.plan mIdx id expiry s now stamp rank).effects) :
    Minted mIdx id prev entry ∧ prev = s.getVersioned now req.flowId key ∧
      (key = req.key ∨ ∃ seconds, 0 < seconds ∧ req.op = .setTtl seconds) := by
  have hown : ∀ e : Versioned V, Minted mIdx id (s.getVersioned now req.flowId req.key) e →
      Effect.put key prev entry = .put req.key (s.getVersioned now req.flowId req.key) e →
      Minted mIdx id prev entry ∧ prev = s.getVersioned now req.flowId key ∧
        (key = req.key ∨ ∃ seconds, 0 < seconds ∧ req.op = .setTtl seconds) := by
    intro e hm heq
    cases heq
    exact ⟨hm, rfl, .inl rfl⟩
  have hrewrite : ∀ (expiry : ℕ) (onlyKey : Option String),
      .put key prev entry ∈ rewriteExpiries mIdx id expiry (s.flow now req.flowId) onlyKey rank →
      Minted mIdx id prev entry ∧ prev = s.getVersioned now req.flowId key ∧ onlyKey.all (· == key) = true := by
    intro expiry onlyKey hmem
    obtain ⟨key', e, hflow, honly, heq⟩ := mem_rewriteExpiries.1 hmem
    cases heq
    exact ⟨⟨rfl, rfl, rfl⟩, (mem_flow.1 hflow).symm, honly⟩
  unfold WriteReq.plan at h
  cases hop : req.op with
  | set value =>
    simp only [hop, List.mem_singleton] at h
    exact hop ▸ hown _ ⟨rfl, rfl, rfl⟩ h
  | delete =>
    simp only [hop, List.mem_singleton] at h
    exact hop ▸ hown _ ⟨rfl, rfl, rfl⟩ h
  | incr amount =>
    simp only [hop] at h
    split at h
    · cases h
    · exact hop ▸ hown _ ⟨rfl, rfl, rfl⟩ (List.mem_singleton.1 h)
  | cas expected new =>
    simp only [hop] at h
    split at h
    · exact hop ▸ hown _ ⟨rfl, rfl, rfl⟩ (List.mem_singleton.1 h)
    · cases h
  | setTtl seconds =>
    simp only [hop] at h
    split at h
    · simp at h
    · obtain ⟨hm, hp, -⟩ := hrewrite _ _ h
      exact ⟨hm, hp, .inr ⟨seconds, by omega, rfl⟩⟩
  | setKeyTtl seconds =>
    simp only [hop] at h
    split at h
    · exact hop ▸ hown _ ⟨rfl, rfl, rfl⟩ (List.mem_singleton.1 h)
    · obtain ⟨hm, hp, honly⟩ := hrewrite _ _ h
      have hkey : req.key = key := by simpa using honly
      exact ⟨hm, hp, .inl hkey.symm⟩
  | clearFlow => simp [hop] at h

theorem plan_clear (h : .clear ∈ (req.plan mIdx id expiry s now stamp rank).effects) :
    req.op = .clearFlow ∨ ∃ seconds, seconds ≤ 0 ∧ req.op = .setTtl seconds := by
  unfold WriteReq.plan at h
  cases hop : req.op with
  | set value => simp [hop] at h
  | delete => simp [hop] at h
  | incr amount => simp only [hop] at h; split at h <;> simp at h
  | cas expected new => simp only [hop] at h; split at h <;> simp at h
  | setTtl seconds =>
    simp only [hop] at h
    split at h
    · exact .inr ⟨seconds, ‹_›, rfl⟩
    · obtain ⟨_, _, _, _, heq⟩ := mem_rewriteExpiries.1 h
      cases heq
  | setKeyTtl seconds =>
    simp only [hop] at h
    split at h
    · simp at h
    · obtain ⟨_, _, _, _, heq⟩ := mem_rewriteExpiries.1 h
      cases heq
  | clearFlow => exact .inl rfl

end Plans

theorem Effect.stored (effect : Effect V) (t : Traffic V) (now : ℕ) (req : WriteReq V) :
    (t.step (.call now (effect.call req))).shard.entry f k =
      (effect.call req).request.effect f k (t.shard.entry f k) := by
  rw [Traffic.entry_step]
  cases effect <;> rfl

/-! ## Steps -/

/-- The shard step of a move that is no write of this node's own. -/
def FlowMove.outside : FlowMove V → Option (ShardMove V)
  | .push now req => some (.call now (applyReplica req))
  | .repair now flowId key entry => some (.call now (.merge flowId key entry repairDurability))
  | .clearScope now flowId => some (.call now (.clearFlow flowId .async))
  | .run slot => some (.run slot)
  | .commit now n => some (.commit now n)
  | .tick now => some (.tick now)
  | _ => none

variable [FlowValue V] [DecidableEq V] (score : ℕ → OwnedKey → ℕ) (n : FlowNode V)

/-- The plan of the call that holds the lock, from what it reads. -/
def FlowNode.planOf (h : Held V) (now stamp : ℕ) (rank : String → ℕ) : Plan V :=
  h.req.plan h.ring.mIdx n.id h.expiry n.shard now stamp rank

def Stage.effects : Stage V → List (Effect V)
  | .locked | .found => []
  | .planned plan | .storing plan => plan.effects

def Held.Reads (h : Held V) : Prop := (h.stage = .locked ∧ ∀ seconds, h.req.op ≠ .setKeyTtl seconds) ∨ h.stage = .found

/-- The outcomes of a step. -/
inductive NodeStep : FlowMove V → FlowNode V → Prop
  /-- The move was not enabled. -/
  | idle {move} : NodeStep move n
  | view {slot ring} : NodeStep (.view slot ring) { n with slot, ring }
  | isolation {isolated} : NodeStep (.isolation isolated) { n with isolated }
  | refuse {req reply} : n.admitted score req = .error reply →
      NodeStep (.receive req) { n with answered := n.answered ++ [⟨req, reply, .refused⟩] }
  | admitted {req ring} : n.admitted score req = .ok ring →
      NodeStep (.receive req) { n with waiting := n.waiting ++ [⟨ring, req, false⟩] }
  | adopt {slot reached} {w : Waiting V} : n.waiting[slot]? = some w →
      NodeStep (.adopt slot reached) { n with adopted := n.adopt score w.ring w.req.flowId reached
                                              waiting := n.waiting.set slot { w with ready := true } }
  | isolated {slot now} {w : Waiting V} : n.held = none → n.waiting[slot]? = some w →
      NodeStep (.lock slot now)
        (FlowNode.answer { n with waiting := n.waiting.eraseIdx slot } w.req (.error isolatedRefusal) .refused)
  | lock {slot now} {w : Waiting V} : n.held = none → n.waiting[slot]? = some w →
      NodeStep (.lock slot now) { n with waiting := n.waiting.eraseIdx slot
                                         held := some ⟨w.ring, w.req, expiryFrom now (w.req.ttlSeconds.map ttlMillis), .locked⟩ }
  | found {now stamp rank} {h : Held V} {seconds} : n.held = some h → h.stage = .locked → h.req.op = .setKeyTtl seconds →
      (n.shard.get now h.req.flowId h.req.key).isSome = true →
      NodeStep (.read now stamp rank) { n with held := some { h with stage := .found } }
  | absent {now stamp rank} {h : Held V} {seconds} : n.held = some h → h.stage = .locked → h.req.op = .setKeyTtl seconds →
      n.shard.get now h.req.flowId h.req.key = none →
      NodeStep (.read now stamp rank) (n.answer h.req (.applied none none (some false)) .executed)
  | plan {now stamp rank} {h : Held V} : n.held = some h → h.Reads → (n.planOf h now stamp rank).effects ≠ [] →
      NodeStep (.read now stamp rank) { n with held := some { h with stage := .planned (n.planOf h now stamp rank) } }
  | done {now stamp rank} {h : Held V} : n.held = some h → h.Reads → (n.planOf h now stamp rank).effects = [] →
      NodeStep (.read now stamp rank) (n.answer h.req (n.planOf h now stamp rank).reply .executed)
  | store {now ring req expiry effect rest reply} :
      n.held = some ⟨ring, req, expiry, .planned ⟨effect :: rest, reply⟩⟩ →
      NodeStep (.store now) { n.onShard (.call now (effect.call req)) with
        held := some ⟨ring, req, expiry, .storing ⟨effect :: rest, reply⟩⟩ }
  | failed {e : ShardError} {ring req expiry effect rest reply} :
      n.held = some ⟨ring, req, expiry, .storing ⟨effect :: rest, reply⟩⟩ → req.durability ≠ .none →
      NodeStep (.settle (some e)) (n.answer req (.error e.text) .failed)
  | next {failure ring req expiry effect rest reply} {h : Held V} : n.held = some h →
      h = ⟨ring, req, expiry, .storing ⟨effect :: rest, reply⟩⟩ → rest ≠ [] →
      NodeStep (.settle failure) { n with sent := n.sent ++ n.replicate score h effect
                                          held := some ⟨ring, req, expiry, .planned ⟨rest, reply⟩⟩ }
  | last {failure ring req expiry effect reply} {h : Held V} : n.held = some h →
      h = ⟨ring, req, expiry, .storing ⟨[effect], reply⟩⟩ →
      NodeStep (.settle failure) { n with sent := n.sent ++ n.replicate score h effect
                                          held := none
                                          answered := n.answered ++ [⟨req, reply, .executed⟩] }
  | shard {move} {m : ShardMove V} : move.outside = some m → NodeStep move (n.onShard m)

theorem nodeStep_lock (slot now : ℕ) : NodeStep score n (.lock slot now) (n.step score (.lock slot now)) := by
  simp only [FlowNode.step]
  split
  · rename_i w hheld hw
    split
    · unfold FlowNode.lock
      split
      · exact .isolated hheld hw
      · exact .lock hheld hw
    · exact .idle
  · exact .idle

theorem nodeStep_read (now stamp : ℕ) (rank : String → ℕ) :
    NodeStep score n (.read now stamp rank) (n.step score (.read now stamp rank)) := by
  simp only [FlowNode.step]
  split
  · exact .idle
  · rename_i h hheld
    have hplanned : h.Reads → NodeStep score n (.read now stamp rank) (n.planned h now stamp rank) := by
      intro hreads
      unfold FlowNode.planned
      simp only
      split
      · rename_i hempty
        exact .done hheld hreads (List.isEmpty_iff.1 hempty)
      · rename_i hne
        exact .plan hheld hreads (fun hnil => hne (List.isEmpty_iff.2 hnil))
    unfold FlowNode.read
    split
    · rename_i hstage hop
      split
      · exact .found hheld hstage hop ‹_›
      · rename_i hnone
        exact .absent hheld hstage hop (by simpa using hnone)
    · rename_i hstage hop
      exact hplanned (.inl ⟨hstage, fun seconds h => hop seconds h⟩)
    · rename_i hstage
      exact hplanned (.inr hstage)
    · exact .idle

theorem nodeStep_settle (failure : Option ShardError) :
    NodeStep score n (.settle failure) (n.step score (.settle failure)) := by
  simp only [FlowNode.step]
  split
  · rename_i ring req expiry effect rest reply hheld
    unfold FlowNode.settle
    split
    · rename_i e hfail
      obtain ⟨rfl, hdurable⟩ := Option.filter_eq_some_iff.1 hfail
      simp only [Bool.and_eq_true, bne_iff_ne] at hdurable
      exact .failed hheld hdurable.1
    · simp only
      split
      · rename_i hnil
        obtain rfl := List.isEmpty_iff.1 hnil
        exact .last hheld rfl
      · rename_i hne
        exact .next hheld rfl fun hnil => hne (List.isEmpty_iff.2 hnil)
  · exact .idle

/-- **Every step has one of these outcomes.** -/
theorem nodeStep (move : FlowMove V) : NodeStep score n move (n.step score move) := by
  cases move with
  | view slot ring => exact .view
  | isolation isolated => exact .isolation
  | receive req =>
    simp only [FlowNode.step]
    split
    · exact .refuse ‹_›
    · exact .admitted ‹_›
  | adopt slot reached =>
    simp only [FlowNode.step]
    split
    · exact .idle
    · exact .adopt ‹_›
  | lock slot now => exact nodeStep_lock score n slot now
  | read now stamp rank => exact nodeStep_read score n now stamp rank
  | store now =>
    simp only [FlowNode.step]
    split
    · exact .store ‹_›
    · exact .idle
  | settle failure => exact nodeStep_settle score n failure
  | push now req => exact .shard rfl
  | repair now flowId key entry => exact .shard rfl
  | clearScope now flowId => exact .shard rfl
  | run slot => exact .shard rfl
  | commit now k => exact .shard rfl
  | tick now => exact .shard rfl

theorem step_read_planned {h : Held V} {rank : String → ℕ} (hheld : n.held = some h) (hreads : h.Reads)
    (hne : (n.planOf h now stamp rank).effects ≠ []) : n.step score (.read now stamp rank) =
      { n with held := some { h with stage := .planned (n.planOf h now stamp rank) } } := by
  have hplanned : n.planned h now stamp rank =
      { n with held := some { h with stage := .planned (n.planOf h now stamp rank) } } :=
    if_neg fun hempty => hne (List.isEmpty_iff.1 hempty)
  simp only [FlowNode.step, hheld]
  unfold FlowNode.read
  rcases hreads with ⟨hstage, hop⟩ | hstage
  · split
    · rename_i hop'
      exact absurd hop' (hop _)
    · exact hplanned
    · exact hplanned
    · rename_i hnot _ _
      exact absurd hstage hnot
  · split
    · rename_i hlocked _
      rw [hstage] at hlocked
      cases hlocked
    · exact hplanned
    · exact hplanned
    · rename_i _ hnot _
      exact absurd hstage hnot

omit [FlowValue V] [DecidableEq V] in
/-- An admitted request is at the index of the node's ring, and about a flow the node owns
there. -/
theorem admitted_ok {req : WriteReq V} {ring : Ring} (h : n.admitted score req = .ok ring) :
    ring = n.ring ∧ ring.mIdx = req.mIdx ∧ ring.owner score (.flow req.flowId) = some n.id := by
  unfold FlowNode.admitted at h
  split at h
  · cases h
  · rename_i ring' hview
    have hring : ring' = n.ring := by
      unfold FlowNode.view at hview
      split at hview
      · cases hview
      · cases hview
      · split at hview <;> cases hview
        rfl
    split at h
    · cases h
    · rename_i hidx
      split at h
      · cases h
      · rename_i owner howner
        split at h
        · cases h
        · rename_i hown
          split at h
          · cases h
          · cases h
            rw [not_not] at hidx hown
            exact ⟨hring, hidx.symm, by rw [howner, hown]⟩

def FlowNode.after (moves : List (FlowMove V)) (i : ℕ) : FlowNode V := Trace.stateAt (FlowNode.step score) n moves i

end RiftCluster
