import RiftCluster.Proof.Versions

/-!
# How long a tombstone lives

A delete stores a tombstone with an expiry a minute away. Other keys' writes leave it
alone, and merges of entries it is not superseded by are refused while it is live. A
`setTtl` of the flow rewrites it like every other entry: it stays a tombstone, with the
expiry of the `setTtl`. So it outlives its minute if every such rewrite stamps it at
least that far (`tombstone_outlives`), and a short one buries it early
(`shortTtl_resurrects`).
-/

namespace RiftCluster

open KV

variable {V : Type} {f k : String} {now stamp limit : ℕ}

def Versioned.Buries (limit : ℕ) (e : Versioned V) : Prop := e.deleted = true ∧ limit ≤ e.expiresAt

theorem Versioned.Buries.live {e : Versioned V} (h : e.Buries limit) (hnow : now < limit) : isLive e now = true := by
  have hexpires := h.2
  simp only [isLive, Bool.or_eq_true, beq_iff_eq, decide_eq_true_eq]
  omega

/-- A shard step that leaves a tombstone: it does not take it away, happens while it is
live, and brings nothing that supersedes it. -/
def ShardMove.Spares (t : Traffic V) (f k : String) (limit : ℕ) : ShardMove V → Prop
  | .call now c => c.request.Affects f k → now < limit ∧ ∃ e durability, c = .merge f k e durability ∧
      ∀ cur, t.shard.entry f k = some cur → cur.supersededBy e = false
  | .run slot => f ∉ t.evicted slot
  | .commit _ _ => True
  | .tick now => now < limit

theorem spares_leaves {t : Traffic V} {move : ShardMove V} (h : move.Spares t f k limit) {e : Versioned V}
    (he : t.shard.entry f k = some e) (hburies : e.Buries limit) : move.leaves t f k = some e := by
  refine passes_leaves ?_ he
  cases move with
  | call now c =>
    intro haff
    obtain ⟨hnow, e', durability, rfl, hnot⟩ := h haff
    have hle : e'.version ≤ e.version := by
      rw [← not_lt, ← supersededBy_iff, hnot e he]
      simp
    exact ⟨hburies.live hnow, e', durability, rfl, hle⟩
  | run slot => exact h
  | commit now j => trivial
  | tick now => exact hburies.live h

variable [FlowValue V] [DecidableEq V] {score : ℕ → OwnedKey → ℕ} {n : FlowNode V}

/-- A step that leaves a tombstone of the key. A call on the flow that reads is a `setTtl`
that stamps an expiry past `limit`, or a call on another key. -/
structure FlowMove.Spares (n : FlowNode V) (f k : String) (limit : ℕ) (move : FlowMove V) : Prop where
  request : ∀ now stamp rank h, move = .read now stamp rank → n.held = some h → h.req.flowId = f →
    (∃ seconds, 0 < seconds ∧ h.req.op = .setTtl seconds ∧ limit ≤ expiryFrom stamp (some (ttlMillis seconds))) ∨
      h.req.key ≠ k ∧ (∀ seconds, h.req.op ≠ .setTtl seconds) ∧ h.req.op ≠ .clearFlow
  outside : ∀ m, move.outside = some m → m.Spares n.traffic f k limit

omit [FlowValue V] [DecidableEq V] in
theorem spares_of_not_read {move : FlowMove V} (hread : ∀ now stamp rank, move ≠ .read now stamp rank)
    (houtside : ∀ m, move.outside = some m → m.Spares n.traffic f k limit) : move.Spares n f k limit :=
  ⟨fun now stamp rank _ heq => absurd heq (hread now stamp rank), houtside⟩

def Effect.Keeps (k : String) (limit : ℕ) : Effect V → Prop
  | .put key _ entry => key = k → entry.Buries limit
  | .clear => False

/-- The record is a tombstone, and what the call under way has left keeps it one. -/
structure Buried (f k : String) (limit : ℕ) (n : FlowNode V) : Prop where
  record : ∃ e, n.shard.entry f k = some e ∧ e.Buries limit
  pending : ∀ h, n.held = some h → h.req.flowId = f → ∀ effect ∈ h.stage.effects, effect.Keeps k limit

theorem Buried.plan (hburied : Buried f k limit n) {h : Held V} {rank : String → ℕ} (hflow : h.req.flowId = f)
    (hrequest : (∃ seconds, 0 < seconds ∧ h.req.op = .setTtl seconds ∧ limit ≤ expiryFrom stamp (some (ttlMillis seconds))) ∨
      h.req.key ≠ k ∧ (∀ seconds, h.req.op ≠ .setTtl seconds) ∧ h.req.op ≠ .clearFlow) :
    ∀ effect ∈ (n.planOf h now stamp rank).effects, effect.Keeps k limit := by
  intro effect hmem
  rcases hrequest with ⟨seconds, hpos, hop, hfar⟩ | ⟨hkey, httl, hclear⟩
  · -- every entry of the flow is stamped anew, the tombstone too
    have heffects : (n.planOf h now stamp rank).effects = rewriteExpiries h.ring.mIdx n.id
        (expiryFrom stamp (some (ttlMillis seconds))) (n.shard.flow now h.req.flowId) none rank := by
      simp only [FlowNode.planOf, WriteReq.plan, hop, if_neg (not_le.2 hpos)]
    rw [heffects] at hmem
    obtain ⟨key, e, hentry, -, rfl⟩ := mem_rewriteExpiries.1 hmem
    rintro rfl
    obtain ⟨cur, hcur, hdeleted, -⟩ := hburied.record
    have hread := mem_flow.1 hentry
    rw [hflow, Shard.getVersioned, hcur, Option.filter_eq_some_iff] at hread
    cases hread.1
    exact ⟨hdeleted, hfar⟩
  · cases effect with
    | put key prev entry =>
      rintro rfl
      obtain ⟨-, -, hown | ⟨seconds, -, hop⟩⟩ := plan_put hmem
      · exact absurd hown.symm hkey
      · exact absurd hop (httl seconds)
    | clear =>
      rcases plan_clear hmem with hop | ⟨seconds, -, hop⟩
      · exact hclear hop
      · exact httl seconds hop

omit [FlowValue V] [DecidableEq V] in
theorem Buried.store (hburied : Buried f k limit n) {req : WriteReq V} {effect : Effect V}
    (hkeeps : req.flowId = f → effect.Keeps k limit) :
    ∃ e, (n.traffic.step (.call now (effect.call req))).shard.entry f k = some e ∧ e.Buries limit := by
  obtain ⟨cur, hcur, hburies⟩ := hburied.record
  have hentry : (n.traffic.step (.call now (effect.call req))).shard.entry f k =
      (effect.call req).request.effect f k (n.shard.entry f k) := effect.stored n.traffic now req
  rw [hentry]
  by_cases haff : (effect.call req).request.Affects f k
  · cases effect with
    | put key prev entry =>
      obtain ⟨hflow, hkey⟩ : req.flowId = f ∧ key = k := haff
      exact ⟨entry, if_pos ⟨hflow, hkey⟩, hkeeps hflow hkey⟩
    | clear => exact (hkeeps haff).elim
  · rw [effect_of_not_affects haff]
    exact ⟨cur, hcur, hburies⟩

omit [FlowValue V] [DecidableEq V] in
theorem Buried.unlocked (hburied : Buried f k limit n) {n' : FlowNode V}
    (hentry : n'.shard.entry f k = n.shard.entry f k) (hfree : n'.held = none) : Buried f k limit n' where
  record := by rw [hentry]; exact hburied.record
  pending := by
    rw [hfree]
    rintro h ⟨⟩

/-- **Every step that spares the tombstone keeps it.** -/
theorem buried_step (hburied : Buried f k limit n) {move : FlowMove V} (hmove : move.Spares n f k limit) :
    Buried f k limit (n.step score move) := by
  have hstep := nodeStep score n move
  generalize n.step score move = n' at hstep ⊢
  cases hstep with
  | idle => exact hburied
  | view | isolation | refuse | admitted | adopt => exact ⟨hburied.record, hburied.pending⟩
  | isolated | absent | done | failed | last => exact hburied.unlocked rfl rfl
  | lock | found => exact ⟨hburied.record, by rintro h ⟨rfl⟩ _ effect hmem; cases hmem⟩
  | @plan now stamp rank h hheld hreads hne =>
    refine ⟨hburied.record, ?_⟩
    rintro h' ⟨rfl⟩ hflow
    exact hburied.plan hflow (hmove.request now stamp rank h rfl hheld hflow)
  | @store now ring req expiry effect rest reply hheld =>
    have hpending := hburied.pending _ hheld
    refine ⟨hburied.store fun hflow => hpending hflow effect List.mem_cons_self, ?_⟩
    rintro h' ⟨rfl⟩ hflow
    exact hpending hflow
  | @next failure ring req expiry effect rest reply h hheld heq hne =>
    subst heq
    refine ⟨hburied.record, ?_⟩
    rintro h' ⟨rfl⟩ hflow effect' hmem
    exact hburied.pending _ hheld hflow effect' (List.mem_cons_of_mem _ hmem)
  | @shard _ m houtside =>
    obtain ⟨e, he, hburies⟩ := hburied.record
    refine ⟨⟨e, ?_, hburies⟩, hburied.pending⟩
    rw [FlowNode.shard, FlowNode.onShard, Traffic.entry_step]
    exact spares_leaves (hmove.outside m houtside) he hburies

/-- A call that deletes its key: a delete, or a `setKeyTtl` of zero or less. -/
def WriteOp.Deletes (op : WriteOp V) : Prop := op = .delete ∨ ∃ seconds, seconds ≤ 0 ∧ op = .setKeyTtl seconds

theorem planOf_deletes {h : Held V} (hop : h.req.op.Deletes) (now stamp : ℕ) (rank : String → ℕ) :
    ∃ prev reply, n.planOf h now stamp rank = ⟨[.put h.req.key prev (tombstone h.ring.mIdx n.id stamp prev)], reply⟩ := by
  rcases hop with hop | ⟨seconds, hle, hop⟩
  · exact ⟨_, _, by simp only [FlowNode.planOf, WriteReq.plan, hop]; rfl⟩
  · exact ⟨_, _, by simp only [FlowNode.planOf, WriteReq.plan, hop, if_pos hle]; rfl⟩

theorem planned_step {call : Held V} (hheld : n.held = some call) {prev : Option (Versioned V)} {entry : Versioned V}
    {reply : WriteReply V} (hstage : call.stage = .planned ⟨[.put call.req.key prev entry], reply⟩)
    (hburies : entry.Buries limit) (move : FlowMove V) :
    (n.step score move).held = some call ∨ Buried call.req.flowId call.req.key limit (n.step score move) := by
  have hstep := nodeStep score n move
  generalize n.step score move = n' at hstep ⊢
  have hcall : ∀ h, n.held = some h → h = call := fun h hh => by rw [hheld] at hh; exact (Option.some.inj hh).symm
  obtain ⟨ring, req, expiry, stage⟩ := call
  obtain rfl : stage = .planned ⟨[.put req.key prev entry], reply⟩ := hstage
  cases hstep with
  | idle | view | isolation | refuse | admitted | adopt | shard => exact .inl hheld
  | isolated hfree | lock hfree => rw [hheld] at hfree; cases hfree
  | found hh hstage | absent hh hstage => cases hcall _ hh; cases hstage
  | plan hh hreads | done hh hreads => cases hcall _ hh; rcases hreads with ⟨h, -⟩ | h <;> cases h
  | failed hh => cases hcall _ hh
  | next hh heq | last hh heq => cases (hcall _ hh).symm.trans heq
  | @store now ring' req' expiry' effect rest reply' hh =>
    right
    cases hcall _ hh
    have hentry : (n.traffic.step (.call now ((Effect.put req.key prev entry).call req))).shard.entry req.flowId req.key =
        some entry := by
      rw [Traffic.entry_step]
      exact if_pos ⟨rfl, rfl⟩
    refine ⟨⟨entry, hentry, hburies⟩, ?_⟩
    rintro h ⟨rfl⟩ _ effect hmem
    rw [List.mem_singleton.1 hmem]
    exact fun _ => hburies

/-- **A tombstone outlives its minute.** A call that deletes key `k` of flow `f` reads at
`t`, mints a tombstone and stores it. As long as every later step spares the key (no call
names it, the flow is not cleared or evicted, each `setTtl` of the flow stamps an
expiry past the tombstone's, and no merge brings an entry that supersedes what is
stored), the record is a tombstone that is live at every time before its end. -/
theorem tombstone_outlives (score : ℕ → OwnedKey → ℕ) (n : FlowNode V) (moves : List (FlowMove V)) (i now t : ℕ)
    (rank : String → ℕ) (hmove : moves[i]? = some (.read now t rank)) (call : Held V)
    (hcall : (n.after score moves i).held = some call) (hreads : call.Reads) (hdeletes : call.req.op.Deletes) (j : ℕ)
    (hij : i < j ∧ j ≤ moves.length)
    (hspares : ∀ a move, i < a → a < j → moves[a]? = some move →
      (n.after score moves a).held ≠ some { call with stage := .planned ((n.after score moves i).planOf call now t rank) } →
      FlowMove.Spares (n.after score moves a) call.req.flowId call.req.key (expiryFrom t (some tombstoneTtl)) move)
    (hstored : (n.after score moves j).held ≠
      some { call with stage := .planned ((n.after score moves i).planOf call now t rank) }) :
    ∀ T < expiryFrom t (some tombstoneTtl), ∃ e,
      (n.after score moves j).shard.getVersioned T call.req.flowId call.req.key = some e ∧ e.deleted = true := by
  obtain ⟨hlt, hget⟩ := List.getElem?_eq_some_iff.1 hmove
  obtain ⟨prev, reply, hplan⟩ := planOf_deletes (n := n.after score moves i) hdeletes now t rank
  have hburies : (tombstone call.ring.mIdx (n.after score moves i).id t prev).Buries (expiryFrom t (some tombstoneTtl)) :=
    ⟨rfl, le_rfl⟩
  -- the call keeps the lock with its plan until it stores, and from then on the key is buried
  have hphase : (n.after score moves j).held =
      some { call with stage := .planned ((n.after score moves i).planOf call now t rank) } ∨
      Buried call.req.flowId call.req.key (expiryFrom t (some tombstoneTtl)) (n.after score moves j) := by
    have hfirst : (n.after score moves (i + 1)).held =
        some { call with stage := .planned ((n.after score moves i).planOf call now t rank) } := by
      have hread : n.after score moves (i + 1) = (n.after score moves i).step score (.read now t rank) := by
        rw [FlowNode.after, Trace.stateAt_succ hlt, hget]
        rfl
      rw [hread, step_read_planned score _ hcall hreads (by rw [hplan]; exact List.cons_ne_nil _ _)]
    refine Trace.stateAt_stretch
      (P := fun s => s.held = some { call with stage := .planned ((n.after score moves i).planOf call now t rank) } ∨
        Buried call.req.flowId call.req.key (expiryFrom t (some tombstoneTtl)) s)
      (Nat.succ_le_of_lt hij.1) hij.2 (.inl hfirst) fun a ha hia haj h => ?_
    by_cases hheld : (n.after score moves a).held =
        some { call with stage := .planned ((n.after score moves i).planOf call now t rank) }
    · exact planned_step hheld (congrArg Stage.planned hplan) hburies _
    · exact .inr (buried_step (h.resolve_left hheld) (hspares a _ (by omega) haj (List.getElem?_eq_getElem ha) hheld))
  obtain ⟨e, he, hend⟩ := (hphase.resolve_left hstored).record
  intro T hT
  exact ⟨e, by rw [Shard.getVersioned, he, Option.filter_some, hend.live hT]; rfl, hend.1⟩

/-! ## Runs -/

/-- A delete of the key at 1000, then a `setTtl` of its flow at 2000. -/
def deleteThenTtl (seconds : ℤ) : List (FlowMove (Option ℤ)) :=
  [.receive { flowId := "f", key := "k", op := .delete, mIdx := 1 }, .adopt 0 false] ++ serve 0 1000 ++
    [.receive { flowId := "f", key := "", op := .setTtl seconds, mIdx := 1 }, .adopt 0 false] ++ serve 0 2000

theorem longTtl_keeps_tombstone :
    expiryFrom 1000 (some tombstoneTtl) = 61000 ∧ ∀ T < expiryFrom 1000 (some tombstoneTtl), ∃ e,
      (keyedNode.after (fun node _ => node) (deleteThenTtl 100) 16).shard.getVersioned T "f" "k" = some e ∧
        e.deleted = true := by
  refine ⟨by decide, ?_⟩
  refine tombstone_outlives (fun node _ => node) keyedNode (deleteThenTtl 100) 3 1000 1000 (fun _ => 0) rfl
    ⟨⟨[1], 1⟩, { flowId := "f", key := "k", op := .delete, mIdx := 1 }, 0, .locked⟩ (by decide +kernel)
    (.inl ⟨rfl, nofun⟩) (.inl rfl) 16 (by decide) (fun a move h1 h2 hmove _ => ?_) (by decide +kernel)
  have hrun : ∀ {n : FlowNode (Option ℤ)} {limit : ℕ}, n.traffic.evicted 0 = [] → FlowMove.Spares n "f" "k" limit (.run 0) := by
    intro n limit hnone
    refine spares_of_not_read nofun fun m hm => ?_
    cases hm
    show "f" ∉ n.traffic.evicted 0
    rw [hnone]
    exact List.not_mem_nil
  match a, h1, h2, hmove with
  | 4, _, _, h | 7, _, _, h | 8, _, _, h | 9, _, _, h | 10, _, _, h | 12, _, _, h | 15, _, _, h =>
    cases h; exact spares_of_not_read nofun nofun
  | 5, _, _, h | 6, _, _, h | 13, _, _, h | 14, _, _, h => cases h; exact hrun (by decide +kernel)
  | 11, _, _, h =>
    cases h
    refine ⟨fun now stamp rank call heq hheld _ => .inl ?_, nofun⟩
    have hcall : (keyedNode.after (fun node _ => node) (deleteThenTtl 100) 11).held =
        some ⟨⟨[1], 1⟩, { flowId := "f", key := "", op := .setTtl 100, mIdx := 1 }, 0, .locked⟩ := by decide +kernel
    rw [hcall] at hheld
    cases heq
    cases hheld
    exact ⟨100, by decide, rfl, by decide⟩

/-- **A short `setTtl` ends the tombstone early, and the key comes back.** The delete is
acknowledged at 1000, the `setTtl` of one second at 2000; at 4000 the tombstone is gone,
and a push of the deleted entry that was delayed until then installs it. -/
theorem shortTtl_resurrects :
    let moves := deleteThenTtl 1 ++ [.push 4000 ⟨"f", .put "k" firstSet, .async⟩]
    let node := keyedNode.after (fun node _ => node) moves 16
    node.answered.map (·.reply) = [.applied none none none, .applied none none none] ∧
      4000 < 1000 + tombstoneTtl ∧ node.shard.getVersioned 4000 "f" "k" = none ∧
      (keyedNode.after (fun node _ => node) moves 17).shard.get 4000 "f" "k" = some firstSet := by
  decide +kernel

end RiftCluster
