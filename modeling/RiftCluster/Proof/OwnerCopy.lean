import RiftCluster.Model.Cluster
import RiftCluster.Proof.Versions

/-!
# The owner's copy

A value set at a flow's owner stays what the owner serves as long as no copy elsewhere,
in another node's shard or on the network, is newer. `OwnCopy` is the invariant:
pushes, pulls and deliveries only move copies around, the other nodes mint nothing for
a flow they do not own, and what the owner pushes is no newer than what it stored.

A clear of the flow takes the owner's version counter with it and leaves no tombstone.
Copies that missed it are then newer than what the owner mints next, and the pull at
the next membership change brings them back (`clearedFlow_returns`).
-/

namespace RiftCluster

open KV

variable {V : Type} [FlowValue V] [DecidableEq V] {score : ℕ → OwnedKey → ℕ} {n : FlowNode V} {f k : String}

/-! ## What a node's step does to its record, its identity and what it has sent -/

theorem node_traffic (score : ℕ → OwnedKey → ℕ) (n : FlowNode V) (move : FlowMove V) :
    (n.step score move).traffic = n.traffic ∨
      (∃ now ring req expiry effect rest reply, move = .store now ∧
        n.held = some ⟨ring, req, expiry, .planned ⟨effect :: rest, reply⟩⟩ ∧
        (n.step score move).traffic = n.traffic.step (.call now (effect.call req))) ∨
      ∃ m, move.outside = some m ∧ (n.step score move).traffic = n.traffic.step m := by
  have hstep := nodeStep score n move
  generalize n.step score move = n' at hstep ⊢
  cases hstep with
  | store hheld => exact .inr (.inl ⟨_, _, _, _, _, _, _, rfl, hheld, rfl⟩)
  | shard houtside => exact .inr (.inr ⟨_, houtside, rfl⟩)
  | idle | view | isolation | refuse | admitted | adopt | isolated | lock | found | absent | plan | done | failed | next | last =>
    exact .inl rfl

theorem node_id (move : FlowMove V) : (n.step score move).id = n.id := by
  have hstep := nodeStep score n move
  generalize n.step score move = n' at hstep ⊢
  cases hstep <;> rfl

theorem node_sent (score : ℕ → OwnedKey → ℕ) (n : FlowNode V) (move : FlowMove V) :
    (n.step score move).sent = n.sent ∨
      ∃ ring req expiry effect rest reply, n.held = some ⟨ring, req, expiry, .storing ⟨effect :: rest, reply⟩⟩ ∧
        (n.step score move).sent =
          n.sent ++ n.replicate score ⟨ring, req, expiry, .storing ⟨effect :: rest, reply⟩⟩ effect := by
  have hstep := nodeStep score n move
  generalize n.step score move = n' at hstep ⊢
  cases hstep with
  | next hheld heq => subst heq; exact .inr ⟨_, _, _, _, _, _, hheld, rfl⟩
  | last hheld heq => subst heq; exact .inr ⟨_, _, _, _, _, _, hheld, rfl⟩
  | idle | view | isolation | refuse | admitted | adopt | isolated | lock | found | absent | plan | done | store | failed | shard =>
    exact .inl rfl

omit [FlowValue V] [DecidableEq V] in
theorem mem_replicate {h : Held V} {effect : Effect V} {i : ℕ} {req : ReplicateReq V}
    (hmem : (i, req) ∈ n.replicate score h effect) :
    i ≠ n.id ∧ req = ⟨h.req.flowId, effect.replicaOp, h.req.durability⟩ := by
  unfold FlowNode.replicate FlowNode.fellows at hmem
  obtain ⟨j, hj, heq⟩ := List.mem_map.1 hmem
  cases heq
  exact ⟨by simpa using (List.mem_filter.1 hj).2, rfl⟩

/-! ## Nodes that do not own the flow -/

/-- No call on the flow is under way, and none will be admitted. -/
structure Foreign (score : ℕ → OwnedKey → ℕ) (f : String) (n : FlowNode V) : Prop where
  waiting : ∀ w ∈ n.waiting, w.req.flowId ≠ f
  held : ∀ h, n.held = some h → h.req.flowId ≠ f
  ring : n.ring.owner score (.flow f) ≠ some n.id

theorem foreign_step (hn : Foreign score f n) {move : FlowMove V}
    (hview : ∀ slot ring, move = .view slot ring → ring.owner score (.flow f) ≠ some n.id) :
    Foreign score f (n.step score move) := by
  have hstep := nodeStep score n move
  generalize n.step score move = n' at hstep ⊢
  cases hstep with
  | view => exact ⟨hn.waiting, hn.held, hview _ _ rfl⟩
  | @admitted req ring hadmit =>
    obtain ⟨rfl, -, howner⟩ := admitted_ok score n hadmit
    refine ⟨fun w hw => ?_, hn.held, hn.ring⟩
    rcases List.mem_append.1 hw with hw | hw
    · exact hn.waiting w hw
    · rw [List.mem_singleton.1 hw]
      rintro rfl
      exact hn.ring howner
  | @adopt slot reached w hslot =>
    refine ⟨fun w' hw => ?_, hn.held, hn.ring⟩
    rcases List.mem_or_eq_of_mem_set hw with hw | rfl
    · exact hn.waiting w' hw
    · exact hn.waiting w (List.mem_of_getElem? hslot)
  | isolated => exact ⟨fun w hw => hn.waiting w (List.mem_of_mem_eraseIdx hw), by rintro h ⟨⟩, hn.ring⟩
  | @lock slot now w hfree hslot =>
    refine ⟨fun w hw => hn.waiting w (List.mem_of_mem_eraseIdx hw), ?_, hn.ring⟩
    rintro h ⟨rfl⟩
    exact hn.waiting w (List.mem_of_getElem? hslot)
  | found hheld | plan hheld | store hheld =>
    have hother := hn.held _ hheld
    exact ⟨hn.waiting, by rintro h ⟨rfl⟩; exact hother, hn.ring⟩
  | next hheld heq =>
    subst heq
    have hother := hn.held _ hheld
    exact ⟨hn.waiting, by rintro h ⟨rfl⟩; exact hother, hn.ring⟩
  | absent | done | failed | last => exact ⟨hn.waiting, by rintro h ⟨⟩, hn.ring⟩
  | idle | isolation | refuse | shard => exact ⟨hn.waiting, hn.held, hn.ring⟩

omit [FlowValue V] [DecidableEq V] in
theorem outside_own {move : FlowMove V} {m : ShardMove V} (hown : move.isOwn = true) (houtside : move.outside = some m)
    {t : Traffic V} {e : Versioned V} (h : m.leaves t f k = some e) : t.shard.entry f k = some e := by
  cases move with
  | clearScope now flowId =>
    cases houtside
    have hleft : (if flowId = f then none else t.shard.entry f k) = some e := h
    split at hleft
    · cases hleft
    · exact hleft
  | run slot =>
    cases houtside
    simp only [ShardMove.leaves] at h
    split at h
    · cases h
    · exact h
  | commit now j => cases houtside; exact h
  | tick now => cases houtside; exact (Option.filter_eq_some_iff.1 h).1
  | push | repair => cases hown
  | view | isolation | receive | adopt | lock | read | store | settle => cases houtside

theorem foreign_entry (hn : Foreign score f n) {move : FlowMove V} (hown : move.isOwn = true) {e : Versioned V}
    (h : (n.step score move).shard.entry f k = some e) : n.shard.entry f k = some e := by
  rw [FlowNode.shard] at h
  rcases node_traffic score n move with
    hsame | ⟨now, ring, req, expiry, effect, rest, reply, -, hheld, hstep⟩ | ⟨m, houtside, hstep⟩
  · rw [hsame] at h
    exact h
  · have hoff : ¬ (effect.call req).request.Affects f k := by
      intro haff
      cases effect with
      | put key prev entry => exact hn.held _ hheld (haff : req.flowId = f ∧ key = k).1
      | clear => exact hn.held _ hheld haff
    rw [hstep, Effect.stored, effect_of_not_affects hoff] at h
    exact h
  · rw [hstep, Traffic.entry_step] at h
    exact outside_own hown houtside h

/-! ## The invariant -/

/-- A copy of the key away from the owner: in another shard, or on the network. -/
def Cluster.Elsewhere (c : Cluster V) (owner : ℕ) (f k : String) (e : Versioned V) : Prop :=
  (∃ i, i ≠ owner ∧ (c.nodes i).shard.entry f k = some e) ∨ ∃ i durability, (i, ⟨f, .put k e, durability⟩) ∈ c.net

/-- The owner holds the entry, and nothing that can reach it replaces it. -/
structure OwnCopy (score : ℕ → OwnedKey → ℕ) (owner : ℕ) (f k : String) (e : Versioned V) (c : Cluster V) : Prop where
  ids : ∀ i, (c.nodes i).id = i
  own : (c.nodes owner).shard.entry f k = some e
  older : ∀ e', c.Elsewhere owner f k e' → e'.version ≤ e.version
  harmless : ∀ req, (owner, req) ∈ c.net → req.flowId = f → req.op ≠ .clearFlow ∧ req.op ≠ .delete k
  foreign : ∀ i, i ≠ owner → Foreign score f (c.nodes i)
  storing : ∀ ring req expiry prev entry rest reply, (c.nodes owner).held =
    some ⟨ring, req, expiry, .storing ⟨.put k prev entry :: rest, reply⟩⟩ → req.flowId = f → entry.version ≤ e.version

def ShardMove.Retains (t : Traffic V) (f k : String) : ShardMove V → Prop
  | .call _ c => ¬ c.request.Affects f k
  | .run slot => f ∉ t.evicted slot
  | .commit _ _ | .tick _ => True

/-- A step after the write: the owner stores nothing for the key and does not clear or evict
the flow, and no other node becomes the flow's owner. -/
def ClusterMove.Keeps (score : ℕ → OwnedKey → ℕ) (owner : ℕ) (f k : String) (c : Cluster V) : ClusterMove V → Prop
  | .node i move =>
    if i = owner then
      (∀ ring req expiry effect rest reply now, move = .store now →
        (c.nodes owner).held = some ⟨ring, req, expiry, .planned ⟨effect :: rest, reply⟩⟩ →
        ¬ (effect.call req).request.Affects f k) ∧
      ∀ m, move.outside = some m → m.Retains (c.nodes owner).traffic f k
    else ∀ slot ring, move = .view slot ring → ring.owner score (.flow f) ≠ some i
  | .deliver _ _ | .pull _ _ _ _ => True

variable {owner : ℕ} {e : Versioned V} {c : Cluster V}

omit [FlowValue V] [DecidableEq V] in
theorem retains_leaves {t : Traffic V} {m : ShardMove V} (h : m.Retains t f k) (he : t.shard.entry f k = some e)
    (hforever : e.expiresAt = 0) : m.leaves t f k = some e := by
  refine passes_leaves ?_ he
  cases m with
  | call now c => exact fun haff => absurd haff h
  | run slot => exact h
  | commit now j => trivial
  | tick now => simp [ShardMove.Passes, isLive, hforever]

theorem owner_entry (he : n.shard.entry f k = some e) (hforever : e.expiresAt = 0) {move : FlowMove V}
    (hstore : ∀ ring req expiry effect rest reply now, move = .store now →
      n.held = some ⟨ring, req, expiry, .planned ⟨effect :: rest, reply⟩⟩ → ¬ (effect.call req).request.Affects f k)
    (houtside : ∀ m, move.outside = some m → m.Retains n.traffic f k) :
    (n.step score move).shard.entry f k = some e := by
  rw [FlowNode.shard]
  rcases node_traffic score n move with
    hsame | ⟨now, ring, req, expiry, effect, rest, reply, hmove, hheld, hstep⟩ | ⟨m, hm, hstep⟩
  · rw [hsame]
    exact he
  · have hoff := hstore ring req expiry effect rest reply now hmove hheld
    rw [hstep, Effect.stored, effect_of_not_affects hoff]
    exact he
  · rw [hstep, Traffic.entry_step]
    exact retains_leaves (houtside m hm) he hforever

omit [FlowValue V] [DecidableEq V] in
theorem push_leaves {t : Traffic V} {req : ReplicateReq V} {now : ℕ} {e' : Versioned V}
    (h : (ShardMove.call now (applyReplica req)).leaves t f k = some e') :
    t.shard.entry f k = some e' ∨ req.flowId = f ∧ req.op = .put k e' := by
  simp only [ShardMove.leaves] at h
  split at h
  · exact .inl h
  · unfold applyReplica at h
    cases hop : req.op with
    | put key entry =>
      simp only [hop, ShardCall.request, Mutation.effect] at h
      split at h
      · rename_i hkey
        cases h
        exact .inr ⟨hkey.1, by rw [hkey.2]⟩
      · exact .inl h
    | delete key =>
      simp only [hop, ShardCall.request, Mutation.effect] at h
      split at h
      · cases h
      · exact .inl h
    | clearFlow =>
      simp only [hop, ShardCall.request, Mutation.effect] at h
      split at h
      · cases h
      · exact .inl h

omit [FlowValue V] [DecidableEq V] in
theorem push_leaves_own {t : Traffic V} {req : ReplicateReq V} {now : ℕ} (he : t.shard.entry f k = some e)
    (hforever : e.expiresAt = 0) (hharmless : req.flowId = f → req.op ≠ .clearFlow ∧ req.op ≠ .delete k)
    (hold : ∀ e', req.flowId = f → req.op = .put k e' → e'.version ≤ e.version) :
    (ShardMove.call now (applyReplica req)).leaves t f k = some e := by
  refine passes_leaves (fun haff => ⟨by simp [isLive, hforever], ?_⟩) he
  unfold applyReplica at haff ⊢
  cases hop : req.op with
  | put key entry =>
    simp only [hop, ShardCall.request] at haff ⊢
    obtain ⟨hflow, rfl⟩ : req.flowId = f ∧ key = k := haff
    subst hflow
    exact ⟨entry, req.durability, rfl, hold entry rfl hop⟩
  | delete key =>
    simp only [hop, ShardCall.request] at haff
    obtain ⟨hflow, rfl⟩ : req.flowId = f ∧ key = k := haff
    exact absurd hop (hharmless hflow).2
  | clearFlow =>
    simp only [hop, ShardCall.request] at haff
    exact absurd hop (hharmless haff).1

theorem mem_net_node {i : ℕ} {move : FlowMove V} {message : ℕ × ReplicateReq V}
    (h : message ∈ ((c.nodes i).step score move).sent.drop (c.nodes i).sent.length) :
    ∃ ring req expiry effect rest reply, (c.nodes i).held = some ⟨ring, req, expiry, .storing ⟨effect :: rest, reply⟩⟩ ∧
      message.1 ≠ (c.nodes i).id ∧ message.2 = ⟨req.flowId, effect.replicaOp, req.durability⟩ := by
  rcases node_sent score (c.nodes i) move with hsame | ⟨ring, req, expiry, effect, rest, reply, hheld, hsent⟩
  · rw [hsame, List.drop_length] at h
    cases h
  · rw [hsent, List.drop_left] at h
    exact ⟨ring, req, expiry, effect, rest, reply, hheld, mem_replicate h⟩

omit [FlowValue V] [DecidableEq V] in
theorem mem_messages {reply : SyncReply V} {asker : ℕ} {message : ℕ × ReplicateReq V} (h : message ∈ reply.messages asker) :
    ∃ flowId key e entries, (flowId, entries) ∈ reply ∧ (key, e) ∈ entries ∧
      message = (asker, ⟨flowId, .put key e, repairDurability⟩) := by
  obtain ⟨⟨flowId, entries⟩, hflow, h⟩ := List.mem_flatMap.1 h
  obtain ⟨⟨key, e⟩, hkey, rfl⟩ := List.mem_map.1 h
  exact ⟨flowId, key, e, entries, hflow, hkey, rfl⟩

/-- What the owner is storing after a step of its own is older, if what it stores is not for
the key. -/
theorem owner_storing (hstoring : ∀ ring req expiry prev entry rest reply,
      n.held = some ⟨ring, req, expiry, .storing ⟨.put k prev entry :: rest, reply⟩⟩ → req.flowId = f →
      entry.version ≤ e.version) {move : FlowMove V}
    (hstore : ∀ ring req expiry effect rest reply now, move = .store now →
      n.held = some ⟨ring, req, expiry, .planned ⟨effect :: rest, reply⟩⟩ → ¬ (effect.call req).request.Affects f k) :
    ∀ ring req expiry prev entry rest reply,
      (n.step score move).held = some ⟨ring, req, expiry, .storing ⟨.put k prev entry :: rest, reply⟩⟩ → req.flowId = f →
      entry.version ≤ e.version := by
  have hstep := nodeStep score n move
  generalize n.step score move = n' at hstep ⊢
  intro ring req expiry prev entry rest reply hheld hflow
  cases hstep with
  | idle | view | isolation | refuse | admitted | adopt | shard =>
    exact hstoring ring req expiry prev entry rest reply hheld hflow
  | store hold =>
    cases hheld
    exact absurd ⟨hflow, rfl⟩ (hstore _ _ _ _ _ _ _ rfl hold)
  | isolated | lock | found | absent | plan | done | failed | next | last => cases hheld

/-- One node has changed. -/
structure Cluster.Differs (c c' : Cluster V) (i : ℕ) (n : FlowNode V) : Prop where
  self : c'.nodes i = n
  rest : ∀ j, j ≠ i → c'.nodes j = c.nodes j

omit [FlowValue V] [DecidableEq V] in
theorem Cluster.differs_update (c : Cluster V) (i : ℕ) (n : FlowNode V) (net : List (ℕ × ReplicateReq V)) :
    c.Differs { nodes := Function.update c.nodes i n, net } i n :=
  ⟨Function.update_self .., fun _ hj => Function.update_of_ne hj ..⟩

variable {c' : Cluster V}

theorem Cluster.Differs.ids {i : ℕ} {move : FlowMove V} (h : c.Differs c' i ((c.nodes i).step score move))
    (hids : ∀ j, (c.nodes j).id = j) (j : ℕ) : (c'.nodes j).id = j := by
  rcases eq_or_ne j i with rfl | hj
  · rw [h.self, node_id]
    exact hids j
  · rw [h.rest j hj]
    exact hids j

theorem OwnCopy.owner_step (hok : OwnCopy score owner f k e c) (hforever : e.expiresAt = 0) {move : FlowMove V}
    (hc' : c.Differs c' owner ((c.nodes owner).step score move))
    (hnet : c'.net = c.net ++ ((c.nodes owner).step score move).sent.drop (c.nodes owner).sent.length)
    (hstore : ∀ ring req expiry effect rest reply now, move = .store now →
      (c.nodes owner).held = some ⟨ring, req, expiry, .planned ⟨effect :: rest, reply⟩⟩ →
      ¬ (effect.call req).request.Affects f k)
    (houtside : ∀ m, move.outside = some m → m.Retains (c.nodes owner).traffic f k) :
    OwnCopy score owner f k e c' where
  ids := hc'.ids hok.ids
  own := by rw [hc'.self]; exact owner_entry hok.own hforever hstore houtside
  older := by
    rintro e' (⟨i, hi, hentry⟩ | ⟨i, durability, hmem⟩)
    · rw [hc'.rest i hi] at hentry
      exact hok.older e' (.inl ⟨i, hi, hentry⟩)
    · rw [hnet] at hmem
      rcases List.mem_append.1 hmem with hmem | hmem
      · exact hok.older e' (.inr ⟨i, durability, hmem⟩)
      · -- the owner pushes what it is storing
        obtain ⟨ring, req, expiry, effect, rest, reply, hheld, -, hmessage⟩ := mem_net_node hmem
        cases effect with
        | put key prev entry => cases hmessage; exact hok.storing _ _ _ _ _ _ _ hheld rfl
        | clear => cases hmessage
  harmless := by
    intro req hmem hflow
    rw [hnet] at hmem
    rcases List.mem_append.1 hmem with hmem | hmem
    · exact hok.harmless req hmem hflow
    · obtain ⟨_, _, _, _, _, _, -, hother, -⟩ := mem_net_node hmem
      exact absurd (hok.ids owner).symm hother
  foreign := fun i hi => by rw [hc'.rest i hi]; exact hok.foreign i hi
  storing := by rw [hc'.self]; exact owner_storing hok.storing hstore

theorem OwnCopy.other_step (hok : OwnCopy score owner f k e c) {i : ℕ} (hi : i ≠ owner) {move : FlowMove V}
    (hc' : c.Differs c' i ((c.nodes i).step score move))
    (hnet : c'.net = c.net ++ ((c.nodes i).step score move).sent.drop (c.nodes i).sent.length)
    (hown : move.isOwn = true) (hview : ∀ slot ring, move = .view slot ring → ring.owner score (.flow f) ≠ some i) :
    OwnCopy score owner f k e c' := by
  have hforeign := hok.foreign i hi
  -- it pushes nothing of the flow
  have hsent : ∀ message ∈ ((c.nodes i).step score move).sent.drop (c.nodes i).sent.length, message.2.flowId ≠ f := by
    intro message hmem
    obtain ⟨ring, req, expiry, effect, rest, reply, hheld, -, hmessage⟩ := mem_net_node hmem
    rw [hmessage]
    exact hforeign.held _ hheld
  constructor
  case ids => exact hc'.ids hok.ids
  case own =>
    rw [hc'.rest owner (Ne.symm hi)]
    exact hok.own
  case older =>
    rintro e' (⟨j, hj, hentry⟩ | ⟨j, durability, hmem⟩)
    · rcases eq_or_ne j i with rfl | hji
      · rw [hc'.self] at hentry
        exact hok.older e' (.inl ⟨j, hj, foreign_entry hforeign hown hentry⟩)
      · rw [hc'.rest j hji] at hentry
        exact hok.older e' (.inl ⟨j, hj, hentry⟩)
    · rw [hnet] at hmem
      rcases List.mem_append.1 hmem with hmem | hmem
      · exact hok.older e' (.inr ⟨j, durability, hmem⟩)
      · exact absurd rfl (hsent _ hmem)
  case harmless =>
    intro req hmem hflow
    rw [hnet] at hmem
    rcases List.mem_append.1 hmem with hmem | hmem
    · exact hok.harmless req hmem hflow
    · exact absurd hflow (hsent _ hmem)
  case foreign =>
    intro j hj
    rcases eq_or_ne j i with rfl | hji
    · rw [hc'.self]
      refine foreign_step hforeign fun slot ring hmove => ?_
      rw [hok.ids]
      exact hview slot ring hmove
    · rw [hc'.rest j hji]
      exact hok.foreign j hj
  case storing =>
    rw [hc'.rest owner (Ne.symm hi)]
    exact hok.storing

theorem OwnCopy.deliver (hok : OwnCopy score owner f k e c) (hforever : e.expiresAt = 0) {i now : ℕ} {req : ReplicateReq V}
    (hc' : c.Differs c' i ((c.nodes i).step score (.push now req))) (hnet : c'.net = c.net) (hmem : (i, req) ∈ c.net) :
    OwnCopy score owner f k e c' := by
  have hbrings : ∀ e', req.flowId = f → req.op = .put k e' → e'.version ≤ e.version := by
    intro e' hflow hop
    obtain ⟨flowId, op, durability⟩ := req
    cases hflow
    cases hop
    exact hok.older e' (.inr ⟨i, durability, hmem⟩)
  have hentry : ((c.nodes i).step score (.push now req)).shard.entry f k =
      (ShardMove.call now (applyReplica req)).leaves (c.nodes i).traffic f k := Traffic.entry_step _ _
  constructor
  case ids => exact hc'.ids hok.ids
  case own =>
    rcases eq_or_ne owner i with rfl | howner
    · rw [hc'.self, hentry]
      exact push_leaves_own hok.own hforever (hok.harmless req hmem) hbrings
    · rw [hc'.rest owner howner]
      exact hok.own
  case older =>
    rintro e' (⟨j, hj, hentry'⟩ | hmem')
    · rcases eq_or_ne j i with rfl | hji
      · -- the receiver keeps its copy, or has the one on the network
        rw [hc'.self, hentry] at hentry'
        rcases push_leaves hentry' with hold | ⟨hflow, hop⟩
        · exact hok.older e' (.inl ⟨j, hj, hold⟩)
        · exact hbrings e' hflow hop
      · rw [hc'.rest j hji] at hentry'
        exact hok.older e' (.inl ⟨j, hj, hentry'⟩)
    · rw [hnet] at hmem'
      exact hok.older e' (.inr hmem')
  case harmless =>
    rw [hnet]
    exact hok.harmless
  case foreign =>
    intro j hj
    rcases eq_or_ne j i with rfl | hji
    · rw [hc'.self]
      exact foreign_step (hok.foreign j hj) nofun
    · rw [hc'.rest j hji]
      exact hok.foreign j hj
  case storing =>
    rcases eq_or_ne owner i with rfl | howner
    · rw [hc'.self]
      exact hok.storing
    · rw [hc'.rest owner howner]
      exact hok.storing

/-- **Every such step keeps the owner's copy.** -/
theorem ownCopy_step (hok : OwnCopy score owner f k e c) (hforever : e.expiresAt = 0) {move : ClusterMove V}
    (hmove : move.Keeps score owner f k c) : OwnCopy score owner f k e (c.step score move) := by
  cases move with
  | node i move =>
    simp only [Cluster.step]
    split
    · rename_i hown
      rcases eq_or_ne i owner with rfl | hi
      · obtain ⟨hstore, houtside⟩ := (if_pos rfl).mp hmove
        exact hok.owner_step hforever (c.differs_update _ _ _) rfl hstore houtside
      · exact hok.other_step hi (c.differs_update _ _ _) rfl hown ((if_neg hi).mp hmove)
    · exact hok
  | deliver slot now =>
    simp only [Cluster.step]
    split
    · exact hok
    · rename_i i req hslot
      exact hok.deliver hforever (c.differs_update _ _ _) rfl (List.mem_of_getElem? hslot)
  | pull asker holder now flowIds =>
    refine ⟨hok.ids, hok.own, ?_, ?_, hok.foreign, hok.storing⟩
    · rintro e' (hshard | ⟨i, durability, hmem⟩)
      · exact hok.older e' (.inl hshard)
      · rcases List.mem_append.1 hmem with hmem | hmem
        · exact hok.older e' (.inr ⟨i, durability, hmem⟩)
        · -- what a holder answers is its own copy
          obtain ⟨flowId, key, entry, entries, hflow, hkey, heq⟩ := mem_messages hmem
          cases heq
          obtain ⟨flowId', -, heq⟩ := List.mem_map.1 hflow
          cases heq
          have hentry := (Option.filter_eq_some_iff.1 (mem_flow.1 hkey)).1
          rcases eq_or_ne holder owner with rfl | hholder
          · rw [hok.own] at hentry
            cases hentry
            exact le_rfl
          · exact hok.older e' (.inl ⟨holder, hholder, hentry⟩)
    · intro req hmem hflow
      rcases List.mem_append.1 hmem with hmem | hmem
      · exact hok.harmless req hmem hflow
      · obtain ⟨_, _, _, _, -, -, heq⟩ := mem_messages hmem
        cases heq
        exact ⟨nofun, nofun⟩

/-! ## Runs -/

def Cluster.after (score : ℕ → OwnedKey → ℕ) (c : Cluster V) (moves : List (ClusterMove V)) (i : ℕ) : Cluster V :=
  Trace.stateAt (Cluster.step score) c moves i

theorem cluster_node (score : ℕ → OwnedKey → ℕ) (c : Cluster V) (move : ClusterMove V) (i : ℕ) :
    (c.step score move).nodes i = c.nodes i ∨ ∃ m, (c.step score move).nodes i = (c.nodes i).step score m := by
  have hupdate : ∀ (j : ℕ) (m : FlowMove V), Function.update c.nodes j ((c.nodes j).step score m) i = c.nodes i ∨
      ∃ m', Function.update c.nodes j ((c.nodes j).step score m) i = (c.nodes i).step score m' := by
    intro j m
    rcases eq_or_ne i j with rfl | hij
    · exact .inr ⟨m, Function.update_self ..⟩
    · exact .inl (Function.update_of_ne hij ..)
  cases move with
  | node j m =>
    simp only [Cluster.step]
    split
    · exact hupdate j m
    · exact .inl rfl
  | deliver slot now =>
    simp only [Cluster.step]
    split
    · exact .inl rfl
    · exact hupdate _ _
  | pull asker holder now flowIds => exact .inl rfl

theorem after_other {moves : List (ClusterMove V)} {i j : ℕ} (hj : j ≠ owner) (hi : i ≤ moves.length)
    (h : ∀ a, a < i → ∃ m, moves[a]? = some (.node owner m)) : (c.after score moves i).nodes j = c.nodes j := by
  refine Trace.stateAt_stretch (P := fun c' : Cluster V => c'.nodes j = c.nodes j) (Nat.zero_le i) hi (by simp)
    fun a ha _ hai hprev => ?_
  obtain ⟨m, hm⟩ := h a hai
  obtain ⟨_, hget⟩ := List.getElem?_eq_some_iff.1 hm
  rw [hget]
  simp only [Cluster.step]
  split
  · exact (Function.update_of_ne hj ..).trans hprev
  · exact hprev

/-- A set without a time to live stores its value, and the entry does not expire. -/
def SetOk (n : FlowNode V) : Prop :=
  ∀ h, n.held = some h → ∀ value, h.req.op = .set value → h.req.ttlSeconds = none →
    h.expiry = 0 ∧ ∀ effect ∈ h.stage.effects, ∃ prev, effect = .put h.req.key prev (mint h.ring.mIdx n.id 0 prev value)

theorem setOk_step (hok : SetOk n) (move : FlowMove V) : SetOk (n.step score move) := by
  have hstep := nodeStep score n move
  generalize n.step score move = n' at hstep ⊢
  intro h hheld value hop httl
  cases hstep with
  | @lock slot now w hfree hslot =>
    cases hheld
    have hnone : w.req.ttlSeconds = none := httl
    exact ⟨by rw [hnone]; rfl, fun effect hmem => by cases hmem⟩
  | found hold =>
    cases hheld
    exact ⟨(hok _ hold value hop httl).1, fun effect hmem => by cases hmem⟩
  | @plan now stamp rank h hold hreads hne =>
    cases hheld
    have hzero := (hok _ hold value hop httl).1
    have hset : h.req.op = .set value := hop
    refine ⟨hzero, fun effect hmem => ⟨n.shard.getVersioned now h.req.flowId h.req.key, ?_⟩⟩
    simp only [Stage.effects, FlowNode.planOf, WriteReq.plan, hset, hzero, List.mem_singleton] at hmem
    exact hmem
  | store hold => cases hheld; exact hok _ hold value hop httl
  | next hold heq =>
    subst heq
    cases hheld
    obtain ⟨hzero, heffects⟩ := hok _ hold value hop httl
    exact ⟨hzero, fun effect hmem => heffects effect (List.mem_cons_of_mem _ hmem)⟩
  | isolated | absent | done | failed | last => cases hheld
  | idle | view | isolation | refuse | admitted | adopt | shard => exact hok h hheld value hop httl

theorem ownCopy_stored {ring : Ring} {req : WriteReq V} {expiry now : ℕ} {prev : Option (Versioned V)} {entry : Versioned V}
    {rest : List (Effect V)} {reply : WriteReply V} (hids : ∀ i, (c.nodes i).id = i)
    (hheld : (c.nodes owner).held = some ⟨ring, req, expiry, .planned ⟨.put req.key prev entry :: rest, reply⟩⟩)
    (hforeign : ∀ j, j ≠ owner → Foreign score req.flowId (c.nodes j))
    (hnewest : ∀ e, c.Elsewhere owner req.flowId req.key e → e.version ≤ entry.version)
    (hharmless : ∀ r, (owner, r) ∈ c.net → r.flowId = req.flowId → r.op ≠ .clearFlow ∧ r.op ≠ .delete req.key) :
    OwnCopy score owner req.flowId req.key entry (c.step score (.node owner (.store now))) := by
  have hnode : (c.nodes owner).step score (.store now) =
      { (c.nodes owner).onShard (.call now (.set req.flowId req.key entry req.durability)) with
        held := some ⟨ring, req, expiry, .storing ⟨.put req.key prev entry :: rest, reply⟩⟩ } := by
    simp only [FlowNode.step, hheld]
    rfl
  have hdiffers : c.Differs (c.step score (.node owner (.store now))) owner ((c.nodes owner).step score (.store now)) :=
    c.differs_update _ _ _
  have hnet : (c.step score (.node owner (.store now))).net = c.net := by
    show c.net ++ ((c.nodes owner).step score (.store now)).sent.drop (c.nodes owner).sent.length = c.net
    rw [hnode]
    show c.net ++ (c.nodes owner).sent.drop (c.nodes owner).sent.length = c.net
    rw [List.drop_length, List.append_nil]
  refine ⟨hdiffers.ids hids, ?_, ?_, by rw [hnet]; exact hharmless, fun j hj => by rw [hdiffers.rest j hj]; exact hforeign j hj, ?_⟩
  · rw [hdiffers.self, hnode]
    show ((c.nodes owner).traffic.step (.call now (.set req.flowId req.key entry req.durability))).shard.entry _ _ = _
    rw [Traffic.entry_step]
    exact if_pos ⟨rfl, rfl⟩
  · rintro e (⟨j, hj, hentry⟩ | hmem)
    · rw [hdiffers.rest j hj] at hentry
      exact hnewest e (.inl ⟨j, hj, hentry⟩)
    · rw [hnet] at hmem
      exact hnewest e (.inr hmem)
  · rw [hdiffers.self, hnode]
    rintro _ _ _ _ entry' _ _ ⟨⟩ _
    exact le_rfl

/-- **The owner's copy stays right.** A set of a key without a time to live is stored at the
flow's owner, when no copy of the key elsewhere is newer than what it minted and no
clear or delete of the key is on its way to the owner. As long as the owner stores
nothing else for the key, does not clear or evict the flow, and no other node becomes
the flow's owner, the owner serves the value, whatever is pushed, pulled, delayed,
reordered or lost. -/
theorem owner_copy_stays (score : ℕ → OwnedKey → ℕ) (c : Cluster V) (owner : ℕ) (hids : ∀ i, (c.nodes i).id = i)
    (hfree : (c.nodes owner).held = none) (moves : List (ClusterMove V)) (i now : ℕ)
    (hmove : moves[i]? = some (.node owner (.store now))) (call : Held V)
    (hcall : ((c.after score moves i).nodes owner).held = some call) (value : V) (hset : call.req.op = .set value)
    (httl : call.req.ttlSeconds = none) (prev : Option (Versioned V)) (entry : Versioned V) (rest : List (Effect V))
    (reply : WriteReply V) (hnext : call.stage = .planned ⟨.put call.req.key prev entry :: rest, reply⟩)
    (hforeign : ∀ j, j ≠ owner → Foreign score call.req.flowId ((c.after score moves i).nodes j))
    (hnewest : ∀ e, (c.after score moves i).Elsewhere owner call.req.flowId call.req.key e → e.version ≤ entry.version)
    (hharmless : ∀ req, (owner, req) ∈ (c.after score moves i).net → req.flowId = call.req.flowId →
      req.op ≠ .clearFlow ∧ req.op ≠ .delete call.req.key)
    (j : ℕ) (hij : i < j ∧ j ≤ moves.length)
    (hkeeps : ∀ a move, i < a → a < j → moves[a]? = some move →
      ClusterMove.Keeps score owner call.req.flowId call.req.key (c.after score moves a) move) :
    entry.value = value ∧
      ∀ T, ((c.after score moves j).nodes owner).shard.get T call.req.flowId call.req.key = some entry := by
  obtain ⟨hlt, hget⟩ := List.getElem?_eq_some_iff.1 hmove
  have hrun : SetOk ((c.after score moves i).nodes owner) ∧ ∀ a, ((c.after score moves i).nodes a).id = a := by
    refine Trace.stateAt_inv (P := fun c : Cluster V => SetOk (c.nodes owner) ∧ ∀ a, (c.nodes a).id = a) ⟨?_, hids⟩ ?_ i
    · intro h hheld
      rw [hfree] at hheld
      cases hheld
    · intro c move _ hc
      constructor
      · rcases cluster_node score c move owner with h | ⟨m, h⟩
        · rw [h]; exact hc.1
        · rw [h]; exact setOk_step hc.1 m
      · intro a
        rcases cluster_node score c move a with h | ⟨m, h⟩
        · rw [h]; exact hc.2 a
        · rw [h, node_id]; exact hc.2 a
  obtain ⟨ring, req, expiry, stage⟩ := call
  obtain rfl : stage = .planned ⟨.put req.key prev entry :: rest, reply⟩ := hnext
  obtain ⟨-, heffects⟩ := hrun.1 _ hcall value hset httl
  obtain ⟨prev', heq⟩ := heffects _ List.mem_cons_self
  have hentry : entry = mint ring.mIdx _ 0 prev' value := (Effect.put.inj heq).2.2
  have hforever : entry.expiresAt = 0 := by rw [hentry]; rfl
  have hstep : c.after score moves (i + 1) = (c.after score moves i).step score (.node owner (.store now)) := by
    rw [Cluster.after, Trace.stateAt_succ hlt, hget]
    rfl
  have hstart : OwnCopy score owner req.flowId req.key entry (c.after score moves (i + 1)) := by
    rw [hstep]
    exact ownCopy_stored hrun.2 hcall hforeign hnewest hharmless
  have hend : OwnCopy score owner req.flowId req.key entry (c.after score moves j) := by
    refine Trace.stateAt_stretch (Nat.succ_le_of_lt hij.1) hij.2 hstart fun a ha hia haj h => ?_
    exact ownCopy_step h hforever (hkeeps a _ (by omega) haj (List.getElem?_eq_getElem ha))
  refine ⟨by rw [hentry]; rfl, fun T => ?_⟩
  rw [Shard.get, hend.own, Option.filter_some]
  simp [isLive, hentry, mint]

/-! ## Two nodes -/

def firstOwns (node : ℕ) (_ : OwnedKey) : ℕ := if node = 1 then 1 else 0

def twoNodes : Cluster (Option ℤ) :=
  { nodes := fun i => { id := i, ring := ⟨[1, 2], 1⟩, traffic := { shard := { maxFlows := 8 } } } }

/-- A request served at the owner from its arrival to its answer. -/
def atOwner (req : WriteReq (Option ℤ)) (now : ℕ) : List (ClusterMove (Option ℤ)) :=
  (FlowMove.receive req :: .adopt 0 true :: serve 0 now).map (.node 1)

def setAndPush : List (ClusterMove (Option ℤ)) := atOwner (setTo 1 10) 5 ++ [.deliver 0 6]

theorem setAndPush_stays :
    firstSet.value = some 10 ∧
      ∀ T, ((twoNodes.after firstOwns setAndPush 9).nodes 1).shard.get T "f" "k" = some firstSet := by
  have hother : ∀ j, j ≠ 1 → (twoNodes.after firstOwns setAndPush 4).nodes j = twoNodes.nodes j := fun j hj =>
    after_other hj (by decide) fun a ha => by
      interval_cases a <;> exact ⟨_, rfl⟩
  have hnet : (twoNodes.after firstOwns setAndPush 4).net = [] := by decide +kernel
  refine owner_copy_stays firstOwns twoNodes 1 (fun _ => rfl) rfl setAndPush 4 5 rfl
    ⟨⟨[1, 2], 1⟩, setTo 1 10, 0, .planned ⟨[.put "k" none firstSet], .applied (some firstSet) none none⟩⟩
    (by decide +kernel) (some 10) rfl rfl none firstSet [] _ rfl ?_ ?_ ?_ 9 (by decide) ?_
  · intro j hj
    rw [hother j hj]
    have howner : (⟨[1, 2], 1⟩ : Ring).owner firstOwns (.flow "f") = some 1 := by decide
    refine ⟨by simp [twoNodes], by simp [twoNodes], ?_⟩
    rw [show (twoNodes.nodes j).ring = ⟨[1, 2], 1⟩ from rfl, show (setTo 1 10).flowId = "f" from rfl, howner]
    exact fun h => hj (Option.some.inj h).symm
  · rintro e (⟨j, hj, hentry⟩ | ⟨j, durability, hmem⟩)
    · rw [hother j hj] at hentry
      simp [twoNodes, FlowNode.shard, Shard.entry] at hentry
    · rw [hnet] at hmem
      cases hmem
  · intro req hmem
    rw [hnet] at hmem
    cases hmem
  · have hrun : ∀ c : Cluster (Option ℤ), (c.nodes 1).traffic.evicted 0 = [] →
        ClusterMove.Keeps firstOwns 1 "f" "k" c (.node 1 (.run 0)) := by
      intro c hnone
      rw [ClusterMove.Keeps, if_pos rfl]
      refine ⟨by rintro _ _ _ _ _ _ _ ⟨⟩, fun m hm => ?_⟩
      cases hm
      show "f" ∉ (c.nodes 1).traffic.evicted 0
      rw [hnone]
      exact List.not_mem_nil
    have hsettle : ∀ c : Cluster (Option ℤ), ClusterMove.Keeps firstOwns 1 "f" "k" c (.node 1 (.settle none)) := by
      intro c
      rw [ClusterMove.Keeps, if_pos rfl]
      exact ⟨by rintro _ _ _ _ _ _ _ ⟨⟩, by rintro _ ⟨⟩⟩
    intro a move h1 h2 hmove
    interval_cases a
    · cases hmove; exact hrun _ (by decide +kernel)
    · cases hmove; exact hrun _ (by decide +kernel)
    · cases hmove; exact hsettle _
    · cases hmove; exact trivial

/-- Two sets that reach the other holder, a clear of the flow that does not, another set,
and a membership change after which the next call on the flow pulls it. -/
def clearedFlow : List (ClusterMove (Option ℤ)) :=
  atOwner (setTo 1 10) 1 ++ [.deliver 0 2] ++ atOwner (setTo 1 20) 3 ++ [.deliver 1 4] ++
    atOwner { flowId := "f", key := "", op := .clearFlow, mIdx := 1 } 5 ++ atOwner (setTo 1 30) 6 ++
    [.node 1 (.view .bound ⟨[1, 2], 2⟩), .node 2 (.view .bound ⟨[1, 2], 2⟩),
      .node 1 (.receive { flowId := "f", key := "j", op := .set (some 0), mIdx := 2 }), .pull 1 2 7 ["f"], .deliver 4 8]

/-- **A value comes back that the owner had cleared and overwritten.** -/
theorem clearedFlow_returns :
    let before := (twoNodes.after firstOwns clearedFlow 34).nodes 1
    let node := (twoNodes.after firstOwns clearedFlow 39).nodes 1
    before.answered.getLast? = some ⟨setTo 1 30, .applied (some { firstSet with value := some 30 }) none none, .executed⟩ ∧
      before.shard.get 6 "f" "k" = some { firstSet with value := some 30 } ∧
      node.answered = before.answered ∧ node.shard.get 8 "f" "k" = some { firstSet with v := 2, value := some 20 } := by
  decide +kernel

end RiftCluster
