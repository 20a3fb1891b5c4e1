import RiftCluster.Model.Proxy

/-!
# What a step of a recording store does

`ProxyStep` lists the outcomes of a move of one node, one constructor each, with what has
to hold for it; `proxyStep` says there are no others. In a run of the fleet a node takes
its own steps while the log grows (`fleet_node`, `fleet_log`), so what a node's steps and
a longer log keep holds all along (`proxy_inv`).
-/

namespace RiftCluster

open KV

variable {U : Upstream} {score : ℕ → OwnedKey → ℕ}

/-! ## One node -/

/-- The outcomes of a move. -/
inductive ProxyStep (U : Upstream) (score : ℕ → OwnedKey → ℕ) (log : List Entry) (n : ProxyNode) :
    ProxyMove → ProxyNode → Prop where
  | idle {move} : ProxyStep U score log n move n
  | view (slot ring) : ProxyStep U score log n (.view slot ring) { n with slot, ring }
  | isolation (isolated) : ProxyStep U score log n (.isolation isolated) { n with isolated }
  | tick (duration) : ProxyStep U score log n (.tick duration) { n with now := n.now + duration }
  | sweep : ProxyStep U score log n .sweep { n with replica := n.replica.sweep U }
  | apply {degraded e} (he : log[n.replica.position]? = some e) :
    ProxyStep U score log n (.apply degraded) { n with replica := n.replica.step U (.entry degraded e) }
  | publish {index} (hup : ∀ k, n.lastApplied = some k → k ≤ index) (hlt : index < n.replica.position) :
    ProxyStep U score log n (.publish index) { n with lastApplied := some index }
  | refuseClaim {req reply} (hr : n.claimRefusal score req = some reply) :
    ProxyStep U score log n (.claim req) { n with claimAnswers := n.claimAnswers ++ [(req, reply)] }
  | enterClaim {req} : ProxyStep U score log n (.claim req) { n with claims := n.claims ++ [⟨req, .gated⟩] }
  /-- An answer other than a grant, which changes nothing else. -/
  | endClaim {move call req stage reply} (hcall : n.claims[call]? = some ⟨req, stage⟩)
    (hreply : ∀ token, reply ≠ .claimed token) : ProxyStep U score log n move (n.answerClaim call req reply)
  | unrecorded {call req} (hcall : n.claims[call]? = some ⟨req, .gated⟩) (hrow : n.proxyRecorded req.slot = none) :
    ProxyStep U score log n (.claimRow call none) (n.moveClaim call req .unrecorded)
  | cacheHit {call req} (hcall : n.claims[call]? = some ⟨req, .unrecorded⟩) :
    ProxyStep U score log n (.claimCache call)
      ({ n with completed := (n.completedLookup req.slot).2 }.answerClaim call req .alreadyRecorded)
  | cacheMiss {call req} (hcall : n.claims[call]? = some ⟨req, .unrecorded⟩)
    (hmiss : (n.completedLookup req.slot).1 = none) :
    ProxyStep U score log n (.claimCache call)
      ({ n with completed := (n.completedLookup req.slot).2 }.moveClaim call req .uncached)
  | grant {call req} (hcall : n.claims[call]? = some ⟨req, .uncached⟩) (hlive : n.live req.slot = none) :
    ProxyStep U score log n (.claimGrant call)
      { n.answerClaim call req (.claimed n.mintToken) with
        nextToken := n.nextToken + 1
        pending := n.pending.insert req.slot ⟨n.mintToken, n.now + n.claimTtl⟩
        grants := n.grants ++ [⟨req.slot, n.mintToken, n.now + n.claimTtl⟩] }
  | release {req claim} (hclaim : n.pending[req.slot]? = some claim) (htoken : claim.token = req.token) :
    ProxyStep U score log n (.release req) { n with pending := n.pending.erase req.slot }
  | refuseSettle {req reply} :
    ProxyStep U score log n (.complete req) { n with settleAnswers := n.settleAnswers ++ [(req, reply)] }
  | enterSettle {req} : ProxyStep U score log n (.complete req) { n with settles := n.settles ++ [⟨req, .gated⟩] }
  | stale {call req} (hcall : n.settles[call]? = some ⟨req, .gated⟩) :
    ProxyStep U score log n (.check call) (n.answerSettle call req .stale)
  | checked {call req claim} (hcall : n.settles[call]? = some ⟨req, .gated⟩) (hlive : n.live req.slot = some claim)
    (htoken : claim.token = req.token) : ProxyStep U score log n (.check call) (n.moveSettle call req .checked)
  | submitted {call req opId issuedAtSecs} (hcall : n.settles[call]? = some ⟨req, .checked⟩) :
    ProxyStep U score log n (.submit call opId issuedAtSecs)
      (n.moveSettle call req (.submitted (req.request opId issuedAtSecs)))
  | failed {call outcome req request reason} (hcall : n.settles[call]? = some ⟨req, .submitted request⟩) :
    ProxyStep U score log n (.answer call outcome) (n.moveSettle call req (.failed reason))
  | answered {call position req request e revision} (hcall : n.settles[call]? = some ⟨req, .submitted request⟩)
    (he : log[position]? = some e) (hp : e.payload = .normal request)
    (hreply : logReply U log position = some (.ofApplied revision)) :
    ProxyStep U score log n (.answer call (.reply position)) (n.moveSettle call req (.answered revision))
  | freed {call req revision} (hcall : n.settles[call]? = some ⟨req, .answered revision⟩) :
    ProxyStep U score log n (.free call)
      { n.moveSettle call req (.freed revision) with pending := n.pending.erase req.slot }
  | freedFailed {call req reason} (hcall : n.settles[call]? = some ⟨req, .failed reason⟩) :
    ProxyStep U score log n (.free call)
      { n.answerSettle call req (.unavailable reason) with pending := n.pending.erase req.slot }
  | cached {call req revision} (hcall : n.settles[call]? = some ⟨req, .freed revision⟩) :
    ProxyStep U score log n (.cache call) (n.cache U call req revision)
  | abandoned {call req request} (hcall : n.settles[call]? = some ⟨req, .submitted request⟩) :
    ProxyStep U score log n (.abandon call) { n with settles := n.settles.eraseIdx call }
  | lookupUnready {req} :
    ProxyStep U score log n (.lookup req) { n with lookupAnswers := n.lookupAnswers ++ [(req, none)] }
  | enterLookup {req} : ProxyStep U score log n (.lookup req) { n with lookups := n.lookups ++ [⟨req, false⟩] }
  | lookupRow {call failure req row} (hcall : n.lookups[call]? = some ⟨req, false⟩)
    (hrow : n.proxyRecorded req.slot = some row) :
    ProxyStep U score log n (.lookupRow call failure) (n.answerLookup U call req (some row))
  | lookupUnrecorded {call failure req} (hcall : n.lookups[call]? = some ⟨req, false⟩) :
    ProxyStep U score log n (.lookupRow call failure) { n with lookups := n.lookups.set call ⟨req, true⟩ }
  | lookupCache {call req} (hcall : n.lookups[call]? = some ⟨req, true⟩) :
    ProxyStep U score log n (.lookupCache call)
      ({ n with completed := (n.completedLookup req.slot).2 }.answerLookup U call req (n.completedLookup req.slot).1)
  | clearPending (port) : ProxyStep U score log n (.clearPending port)
      { n with pending := n.pending.retain fun slot _ => slot.1 != port }
  | clearCompleted (port) : ProxyStep U score log n (.clearCompleted port)
      { n with completed := n.completed.retain fun slot _ => slot.1 != port }

variable {log : List Entry} {n : ProxyNode}

theorem claimRefusal_ne_claimed {req : ClaimReq} {reply : ClaimReply} (h : n.claimRefusal score req = some reply)
    (token : UInt64) : reply ≠ .claimed token := by
  unfold ProxyNode.claimRefusal at h
  split at h
  · cases h; rintro ⟨⟩
  · split at h
    · rename_i refusal _
      cases h
      cases refusal <;> rintro ⟨⟩
    · split at h
      · cases h; rintro ⟨⟩
      · cases h

theorem live_eq_some {slot : ClaimSlot} {claim : PendingClaim} :
    n.live slot = some claim ↔ n.pending[slot]? = some claim ∧ n.now < claim.deadline := by
  simp [ProxyNode.live, Option.filter_eq_some_iff]

/-- **What a move of a node does.** -/
theorem proxyStep (U : Upstream) (score : ℕ → OwnedKey → ℕ) (log : List Entry) (n : ProxyNode) (move : ProxyMove) :
    ProxyStep U score log n move (n.step U score log move) := by
  cases move with
  | view slot ring => exact .view slot ring
  | isolation isolated => exact .isolation isolated
  | tick duration => exact .tick duration
  | sweep => exact .sweep
  | apply degraded =>
    simp only [ProxyNode.step]
    split
    · exact .idle
    · exact .apply ‹_›
  | publish index =>
    simp only [ProxyNode.step]
    split
    · rename_i h
      refine .publish (fun k hk => ?_) h.2
      simpa [hk] using h.1
    · exact .idle
  | claim req =>
    simp only [ProxyNode.step]
    split
    · exact .refuseClaim ‹_›
    · exact .enterClaim
  | claimRow call failure =>
    simp only [ProxyNode.step]
    split
    · rename_i req hcall
      cases failure with
      | some e => exact .endClaim hcall (by rintro _ ⟨⟩)
      | none =>
        simp only [ProxyNode.claimRow]
        split
        · exact .endClaim hcall (by rintro _ ⟨⟩)
        · exact .unrecorded hcall ‹_›
    · exact .idle
  | claimCache call =>
    simp only [ProxyNode.step]
    split
    · rename_i req hcall
      simp only [ProxyNode.claimCache]
      split
      · exact .cacheHit hcall
      · rename_i hmiss
        exact .cacheMiss hcall (by simpa using hmiss)
    · exact .idle
  | claimGrant call =>
    simp only [ProxyNode.step]
    split
    · rename_i req hcall
      simp only [ProxyNode.claimGrant]
      split
      · exact .endClaim hcall (by rintro _ ⟨⟩)
      · rename_i hlive
        exact .grant hcall (by simpa using hlive)
    · exact .idle
  | release req =>
    simp only [ProxyNode.step, ProxyNode.release]
    split
    · rename_i h
      obtain ⟨claim, hclaim, htoken⟩ := (Option.any_eq_true _ _).1 h
      exact .release hclaim (by simpa using htoken)
    · exact .idle
  | complete req =>
    simp only [ProxyNode.step]
    split
    · exact .refuseSettle
    · exact .enterSettle
  | check call =>
    simp only [ProxyNode.step]
    split
    · rename_i req hcall
      simp only [ProxyNode.check]
      split
      · rename_i h
        obtain ⟨claim, hlive, htoken⟩ := (Option.any_eq_true _ _).1 h
        exact .checked hcall hlive (by simpa using htoken)
      · exact .stale hcall
    · exact .idle
  | submit call opId issuedAtSecs =>
    simp only [ProxyNode.step]
    split
    · exact .submitted ‹_›
    · exact .idle
  | answer call outcome =>
    simp only [ProxyNode.step]
    split
    · rename_i req request hcall
      cases outcome with
      | timedOut => exact .failed hcall
      | error reason => exact .failed hcall
      | reply position =>
        simp only [ProxyNode.answer]
        split
        · rename_i h
          obtain ⟨e, he, hp⟩ := (Option.any_eq_true _ _).1 h
          split
          · exact .answered hcall he (by simpa using hp) ‹_›
          · exact .failed hcall
          · exact .idle
        · exact .idle
    · exact .idle
  | free call =>
    simp only [ProxyNode.step]
    split
    · rename_i req stage hcall
      cases stage with
      | answered revision => exact .freed hcall
      | failed reason => exact .freedFailed hcall
      | gated | checked | submitted | freed => exact .idle
    · exact .idle
  | cache call =>
    simp only [ProxyNode.step]
    split
    · exact .cached ‹_›
    · exact .idle
  | abandon call =>
    simp only [ProxyNode.step]
    split
    · exact .abandoned ‹_›
    · exact .idle
  | lookup req =>
    simp only [ProxyNode.step]
    split
    · exact .lookupUnready
    · exact .enterLookup
  | lookupRow call failure =>
    simp only [ProxyNode.step]
    split
    · rename_i req hcall
      simp only [ProxyNode.lookupRow]
      split
      · rename_i row hrow
        refine .lookupRow hcall ?_
        split at hrow
        · cases hrow
        · exact hrow
      · exact .lookupUnrecorded hcall
    · exact .idle
  | lookupCache call =>
    simp only [ProxyNode.step]
    split
    · exact .lookupCache ‹_›
    · exact .idle
  | clearPending port => exact .clearPending port
  | clearCompleted port => exact .clearCompleted port

/-! ## The fleet -/

variable {f : ProxyFleet} {moves : List ProxyFleetMove}

variable (U score) in
theorem fleet_node (f : ProxyFleet) (move : ProxyFleetMove) (i : ℕ) :
    (f.step U score move).nodes i = f.nodes i ∨
      ∃ m, move = .node i m ∧ (f.step U score move).nodes i = (f.nodes i).step U score f.log m := by
  cases move with
  | commit term leader payload =>
    refine .inl ?_
    simp only [ProxyFleet.step]
    split
    · split <;> rfl
    · rfl
  | node j m =>
    have hupdate : ∀ n : ProxyNode, Function.update f.nodes j n i = f.nodes i ∨ i = j ∧ Function.update f.nodes j n i = n := by
      intro n
      by_cases hij : i = j
      · subst hij; exact .inr ⟨rfl, Function.update_self _ _ _⟩
      · exact .inl (Function.update_of_ne hij _ _)
    simp only [ProxyFleet.step]
    split
    · rcases hupdate ((f.nodes j).step U score f.log m) with h | ⟨rfl, h⟩
      · exact .inl h
      · exact .inr ⟨m, rfl, h⟩
    · split
      · exact .inl rfl
      · rcases hupdate ((f.nodes j).step U score f.log m) with h | ⟨rfl, h⟩
        · exact .inl h
        · exact .inr ⟨m, rfl, h⟩

variable (U score) in
theorem fleet_log (f : ProxyFleet) (move : ProxyFleetMove) :
    (f.step U score move).log = f.log ∨
      ∃ e, (f.step U score move).log = f.log ++ [e] ∧ e.logId.index = f.log.length ∧ f.committable e.payload = true ∧
        (f.step U score move).issued = f.issued := by
  cases move with
  | commit term leader payload =>
    simp only [ProxyFleet.step]
    split
    · split
      · exact .inr ⟨_, rfl, rfl, ‹_›, rfl⟩
      · exact .inl rfl
    · exact .inl rfl
  | node j m =>
    refine .inl ?_
    simp only [ProxyFleet.step]
    split
    · rfl
    · split <;> rfl

theorem proxyAt_succ {k : ℕ} (hk : k < moves.length) :
    proxyAt U score f moves (k + 1) = (proxyAt U score f moves k).step U score moves[k] := Trace.stateAt_succ hk

variable (U score f) in
theorem proxyAt_step {k : ℕ} (hk : k < moves.length) (i : ℕ) :
    ∃ m, ProxyStep U score (proxyAt U score f moves k).log ((proxyAt U score f moves k).nodes i) m
        ((proxyAt U score f moves (k + 1)).nodes i) ∧
      (moves[k] = .node i m ∨
        (proxyAt U score f moves (k + 1)).nodes i = (proxyAt U score f moves k).nodes i) := by
  rw [proxyAt_succ hk]
  rcases fleet_node U score (proxyAt U score f moves k) moves[k] i with h | ⟨m, hm, h⟩
  · rw [h]; exact ⟨.tick 0, .idle, .inr rfl⟩
  · rw [h]; exact ⟨m, proxyStep U score _ _ m, .inl hm⟩

variable (U score f) in
theorem proxyAt_own {k i : ℕ} {m : ProxyMove} (hmove : moves[k]? = some (.node i m)) (hm : ∀ n : ProxyNode, n.issues m = none) :
    (proxyAt U score f moves (k + 1)).nodes i =
      ((proxyAt U score f moves k).nodes i).step U score (proxyAt U score f moves k).log m := by
  obtain ⟨hk, hget⟩ := List.getElem?_eq_some_iff.1 hmove
  rw [proxyAt_succ hk, hget]
  simp only [ProxyFleet.step, hm]
  exact Function.update_self _ _ _

theorem proxyAt_log_mono {j k : ℕ} (hjk : j ≤ k) (hk : k ≤ moves.length) :
    (proxyAt U score f moves j).log <+: (proxyAt U score f moves k).log := by
  refine Trace.stateAt_stretch (P := fun g : ProxyFleet => (proxyAt U score f moves j).log <+: g.log) hjk hk
    (List.prefix_refl _) ?_
  intro m hm _ _ ih
  rcases fleet_log U score (Trace.stateAt (ProxyFleet.step U score) f moves m) moves[m] with
    h | ⟨e, h, -⟩
  · rw [h]; exact ih
  · rw [h]; exact ih.trans (List.prefix_append _ _)

/-- **What a node's steps and a longer log keep holds all along.** -/
theorem proxy_inv {P : List Entry → ProxyNode → Prop} {i : ℕ} (h0 : P f.log (f.nodes i))
    (hlog : ∀ log n (e : Entry), e.logId.index = log.length → P log n → P (log ++ [e]) n)
    (hstep : ∀ log n move, P log n → P log (n.step U score log move)) (k : ℕ) :
    P (proxyAt U score f moves k).log ((proxyAt U score f moves k).nodes i) := by
  refine Trace.stateAt_inv (P := fun g : ProxyFleet => P g.log (g.nodes i)) h0 ?_ k
  intro g move _ hg
  have hn : P g.log ((g.step U score move).nodes i) := by
    rcases fleet_node U score g move i with h | ⟨m, -, h⟩
    · rw [h]; exact hg
    · rw [h]; exact hstep _ _ _ hg
  rcases fleet_log U score g move with h | ⟨e, h, hindex, -⟩
  · rw [h]; exact hn
  · rw [h]; exact hlog _ _ _ hindex hn

end RiftCluster
