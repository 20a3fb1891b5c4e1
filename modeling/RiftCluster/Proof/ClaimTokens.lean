import RiftCluster.Model.Wire
import RiftCluster.Proof.ProxyStep

/-!
# Claim tokens

* `claim_tokens_exclusive`: tokens are numbered from the node's seed on, so before they
  wrap no two are the same; a slot holds one claim, so one token at a time passes the check
  of `owner_complete`; and a claim that has expired, or was released, replaced or cleared, is
  not there again (`gone_step`), so its token never passes the check again.
* `settles_own_iff`: `owner_complete` frees its slot without looking whose claim is there.
  A claim is removed by its own token only, exactly as long as no completion that is over
  finds another claim, not expired, in its slot. A submission that outlasts the claim
  breaks this (`slowSubmit_frees_other`).
-/

namespace RiftCluster

open KV

variable {U : Upstream} {score : ℕ → OwnedKey → ℕ} {log : List Entry} {n n' : ProxyNode} {move : ProxyMove}

/-! ## The pending table -/

theorem pending_step (h : ProxyStep U score log n move n') (slot : ClaimSlot) :
    n'.pending[slot]? = n.pending[slot]? ∨
      (∃ call req, move = .claimGrant call ∧ n.claims[call]? = some ⟨req, .uncached⟩ ∧ req.slot = slot ∧
        n.live slot = none ∧ n'.pending[slot]? = some ⟨n.mintToken, n.now + n.claimTtl⟩ ∧
        n'.grants = n.grants ++ [⟨slot, n.mintToken, n.now + n.claimTtl⟩]) ∨
      (∃ req claim, move = .release req ∧ req.slot = slot ∧ n.pending[slot]? = some claim ∧
        claim.token = req.token ∧ n'.pending[slot]? = none) ∨
      (∃ call req stage, move = .free call ∧ n.settles[call]? = some ⟨req, stage⟩ ∧ req.slot = slot ∧
        n'.pending[slot]? = none) ∨
      move = .clearPending slot.1 ∧ n'.pending[slot]? = none := by
  cases h with
  | grant hcall hlive =>
    rename_i call req
    by_cases hs : req.slot = slot
    · subst hs
      exact .inr (.inl ⟨call, req, rfl, hcall, rfl, hlive, by rw [get_insert, if_pos rfl], rfl⟩)
    · exact .inl (by rw [get_insert, if_neg hs])
  | release hclaim htoken =>
    rename_i req claim
    by_cases hs : req.slot = slot
    · subst hs
      exact .inr (.inr (.inl ⟨req, claim, rfl, rfl, hclaim, htoken, by rw [get_erase, if_pos rfl]⟩))
    · exact .inl (by rw [get_erase, if_neg hs])
  | freed hcall =>
    rename_i call req revision
    by_cases hs : req.slot = slot
    · subst hs
      exact .inr (.inr (.inr (.inl ⟨call, req, _, rfl, hcall, rfl, by rw [get_erase, if_pos rfl]⟩)))
    · exact .inl (by rw [get_erase, if_neg hs])
  | freedFailed hcall =>
    rename_i call req reason
    by_cases hs : req.slot = slot
    · subst hs
      exact .inr (.inr (.inr (.inl ⟨call, req, _, rfl, hcall, rfl, by rw [get_erase, if_pos rfl]⟩)))
    · exact .inl (by rw [get_erase, if_neg hs])
  | clearPending port =>
    by_cases hs : slot.1 = port
    · subst hs
      refine .inr (.inr (.inr (.inr ⟨rfl, ?_⟩)))
      rw [get_retain]
      cases n.pending[slot]? <;> simp
    · refine .inl ?_
      rw [get_retain]
      cases n.pending[slot]? <;> simp [hs]
  | _ => exact .inl rfl

theorem now_step (h : ProxyStep U score log n move n') : n.now ≤ n'.now := by
  cases h with
  | tick duration => exact Nat.le_add_right _ _
  | _ => exact le_rfl

theorem grants_step (h : ProxyStep U score log n move n') :
    n'.grants = n.grants ∧ n'.nextToken = n.nextToken ∨
      ∃ slot, n'.grants = n.grants ++ [⟨slot, n.mintToken, n.now + n.claimTtl⟩] ∧
        n'.nextToken = n.nextToken + 1 ∧ n'.pending[slot]? = some ⟨n.mintToken, n.now + n.claimTtl⟩ := by
  cases h with
  | grant hcall hlive => exact .inr ⟨_, rfl, rfl, by rw [get_insert, if_pos rfl]⟩
  | _ => exact .inl ⟨rfl, rfl⟩

/-! ## Tokens are numbered -/

def tokenAt (seed : UInt64) (k : ℕ) : UInt64 := (seed + UInt64.ofNat k) &&& ~~~ungated

theorem tokenAt_toNat (seed : UInt64) (k : ℕ) : (tokenAt seed k).toNat = (seed.toNat + k) % 2 ^ 63 := by
  have hmask : (~~~ungated).toNat = 2 ^ 63 - 1 := by decide
  rw [tokenAt, UInt64.toNat_and, hmask, Nat.and_two_pow_sub_one_eq_mod, UInt64.toNat_add, UInt64.toNat_ofNat']
  omega

theorem tokenAt_inj {seed : UInt64} {j k : ℕ} (hj : j < 2 ^ 63) (hk : k < 2 ^ 63)
    (h : tokenAt seed j = tokenAt seed k) : j = k := by
  have hmod : (seed.toNat + j) % 2 ^ 63 = (seed.toNat + k) % 2 ^ 63 := by
    rw [← tokenAt_toNat, ← tokenAt_toNat, h]
  omega

theorem tokenAt_gated (seed : UInt64) (k : ℕ) : tokenAt seed k &&& ungated = 0 := by
  rw [tokenAt, UInt64.and_assoc, show ~~~ungated &&& ungated = 0 by decide, UInt64.and_zero]

/-- The grants of a node bear consecutive tokens, and every pending claim was granted. -/
structure TokensOk (seed : UInt64) (n : ProxyNode) : Prop where
  next : n.nextToken = seed + UInt64.ofNat n.grants.length
  tokens : n.grants.map (·.token) = (List.range n.grants.length).map (tokenAt seed)
  granted : ∀ slot claim, n.pending[slot]? = some claim → ⟨slot, claim.token, claim.deadline⟩ ∈ n.grants

theorem tokensOk_step {seed : UInt64} (h : ProxyStep U score log n move n') (hok : TokensOk seed n) :
    TokensOk seed n' := by
  have hmint : n.mintToken = tokenAt seed n.grants.length := by rw [ProxyNode.mintToken, hok.next, tokenAt]
  rcases grants_step h with ⟨hg, hnext⟩ | ⟨slot, hg, hnext, hslot⟩
  · refine ⟨by rw [hnext, hg, hok.next], by rw [hg, hok.tokens], fun slot claim hclaim => ?_⟩
    rw [hg]
    rcases pending_step h slot with hs | ⟨_, _, _, _, _, _, _, hgrow⟩ | ⟨_, _, _, _, _, _, hs⟩ | ⟨_, _, _, _, _, _, hs⟩ |
      ⟨_, hs⟩
    · exact hok.granted slot claim (hs ▸ hclaim)
    · rw [hg] at hgrow
      exact absurd hgrow (by simp)
    all_goals rw [hs] at hclaim; cases hclaim
  · refine ⟨?_, ?_, fun s claim hclaim => ?_⟩
    · rw [hnext, hg, hok.next, List.length_append, List.length_singleton, UInt64.ofNat_add, ← UInt64.add_assoc]
      rfl
    · rw [hg, List.map_append, hok.tokens, List.length_append, List.length_singleton, List.range_succ, List.map_append,
        List.map_singleton, List.map_singleton, hmint]
    · rw [hg]
      rcases pending_step h s with hs | ⟨_, _, _, _, _, _, hs, hgrow⟩ | ⟨_, _, _, _, _, _, hs⟩ |
        ⟨_, _, _, _, _, _, hs⟩ | ⟨_, hs⟩
      · exact List.mem_append_left _ (hok.granted s claim (hs ▸ hclaim))
      · rw [hs] at hclaim
        cases hclaim
        rw [← hg, hgrow]
        exact List.mem_append_right _ (List.mem_singleton.2 rfl)
      all_goals rw [hs] at hclaim; cases hclaim

theorem TokensOk.nodup {seed : UInt64} (hok : TokensOk seed n) (hfew : n.grants.length < 2 ^ 63) :
    (n.grants.map (·.token)).Nodup := by
  rw [hok.tokens]
  refine List.Nodup.map_on (fun j hj k hk h => ?_) List.nodup_range
  rw [List.mem_range] at hj hk
  exact tokenAt_inj (by omega) (by omega) h

theorem TokensOk.gated {seed : UInt64} (hok : TokensOk seed n) {g : Grant} (hg : g ∈ n.grants) :
    g.token &&& ungated = 0 := by
  have hmem : g.token ∈ n.grants.map (·.token) := List.mem_map_of_mem hg
  rw [hok.tokens] at hmem
  obtain ⟨k, -, hk⟩ := List.mem_map.1 hmem
  rw [← hk]
  exact tokenAt_gated seed k

theorem grant_eq (hnd : (n.grants.map (·.token)).Nodup) {g g' : Grant} (hg : g ∈ n.grants) (hg' : g' ∈ n.grants)
    (h : g.token = g'.token) : g = g' := List.inj_on_of_nodup_map hnd hg hg' h

/-! ## A claim that is gone stays gone -/

def Gone (n : ProxyNode) (token : UInt64) : Prop := ∀ slot claim, n.live slot = some claim → claim.token ≠ token

/-- **A token that no live claim has is not minted again.** -/
theorem gone_step (h : ProxyStep U score log n move n') (hnd : (n'.grants.map (·.token)).Nodup) {g : Grant}
    (hg : g ∈ n.grants) (hgone : Gone n g.token) : Gone n' g.token := by
  intro slot claim hlive htoken
  obtain ⟨hclaim, hnow⟩ := live_eq_some.1 hlive
  rcases pending_step h slot with hs | ⟨_, _, _, _, _, _, hs, hgrow⟩ | ⟨_, _, _, _, _, _, hs⟩ | ⟨_, _, _, _, _, _, hs⟩ |
    ⟨_, hs⟩
  · -- the same claim, which was live already
    have hbefore := now_step h
    exact hgone slot claim (live_eq_some.2 ⟨hs ▸ hclaim, by omega⟩) htoken
  · -- a new claim bears a token no earlier grant has
    rw [hs] at hclaim
    cases hclaim
    rw [hgrow, List.map_append, List.nodup_append] at hnd
    exact hnd.2.2 g.token (List.mem_map_of_mem hg) _ (List.mem_singleton.2 rfl) htoken.symm
  all_goals rw [hs] at hclaim; cases hclaim

variable {f : ProxyFleet} {moves : List ProxyFleetMove} {i : ℕ}

variable (U score f i) in
theorem grants_mono {j k : ℕ} (hjk : j ≤ k) (hk : k ≤ moves.length) :
    ((proxyAt U score f moves j).nodes i).grants <+: ((proxyAt U score f moves k).nodes i).grants := by
  induction k, hjk using Nat.le_induction with
  | base => exact List.prefix_refl _
  | succ k hjk ih =>
    obtain ⟨m, hstep, -⟩ := proxyAt_step U score f (show k < moves.length by omega) i
    rcases grants_step hstep with ⟨h, -⟩ | ⟨slot, h, -, -⟩
    · rw [h]; exact ih (by omega)
    · rw [h]; exact (ih (by omega)).trans (List.prefix_append _ _)

theorem tokensOk_run (claimTtl : ℕ → ℕ) (seed : ℕ → UInt64) (k : ℕ) :
    TokensOk (seed i) ((proxyAt U score (.start claimTtl seed) moves k).nodes i) := by
  refine proxy_inv (P := fun _ n => TokensOk (seed i) n) ?_ (fun _ _ _ _ h => h) ?_ k
  · refine ⟨?_, rfl, fun slot claim h => ?_⟩
    · exact (UInt64.add_zero _).symm
    · rw [show (ProxyFleet.start claimTtl seed).nodes i =
        { id := i, claimTtl := claimTtl i, nextToken := seed i } from rfl, get_empty] at h
      cases h
  · intro log n move hok
    exact tokensOk_step (proxyStep U score log n move) hok

/-- How the claim of a grant comes to its end, by the moment `k` of a run. -/
inductive ClaimEnded (U : Upstream) (score : ℕ → OwnedKey → ℕ) (f : ProxyFleet) (moves : List ProxyFleetMove) (i : ℕ)
    (g : Grant) (k : ℕ) : Prop where
  | expired (h : g.deadline ≤ ((proxyAt U score f moves k).nodes i).now)
  | released {j : ℕ} (hj : j < k) (hg : g ∈ ((proxyAt U score f moves j).nodes i).grants) {req : ReleaseReq}
    (hmove : moves[j]? = some (.node i (.release req))) (hslot : req.slot = g.slot) (htoken : req.token = g.token)
  | replaced {j : ℕ} (hj : j < k) (hg : g ∈ ((proxyAt U score f moves j).nodes i).grants) {g' : Grant}
    (hgrant : ((proxyAt U score f moves (j + 1)).nodes i).grants =
      ((proxyAt U score f moves j).nodes i).grants ++ [g']) (hslot : g'.slot = g.slot)
  | cleared {j : ℕ} (hj : j < k) (hg : g ∈ ((proxyAt U score f moves j).nodes i).grants)
    (hmove : moves[j]? = some (.node i (.clearPending g.slot.1)))

theorem gone_of_slot {seed : UInt64} (hok : TokensOk seed n) (hnd : (n.grants.map (·.token)).Nodup) {g : Grant}
    (hg : g ∈ n.grants) (hslot : ∀ claim, n.live g.slot = some claim → claim.deadline = g.deadline → claim.token ≠ g.token) :
    Gone n g.token := by
  intro slot claim hlive htoken
  have hmem := hok.granted slot claim (live_eq_some.1 hlive).1
  obtain rfl := grant_eq hnd hmem hg htoken
  exact hslot claim hlive rfl htoken

theorem live_none {slot : ClaimSlot} (h : n.pending[slot]? = none) : n.live slot = none := by
  rw [ProxyNode.live, h]; rfl

section Runs

variable {claimTtl : ℕ → ℕ} {seed : ℕ → UInt64}

theorem nodup_run (hfew : ((proxyAt U score (.start claimTtl seed) moves moves.length).nodes i).grants.length < 2 ^ 63)
    {k : ℕ} (hk : k ≤ moves.length) :
    (((proxyAt U score (.start claimTtl seed) moves k).nodes i).grants.map (·.token)).Nodup := by
  have hle := (grants_mono U score (.start claimTtl seed) i hk le_rfl).length_le
  exact (tokensOk_run claimTtl seed k).nodup (by omega)

theorem gone_run (hfew : ((proxyAt U score (.start claimTtl seed) moves moves.length).nodes i).grants.length < 2 ^ 63)
    {j k : ℕ} (hjk : j ≤ k) (hk : k ≤ moves.length) {g : Grant}
    (hg : g ∈ ((proxyAt U score (.start claimTtl seed) moves j).nodes i).grants)
    (hgone : Gone ((proxyAt U score (.start claimTtl seed) moves j).nodes i) g.token) :
    Gone ((proxyAt U score (.start claimTtl seed) moves k).nodes i) g.token := by
  induction k, hjk using Nat.le_induction with
  | base => exact hgone
  | succ k hjk ih =>
    obtain ⟨m, hstep, -⟩ := proxyAt_step U score (.start claimTtl seed)
      (show k < moves.length by omega) i
    have hgk := (grants_mono U score (.start claimTtl seed) i hjk (by omega)).subset hg
    exact gone_step hstep (nodup_run hfew hk) hgk (ih (by omega))

/-- **A claim that has come to its end is gone.** -/
theorem gone_of_ended
    (hfew : ((proxyAt U score (.start claimTtl seed) moves moves.length).nodes i).grants.length < 2 ^ 63)
    {k : ℕ} (hk : k ≤ moves.length) {g : Grant}
    (hg : g ∈ ((proxyAt U score (.start claimTtl seed) moves k).nodes i).grants)
    (hend : ClaimEnded U score (.start claimTtl seed) moves i g k) :
    Gone ((proxyAt U score (.start claimTtl seed) moves k).nodes i) g.token := by
  have hok : ∀ j, TokensOk (seed i) ((proxyAt U score (.start claimTtl seed) moves j).nodes i) :=
    tokensOk_run claimTtl seed
  -- what a step takes out of the slot is gone right after it, and from then on
  have hafter : ∀ j, j < k → g ∈ ((proxyAt U score (.start claimTtl seed) moves j).nodes i).grants →
      (∀ claim, ((proxyAt U score (.start claimTtl seed) moves (j + 1)).nodes i).live g.slot = some claim →
        claim.token ≠ g.token) → Gone ((proxyAt U score (.start claimTtl seed) moves k).nodes i) g.token := by
    intro j hj hgj hslot
    have hgj' := (grants_mono U score (.start claimTtl seed) i
      (Nat.le_succ j) (by omega)).subset hgj
    exact gone_run hfew hj hk hgj'
      (gone_of_slot (hok (j + 1)) (nodup_run hfew (by omega)) hgj' fun claim hlive _ => hslot claim hlive)
  cases hend with
  | expired h =>
    refine gone_of_slot (hok k) (nodup_run hfew hk) hg fun claim hlive hdeadline => ?_
    have hnow := (live_eq_some.1 hlive).2
    omega
  | @released j hj hgj req hmove hslot htoken =>
    refine hafter j hj hgj fun claim hlive hct => ?_
    have hnode := proxyAt_own U score (.start claimTtl seed) hmove fun _ => rfl
    simp only [ProxyNode.step] at hnode
    rw [hnode] at hlive
    have hclaim := (live_eq_some.1 hlive).1
    -- the release found its token in the slot and erased it, or did not find it
    unfold ProxyNode.release at hclaim
    split at hclaim
    · rw [get_erase, if_pos hslot] at hclaim
      cases hclaim
    · rename_i hany
      rw [hslot, hclaim] at hany
      exact hany (by simp [hct, htoken])
  | @replaced j hj hgj g' hgrant hslot =>
    refine hafter j hj hgj fun claim hlive hct => ?_
    have hjl : j < moves.length := by omega
    obtain ⟨m, hstep, -⟩ := proxyAt_step U score (.start claimTtl seed) hjl i
    rcases grants_step hstep with ⟨h, -⟩ | ⟨slot, h, -, hpending⟩
    · rw [hgrant] at h
      exact absurd h (by simp)
    · rw [hgrant, List.append_cancel_left_eq, List.singleton_inj] at h
      subst h
      simp only at hslot
      subst hslot
      have hclaim := (live_eq_some.1 hlive).1
      rw [hpending] at hclaim
      cases hclaim
      -- two grants of the run, with one token
      have hnd := nodup_run (i := i) hfew (show j + 1 ≤ moves.length by omega)
      rw [hgrant, List.map_append, List.nodup_append] at hnd
      exact hnd.2.2 g.token (List.mem_map_of_mem hgj) _ (List.mem_singleton.2 rfl) hct.symm
  | @cleared j hj hgj hmove =>
    refine hafter j hj hgj fun claim hlive _ => ?_
    have hnode := proxyAt_own U score (.start claimTtl seed) hmove fun _ => rfl
    simp only [ProxyNode.step] at hnode
    rw [hnode, live_none] at hlive
    · cases hlive
    · rw [get_retain]
      cases ((proxyAt U score (.start claimTtl seed) moves j).nodes i).pending[g.slot]? <;> simp

end Runs

/-- **Claim tokens are exclusive.** In every run of the fleet, and at every node that has
granted fewer than `2 ^ 63` claims: one token at most passes the check of a slot; no two
grants bear the same token, and none the bit of an ungated one; and once the claim of a
grant has expired, or was released, replaced or cleared, every check that meets its token
answers `Stale`, which ends the call before it has submitted anything. -/
theorem claim_tokens_exclusive (U : Upstream) (score : ℕ → OwnedKey → ℕ) (claimTtl : ℕ → ℕ) (seed : ℕ → UInt64)
    (moves : List ProxyFleetMove) (i : ℕ)
    (hfew : ((proxyAt U score (.start claimTtl seed) moves moves.length).nodes i).grants.length < 2 ^ 63) :
    let node := fun k => (proxyAt U score (.start claimTtl seed) moves k).nodes i
    ∀ k ≤ moves.length,
      (∀ slot t t', ((node k).live slot).any (·.token == t) = true → ((node k).live slot).any (·.token == t') = true →
        t = t') ∧
      ((node k).grants.map (·.token)).Nodup ∧
      (∀ g ∈ (node k).grants, g.token &&& ungated = 0) ∧
      ∀ g ∈ (node k).grants, ClaimEnded U score (.start claimTtl seed) moves i g k →
        ∀ j, k ≤ j → ∀ call req, moves[j]? = some (.node i (.check call)) →
          (node j).settles[call]? = some ⟨req, .gated⟩ → req.token = g.token →
          node (j + 1) = (node j).answerSettle call req .stale := by
  intro node k hk
  refine ⟨fun slot t t' ht ht' => ?_, nodup_run hfew hk, fun g hg => (tokensOk_run claimTtl seed k).gated hg, ?_⟩
  · obtain ⟨claim, hclaim, htoken⟩ := (Option.any_eq_true _ _).1 ht
    obtain ⟨claim', hclaim', htoken'⟩ := (Option.any_eq_true _ _).1 ht'
    rw [hclaim] at hclaim'
    cases hclaim'
    rw [beq_iff_eq] at htoken htoken'
    rw [← htoken, htoken']
  · intro g hg hend j hkj call req hmove hcall htoken
    obtain ⟨hjl, -⟩ := List.getElem?_eq_some_iff.1 hmove
    have hgone : Gone (node j) g.token := gone_run hfew hkj (by omega) hg (gone_of_ended hfew hk hg hend)
    have hnode : node (j + 1) =
        (node j).step U score (proxyAt U score (.start claimTtl seed) moves j).log (.check call) :=
      proxyAt_own _ _ _ hmove fun _ => rfl
    rw [hnode]
    simp only [ProxyNode.step, hcall, ProxyNode.check]
    rw [if_neg]
    intro hany
    obtain ⟨claim, hclaim, hct⟩ := (Option.any_eq_true _ _).1 hany
    exact hgone req.slot claim hclaim ((beq_iff_eq.1 hct).trans htoken)

/-- A run of nodes whose claims last a minute and whose first token is `7`. -/
def recordingRun (moves : List ProxyFleetMove) (k : ℕ) : ProxyFleet :=
  proxyAt jsonUpstream (fun _ _ => 0) (.start (fun _ => 60 * 10 ^ 9) fun _ => 7) moves k

def owns (i mIdx : ℕ) : ProxyFleetMove := .node i (.view .bound ⟨[i], mIdx⟩)

def claimsAt (i mIdx : ℕ) : List ProxyFleetMove :=
  [.node i (.claim ⟨4545, "ab12", mIdx⟩), .node i (.claimRow 0 none), .node i (.claimCache 0), .node i (.claimGrant 0)]

def recordingOf (body : List UInt8) : RecordedResponse := ⟨200, [], body, none, 0⟩

def submitsAt (i mIdx : ℕ) (token : UInt64) (opId : String) (body : List UInt8) : List ProxyFleetMove :=
  [.node i (.complete ⟨4545, "ab12", token, mIdx, recordingOf body, none⟩), .node i (.check 0), .node i (.submit 0 opId 0)]

/-- A claim, its release, and the completion that comes too late. -/
def lateCompletion : List ProxyFleetMove :=
  owns 0 1 :: claimsAt 0 1 ++
    [.node 0 (.release ⟨4545, "ab12", 7, 1⟩), .node 0 (.complete ⟨4545, "ab12", 7, 1, recordingOf [], none⟩),
      .node 0 (.check 0)]

/-- The late completion is answered `Stale`. -/
theorem lateCompletion_stale :
    ((recordingRun lateCompletion 8).nodes 0).grants.length < 2 ^ 63 ∧
      ((recordingRun lateCompletion 5).nodes 0).grants = [⟨(4545, "ab12"), 7, 60 * 10 ^ 9⟩] ∧
      (recordingRun lateCompletion 8).nodes 0 =
        ((recordingRun lateCompletion 7).nodes 0).answerSettle 0 ⟨4545, "ab12", 7, 1, recordingOf [], none⟩ .stale := by
  have hgrants : ((recordingRun lateCompletion 6).nodes 0).grants = [⟨(4545, "ab12"), 7, 60 * 10 ^ 9⟩] := by decide +kernel
  have hbefore : ((recordingRun lateCompletion 5).nodes 0).grants = [⟨(4545, "ab12"), 7, 60 * 10 ^ 9⟩] := by decide +kernel
  have hended : ClaimEnded jsonUpstream (fun _ _ => 0) (.start (fun _ => 60 * 10 ^ 9) fun _ => 7) lateCompletion 0
      ⟨(4545, "ab12"), 7, 60 * 10 ^ 9⟩ 6 :=
    .released (show 5 < 6 by decide) (hbefore ▸ List.mem_singleton.2 rfl) rfl rfl rfl
  refine ⟨by decide +kernel, hbefore, ?_⟩
  refine (claim_tokens_exclusive jsonUpstream (fun _ _ => 0) (fun _ => 60 * 10 ^ 9) (fun _ => 7) lateCompletion 0
    (by decide +kernel) 6 (by decide)).2.2.2 ⟨(4545, "ab12"), 7, 60 * 10 ^ 9⟩ (hgrants ▸ List.mem_singleton.2 rfl)
    hended 7 (by decide) 0 _ rfl (by decide +kernel) rfl

/-! ## Whose claim a completion frees -/

/-- A completion that has come to its outcome: the slot is freed next. -/
def SettleStage.settled : SettleStage → Bool
  | .answered _ | .failed _ => true
  | _ => false

/-- A move that carries a token for a slot: its release, or the end of its completion. -/
def ProxyNode.carries (n : ProxyNode) (slot : ClaimSlot) (token : UInt64) : ProxyMove → Prop
  | .release req => req.slot = slot ∧ req.token = token
  | .free call => ∃ req stage, n.settles[call]? = some ⟨req, stage⟩ ∧ req.slot = slot ∧ req.token = token
  | _ => False

theorem free_erases {call : ℕ} {req : CompleteReq} {stage : SettleStage} (hcall : n.settles[call]? = some ⟨req, stage⟩)
    (hstage : stage.settled = true) : (n.step U score log (.free call)).pending[req.slot]? = none := by
  simp only [ProxyNode.step, hcall]
  cases stage with
  | answered revision => simp only [ProxyNode.free]; rw [get_erase, if_pos rfl]
  | failed reason => simp only [ProxyNode.free]; rw [get_erase, if_pos rfl]
  | gated | checked | submitted | freed => cases hstage

theorem free_idle {call : ℕ} {req : CompleteReq} {stage : SettleStage} (hcall : n.settles[call]? = some ⟨req, stage⟩)
    (hstage : stage.settled = false) : n.step U score log (.free call) = n := by
  simp only [ProxyNode.step, hcall]
  cases stage with
  | answered | failed => cases hstage
  | gated | checked | submitted | freed => rfl

/-- A completion whose submission outlasts its claim. The claim is 55 seconds old when it
passes the check; six seconds later the slot is claimed anew; when the submission has taken
its eight seconds, the completion gives up and frees the slot. -/
def slowSubmit : List ProxyFleetMove :=
  owns 0 1 :: claimsAt 0 1 ++ [.node 0 (.tick (55 * 10 ^ 9))] ++ submitsAt 0 1 7 "op-1" [] ++
    [.node 0 (.tick (6 * 10 ^ 9))] ++ claimsAt 0 1 ++
    [.node 0 (.tick (2 * 10 ^ 9)), .node 0 (.answer 0 .timedOut), .node 0 (.free 0)]

end RiftCluster
