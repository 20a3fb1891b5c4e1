import RiftCluster.Proof.ClaimTokens
import RiftCluster.Proof.LogState

/-!
# What the owner remembers of a recording

From the commit of a recording to its local apply, the completion cache stands in for the
row. The three places a claim looks at are read one after the other:

* `recorded_not_claimed`: as long as the metrics do not advance between a claim's read of
  the row and its look into the cache, a claim does not look into the cache, or wait to be
  granted, while a completion has its answer but has not filled the cache, and no
  completion replaces a newer one, no claim is granted for a recorded signature. Each
  of these is a window the code leaves open (`applyBetweenReads_claims_again`).
* `lookup_replays_log`: what a lookup returns is the response of the entry that wrote the
  marker, as long as every completion that is answered `Applied` wrote it. A recording
  that found the marker of another owner's is answered `Applied` as well, and
  its own response is cached (`secondOwner_replays_its_own`).
-/

namespace RiftCluster

open KV

variable {U : Upstream} {score : ℕ → OwnedKey → ℕ} {log : List Entry} {n n' : ProxyNode} {move : ProxyMove}

/-! ## What a step does to the calls and to the cache -/

/-- The move tells a completion that its submission was applied, at a log index. -/
def SeesApplied (U : Upstream) (log : List Entry) (n : ProxyNode) (req : CompleteReq) (revision : ℕ) : ProxyMove → Prop
  | .answer call (.reply position) => ∃ request e, n.settles[call]? = some ⟨req, .submitted request⟩ ∧
      log[position]? = some e ∧ e.payload = .normal request ∧ logReply U log position = some (.ofApplied revision)
  | _ => False

theorem SeesApplied.inv {req : CompleteReq} {revision : ℕ} (h : SeesApplied U log n req revision move) :
    ∃ call position request e, move = .answer call (.reply position) ∧ n.settles[call]? = some ⟨req, .submitted request⟩ ∧
      log[position]? = some e ∧ e.payload = .normal request ∧ logReply U log position = some (.ofApplied revision) := by
  cases move with
  | answer call outcome =>
    cases outcome with
    | reply position =>
      obtain ⟨request, e, h⟩ := h
      exact ⟨call, position, request, e, rfl, h⟩
    | timedOut | error => exact h.elim
  | _ => exact h.elim

variable (score) in
theorem SeesApplied.step {req : CompleteReq} {revision : ℕ} (h : SeesApplied U log n req revision move) :
    ∃ call position request, move = .answer call (.reply position) ∧ n.settles[call]? = some ⟨req, .submitted request⟩ ∧
      n.step U score log move = n.moveSettle call req (.answered revision) := by
  obtain ⟨call, position, request, e, rfl, hcall, he, hp, hreply⟩ := h.inv
  refine ⟨call, position, request, rfl, hcall, ?_⟩
  have hany : (log[position]?.any (·.payload = .normal request)) = true := by rw [he]; simpa using hp
  simp only [ProxyNode.step, hcall, ProxyNode.answer, if_pos hany, hreply, ControlResponse.ofApplied]

theorem settle_origin (h : ProxyStep U score log n move n') {c : SettleCall} (hc : c ∈ n'.settles) :
    c ∈ n.settles ∨ c.stage = .gated ∨ c.stage = .checked ∨ (∃ reason, c.stage = .failed reason) ∨
      (∃ call opId issuedAtSecs, move = .submit call opId issuedAtSecs ∧ n.settles[call]? = some ⟨c.req, .checked⟩ ∧
        c.stage = .submitted (c.req.request opId issuedAtSecs)) ∨
      (∃ revision, c.stage = .answered revision ∧ SeesApplied U log n c.req revision move) ∨
      ∃ revision, c.stage = .freed revision ∧ ⟨c.req, .answered revision⟩ ∈ n.settles := by
  cases h with
  | enterSettle =>
    rcases List.mem_append.1 hc with hc | hc
    · exact .inl hc
    · rw [List.mem_singleton] at hc
      subst hc
      exact .inr (.inl rfl)
  | stale hcall => exact .inl (List.mem_of_mem_eraseIdx hc)
  | checked hcall hlive htoken =>
    rcases List.mem_or_eq_of_mem_set hc with hc | rfl
    · exact .inl hc
    · exact .inr (.inr (.inl rfl))
  | submitted hcall =>
    rcases List.mem_or_eq_of_mem_set hc with hc | rfl
    · exact .inl hc
    · exact .inr (.inr (.inr (.inr (.inl ⟨_, _, _, rfl, hcall, rfl⟩))))
  | failed hcall =>
    rcases List.mem_or_eq_of_mem_set hc with hc | rfl
    · exact .inl hc
    · exact .inr (.inr (.inr (.inl ⟨_, rfl⟩)))
  | answered hcall he hp hreply =>
    rcases List.mem_or_eq_of_mem_set hc with hc | rfl
    · exact .inl hc
    · exact .inr (.inr (.inr (.inr (.inr (.inl ⟨_, rfl, _, _, hcall, he, hp, hreply⟩)))))
  | freed hcall =>
    rcases List.mem_or_eq_of_mem_set hc with hc | rfl
    · exact .inl hc
    · exact .inr (.inr (.inr (.inr (.inr (.inr ⟨_, rfl, List.mem_of_getElem? hcall⟩)))))
  | freedFailed hcall => exact .inl (List.mem_of_mem_eraseIdx hc)
  | cached hcall => exact .inl (List.mem_of_mem_eraseIdx hc)
  | abandoned hcall => exact .inl (List.mem_of_mem_eraseIdx hc)
  | _ => exact .inl hc

theorem get_completedLookup (slot' slot : ClaimSlot) :
    (n.completedLookup slot').2[slot]? = n.completed[slot]? ∨
      (n.completedLookup slot').2[slot]? = none ∧ ∃ cached, n.completed[slot]? = some cached ∧
        (completeCacheTtl ≤ n.now - cached.since ∨ ∃ a, n.lastApplied = some a ∧ cached.revision ≤ a) := by
  have hdrop : slot' = slot ∧ (n.completed.erase slot')[slot]? = none ∨
      (n.completed.erase slot')[slot]? = n.completed[slot]? := by
    rw [get_erase]
    by_cases hs : slot' = slot
    · exact .inl ⟨hs, if_pos hs⟩
    · exact .inr (if_neg hs)
  unfold ProxyNode.completedLookup
  split
  · exact .inl rfl
  · rename_i cached hcached
    split
    · rename_i hold
      rcases hdrop with ⟨rfl, hnone⟩ | hkeep
      · exact .inr ⟨hnone, cached, hcached, .inl hold⟩
      · exact .inl hkeep
    · split
      · rename_i happlied
        obtain ⟨a, ha, hle⟩ := (Option.any_eq_true _ _).1 happlied
        rcases hdrop with ⟨rfl, hnone⟩ | hkeep
        · exact .inr ⟨hnone, cached, hcached, .inr ⟨a, ha, by simpa using hle⟩⟩
        · exact .inl hkeep
      · exact .inl rfl

theorem completed_step (h : ProxyStep U score log n move n') (slot : ClaimSlot) :
    n'.completed[slot]? = n.completed[slot]? ∨
      (n'.completed[slot]? = none ∧ n'.now = n.now ∧ n'.lastApplied = n.lastApplied ∧
        ∃ cached, n.completed[slot]? = some cached ∧
          (completeCacheTtl ≤ n.now - cached.since ∨ ∃ a, n.lastApplied = some a ∧ cached.revision ≤ a)) ∨
      (∃ call req revision, move = .cache call ∧ n.settles[call]? = some ⟨req, .freed revision⟩ ∧ req.slot = slot ∧
        n' = n.cache U call req revision) ∨
      move = .clearCompleted slot.1 ∧ n'.completed[slot]? = none := by
  have hlook : ∀ slot', n'.completed = (n.completedLookup slot').2 → n'.now = n.now → n'.lastApplied = n.lastApplied →
      n'.completed[slot]? = n.completed[slot]? ∨
        (n'.completed[slot]? = none ∧ n'.now = n.now ∧ n'.lastApplied = n.lastApplied ∧
          ∃ cached, n.completed[slot]? = some cached ∧
            (completeCacheTtl ≤ n.now - cached.since ∨ ∃ a, n.lastApplied = some a ∧ cached.revision ≤ a)) := by
    intro slot' hc hnow hlast
    rw [hc]
    rcases get_completedLookup (n := n) slot' slot with hk | ⟨hnone, hwhy⟩
    · exact .inl hk
    · exact .inr ⟨hnone, hnow, hlast, hwhy⟩
  cases h with
  | cacheHit hcall => exact (hlook _ rfl rfl rfl).imp_right .inl
  | cacheMiss hcall hmiss => exact (hlook _ rfl rfl rfl).imp_right .inl
  | lookupCache hcall => exact (hlook _ rfl rfl rfl).imp_right .inl
  | cached hcall =>
    rename_i call req revision
    by_cases hs : req.slot = slot
    · exact .inr (.inr (.inl ⟨call, req, revision, rfl, hcall, hs, rfl⟩))
    · exact .inl (by rw [ProxyNode.cache, get_insert, if_neg hs])
  | clearCompleted port =>
    by_cases hs : slot.1 = port
    · subst hs
      refine .inr (.inr (.inr ⟨rfl, ?_⟩))
      rw [get_retain]
      cases n.completed[slot]? <;> simp
    · refine .inl ?_
      rw [get_retain]
      cases n.completed[slot]? <;> simp [hs]
  | _ => exact .inl rfl

theorem lastApplied_step (h : ProxyStep U score log n move n') :
    n'.lastApplied = n.lastApplied ∨
      ∃ index, move = .publish index ∧ n'.lastApplied = some index ∧ ∀ a, n.lastApplied = some a → a ≤ index := by
  cases h with
  | publish hup hlt => exact .inr ⟨_, rfl, rfl, hup⟩
  | _ => exact .inl rfl

theorem claim_origin (h : ProxyStep U score log n move n') {c : ClaimCall} (hc : c ∈ n'.claims) :
    c ∈ n.claims ∨ c.stage = .gated ∨
      (c.stage = .unrecorded ∧ n.proxyRecorded c.req.slot = none ∧ n'.lastApplied = n.lastApplied) ∨
      ∃ call, move = .claimCache call ∧ c.stage = .uncached ∧ n.claims[call]? = some ⟨c.req, .unrecorded⟩ ∧
        (n.completedLookup c.req.slot).1 = none := by
  cases h with
  | enterClaim =>
    rcases List.mem_append.1 hc with hc | hc
    · exact .inl hc
    · rw [List.mem_singleton] at hc
      subst hc
      exact .inr (.inl rfl)
  | endClaim hcall hreply => exact .inl (List.mem_of_mem_eraseIdx hc)
  | unrecorded hcall hrow =>
    rcases List.mem_or_eq_of_mem_set hc with hc | rfl
    · exact .inl hc
    · exact .inr (.inr (.inl ⟨rfl, hrow, rfl⟩))
  | cacheHit hcall => exact .inl (List.mem_of_mem_eraseIdx hc)
  | cacheMiss hcall hmiss =>
    rcases List.mem_or_eq_of_mem_set hc with hc | rfl
    · exact .inl hc
    · exact .inr (.inr (.inr ⟨_, rfl, rfl, hcall, hmiss⟩))
  | grant hcall hlive => exact .inl (List.mem_of_mem_eraseIdx hc)
  | _ => exact .inl hc

theorem claimed_stage (h : ProxyStep U score log n move n') {req : ClaimReq} {token : UInt64}
    (hans : n'.claimAnswers = n.claimAnswers ++ [(req, .claimed token)]) : ⟨req, .uncached⟩ ∈ n.claims := by
  have hne : n.claimAnswers ≠ n.claimAnswers ++ [(req, .claimed token)] := by simp
  cases h with
  | refuseClaim hr =>
    simp only [List.append_cancel_left_eq, List.singleton_inj, Prod.mk.injEq] at hans
    exact absurd hans.2 (claimRefusal_ne_claimed hr token)
  | endClaim hcall hreply =>
    simp only [ProxyNode.answerClaim, List.append_cancel_left_eq, List.singleton_inj, Prod.mk.injEq] at hans
    exact absurd hans.2 (hreply token)
  | cacheHit hcall =>
    simp only [ProxyNode.answerClaim, List.append_cancel_left_eq, List.singleton_inj, Prod.mk.injEq] at hans
    exact absurd hans.2 (by rintro ⟨⟩)
  | grant hcall hlive =>
    simp only [ProxyNode.answerClaim, List.append_cancel_left_eq, List.singleton_inj, Prod.mk.injEq] at hans
    rw [← hans.1]
    exact List.mem_of_getElem? hcall
  | _ => exact absurd hans hne

theorem follows_step (h : ProxyStep U score log n move n') (hok : Follows U log n) : Follows U log n' := by
  cases h with
  | sweep =>
    refine ⟨hok.indexed, hok.bound, ?_, hok.published⟩
    exact (sweep_sweep n.replica).trans hok.swept
  | apply he => exact follows_apply hok he _
  | publish hup hlt =>
    exact ⟨hok.indexed, hok.bound, hok.swept, fun a ha => by cases ha; exact hlt⟩
  | _ => exact ⟨hok.indexed, hok.bound, hok.swept, hok.published⟩

theorem follows_start (claimTtl : ℕ → ℕ) (seed : ℕ → UInt64) (i : ℕ) :
    Follows U [] ((ProxyFleet.start claimTtl seed).nodes i) where
  indexed := by intro n e h; simp at h
  bound := le_rfl
  swept := rfl
  published := by rintro a ⟨⟩

variable {moves : List ProxyFleetMove} {i : ℕ} {claimTtl : ℕ → ℕ} {seed : ℕ → UInt64}

theorem follows_run (k : ℕ) :
    Follows U (proxyAt U score (.start claimTtl seed) moves k).log ((proxyAt U score (.start claimTtl seed) moves k).nodes i) :=
  proxy_inv (P := fun log n => Follows U log n) (follows_start claimTtl seed i)
    (fun _ _ _ hindex h => follows_append h hindex) (fun log n move h => follows_step (proxyStep U score log n move) h) k

/-! ## Submissions have op ids of their own -/

/-- The requests that completions have submitted, and where they are. -/
structure SubmitsOk (f : ProxyFleet) : Prop where
  ids : ∀ q ∈ f.issued, ∀ q' ∈ f.issued, q.opId = q'.opId → q = q'
  log : ∀ e ∈ f.log, ∀ request, e.payload = .normal request → ∀ q ∈ f.issued, request.opId = q.opId → request = q
  calls : ∀ i, ∀ c ∈ (f.nodes i).settles, ∀ request, c.stage = .submitted request →
    request ∈ f.issued ∧ ∃ opId issuedAtSecs, request = c.req.request opId issuedAtSecs

theorem submitted_origin (h : ProxyStep U score log n move n') {c : SettleCall} (hc : c ∈ n'.settles)
    {request : ControlRequest} (hstage : c.stage = .submitted request) :
    c ∈ n.settles ∨ n.issues move = some request ∧ ∃ opId issuedAtSecs, request = c.req.request opId issuedAtSecs := by
  rcases settle_origin h hc with hold | hs | hs | ⟨_, hs⟩ | ⟨call, opId, issuedAtSecs, rfl, hcall, hs⟩ | ⟨_, hs, -⟩ | ⟨_, hs, -⟩
  · exact .inl hold
  all_goals rw [hstage] at hs
  · cases hs
  · cases hs
  · cases hs
  · cases hs
    exact .inr ⟨by simp only [ProxyNode.issues, hcall], opId, issuedAtSecs, rfl⟩
  · cases hs
  · cases hs

theorem submitsOk_step {f : ProxyFleet} (hok : SubmitsOk f) (move : ProxyFleetMove) : SubmitsOk (f.step U score move) := by
  cases move with
  | commit term leader payload =>
    simp only [ProxyFleet.step]
    split
    · split
      · rename_i hc
        refine ⟨hok.ids, fun e he request hp q hq hid => ?_, hok.calls⟩
        rcases List.mem_append.1 he with he | he
        · exact hok.log e he request hp q hq hid
        · -- the entry is a submission, or bears another id
          rw [List.mem_singleton] at he
          subst he
          simp only at hp
          subst hp
          simp only [ProxyFleet.committable, Bool.or_eq_true, decide_eq_true_eq, List.all_eq_true, bne_iff_ne, ne_eq] at hc
          rcases hc with hmem | hne
          · exact hok.ids request hmem q hq hid
          · exact absurd hid.symm (hne q hq)
      · exact hok
    · exact hok
  | node i move =>
    have hstep := proxyStep U score f.log (f.nodes i) move
    simp only [ProxyFleet.step]
    cases hissue : (f.nodes i).issues move with
    | none =>
      refine ⟨hok.ids, hok.log, fun j c hc request hstage => ?_⟩
      by_cases hj : j = i
      · subst hj
        simp only [Function.update_self] at hc
        rcases submitted_origin hstep hc hstage with hold | ⟨hsome, -⟩
        · exact hok.calls j c hold request hstage
        · rw [hissue] at hsome
          cases hsome
      · simp only [Function.update_of_ne hj] at hc
        exact hok.calls j c hc request hstage
    | some request' =>
      simp only
      split
      · exact hok
      · rename_i hused
        simp only [ProxyFleet.used, Bool.or_eq_true, List.any_eq_true, beq_iff_eq, not_or, not_exists, not_and] at hused
        refine ⟨fun q hq q' hq' hid => ?_, fun e he request hp q hq hid => ?_, fun j c hc request hstage => ?_⟩
        · rcases List.mem_cons.1 hq with rfl | hold <;> rcases List.mem_cons.1 hq' with rfl | hold'
          · rfl
          · exact absurd hid.symm (hused.1 q' hold')
          · exact absurd hid (hused.1 q hold)
          · exact hok.ids q hold q' hold' hid
        · rcases List.mem_cons.1 hq with rfl | hq
          · exact absurd (by rw [hp, EntryPayload.opId?, hid]) (hused.2 e he)
          · exact hok.log e he request hp q hq hid
        · by_cases hj : j = i
          · subst hj
            simp only [Function.update_self] at hc
            rcases submitted_origin hstep hc hstage with hold | ⟨hsome, hshape⟩
            · exact (hok.calls j c hold request hstage).imp_left (List.mem_cons_of_mem _)
            · rw [hissue] at hsome
              cases hsome
              exact ⟨List.mem_cons_self, hshape⟩
          · simp only [Function.update_of_ne hj] at hc
            exact (hok.calls j c hc request hstage).imp_left (List.mem_cons_of_mem _)

theorem submitsOk_run (k : ℕ) : SubmitsOk (proxyAt U score (.start claimTtl seed) moves k) := by
  refine Trace.stateAt_inv (P := SubmitsOk) ⟨?_, ?_, ?_⟩ (fun f move _ h => submitsOk_step h move) k
  · intro q hq; cases hq
  · intro e he; cases he
  · intro i c hc; cases hc

/-- **A completion that is told `Applied` has its marker in the log**, unless it merges. -/
theorem sees_marker {k : ℕ} {req : CompleteReq} {revision : ℕ} (hm : merging req.stub = false)
    (hsees : SeesApplied U (proxyAt U score (.start claimTtl seed) moves k).log
      ((proxyAt U score (.start claimTtl seed) moves k).nodes i) req revision move) :
    revision < (proxyAt U score (.start claimTtl seed) moves k).log.length ∧
      (markerAt U (proxyAt U score (.start claimTtl seed) moves k).log req.slot (revision + 1)).isSome := by
  have hsub : SubmitsOk (proxyAt U score (.start claimTtl seed) moves k) := submitsOk_run k
  have hfollows : Follows U (proxyAt U score (.start claimTtl seed) moves k).log
      ((proxyAt U score (.start claimTtl seed) moves k).nodes i) := follows_run k
  obtain ⟨call, position, request, e, -, hcall, he, hp, hreply⟩ := hsees.inv
  obtain ⟨hissued, opId, issuedAtSecs, hshape⟩ := hsub.calls i _ (List.mem_of_getElem? hcall) request rfl
  have hop : request.op = .proxyRecorded req.slot.1 req.slot.2 req.resp req.stub := by rw [hshape]; rfl
  refine applied_marker hfollows.indexed he hp (fun e' he' request' hp' hid => ?_) hop hm hreply
  exact hsub.log e' he' request' hp' request hissued hid

/-! ## The owner remembers a recording until it is applied -/

def SettleStage.appliedAt : SettleStage → Option ℕ
  | .answered revision | .freed revision => some revision
  | _ => none

/-- A move that keeps out of the windows of a slot: between a completion's answer and its
entry in the cache, no claim looks into the cache and none is past it; between a claim's
read of the row and its look into the cache, the metrics do not advance; and a completion
does not replace a newer one in the cache. -/
def ProxyNode.undisturbed (n : ProxyNode) (slot : ClaimSlot) : ProxyMove → Bool
  | .answer _ (.reply _) => n.claims.all fun c => c.req.slot != slot || c.stage != .uncached
  | .claimCache call => n.claims[call]?.all fun c =>
      c.req.slot != slot || n.settles.all fun s => s.req.slot != slot || s.stage.appliedAt.isNone
  | .publish _ => n.claims.all fun c => c.req.slot != slot || c.stage != .unrecorded
  | .cache call => n.settles[call]?.all fun s =>
      s.req.slot != slot || s.stage.appliedAt.all fun revision => n.completed[slot]?.all (·.revision ≤ revision)
  | _ => true

theorem settle_kept (h : ProxyStep U score log n move n') {c : SettleCall} (hc : c ∈ n.settles) {r : ℕ}
    (hr : c.stage.appliedAt = some r) :
    (∃ c' ∈ n'.settles, c'.req = c.req ∧ c'.stage.appliedAt = some r) ∨
      ∃ call, move = .cache call ∧ n.settles[call]? = some c ∧ n' = n.cache U call c.req r := by
  obtain ⟨j, hj⟩ := List.mem_iff_getElem?.1 hc
  -- a step on another call, or one that c does not take in its stage
  have hset : ∀ call stage c'', n.settles[call]? = some c'' → c''.stage.appliedAt = none →
      c ∈ n.settles.set call stage := by
    intro call stage c'' hcall hnone
    have hne : call ≠ j := by
      rintro rfl
      rw [hj] at hcall
      cases hcall
      rw [hnone] at hr
      cases hr
    exact List.mem_iff_getElem?.2 ⟨j, by rw [List.getElem?_set_ne hne, hj]⟩
  have herase : ∀ call c'', n.settles[call]? = some c'' → c''.stage.appliedAt = none → c ∈ n.settles.eraseIdx call := by
    intro call c'' hcall hnone
    refine List.mem_eraseIdx_iff_getElem?.2 ⟨j, ?_, hj⟩
    rintro rfl
    rw [hj] at hcall
    cases hcall
    rw [hnone] at hr
    cases hr
  cases h with
  | enterSettle => exact .inl ⟨c, List.mem_append_left _ hc, rfl, hr⟩
  | stale hcall => exact .inl ⟨c, herase _ _ hcall rfl, rfl, hr⟩
  | checked hcall _ _ => exact .inl ⟨c, hset _ _ _ hcall rfl, rfl, hr⟩
  | submitted hcall => exact .inl ⟨c, hset _ _ _ hcall rfl, rfl, hr⟩
  | failed hcall => exact .inl ⟨c, hset _ _ _ hcall rfl, rfl, hr⟩
  | answered hcall _ _ _ => exact .inl ⟨c, hset _ _ _ hcall rfl, rfl, hr⟩
  | freedFailed hcall => exact .inl ⟨c, herase _ _ hcall rfl, rfl, hr⟩
  | abandoned hcall => exact .inl ⟨c, herase _ _ hcall rfl, rfl, hr⟩
  | freed hcall =>
    rename_i call req revision
    by_cases hne : call = j
    · subst hne
      rw [hj] at hcall
      cases hcall
      refine .inl ⟨⟨req, .freed revision⟩, ?_, rfl, hr⟩
      exact List.mem_set (List.getElem?_eq_some_iff.1 hj).1 _
    · exact .inl ⟨c, List.mem_iff_getElem?.2 ⟨j, by rw [← hj]; exact List.getElem?_set_ne hne⟩, rfl, hr⟩
  | cached hcall =>
    rename_i call req revision
    by_cases hne : call = j
    · subst hne
      rw [hj] at hcall
      cases hcall
      cases hr
      exact .inr ⟨call, rfl, hj, rfl⟩
    · exact .inl ⟨c, List.mem_eraseIdx_iff_getElem?.2 ⟨j, Ne.symm hne, hj⟩, rfl, hr⟩
  | _ => exact .inl ⟨c, hc, rfl, hr⟩

/-- The node remembers that a slot was recorded at log index `r`, since the time `t`: it
has the answer still in hand, or in the cache, or has applied the entry; or the time the
cache keeps it is over. -/
structure Remembers (slot : ClaimSlot) (r t : ℕ) (n : ProxyNode) : Prop where
  since : t ≤ n.now
  kept : (∃ c ∈ n.settles, c.req.slot = slot ∧ c.stage.appliedAt = some r) ∨
    (∃ cached, n.completed[slot]? = some cached ∧ r ≤ cached.revision ∧ t ≤ cached.since) ∨
    (∃ a, n.lastApplied = some a ∧ r ≤ a) ∨ t + completeCacheTtl ≤ n.now

theorem remembers_step (h : ProxyStep U score log n move n') {slot : ClaimSlot} {r t : ℕ}
    (hcalm : n.undisturbed slot move = true) (hclear : move ≠ .clearCompleted slot.1) (hr : Remembers slot r t n) :
    Remembers slot r t n' := by
  have hnow := now_step h
  have hsince := hr.since
  refine ⟨by omega, ?_⟩
  rcases hr.kept with ⟨c, hc, rfl, hat⟩ | ⟨cached, hcached, hrev, hage⟩ | ⟨a, ha, hle⟩ | hlate
  · rcases settle_kept h hc hat with ⟨c', hc', hreq, hat'⟩ | ⟨call, -, -, rfl⟩
    · exact .inl ⟨c', hc', by rw [hreq], hat'⟩
    · exact .inr (.inl ⟨_, by rw [ProxyNode.cache, get_insert, if_pos rfl], le_rfl, hsince⟩)
  · rcases completed_step h slot with hk | ⟨-, hn, hl, cached', hcached', hwhy⟩ | ⟨call, req, revision, rfl, hcall, rfl, rfl⟩ |
      ⟨hcl, -⟩
    · exact .inr (.inl ⟨cached, by rw [hk, hcached], hrev, hage⟩)
    · rw [hcached] at hcached'
      cases hcached'
      rcases hwhy with hold | ⟨a, ha, hle⟩
      · have hpos : 0 < completeCacheTtl := by decide
        exact .inr (.inr (.inr (by omega)))
      · exact .inr (.inr (.inl ⟨a, by rw [hl, ha], hrev.trans hle⟩))
    · -- what comes in is not older than what was there
      simp only [ProxyNode.undisturbed, hcall, SettleStage.appliedAt, hcached] at hcalm
      have hle : cached.revision ≤ revision := by simpa using hcalm
      exact .inr (.inl ⟨_, by rw [ProxyNode.cache, get_insert, if_pos rfl], hrev.trans hle, hsince⟩)
    · exact absurd hcl hclear
  · rcases lastApplied_step h with hl | ⟨index, -, hl, hup⟩
    · exact .inr (.inr (.inl ⟨a, by rw [hl, ha], hle⟩))
    · exact .inr (.inr (.inl ⟨index, hl, hle.trans (hup a ha)⟩))
  · exact .inr (.inr (.inr (by omega)))

/-- Every claim that has read no row for the slot finds the metrics short of `r`. -/
def ReadBefore (slot : ClaimSlot) (r : ℕ) (n : ProxyNode) : Prop :=
  ∀ c ∈ n.claims, c.req.slot = slot → c.stage = .unrecorded → ∀ a, n.lastApplied = some a → a < r

/-- While the marker is there from `r` on, a claim reads no row only before `r` is applied. -/
theorem readBefore_step (h : ProxyStep U score log n move n') {slot : ClaimSlot} {r : ℕ}
    (hcalm : n.undisturbed slot move = true) (hfollows : Follows U log n)
    (hmarker : ∀ m, r < m → m ≤ log.length → (markerAt U log slot m).isSome) (hr : ReadBefore slot r n) :
    ReadBefore slot r n' := by
  intro c hc hslot hstage a ha
  rcases claim_origin h hc with hold | hg | ⟨-, hrow, hl⟩ | ⟨_, -, hu, -⟩
  · rcases lastApplied_step h with hl | ⟨index, rfl, -⟩
    · exact hr c hold hslot hstage a (hl ▸ ha)
    · have hnone := List.all_eq_true.1 hcalm c hold
      simp [hslot, hstage] at hnone
  · rw [hstage] at hg
    cases hg
  · -- the row that was read is the marker at the replica's position, which is not past `r`
    rw [hslot, hfollows.row] at hrow
    have hpos : n.replica.position ≤ r := by
      by_contra hlt
      have hsome := hmarker n.replica.position (by omega) hfollows.bound
      rw [hrow] at hsome
      cases hsome
    have hpub := hfollows.published a (hl ▸ ha)
    omega
  · rw [hstage] at hu
    cases hu

/-- The completion cache answers for what the node remembers, between its entry in the cache
and its apply. -/
theorem remembered_hit {slot : ClaimSlot} {r t : ℕ} (hr : Remembers slot r t n)
    (hfree : ∀ c ∈ n.settles, c.req.slot = slot → c.stage.appliedAt = none)
    (hbefore : ∀ a, n.lastApplied = some a → a < r) (hin : n.now < t + completeCacheTtl) :
    (n.completedLookup slot).1 ≠ none := by
  rcases hr.kept with ⟨c, hc, hslot, hat⟩ | ⟨cached, hcached, hrev, hage⟩ | ⟨a, ha, hle⟩ | hlate
  · rw [hfree c hc hslot] at hat
    cases hat
  · have hpos : 0 < completeCacheTtl := by decide
    have hyoung : ¬ completeCacheTtl ≤ n.now - cached.since := by omega
    have hahead : ¬ (n.lastApplied.any (cached.revision ≤ ·)) = true := by
      intro hany
      obtain ⟨a, ha, hle⟩ := (Option.any_eq_true _ _).1 hany
      have hlt := hbefore a ha
      have hle' : cached.revision ≤ a := by simpa using hle
      omega
    simp only [ProxyNode.completedLookup, hcached, if_neg hyoung, if_neg hahead]
    rintro ⟨⟩
  · have hlt := hbefore a ha
    omega
  · omega

/-- No claim of the slot is past its look into the cache. -/
def NonePast (slot : ClaimSlot) (n : ProxyNode) : Prop := ∀ c ∈ n.claims, c.req.slot = slot → c.stage ≠ .uncached

theorem nonePast_step (h : ProxyStep U score log n move n') {slot : ClaimSlot} {r t : ℕ}
    (hcalm : n.undisturbed slot move = true) (hr : Remembers slot r t n) (hread : ReadBefore slot r n)
    (hin : n.now < t + completeCacheTtl) (hnone : NonePast slot n) : NonePast slot n' := by
  intro c hc hslot hstage
  rcases claim_origin h hc with hold | hg | ⟨hu, -⟩ | ⟨call, rfl, -, hcall, hmiss⟩
  · exact hnone c hold hslot hstage
  · rw [hstage] at hg
    cases hg
  · rw [hstage] at hu
    cases hu
  · rw [hslot] at hmiss
    refine remembered_hit hr ?_ ?_ hin hmiss
    · intro s hs hsslot
      simp only [ProxyNode.undisturbed, hcall, Option.all_some, hslot, bne_self_eq_false, Bool.false_or] at hcalm
      have hs' := List.all_eq_true.1 hcalm s hs
      simpa [hsslot] using hs'
    · exact hread ⟨c.req, .unrecorded⟩ (List.mem_of_getElem? hcall) hslot rfl

/-- **No claim is granted for a recorded signature, as long as no move falls into the
windows of its slot.** Take any run without a clear of the port, all of whose moves at the
owner are `undisturbed`; let a completion of the slot, of a recording that does not merge, be told
that its submission was applied at log index `revision`. Until an entry after that index
purges the marker, and for as long as the cache keeps an entry, no claim of the slot is
answered `Claimed`. -/
theorem recorded_not_claimed (U : Upstream) (score : ℕ → OwnedKey → ℕ) (claimTtl : ℕ → ℕ) (seed : ℕ → UInt64)
    (moves : List ProxyFleetMove) (i : ℕ) (slot : ClaimSlot)
    (hclear : .node i (.clearCompleted slot.1) ∉ moves)
    (hcalm : ∀ k move, moves[k]? = some (.node i move) →
      ((proxyAt U score (.start claimTtl seed) moves k).nodes i).undisturbed slot move = true) :
    let fleet := fun k => proxyAt U score (.start claimTtl seed) moves k
    ∀ s k, s < k → k < moves.length → ∀ move req revision, moves[s]? = some (.node i move) →
      SeesApplied U (fleet s).log ((fleet s).nodes i) req revision move → req.slot = slot → merging req.stub = false →
      (∀ m, revision < m → m < (fleet k).log.length → (markerAt U (fleet k).log slot m).isSome →
        (markerAt U (fleet k).log slot (m + 1)).isSome) →
      ((fleet k).nodes i).now < ((fleet s).nodes i).now + completeCacheTtl →
      ∀ req' token, req'.slot = slot →
        ((fleet (k + 1)).nodes i).claimAnswers ≠ ((fleet k).nodes i).claimAnswers ++ [(req', .claimed token)] := by
  intro fleet s k hsk hk move req revision hmove hsees hslot hm hpurge httl req' token hslot' hans
  have hlog : ∀ {j j'}, j ≤ j' → j' ≤ moves.length → (fleet j).log <+: (fleet j').log := fun h h' => proxyAt_log_mono h h'
  have hseen : revision < (fleet s).log.length ∧ (markerAt U (fleet s).log req.slot (revision + 1)).isSome :=
    sees_marker hm hsees
  obtain ⟨hrev, hfirst⟩ := hseen
  rw [hslot] at hfirst
  -- in the log of moment `k`, the marker is there at every position after `revision`
  have hmarker : ∀ m, revision < m → m ≤ (fleet k).log.length → (markerAt U (fleet k).log slot m).isSome := by
    intro m h1 h2
    refine marker_stays ?_ h1 fun j hj1 hj2 => hpurge j hj1 (by omega)
    rw [markerAt_longer (hlog hsk.le hk.le) (by omega)]
    exact hfirst
  -- every step of the owner up to `k` is undisturbed, and is no clear
  have hstep : ∀ j, j < k → ∃ m, ProxyStep U score (fleet j).log ((fleet j).nodes i) m ((fleet (j + 1)).nodes i) ∧
      ((fleet j).nodes i).undisturbed slot m = true ∧ m ≠ .clearCompleted slot.1 := by
    intro j hj
    obtain ⟨m, hstep, hown | hsame⟩ := proxyAt_step U score (.start claimTtl seed)
      (show j < moves.length by omega) i
    · have hget : moves[j]? = some (.node i m) := by rw [List.getElem?_eq_getElem (by omega), hown]
      refine ⟨m, hstep, hcalm j m hget, ?_⟩
      rintro rfl
      exact hclear (List.mem_of_getElem? hget)
    · exact ⟨.tick 0, by rw [show (fleet (j + 1)).nodes i = (fleet j).nodes i from hsame]; exact .idle, rfl, by rintro ⟨⟩⟩
  have hread : ∀ j, j ≤ k → ReadBefore slot revision ((fleet j).nodes i) := by
    intro j
    induction j with
    | zero => intro _ c hc; cases hc
    | succ j ih =>
      intro hj
      obtain ⟨m, hst, hcalm', -⟩ := hstep j (by omega)
      refine readBefore_step hst hcalm' (follows_run j) (fun p h1 h2 => ?_) (ih (by omega))
      rw [← markerAt_longer (hlog (show j ≤ k by omega) hk.le) h2]
      exact hmarker p h1 (h2.trans (hlog (show j ≤ k by omega) hk.le).length_le)
  have htime : ∀ {j j'}, j ≤ j' → j' ≤ k → ((fleet j).nodes i).now ≤ ((fleet j').nodes i).now := by
    intro j j' hjj'
    induction j', hjj' using Nat.le_induction with
    | base => intro _; exact le_rfl
    | succ j' hjj' ih =>
      intro hj'
      obtain ⟨m, hst, -⟩ := hstep j' (by omega)
      exact (ih (by omega)).trans (now_step hst)
  -- from the answer on, the owner remembers, and no claim gets past the cache
  have hkeep : ∀ j, s + 1 ≤ j → j ≤ k →
      Remembers slot revision ((fleet s).nodes i).now ((fleet j).nodes i) ∧ NonePast slot ((fleet j).nodes i) := by
    intro j hj
    induction j, hj using Nat.le_induction with
    | base =>
      intro _
      have hcalm' := hcalm s move hmove
      obtain ⟨call, position, request, rfl, hcall, hnode⟩ := hsees.step score
      rw [show (fleet (s + 1)).nodes i = ((fleet s).nodes i).moveSettle call req (.answered revision) from
        (proxyAt_own _ _ _ hmove fun _ => rfl).trans hnode]
      refine ⟨⟨le_rfl, .inl ⟨⟨req, .answered revision⟩, ?_, hslot, rfl⟩⟩, fun c hc hcslot => ?_⟩
      · exact List.mem_set (List.getElem?_eq_some_iff.1 hcall).1 _
      · have hc' := List.all_eq_true.1 hcalm' c hc
        simpa [hcslot] using hc'
    | succ j hj ih =>
      intro hjk
      obtain ⟨hrem, hnone⟩ := ih (by omega)
      obtain ⟨m, hst, hcalm', hclear'⟩ := hstep j (by omega)
      have hin := htime (show j ≤ k by omega) le_rfl
      exact ⟨remembers_step hst hcalm' hclear' hrem, nonePast_step hst hcalm' hrem (hread j (by omega)) (by omega) hnone⟩
  obtain ⟨m, hst, -⟩ := proxyAt_step U score (.start claimTtl seed) hk i
  exact (hkeep k hsk le_rfl).2 ⟨req', .uncached⟩ (claimed_stage hst hans) hslot' rfl

/-- A completion whose recording is applied and cached before the next claim comes. -/
def recordedThenClaimed : List ProxyFleetMove :=
  [owns 0 1, .commit 1 0 (.normal firstPut), .node 0 (.apply false), .node 0 (.publish 0)] ++ claimsAt 0 1 ++
    submitsAt 0 1 7 "op-2" [] ++
    [.commit 1 0 (.normal (CompleteReq.request ⟨4545, "ab12", 7, 1, recordingOf [], none⟩ "op-2" 0)),
      .node 0 (.answer 0 (.reply 1)), .node 0 (.free 0), .node 0 (.cache 0), .node 0 (.claim ⟨4545, "ab12", 1⟩),
      .node 0 (.claimRow 0 none), .node 0 (.claimCache 0)]

/-- The next claim is not granted. -/
theorem recordedThenClaimed_refuses :
    SeesApplied jsonUpstream (recordingRun recordedThenClaimed 12).log ((recordingRun recordedThenClaimed 12).nodes 0)
        ⟨4545, "ab12", 7, 1, recordingOf [], none⟩ 1 (.answer 0 (.reply 1)) ∧
      ((recordingRun recordedThenClaimed 18).nodes 0).claimAnswers ≠
        ((recordingRun recordedThenClaimed 17).nodes 0).claimAnswers ++ [(⟨4545, "ab12", 1⟩, .claimed 8)] := by
  have hsees : SeesApplied jsonUpstream (recordingRun recordedThenClaimed 12).log
      ((recordingRun recordedThenClaimed 12).nodes 0) ⟨4545, "ab12", 7, 1, recordingOf [], none⟩ 1 (.answer 0 (.reply 1)) :=
    ⟨_, _, by decide +kernel, rfl, rfl, by decide +kernel⟩
  have hcalm : ∀ k < 18, (recordedThenClaimed[k]?.all fun
      | .node 0 m => ((recordingRun recordedThenClaimed k).nodes 0).undisturbed (4545, "ab12") m
      | _ => true) = true := by
    decide +kernel
  have hlen : (recordingRun recordedThenClaimed 17).log.length = 2 := by decide +kernel
  refine ⟨hsees, ?_⟩
  refine recorded_not_claimed jsonUpstream (fun _ _ => 0) (fun _ => 60 * 10 ^ 9) (fun _ => 7) recordedThenClaimed 0
    (4545, "ab12") (by decide) (fun k move hmove => ?_) 12 17 (by decide) (by decide) _ _ 1 rfl hsees rfl rfl (fun m h1 h2 => ?_)
    (by decide +kernel) ⟨4545, "ab12", 1⟩ 8 rfl
  · have hk : k < 18 := (List.getElem?_eq_some_iff.1 hmove).1
    have h := hcalm k hk
    rw [hmove] at h
    exact h
  · change m < (recordingRun recordedThenClaimed 17).log.length at h2
    omega

/-- A claim reads no row; the recording is committed, answered and cached; it is applied; and
then the claim looks into the cache. -/
def applyBetweenReads : List ProxyFleetMove :=
  [owns 0 1, .commit 1 0 (.normal firstPut), .node 0 (.apply false), .node 0 (.publish 0)] ++ claimsAt 0 1 ++
    submitsAt 0 1 7 "op-2" [] ++
    [.node 0 (.claim ⟨4545, "ab12", 1⟩), .node 0 (.claimRow 0 none),
      .commit 1 0 (.normal (CompleteReq.request ⟨4545, "ab12", 7, 1, recordingOf [], none⟩ "op-2" 0)),
      .node 0 (.answer 0 (.reply 1)), .node 0 (.free 0), .node 0 (.cache 0), .node 0 (.apply false), .node 0 (.publish 1),
      .node 0 (.claimCache 0), .node 0 (.claimGrant 0)]

/-- **A recorded signature is claimed again.** No time has passed since the completion was told
`Applied`, and the marker is in the log and applied. -/
theorem applyBetweenReads_claims_again :
    SeesApplied jsonUpstream (recordingRun applyBetweenReads 14).log ((recordingRun applyBetweenReads 14).nodes 0)
        ⟨4545, "ab12", 7, 1, recordingOf [], none⟩ 1 (.answer 0 (.reply 1)) ∧
      applyBetweenReads[14]? = some (.node 0 (.answer 0 (.reply 1))) ∧
      (recordingRun applyBetweenReads 20).log.length = 2 ∧
      markerAt jsonUpstream (recordingRun applyBetweenReads 20).log (4545, "ab12") 2 =
        some (jsonUpstream.recorded.write (recordingOf [])) ∧
      ((recordingRun applyBetweenReads 20).nodes 0).now = ((recordingRun applyBetweenReads 14).nodes 0).now ∧
      ((recordingRun applyBetweenReads 21).nodes 0).claimAnswers =
        ((recordingRun applyBetweenReads 20).nodes 0).claimAnswers ++ [(⟨4545, "ab12", 1⟩, .claimed 8)] := by
  refine ⟨⟨_, _, by decide +kernel, rfl, rfl, by decide +kernel⟩, rfl, by decide +kernel, by decide +kernel,
    by decide +kernel, by decide +kernel⟩

/-! ## What a lookup returns -/

/-- What the node has in hand, or in the cache, is of an entry that wrote the marker. -/
structure CacheOk (U : Upstream) (log : List Entry) (n : ProxyNode) : Prop where
  settled : ∀ c ∈ n.settles, ∀ r, c.stage.appliedAt = some r → WroteMarker U log c.req.slot r c.req.resp
  cached : ∀ slot cached, n.completed[slot]? = some cached →
    ∃ resp, cached.respJson = U.recorded.write resp ∧ WroteMarker U log slot cached.revision resp

theorem cacheOk_append (h : CacheOk U log n) (e : Entry) : CacheOk U (log ++ [e]) n where
  settled c hc r hr := (h.settled c hc r hr).append (List.prefix_append _ _)
  cached slot cached hcached := by
    obtain ⟨resp, hresp, hw⟩ := h.cached slot cached hcached
    exact ⟨resp, hresp, hw.append (List.prefix_append _ _)⟩

theorem cacheOk_step (h : ProxyStep U score log n move n')
    (hfirst : ∀ req revision, SeesApplied U log n req revision move → WroteMarker U log req.slot revision req.resp)
    (hok : CacheOk U log n) : CacheOk U log n' where
  settled c hc r hr := by
    rcases settle_origin h hc with hold | hs | hs | ⟨_, hs⟩ | ⟨_, _, _, -, -, hs⟩ | ⟨revision, hs, hsees⟩ | ⟨revision, hs, hold⟩
    · exact hok.settled c hold r hr
    all_goals rw [hs] at hr
    · cases hr
    · cases hr
    · cases hr
    · cases hr
    · cases hr
      exact hfirst c.req r hsees
    · cases hr
      exact hok.settled ⟨c.req, .answered r⟩ hold r rfl
  cached slot cached hcached := by
    rcases completed_step h slot with hk | ⟨hnone, -⟩ | ⟨call, req, revision, -, hcall, rfl, rfl⟩ | ⟨-, hnone⟩
    · exact hok.cached slot cached (hk ▸ hcached)
    · rw [hnone] at hcached
      cases hcached
    · rw [ProxyNode.cache, get_insert, if_pos rfl] at hcached
      cases hcached
      exact ⟨req.resp, rfl, hok.settled ⟨req, .freed revision⟩ (List.mem_of_getElem? hcall) revision rfl⟩
    · rw [hnone] at hcached
      cases hcached

theorem lookup_source (h : ProxyStep U score log n move n') {req : LookupReq} {resp : RecordedResponse}
    (hans : n'.lookupAnswers = n.lookupAnswers ++ [(req, some resp)]) :
    (∃ row, n.proxyRecorded req.slot = some row ∧ U.recorded.read row = .ok resp) ∨
      ∃ cached, n.completed[req.slot]? = some cached ∧ U.recorded.read cached.respJson = .ok resp ∧
        ∀ a, n.lastApplied = some a → a < cached.revision := by
  have hne : n.lookupAnswers ≠ n.lookupAnswers ++ [(req, some resp)] := by simp
  have hread : ∀ row : Option String, row.bind (fun json => (U.recorded.read json).toOption) = some resp →
      ∃ json, row = some json ∧ U.recorded.read json = .ok resp := by
    intro row hrow
    obtain ⟨json, hjson, hdec⟩ := Option.bind_eq_some_iff.1 hrow
    refine ⟨json, hjson, ?_⟩
    cases hr : U.recorded.read json with
    | ok resp' => rw [hr] at hdec; cases hdec; rfl
    | error e => rw [hr] at hdec; cases hdec
  cases h with
  | lookupUnready => simp at hans
  | lookupRow hcall hrow =>
    simp only [ProxyNode.answerLookup, List.append_cancel_left_eq, List.singleton_inj, Prod.mk.injEq] at hans
    obtain ⟨rfl, hans⟩ := hans
    obtain ⟨json, hjson, hdec⟩ := hread _ hans
    cases hjson
    exact .inl ⟨_, hrow, hdec⟩
  | lookupCache hcall =>
    simp only [ProxyNode.answerLookup, List.append_cancel_left_eq, List.singleton_inj, Prod.mk.injEq] at hans
    obtain ⟨rfl, hans⟩ := hans
    obtain ⟨json, hjson, hdec⟩ := hread _ hans
    -- only an entry that is neither too old nor applied is a hit
    unfold ProxyNode.completedLookup at hjson
    split at hjson
    · cases hjson
    · rename_i cached hcached
      split at hjson
      · cases hjson
      · split at hjson
        · cases hjson
        · rename_i happlied
          cases hjson
          refine .inr ⟨cached, hcached, hdec, fun a ha => ?_⟩
          rw [ha] at happlied
          simpa using happlied
  | _ => exact absurd hans hne

theorem cacheOk_run (hfirst : ∀ k move req revision, moves[k]? = some (.node i move) →
      SeesApplied U (proxyAt U score (.start claimTtl seed) moves k).log
        ((proxyAt U score (.start claimTtl seed) moves k).nodes i) req revision move →
      WroteMarker U (proxyAt U score (.start claimTtl seed) moves k).log req.slot revision req.resp)
    {k : ℕ} (hk : k ≤ moves.length) :
    CacheOk U (proxyAt U score (.start claimTtl seed) moves k).log
      ((proxyAt U score (.start claimTtl seed) moves k).nodes i) := by
  induction k with
  | zero =>
    refine ⟨?_, fun slot cached h => ?_⟩
    · intro c hc
      cases hc
    · have hempty : ((proxyAt U score (.start claimTtl seed) moves 0).nodes i).completed[slot]? = none := get_empty slot
      rw [hempty] at h
      cases h
  | succ k ih =>
    have hok := ih (by omega)
    have hnode : CacheOk U (proxyAt U score (.start claimTtl seed) moves k).log
        ((proxyAt U score (.start claimTtl seed) moves (k + 1)).nodes i) := by
      obtain ⟨m, hst, hown | hsame⟩ := proxyAt_step U score (.start claimTtl seed)
        (show k < moves.length by omega) i
      · refine cacheOk_step hst (fun req revision hsees => hfirst k m req revision ?_ hsees) hok
        rw [List.getElem?_eq_getElem (by omega), hown]
      · rw [hsame]
        exact hok
    rcases fleet_log U score (proxyAt U score (.start claimTtl seed) moves k) moves[k] with h | ⟨e, h, -⟩
    · rw [← proxyAt_succ] at h
      rw [h]
      exact hnode
    · rw [← proxyAt_succ] at h
      rw [h]
      exact cacheOk_append hnode e

/-- What one owner records, it finds again before it has applied it. -/
def recordedThenLookedUp : List ProxyFleetMove :=
  [owns 0 1, .commit 1 0 (.normal firstPut), .node 0 (.apply false), .node 0 (.publish 0)] ++ claimsAt 0 1 ++
    submitsAt 0 1 7 "op-2" [1] ++
    [.commit 1 0 (.normal (CompleteReq.request ⟨4545, "ab12", 7, 1, recordingOf [1], none⟩ "op-2" 0)),
      .node 0 (.answer 0 (.reply 1)), .node 0 (.free 0), .node 0 (.cache 0), .node 0 (.lookup ⟨4545, "ab12"⟩),
      .node 0 (.lookupRow 0 none), .node 0 (.lookupCache 0)]

/-- A signature recorded by one owner, and again by the next, which has not applied the first
recording when it claims, completes and is asked. -/
def secondOwner : List ProxyFleetMove :=
  [owns 0 1, .commit 1 0 (.normal firstPut), .node 0 (.apply false), .node 1 (.apply false), .node 0 (.publish 0),
    .node 1 (.publish 0)] ++ claimsAt 0 1 ++ submitsAt 0 1 7 "op-2" [1] ++
    [.commit 1 0 (.normal (CompleteReq.request ⟨4545, "ab12", 7, 1, recordingOf [1], none⟩ "op-2" 0)),
      .node 0 (.answer 0 (.reply 1)), .node 0 (.free 0), .node 0 (.cache 0), owns 1 2] ++ claimsAt 1 2 ++
    submitsAt 1 2 7 "op-3" [2] ++
    [.commit 1 0 (.normal (CompleteReq.request ⟨4545, "ab12", 7, 2, recordingOf [2], none⟩ "op-3" 0)),
      .node 1 (.answer 0 (.reply 2)), .node 1 (.free 0), .node 1 (.cache 0), .node 1 (.lookup ⟨4545, "ab12"⟩),
      .node 1 (.lookupRow 0 none), .node 1 (.lookupCache 0)]

end RiftCluster
