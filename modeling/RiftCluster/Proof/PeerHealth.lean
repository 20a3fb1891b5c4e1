import RiftCluster.Model.PeerHealth

/-!
# Half-open trials do not overlap

* `EntryStep`, `step_entry`: everything one call can do to a peer's entry.
* `trial_settled_before_next`, `trials_spaced`: between two trials of one stretch the first was
  settled by its own outcome, and the pacing window has passed.
* `refused_after_threshold`: a peer is refused after `threshold` failures at the earliest.
* `late_settle_keeps`: an outcome of a trial from before the entry was taken out leaves the
  trial of the new entry alone.
-/

namespace RiftCluster

open KV TrackedPeerHealth

variable {c : HealthParams} {h : TrackedPeerHealth} {e : HealthEvent} {es : List HealthEvent} {p : String}

/-- What a call makes of the peer's entry. -/
inductive EntryStep (c : HealthParams) (h : TrackedPeerHealth) (e : HealthEvent) (p : String) :
    Option PeerState → Prop
  | same : EntryStep c h e p h.state[p]?
  | removed (hr : e.removes h p = true) : EntryStep c h e p none
  | granted (entry : PeerState) (hcall : e.call = .admitCall p) (hold : h.state[p]? = some entry)
      (hmark : entry.unhealthyUntil.isSome = true) (hfree : entry.trial = none) (hdue : entry.due c e.now = true) :
      EntryStep c h e p (some { entry with windowFrom := some e.now, trial := some h.nextTrial })
  | failed (admission : Admission) (hcall : e.call = .recordFailure p admission) :
      EntryStep c h e p (some ((h.state[p]?.getD {}).failed c e.now admission))
  | released (entry : PeerState) (id : ℕ) (hcall : e.call = .release p (.trial id)) (hold : h.state[p]? = some entry)
      (hopen : entry.trial = some id) : EntryStep c h e p (some { entry with trial := none })

theorem admitCall_cases (c : HealthParams) (h : TrackedPeerHealth) (now : ℕ) (q : String) :
    (h.admitCall c now q = (h, .healthy) ∧ h.expired now q = false) ∨
    (h.admitCall c now q = ({ h with state := h.state.erase q }, .healthy) ∧ h.expired now q = true) ∨
    (h.admitCall c now q = (h, .refused) ∧ h.expired now q = false ∧
      ∃ entry, h.state[q]? = some entry ∧ entry.unhealthyUntil.isSome = true) ∨
    (h.expired now q = false ∧ ∃ entry, h.state[q]? = some entry ∧ entry.unhealthyUntil.isSome = true ∧
      entry.trial = none ∧ entry.due c now = true ∧
      h.admitCall c now q =
        ({ state := h.state.insert q { entry with windowFrom := some now, trial := some h.nextTrial }
           nextTrial := h.nextTrial + 1 }, .trial h.nextTrial)) := by
  unfold admitCall expired
  cases hentry : h.state[q]? with
  | none => exact Or.inl ⟨rfl, rfl⟩
  | some entry =>
    cases hmark : entry.unhealthyUntil with
    | none => exact Or.inl ⟨by simp [hmark], by simp [hmark]⟩
    | some limit =>
      by_cases hlimit : limit ≤ now
      · exact Or.inr (Or.inl ⟨by simp [hmark, hlimit], by simp [hmark, hlimit]⟩)
      · refine Or.inr (Or.inr ?_)
        cases htrial : entry.trial with
        | some id =>
          exact Or.inl ⟨by simp [hmark, hlimit, htrial], by simp [hmark, hlimit], entry, rfl, by simp [hmark]⟩
        | none =>
          cases hdue : entry.due c now with
          | false =>
            exact Or.inl ⟨by simp [hmark, hlimit, htrial, hdue], by simp [hmark, hlimit], entry, rfl, by simp [hmark]⟩
          | true =>
            exact Or.inr ⟨by simp [hmark, hlimit], entry, rfl, by simp [hmark], htrial, hdue,
              by simp [hmark, hlimit, htrial, hdue]⟩

/-- **What one call can do to a peer's entry.** -/
theorem step_entry (c : HealthParams) (h : TrackedPeerHealth) (e : HealthEvent) (p : String) :
    EntryStep c h e p (h.step c e).state[p]? := by
  unfold TrackedPeerHealth.step
  cases hcall : e.call with
  | admitCall q =>
    by_cases hq : q = p
    · subst hq
      rcases admitCall_cases c h e.now q with ⟨heq, -⟩ | ⟨heq, hexp⟩ | ⟨heq, -⟩ | ⟨-, entry, hold, hmark, hfree, hdue, heq⟩
      · simpa only [heq] using EntryStep.same
      · simp only [heq, get_erase, if_true]
        exact .removed (by simp [HealthEvent.removes, hcall, hexp])
      · simpa only [heq] using EntryStep.same
      · simp only [heq, get_insert, if_true]
        exact .granted entry hcall hold hmark hfree hdue
    · have hsame : (h.admitCall c e.now q).1.state[p]? = h.state[p]? := by
        rcases admitCall_cases c h e.now q with ⟨heq, -⟩ | ⟨heq, -⟩ | ⟨heq, -⟩ | ⟨-, entry, -, -, -, -, heq⟩ <;>
          simp [heq, get_erase, get_insert, hq]
      simpa only [hsame] using EntryStep.same
  | recordSuccess q admission =>
    by_cases hq : q = p
    · simp only [recordSuccess, get_erase, if_pos hq]
      exact .removed (by simp [HealthEvent.removes, hcall, hq])
    · simpa only [recordSuccess, get_erase, if_neg hq] using EntryStep.same
  | recordFailure q admission =>
    by_cases hq : q = p
    · subst hq
      simp only [recordFailure, get_insert, if_true]
      exact .failed admission hcall
    · simpa only [recordFailure, get_insert, if_neg hq] using EntryStep.same
  | release q admission =>
    cases admission with
    | healthy => exact .same
    | refused => exact .same
    | trial id =>
      simp only [release]
      cases hold : h.state[q]? with
      | none => exact .same
      | some entry =>
        by_cases hopen : entry.trial = some id
        · by_cases hq : q = p
          · subst hq
            simp only [if_pos hopen, get_insert, if_true]
            exact .released entry id hcall hold hopen
          · simpa only [if_pos hopen, get_insert, if_neg hq] using EntryStep.same
        · simpa only [if_neg hopen] using EntryStep.same

theorem step_nextTrial (c : HealthParams) (h : TrackedPeerHealth) (e : HealthEvent) :
    h.nextTrial ≤ (h.step c e).nextTrial := by
  unfold TrackedPeerHealth.step
  cases e.call with
  | admitCall q =>
    rcases admitCall_cases c h e.now q with ⟨heq, -⟩ | ⟨heq, -⟩ | ⟨heq, -⟩ | ⟨-, entry, -, -, -, -, heq⟩ <;> simp [heq]
  | recordSuccess q admission => exact le_rfl
  | recordFailure q admission => exact le_rfl
  | release q admission =>
    cases admission with
    | healthy => exact le_rfl
    | refused => exact le_rfl
    | trial id =>
      simp only [release]
      split
      · exact le_rfl
      · split <;> exact le_rfl

theorem trial_failed (c : HealthParams) (now : ℕ) (entry : PeerState) (admission : Admission) :
    (entry.failed c now admission).trial = entry.trial ∨
      (∃ id, admission = .trial id ∧ entry.trial = some id) ∧ (entry.failed c now admission).trial = none := by
  have hcall : (entry.callFailed c now).trial = entry.trial := by
    unfold PeerState.callFailed
    simp only
    split <;> rfl
  cases admission with
  | healthy => exact Or.inl hcall
  | refused => exact Or.inl rfl
  | trial id =>
    unfold PeerState.failed
    simp only
    split
    · exact Or.inr ⟨⟨id, rfl, by assumption⟩, rfl⟩
    · exact Or.inl hcall

/-! ## The run -/

theorem healthAt_succ {k : ℕ} (hk : k < es.length) :
    healthAt c es (k + 1) = (healthAt c es k).step c es[k] := Trace.stateAt_succ hk

theorem healthAt_stretch {P : TrackedPeerHealth → Prop} {m n : ℕ} (hmn : m ≤ n) (hn : n ≤ es.length)
    (h0 : P (healthAt c es m))
    (hs : ∀ k, k < es.length → m ≤ k → k < n → P (healthAt c es k) → P (healthAt c es (k + 1))) :
    P (healthAt c es n) := by
  refine Trace.stateAt_stretch hmn hn h0 ?_
  intro k hk hmk hkn hp
  have := hs k hk hmk hkn hp
  rwa [healthAt_succ hk] at this

theorem entryAt_succ {k : ℕ} (hk : k < es.length) (p : String) :
    EntryStep c (healthAt c es k) es[k] p (healthAt c es (k + 1)).state[p]? := by
  rw [healthAt_succ hk]
  exact step_entry c _ _ p

theorem removedAt_eq {k : ℕ} (hk : k < es.length) :
    removedAt c es k p = es[k].removes (healthAt c es k) p := by
  simp [removedAt, List.getElem?_eq_getElem hk]

theorem removed_none {k : ℕ} (hk : k < es.length) (hr : removedAt c es k p = true) :
    (healthAt c es (k + 1)).state[p]? = none := by
  rw [removedAt_eq hk] at hr
  rw [healthAt_succ hk]
  unfold HealthEvent.removes at hr
  unfold TrackedPeerHealth.step
  cases hcall : es[k].call with
  | admitCall q =>
    simp only [hcall, Bool.and_eq_true, decide_eq_true_eq] at hr
    obtain ⟨rfl, hexp⟩ := hr
    rcases admitCall_cases c (healthAt c es k) es[k].now q with ⟨-, hnot⟩ | ⟨heq, -⟩ | ⟨-, hnot, -⟩ | ⟨hnot, -⟩
    · rw [hnot] at hexp; cases hexp
    · simp [heq]
    · rw [hnot] at hexp; cases hexp
    · rw [hnot] at hexp; cases hexp
  | recordSuccess q admission =>
    have hq : q = p := by simpa [hcall] using hr
    simp [recordSuccess, hq]
  | recordFailure q admission => simp [hcall] at hr
  | release q admission => simp [hcall] at hr

theorem granted_at {k a : ℕ} (ha : answerAt c es k p = some (.trial a)) :
    ∃ hk : k < es.length, ∃ entry, (healthAt c es k).state[p]? = some entry ∧ entry.trial = none ∧
      entry.due c es[k].now = true ∧ a = (healthAt c es k).nextTrial ∧
      (healthAt c es (k + 1)).state[p]? = some { entry with windowFrom := some es[k].now, trial := some a } ∧
      (healthAt c es (k + 1)).nextTrial = a + 1 := by
  unfold answerAt at ha
  obtain ⟨e, he, ha⟩ := Option.bind_eq_some_iff.1 ha
  obtain ⟨hk, rfl⟩ := List.getElem?_eq_some_iff.1 he
  split at ha
  · rename_i hcall
    rw [Option.some.injEq] at ha
    rcases admitCall_cases c (healthAt c es k) es[k].now p with
      ⟨heq, -⟩ | ⟨heq, -⟩ | ⟨heq, -⟩ | ⟨-, entry, hold, hmark, hfree, hdue, heq⟩
    · rw [heq] at ha; cases ha
    · rw [heq] at ha; cases ha
    · rw [heq] at ha; cases ha
    · rw [heq] at ha
      cases ha
      have hnext : healthAt c es (k + 1) = ((healthAt c es k).admitCall c es[k].now p).1 := by
        rw [healthAt_succ hk, TrackedPeerHealth.step, hcall]
      exact ⟨hk, entry, hold, hfree, hdue, rfl, by simp [hnext, heq], by rw [hnext, heq]⟩
  · cases ha

/-! ## Two trials of one stretch -/

theorem trial_closed {k a : ℕ} (hk : k < es.length) (hkept : removedAt c es k p = false)
    (hopen : (healthAt c es k).trialOf p = some a) (hclosed : (healthAt c es (k + 1)).trialOf p ≠ some a) :
    settledAt es k p a = true := by
  obtain ⟨entry, hentry, htrial⟩ := Option.bind_eq_some_iff.1 hopen
  rw [removedAt_eq hk] at hkept
  have hstep := entryAt_succ (c := c) hk p
  unfold trialOf at hclosed
  generalize (healthAt c es (k + 1)).state[p]? = after at hstep hclosed
  cases hstep with
  | same => exact absurd hopen hclosed
  | removed hr => rw [hr] at hkept; cases hkept
  | granted entry' hcall hold hmark hfree hdue =>
    rw [hentry] at hold
    cases hold
    rw [htrial] at hfree
    cases hfree
  | failed admission hcall =>
    rw [hentry] at hclosed
    rcases trial_failed c es[k].now entry admission with hsame | ⟨⟨id, rfl, hid⟩, -⟩
    · exact absurd (by simpa [hsame] using htrial) hclosed
    · rw [htrial] at hid
      cases hid
      simp [settledAt, List.getElem?_eq_getElem hk, hcall]
  | released entry' id hcall hold hopen' =>
    rw [hentry] at hold
    cases hold
    rw [htrial] at hopen'
    cases hopen'
    simp [settledAt, List.getElem?_eq_getElem hk, hcall]

/-- The peer's entry is taken out by none of the calls from the `m`-th up to the `n`-th. -/
def Stretch (c : HealthParams) (es : List HealthEvent) (p : String) (m n : ℕ) : Prop :=
  ∀ k, m ≤ k → k < n → removedAt c es k p = false

theorem trial_settled_before_next {i j a b : ℕ} (hij : i < j) (hs : Stretch c es p i j)
    (ha : answerAt c es i p = some (.trial a)) (hb : answerAt c es j p = some (.trial b)) :
    ∃ k, i < k ∧ k < j ∧ settledAt es k p a = true := by
  obtain ⟨hi, entry, -, -, -, -, hafter, -⟩ := granted_at ha
  obtain ⟨hj, entry', hbefore, hfree, -⟩ := granted_at hb
  -- the first trial is open right after its grant and not open at the second
  let out : TrackedPeerHealth → Bool := fun h => h.trialOf p == some a
  have hout : out (healthAt c es (i + 1)) = true := by simp [out, trialOf, hafter]
  have hback : out (healthAt c es j) = false := by simp [out, trialOf, hbefore, hfree]
  obtain ⟨k, hik, hkj, hopen, hclosed⟩ := Trace.exists_fall hij hout hback
  have hopen' : (healthAt c es k).trialOf p = some a := beq_iff_eq.1 hopen
  have hclosed' : (healthAt c es (k + 1)).trialOf p ≠ some a := ne_of_beq_false hclosed
  exact ⟨k, hik, hkj, trial_closed (by omega) (hs k (by omega) hkj) hopen' hclosed'⟩

/-- The pacing window of the peer's entry opened at `t` or later. -/
def WindowSince (t : ℕ) (p : String) (h : TrackedPeerHealth) : Prop :=
  ∃ entry w, h.state[p]? = some entry ∧ entry.windowFrom = some w ∧ t ≤ w

theorem window_failed {t now : ℕ} (ht : t ≤ now) {entry : PeerState} {w : ℕ} (hw : entry.windowFrom = some w)
    (htw : t ≤ w) (admission : Admission) :
    ∃ w', (entry.failed c now admission).windowFrom = some w' ∧ t ≤ w' := by
  have hcall : ∃ w', (entry.callFailed c now).windowFrom = some w' ∧ t ≤ w' := by
    unfold PeerState.callFailed
    simp only
    split
    · exact ⟨now, rfl, ht⟩
    · exact ⟨w, hw, htw⟩
  cases admission with
  | healthy => exact hcall
  | refused => exact ⟨w, hw, htw⟩
  | trial id =>
    unfold PeerState.failed
    simp only
    split
    · exact ⟨now, rfl, ht⟩
    · exact hcall

theorem windowSince_step {t k : ℕ} (hk : k < es.length) (ht : t ≤ es[k].now)
    (hkept : removedAt c es k p = false) (hw : WindowSince t p (healthAt c es k)) :
    WindowSince t p (healthAt c es (k + 1)) := by
  obtain ⟨entry, w, hentry, hwindow, htw⟩ := hw
  rw [removedAt_eq hk] at hkept
  have hstep := entryAt_succ (c := c) hk p
  unfold WindowSince
  generalize (healthAt c es (k + 1)).state[p]? = after at hstep ⊢
  cases hstep with
  | same => exact ⟨entry, w, hentry, hwindow, htw⟩
  | removed hr => rw [hr] at hkept; cases hkept
  | granted entry' hcall hold hmark hfree hdue => exact ⟨_, _, rfl, rfl, ht⟩
  | failed admission hcall =>
    rw [hentry]
    obtain ⟨w', hw', htw'⟩ := window_failed (c := c) ht hwindow htw admission
    exact ⟨_, w', rfl, hw', htw'⟩
  | released entry' id hcall hold hopen =>
    rw [hentry] at hold
    cases hold
    exact ⟨_, w, rfl, hwindow, htw⟩

theorem trials_spaced {i j a b : ℕ} (hclock : es.Pairwise (·.now ≤ ·.now)) (hij : i < j)
    (hs : Stretch c es p i j) (ha : answerAt c es i p = some (.trial a))
    (hb : answerAt c es j p = some (.trial b)) (hi : i < es.length) (hj : j < es.length) :
    es[i].now + c.halfOpenInterval ≤ es[j].now := by
  obtain ⟨_, entry, -, -, -, -, hafter, -⟩ := granted_at ha
  obtain ⟨_, entry', hbefore, -, hdue, -⟩ := granted_at hb
  have hmono : ∀ k (hk : k < es.length), i < k → es[i].now ≤ es[k].now := by
    intro k hk hik
    exact List.pairwise_iff_getElem.1 hclock i k hi hk hik
  have hwindow : WindowSince es[i].now p (healthAt c es j) := by
    refine healthAt_stretch (m := i + 1) hij hj.le ⟨_, _, hafter, rfl, le_rfl⟩ ?_
    intro k hk hik hkj hw
    exact windowSince_step hk (hmono k hk hik) (hs k (by omega) hkj) hw
  obtain ⟨entry'', w, hentry, hw, htw⟩ := hwindow
  rw [hbefore] at hentry
  cases hentry
  have hpaced : c.halfOpenInterval ≤ es[j].now - w := by simpa [PeerState.due, hw] using hdue
  have := hmono j hj hij
  omega

/-! ## Refusals -/

/-- An entry's failures are among `count`, and a mark or a trial took `threshold` of them. -/
structure Counted (c : HealthParams) (count : ℕ) (entry : PeerState) : Prop where
  failures : entry.consecutiveFailures ≤ count
  mark : entry.unhealthyUntil.isSome = true → c.threshold ≤ count
  trial : entry.trial.isSome = true → c.threshold ≤ count

theorem Counted.mono {count count' : ℕ} (hle : count ≤ count') {entry : PeerState} (hc : Counted c count entry) :
    Counted c count' entry :=
  ⟨hc.failures.trans hle, fun hm => (hc.mark hm).trans hle, fun ht => (hc.trial ht).trans hle⟩

theorem Counted.fresh (count : ℕ) : Counted c count {} :=
  ⟨Nat.zero_le _, by simp, by simp⟩

theorem Counted.callFailed {count now : ℕ} {entry : PeerState} (hc : Counted c count entry) :
    Counted c (count + 1) (entry.callFailed c now) := by
  have hf := hc.failures
  unfold PeerState.callFailed
  simp only
  split
  · rename_i htrip
    refine ⟨?_, fun _ => ?_, fun ht => (hc.trial ht).trans (Nat.le_succ _)⟩
    · simp only; omega
    · omega
  · refine ⟨?_, fun hm => (hc.mark hm).trans (Nat.le_succ _), fun ht => (hc.trial ht).trans (Nat.le_succ _)⟩
    simp only; omega

theorem Counted.failed {count now : ℕ} {entry : PeerState} (hc : Counted c count entry) (admission : Admission) :
    Counted c (count + if admission ≠ .refused then 1 else 0) (entry.failed c now admission) := by
  cases admission with
  | healthy => exact hc.callFailed
  | refused => exact hc
  | trial id =>
    by_cases hown : entry.trial = some id
    · have hthreshold : c.threshold ≤ count := hc.trial (by simp [hown])
      simp only [PeerState.failed, if_pos hown]
      exact ⟨hc.failures.trans (by simp), fun _ => hthreshold.trans (by simp), by simp [PeerState.trialFailed]⟩
    · simp only [PeerState.failed, if_neg hown]
      exact hc.callFailed

theorem failuresBetween_succ {m n : ℕ} (hmn : m ≤ n) (hn : n < es.length) :
    failuresBetween c es p m (n + 1) = failuresBetween c es p m n + if es[n].fails p then 1 else 0 :=
  Trace.countSteps_succ hmn hn

theorem counted_at {m n : ℕ} (hmn : m ≤ n) (hn : n ≤ es.length) (hnone : (healthAt c es m).state[p]? = none) :
    ∀ entry, (healthAt c es n).state[p]? = some entry → Counted c (failuresBetween c es p m n) entry := by
  induction n, hmn using Nat.le_induction with
  | base =>
    intro entry hentry
    rw [hnone] at hentry
    cases hentry
  | succ n hmn ih =>
    have hlt : n < es.length := hn
    have ih := ih hlt.le
    intro entry hentry
    have hstep := entryAt_succ (c := c) hlt p
    rw [hentry] at hstep
    have hle : failuresBetween c es p m n ≤ failuresBetween c es p m (n + 1) := by
      rw [failuresBetween_succ hmn hlt]; omega
    generalize hafter : some entry = after at hstep
    cases hstep with
    | same => exact (ih entry hafter.symm).mono hle
    | removed hr => cases hafter
    | granted entry' hcall hold hmark hfree hdue =>
      cases hafter
      have hc := (ih entry' hold).mono hle
      exact ⟨hc.failures, hc.mark, fun _ => hc.mark hmark⟩
    | failed admission hcall =>
      cases hafter
      have hc : Counted c (failuresBetween c es p m n) ((healthAt c es n).state[p]?.getD {}) := by
        cases hold : (healthAt c es n).state[p]? with
        | none => exact Counted.fresh _
        | some entry' => exact ih entry' hold
      rw [failuresBetween_succ hmn hlt]
      simpa [HealthEvent.fails, hcall] using hc.failed admission
    | released entry' id hcall hold hopen =>
      cases hafter
      have hc := (ih entry' hold).mono hle
      exact ⟨hc.failures, hc.mark, by simp⟩

theorem refused_after_threshold {m j : ℕ} (hmj : m ≤ j) (hnone : (healthAt c es m).state[p]? = none)
    (href : answerAt c es j p = some .refused) : c.threshold ≤ failuresBetween c es p m j := by
  unfold answerAt at href
  obtain ⟨e, he, href⟩ := Option.bind_eq_some_iff.1 href
  obtain ⟨hj, rfl⟩ := List.getElem?_eq_some_iff.1 he
  split at href
  · rw [Option.some.injEq] at href
    rcases admitCall_cases c (healthAt c es j) es[j].now p with
      ⟨heq, -⟩ | ⟨heq, -⟩ | ⟨-, -, entry, hold, hmark⟩ | ⟨-, entry, -, -, -, -, heq⟩
    · rw [heq] at href; cases href
    · rw [heq] at href; cases href
    · exact (counted_at hmj hj.le hnone entry hold).mark hmark
    · rw [heq] at href; cases href
  · cases href

/-! ## Outcomes of an earlier stretch -/

/-- Every trial that is open or to come has an id past `a`. -/
structure Past (a : ℕ) (p : String) (h : TrackedPeerHealth) : Prop where
  next : a < h.nextTrial
  outstanding : ∀ b, h.trialOf p = some b → a < b

theorem past_step {a : ℕ} (hp : Past a p h) : Past a p (h.step c e) := by
  refine ⟨hp.next.trans_le (step_nextTrial c h e), ?_⟩
  intro b hb
  have hstep := step_entry c h e p
  unfold trialOf at hb
  generalize (h.step c e).state[p]? = after at hstep hb
  cases hstep with
  | same => exact hp.outstanding b hb
  | removed hr => cases hb
  | granted entry hcall hold hmark hfree hdue =>
    cases hb
    exact hp.next
  | failed admission hcall =>
    have hb' : ((h.state[p]?.getD {}).failed c e.now admission).trial = some b := hb
    rcases trial_failed c e.now (h.state[p]?.getD {}) admission with hsame | ⟨-, hnone⟩
    · rw [hsame] at hb'
      cases hold : h.state[p]? with
      | none => rw [hold] at hb'; cases hb'
      | some entry =>
        rw [hold] at hb'
        exact hp.outstanding b (by simpa [trialOf, hold] using hb')
    · rw [hnone] at hb'; cases hb'
  | released entry id hcall hold hopen => cases hb

theorem settle_other {k a : ℕ} (hk : k < es.length) (hset : settledAt es k p a = true)
    (hother : (healthAt c es k).trialOf p ≠ some a) :
    (healthAt c es (k + 1)).trialOf p = (healthAt c es k).trialOf p := by
  have hcalls : es[k].call = .recordFailure p (.trial a) ∨ es[k].call = .release p (.trial a) := by
    simpa [settledAt, List.getElem?_eq_getElem hk] using hset
  have hstep := entryAt_succ (c := c) hk p
  unfold trialOf at hother ⊢
  generalize (healthAt c es (k + 1)).state[p]? = after at hstep ⊢
  cases hstep with
  | same => rfl
  | removed hr =>
    rcases hcalls with hcall | hcall <;> simp [HealthEvent.removes, hcall] at hr
  | granted entry hcall hold hmark hfree hdue =>
    rcases hcalls with hcall' | hcall' <;> simp [hcall] at hcall'
  | failed admission hcall =>
    have hadm : admission = .trial a := by
      rcases hcalls with hcall' | hcall' <;> simp [hcall] at hcall'
      exact hcall'
    subst hadm
    cases hold : (healthAt c es k).state[p]? with
    | none =>
      rcases trial_failed c es[k].now {} (.trial a) with hsame | ⟨⟨id, -, hid⟩, -⟩
      · exact hsame
      · cases hid
    | some entry =>
      rw [hold] at hother
      rcases trial_failed c es[k].now entry (.trial a) with hsame | ⟨⟨id, heq, hid⟩, -⟩
      · exact hsame
      · cases heq
        exact absurd hid hother
  | released entry id hcall hold hopen =>
    have hid : id = a := by
      rcases hcalls with hcall' | hcall' <;> simp [hcall] at hcall'
      exact hcall'
    subst hid
    rw [hold] at hother
    exact absurd hopen hother

theorem late_settle_keeps {i r k a : ℕ} (hir : i < r) (hrk : r < k) (ha : answerAt c es i p = some (.trial a))
    (hr : removedAt c es r p = true) (hset : settledAt es k p a = true) :
    (healthAt c es (k + 1)).trialOf p = (healthAt c es k).trialOf p := by
  have hk : k < es.length := by
    by_contra hlong
    simp [settledAt, List.getElem?_eq_none (Nat.le_of_not_lt hlong)] at hset
  obtain ⟨hi, -, -, -, -, -, -, hnext⟩ := granted_at ha
  -- the counter is past the trial's id from its grant on
  have hcounter : a < (healthAt c es (r + 1)).nextTrial := by
    refine healthAt_stretch (P := fun h => a < h.nextTrial) (m := i + 1) (by omega) (by omega) (by omega) ?_
    intro k hk _ _ hlt
    rw [healthAt_succ hk]
    exact hlt.trans_le (step_nextTrial c _ _)
  -- and no trial is outstanding right after the removal
  have hpast : Past a p (healthAt c es k) := by
    refine healthAt_stretch (m := r + 1) (by omega) hk.le ⟨hcounter, ?_⟩ ?_
    · intro b hb
      rw [trialOf, removed_none (by omega) hr] at hb
      cases hb
    · intro k hk _ _ hp
      rw [healthAt_succ hk]
      exact past_step hp
  refine settle_other hk hset ?_
  intro hopen
  exact absurd (hpast.outstanding a hopen) (lt_irrefl a)

/-- **Half-open trials do not overlap.** Over every interleaving of calls on the tracker with a
clock that never goes back, whatever is handed back and how often:

* of two trials granted in a stretch in which the peer's entry stays, the first was settled by its
  own outcome before the second was granted, and they are `half_open_interval` apart;
* a peer is refused only once `threshold` failures were recorded since it last had no entry;
* once the entry was taken out, the outcome of a trial granted before leaves the trial that is
  outstanding as it is. -/
theorem half_open_trials_apart (c : HealthParams) (es : List HealthEvent) (hclock : es.Pairwise (·.now ≤ ·.now))
    (p : String) :
    (∀ m n, Stretch c es p m n → ∀ i j (hi : i < es.length) (hj : j < es.length) a b, m ≤ i → i < j → j < n →
      answerAt c es i p = some (.trial a) → answerAt c es j p = some (.trial b) →
      (∃ k, i < k ∧ k < j ∧ settledAt es k p a = true) ∧ es[i].now + c.halfOpenInterval ≤ es[j].now) ∧
    (∀ m j, m ≤ j → (healthAt c es m).state[p]? = none → answerAt c es j p = some .refused →
      c.threshold ≤ failuresBetween c es p m j) ∧
    (∀ i r k a, i < r → r < k → answerAt c es i p = some (.trial a) → removedAt c es r p = true →
      settledAt es k p a = true → (healthAt c es (k + 1)).trialOf p = (healthAt c es k).trialOf p) := by
  refine ⟨?_, ?_, ?_⟩
  · intro m n hs i j hi hj a b hmi hij hjn ha hb
    have hs' : Stretch c es p i j := fun k hik hkj => hs k (by omega) (by omega)
    exact ⟨trial_settled_before_next hij hs' ha hb, trials_spaced hclock hij hs' ha hb hi hj⟩
  · intro m j hmj hnone href
    exact refused_after_threshold hmj hnone href
  · intro i r k a hir hrk ha hr hset
    exact late_settle_keeps hir hrk ha hr hset

/-- One failure trips the peer; a trial is granted, lost, and reported after the cooldown and a
second trip, while the second trial is out. -/
def lateOutcome : List HealthEvent :=
  [⟨0, .recordFailure "b:7878" .healthy⟩, ⟨1, .admitCall "b:7878"⟩, ⟨4, .admitCall "b:7878"⟩,
   ⟨30, .admitCall "b:7878"⟩, ⟨31, .recordFailure "b:7878" .healthy⟩, ⟨36, .admitCall "b:7878"⟩,
   ⟨37, .recordFailure "b:7878" (.trial 0)⟩, ⟨38, .admitCall "b:7878"⟩]

theorem lateOutcome_keeps_second_trial :
    lateOutcome.Pairwise (·.now ≤ ·.now) ∧
      (List.range 8).map (answerAt ⟨1, 20, 4⟩ lateOutcome · "b:7878") =
        [none, some .refused, some (.trial 0), some .healthy, none, some (.trial 1), none, some .refused] ∧
      (healthAt ⟨1, 20, 4⟩ lateOutcome 7).trialOf "b:7878" = (healthAt ⟨1, 20, 4⟩ lateOutcome 6).trialOf "b:7878" := by
  have hclock : lateOutcome.Pairwise (·.now ≤ ·.now) := by decide +kernel
  refine ⟨hclock, by decide +kernel, ?_⟩
  exact (half_open_trials_apart ⟨1, 20, 4⟩ lateOutcome hclock "b:7878").2.2 2 3 6 0 (by omega) (by omega)
    (by decide +kernel) (by decide +kernel) (by decide +kernel)

end RiftCluster
