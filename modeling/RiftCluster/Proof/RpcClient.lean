import RiftCluster.Model.RpcClient
import RiftCluster.Proof.PeerHealth

/-!
# No trial is lost

A half-open trial that nobody settles keeps its peer shut out until the cooldown. `trials_held`: a
trial that is outstanding is held by a call in flight, or by one that was dropped.
-/

namespace RiftCluster.Rpc

open KV

variable {c : HealthParams} {h : TrackedPeerHealth}

/-! ## One call on the tracker -/

/-- A trial that is outstanding was so before, or the call is its admission. -/
theorem trialOf_step {e : HealthEvent} {p : String} {id : ℕ} (ht : (h.step c e).trialOf p = some id) :
    h.trialOf p = some id ∨ e.call = .admitCall p := by
  unfold TrackedPeerHealth.trialOf at ht ⊢
  have hstep := step_entry c h e p
  generalize (h.step c e).state[p]? = entry' at ht hstep
  cases hstep with
  | same => exact .inl ht
  | removed => cases ht
  | granted entry hcall => exact .inr hcall
  | failed admission =>
    left
    rcases trial_failed c e.now (h.state[p]?.getD {}) admission with hsame | ⟨-, hnone⟩
    · rw [Option.bind_some, hsame] at ht
      cases hentry : h.state[p]? with
      | none => rw [hentry] at ht; cases ht
      | some entry => rwa [hentry] at ht
    · rw [Option.bind_some, hnone] at ht
      cases ht
  | released => cases ht

/-- A call that ends leaves its own trial settled, however it ends. -/
theorem trialOf_settle {call : OpenCall} {id : ℕ} (hid : call.admission = .trial id) (error : Option RpcError) (now : ℕ) :
    (h.step c ⟨now, call.settle error⟩).trialOf call.peer ≠ some id := by
  have hsuccess : (h.recordSuccess call.peer).trialOf call.peer ≠ some id := by
    simp [TrackedPeerHealth.trialOf, TrackedPeerHealth.recordSuccess]
  unfold OpenCall.settle
  cases error with
  | none => exact hsuccess
  | some e =>
    dsimp only
    split_ifs
    · -- the caller's own deadline: the trial is released
      simp only [TrackedPeerHealth.step, TrackedPeerHealth.release, hid]
      cases hentry : h.state[call.peer]? with
      | none => simp [TrackedPeerHealth.trialOf, hentry]
      | some entry =>
        by_cases hopen : entry.trial = some id
        · simp [TrackedPeerHealth.trialOf, hopen]
        · simp [TrackedPeerHealth.trialOf, hopen, hentry]
    · simp only [TrackedPeerHealth.step, TrackedPeerHealth.recordFailure, hid, TrackedPeerHealth.trialOf, get_insert, if_true,
        Option.bind_some]
      rcases trial_failed c now (h.state[call.peer]?.getD {}) (.trial id) with hsame | ⟨-, hnone⟩
      · intro hstill
        have hopen := hsame.symm.trans hstill
        rw [PeerState.failed, if_pos hopen] at hstill
        cases hstill
      · rw [hnone]
        simp
    · exact hsuccess

/-! ## Every interleaving -/

/-- The `k`-th call was admitted to the peer with this trial, and has not reported. -/
def ClientState.Holds (s : ClientState) (k : ℕ) (peer : String) (id : ℕ) : Prop :=
  ∃ call, s.calls k = some call ∧ call.peer = peer ∧ call.admission = .trial id

/-- Every outstanding trial is held by a call. -/
def ClientState.Ok (s : ClientState) : Prop :=
  ∀ peer id, s.health.trialOf peer = some id → ∃ k, s.Holds k peer id

variable {s : ClientState}

theorem holds_update {h' : TrackedPeerHealth} {k j : ℕ} {call : Option OpenCall} {peer : String} {id : ℕ} :
    (ClientState.mk h' (Function.update s.calls k call)).Holds j peer id ↔
      if j = k then ∃ x, call = some x ∧ x.peer = peer ∧ x.admission = .trial id else s.Holds j peer id := by
  unfold ClientState.Holds
  by_cases hjk : j = k
  · rw [if_pos hjk, hjk]
    simp only [Function.update_self]
  · rw [if_neg hjk]
    simp only [Function.update_of_ne hjk]

theorem ok_start (hs : s.Ok) {k : ℕ} (hfree : s.calls k = none) (now : ℕ) (kind : CallKind) (peer : String) :
    (ClientState.mk (s.health.admitCall c now peer).1
      (Function.update s.calls k (opened kind peer (s.health.admitCall c now peer).2))).Ok := by
  have hold : ∀ {h' call p id}, s.health.trialOf p = some id →
      ∃ j, (ClientState.mk h' (Function.update s.calls k call)).Holds j p id := by
    intro h' call p id ht
    obtain ⟨j, hj⟩ := hs p id ht
    have hjk : j ≠ k := by
      rintro rfl
      obtain ⟨call, hcall, -⟩ := hj
      rw [hfree] at hcall
      cases hcall
    exact ⟨j, holds_update.2 (by rwa [if_neg hjk])⟩
  intro p id
  rcases admitCall_cases c s.health now peer with ⟨heq, -⟩ | ⟨heq, -⟩ | ⟨heq, -⟩ | ⟨-, entry, -, -, -, -, heq⟩ <;> rw [heq] <;>
    intro ht
  · exact hold ht
  · rw [TrackedPeerHealth.trialOf, get_erase] at ht
    split_ifs at ht
    · cases ht
    · exact hold ht
  · exact hold ht
  · rw [TrackedPeerHealth.trialOf, get_insert] at ht
    split_ifs at ht with hp
    · -- the trial is given to this call
      cases ht
      exact ⟨k, holds_update.2 (by rw [if_pos rfl]; exact ⟨_, rfl, hp, rfl⟩)⟩
    · exact hold ht

theorem ok_step (hs : s.Ok) (e : ℕ × ClientMove) : (s.step c e).Ok := by
  obtain ⟨now, move⟩ := e
  unfold ClientState.step
  cases move with
  | start k kind peer =>
    dsimp only
    split_ifs with hbusy
    · exact hs
    · exact ok_start hs (by simpa using hbusy) now kind peer
  | finish k error =>
    dsimp only
    cases hk : s.calls k with
    | none => exact hs
    | some call =>
      dsimp only
      split_ifs
      · exact hs
      intro p id ht
      have hno : call.settle error ≠ .admitCall p := by
        unfold OpenCall.settle
        split
        · nofun
        · split_ifs <;> nofun
      obtain ⟨j, hj⟩ := hs p id ((trialOf_step ht).resolve_right hno)
      refine ⟨j, holds_update.2 ?_⟩
      split_ifs with hjk
      · -- its own trial is settled
        obtain ⟨x, hx, rfl, hid⟩ := hj
        cases (hjk ▸ hx).symm.trans hk
        exact absurd ht (trialOf_settle hid error now)
      · exact hj
  | drop k =>
    intro p id ht
    obtain ⟨j, hj⟩ := hs p id ht
    refine ⟨j, holds_update.2 ?_⟩
    split_ifs with hjk
    · obtain ⟨call, hcall, hx⟩ := hj
      exact ⟨{ call with dropped := true }, by rw [← hjk, hcall]; rfl, hx⟩
    · exact hj
  | probed peer =>
    intro p id ht
    exact hs p id ((trialOf_step (c := c) (e := ⟨now, .recordSuccess peer .healthy⟩) ht).resolve_right nofun)

/-- **No trial is lost.** In any interleaving of calls, probes and dropped calls, a trial that is
outstanding for a peer is held by a call to this peer that was admitted with it and has not
reported: it is in flight, or was dropped. So when all calls have ended, and none was dropped, no
peer has a trial outstanding. -/
theorem trials_held (c : HealthParams) (moves : List (ℕ × ClientMove)) :
    (∀ peer id, (clientAfter c moves).health.trialOf peer = some id → ∃ k, (clientAfter c moves).Holds k peer id) ∧
    ((∀ k, (clientAfter c moves).calls k = none) → ∀ peer, (clientAfter c moves).health.trialOf peer = none) := by
  have hok : (clientAfter c moves).Ok := List.foldlRecOn moves _ nofun fun s hs e _ => ok_step hs e
  refine ⟨hok, fun hidle peer => ?_⟩
  by_contra hopen
  obtain ⟨id, hid⟩ := Option.ne_none_iff_exists'.1 hopen
  obtain ⟨k, call, hcall, -⟩ := hok peer id hid
  rw [hidle k] at hcall
  cases hcall

end RiftCluster.Rpc
