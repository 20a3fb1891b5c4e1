import RiftCluster.Model.ElectionHold

/-!
# A held node does not campaign

At every point the two flags and the places of the two threads say whether elections are
on (`HoldInv`). Every step keeps it but one: the grace timer that looked before a hold was
taken, and turns elections on after the hold has returned. So a run is quiet at every point
exactly when no step of it is that one (`held_node_quiet_iff`).
-/

namespace RiftCluster

namespace ElectionHold

structure HoldInv (s : ElectionHold) : Prop where
  /-- A hold that has returned has turned elections off. -/
  holding : s.Holding → s.elect = false
  holdStored : s.caller = .holdStored → s.held = true
  released : s.caller = .releaseStored ∨ s.caller = .releaseElects → s.held = false
  grace : s.timer = .waiting ↔ s.graceOver = false
  /-- Elections are on only after the grace. -/
  elected : s.elect = true ∨ s.caller = .releaseElects → s.graceOver = true
  /-- With the grace over and nothing held, elections are on or the timer will turn them on. -/
  resumes : s.caller = .rest → s.held = false → s.timer = .done → s.elect = true

theorem holdInv_started (hasState : Bool) : HoldInv (started hasState) := by
  cases hasState with
  | false =>
    exact ⟨fun h => absurd h.2 (by decide), by decide, by decide, by decide, by decide, by decide⟩
  | true =>
    exact ⟨fun _ => rfl, by decide, by decide, by decide, by decide, by decide⟩

theorem holdInv_caller {s : ElectionHold} (h : HoldInv s) : HoldInv s.callerStep := by
  obtain ⟨held, graceOver, elect, caller, timer⟩ := s
  cases caller with
  | rest => exact h
  | holdStored =>
    have hheld : held = true := h.holdStored rfl
    subst hheld
    exact
      { holding := fun _ => rfl
        holdStored := fun _ => rfl
        released := by simp [callerStep]
        grace := h.grace
        elected := by simp [callerStep]
        resumes := fun _ hheld => absurd hheld (by simp [callerStep]) }
  | releaseStored =>
    have hheld : held = false := h.released (.inl rfl)
    subst hheld
    cases graceOver with
    | false =>
      -- the grace still decides: the timer has not run
      have htimer : timer = .waiting := h.grace.2 rfl
      have helect : elect = false := by
        cases elect with
        | false => rfl
        | true => exact absurd (h.elected (.inl rfl)) Bool.false_ne_true
      subst htimer helect
      exact
        { holding := fun _ => rfl
          holdStored := by simp [callerStep]
          released := fun _ => rfl
          grace := h.grace
          elected := by simp [callerStep]
          resumes := by simp [callerStep] }
    | true =>
      exact
        { holding := by simp [callerStep, Holding]
          holdStored := by simp [callerStep]
          released := fun _ => rfl
          grace := h.grace
          elected := fun _ => rfl
          resumes := by simp [callerStep] }
  | releaseElects =>
    have hheld : held = false := h.released (.inr rfl)
    subst hheld
    exact
      { holding := by simp [callerStep, Holding]
        holdStored := by simp [callerStep]
        released := fun _ => rfl
        grace := h.grace
        elected := fun _ => h.elected (.inr rfl)
        resumes := fun _ _ _ => rfl }

theorem HoldInv.graceOver {s : ElectionHold} (h : HoldInv s) (htimer : s.timer ≠ .waiting) : s.graceOver = true := by
  cases hover : s.graceOver with
  | false => exact absurd (h.grace.2 hover) htimer
  | true => rfl

theorem holdInv_timer {s : ElectionHold} (h : HoldInv s) (hlate : ¬ s.LateRelease .timer) : HoldInv s.timerStep := by
  obtain ⟨held, graceOver, elect, caller, timer⟩ := s
  cases timer with
  | waiting =>
    exact
      { holding := h.holding
        holdStored := h.holdStored
        released := h.released
        grace := by simp [timerStep]
        elected := fun _ => rfl
        resumes := by simp [timerStep] }
  | stored =>
    have hover : graceOver = true := h.graceOver (by simp)
    subst hover
    refine
      { holding := h.holding
        holdStored := h.holdStored
        released := h.released
        grace := ?_
        elected := fun _ => rfl
        resumes := ?_ }
    · cases held <;> simp [timerStep]
    · -- a timer that is done here has seen the hold
      cases held <;> simp [timerStep]
  | elects =>
    have hover : graceOver = true := h.graceOver (by simp)
    subst hover
    exact
      { holding := fun hholding => absurd ⟨rfl, rfl, hholding⟩ hlate
        holdStored := h.holdStored
        released := h.released
        grace := by simp [timerStep]
        elected := fun _ => rfl
        resumes := fun _ _ _ => rfl }
  | done => exact h

theorem holdInv_step {s : ElectionHold} (h : HoldInv s) {move : HoldMove} (hlate : ¬ s.LateRelease move) :
    HoldInv (s.step move) := by
  cases move with
  | hold =>
    by_cases hrest : s.caller = .rest
    · rw [step, if_pos hrest]
      exact
        { holding := fun hholding => HoldCaller.noConfusion hholding.1
          holdStored := fun _ => rfl
          released := by simp
          grace := h.grace
          elected := fun helect => h.elected (.inl (helect.resolve_right (by simp)))
          resumes := by simp }
    · rw [step, if_neg hrest]
      exact h
  | release =>
    by_cases hrest : s.caller = .rest
    · rw [step, if_pos hrest]
      exact
        { holding := fun hholding => HoldCaller.noConfusion hholding.1
          holdStored := by simp
          released := fun _ => rfl
          grace := h.grace
          elected := fun helect => h.elected (.inl (helect.resolve_right (by simp)))
          resumes := by simp }
    · rw [step, if_neg hrest]
      exact h
  | caller => exact holdInv_caller h
  | timer => exact holdInv_timer h hlate

theorem HoldInv.quiet {s : ElectionHold} (h : HoldInv s) : s.Quiet := by
  refine ⟨h.holding, fun hsettled => ⟨fun helect => ⟨h.elected (.inl helect), ?_⟩, fun hfree => ?_⟩⟩
  · cases hheld : s.held with
    | false => rfl
    | true => rw [h.holding ⟨hsettled.1, hheld⟩] at helect; cases helect
  · rcases hsettled.2 with hwaiting | hdone
    · rw [h.grace.1 hwaiting] at hfree
      cases hfree.1
    · exact h.resumes hsettled.1 hfree.2 hdone

theorem LateRelease.not_quiet {s : ElectionHold} {move : HoldMove} (h : s.LateRelease move) :
    ¬ (s.step move).Quiet := by
  obtain ⟨rfl, htimer, hholding⟩ := h
  intro hquiet
  have helect : (s.step .timer).elect = true := by simp [step, timerStep, htimer]
  have hstill : (s.step .timer).Holding := by simpa [step, timerStep, htimer, Holding] using hholding
  rw [hquiet.1 hstill] at helect
  cases helect

/-- **A held node does not campaign, exactly if no grace timer that looked before the hold
turns elections on after it.** Over every interleaving of the steps. -/
theorem held_node_quiet_iff (hasState : Bool) (moves : List HoldMove) :
    (∀ n ≤ moves.length, (stateAt hasState moves n).Quiet) ↔
      ∀ n (hn : n < moves.length), ¬ (stateAt hasState moves n).LateRelease moves[n] := by
  constructor
  · intro hquiet n hn hlate
    have hnext := hquiet (n + 1) hn
    rw [stateAt, Trace.stateAt_succ hn] at hnext
    exact hlate.not_quiet hnext
  · intro hnever n hn
    have hinv : HoldInv (stateAt hasState moves n) :=
      Trace.stateAt_stretch (m := 0) (Nat.zero_le n) hn (holdInv_started hasState)
        fun k hk _ _ hinv => holdInv_step hinv (hnever k hk)
    exact hinv.quiet

/-- The timer stores and looks; the hold is taken and returns; the timer turns elections on. -/
def lateTimer : List HoldMove := [.timer, .timer, .hold, .caller, .timer]

theorem lateTimer_campaigns :
    (stateAt true lateTimer 4).Holding ∧ (stateAt true lateTimer 5).Holding ∧ (stateAt true lateTimer 5).Settled ∧
      (stateAt true lateTimer 5).elect = true ∧ ¬ (stateAt true lateTimer 5).Quiet := by decide

end ElectionHold

end RiftCluster
