import Mathlib

/-!
# Traces of a step function

`stateAt step s es n` is the state after the first `n` events of `es`. The rules
below reason along it: an invariant kept by every step holds at every point
(`stateAt_inv`), a fact kept by every step of a stretch holds at its end
(`stateAt_stretch`), a fact that does not hold at the start was brought about by one
step and has held since (`stateAt_origin`), a switch that is on and later off is
turned off at some step between (`exists_fall`), and a switch that is off at both ends of a stretch
is turned on no more often than it is turned off (`countSteps_le`).
-/

namespace Trace

variable {σ ε : Type} (step : σ → ε → σ)

def stateAt (s : σ) (es : List ε) (n : ℕ) : σ := (es.take n).foldl step s

variable {step} {s : σ} {es : List ε}

@[simp] theorem stateAt_zero : stateAt step s es 0 = s := by simp [stateAt]

theorem stateAt_succ {n : ℕ} (h : n < es.length) :
    stateAt step s es (n + 1) = step (stateAt step s es n) es[n] := by
  unfold stateAt
  rw [List.take_succ_eq_append_getElem h, List.foldl_append]
  rfl

theorem stateAt_length : stateAt step s es es.length = es.foldl step s := by simp [stateAt]

/-- **An invariant of every step holds at every point.** -/
theorem stateAt_inv {P : σ → Prop} (h0 : P s) (hs : ∀ s, ∀ e ∈ es, P s → P (step s e)) (n : ℕ) :
    P (stateAt step s es n) := by
  induction n with
  | zero => simpa using h0
  | succ n ih =>
    by_cases h : n < es.length
    · rw [stateAt_succ h]; exact hs _ _ (List.getElem_mem h) ih
    · have : es.take (n + 1) = es.take n := by
        rw [List.take_of_length_le (by omega), List.take_of_length_le (by omega)]
      unfold stateAt at ih ⊢; rwa [this]

/-- **A fact kept by every step of a stretch holds at its end.** The step lemma
may use where in the trace it stands. -/
theorem stateAt_stretch {P : σ → Prop} {m n : ℕ} (hmn : m ≤ n) (hn : n ≤ es.length)
    (h0 : P (stateAt step s es m))
    (hs : ∀ k (hk : k < es.length), m ≤ k → k < n → P (stateAt step s es k) →
      P (step (stateAt step s es k) es[k])) :
    P (stateAt step s es n) := by
  induction n with
  | zero => obtain rfl : m = 0 := by omega
            exact h0
  | succ n ih =>
    rcases Nat.eq_or_lt_of_le hmn with rfl | h
    · exact h0
    · rw [stateAt_succ (by omega)]
      exact hs n (by omega) (by omega) (by omega)
        (ih (by omega) (by omega) fun k hk h1 h2 h3 => hs k hk h1 (by omega) h3)

/-- **A fact that does not hold at the start was brought about by one step, and has
held since.** -/
theorem stateAt_origin {P : σ → Prop} {n : ℕ} (h0 : ¬ P s) (hn : n ≤ es.length) (h : P (stateAt step s es n)) :
    ∃ k, ∃ hk : k < es.length, k < n ∧ ¬ P (stateAt step s es k) ∧ P (step (stateAt step s es k) es[k]) ∧
      ∀ j, k < j → j ≤ n → P (stateAt step s es j) := by
  induction n with
  | zero => rw [stateAt_zero] at h; exact absurd h h0
  | succ n ih =>
    by_cases hbefore : P (stateAt step s es n)
    · obtain ⟨k, hk, hkn, hnot, hmade, hsince⟩ := ih (by omega) hbefore
      refine ⟨k, hk, by omega, hnot, hmade, fun j h1 h2 => ?_⟩
      rcases Nat.eq_or_lt_of_le h2 with rfl | h2
      · exact h
      · exact hsince j h1 (by omega)
    · have hlt : n < es.length := by omega
      refine ⟨n, hlt, by omega, hbefore, ?_, fun j h1 h2 => ?_⟩
      · rwa [stateAt_succ hlt] at h
      · obtain rfl : j = n + 1 := by omega
        exact h

/-- A switch that is on at one point and off at a later one is turned off at some step
between them. -/
theorem exists_fall {on : σ → Bool} {m n : ℕ} (hmn : m ≤ n) (h1 : on (stateAt step s es m) = true)
    (h2 : on (stateAt step s es n) = false) :
    ∃ k, m ≤ k ∧ k < n ∧ on (stateAt step s es k) = true ∧ on (stateAt step s es (k + 1)) = false := by
  induction n with
  | zero => obtain rfl : m = 0 := by omega
            rw [h1] at h2; cases h2
  | succ n ih =>
    rcases Nat.eq_or_lt_of_le hmn with rfl | hlt
    · rw [h1] at h2; cases h2
    · cases hc : on (stateAt step s es n) with
      | true => exact ⟨n, by omega, by omega, hc, h2⟩
      | false =>
        obtain ⟨k, hk1, hk2, hk3⟩ := ih (by omega) hc
        exact ⟨k, hk1, by omega, hk3⟩

/-- How many steps of a stretch satisfy a predicate of the state and the event. -/
def countSteps (step : σ → ε → σ) (f : σ → ε → Bool) (s : σ) (es : List ε) (m n : ℕ) : ℕ :=
  (List.range' m (n - m)).countP fun k => es[k]?.any (f (stateAt step s es k))

theorem countSteps_succ {f : σ → ε → Bool} {m n : ℕ} (hmn : m ≤ n) (hn : n < es.length) :
    countSteps step f s es m (n + 1) =
      countSteps step f s es m n + if f (stateAt step s es n) es[n] then 1 else 0 := by
  unfold countSteps
  rw [show n + 1 - m = (n - m) + 1 by omega, List.range'_concat, List.countP_append, List.countP_singleton,
    show m + 1 * (n - m) = n by omega, List.getElem?_eq_getElem hn]
  rfl

/-- **A switch is turned on at most once per turning off**, and once more if it is on
at the end of the stretch. -/
theorem countSteps_le (on : σ → Bool) (up down : σ → ε → Bool) {m n : ℕ} (hmn : m ≤ n) (hn : n ≤ es.length)
    (h0 : on (stateAt step s es m) = false)
    (hup : ∀ k (hk : k < es.length), up (stateAt step s es k) es[k] = true →
      on (stateAt step s es k) = false ∧ on (step (stateAt step s es k) es[k]) = true)
    (hdown : ∀ k (hk : k < es.length), on (stateAt step s es k) = true →
      on (step (stateAt step s es k) es[k]) = false → down (stateAt step s es k) es[k] = true) :
    countSteps step up s es m n ≤ countSteps step down s es m n + if on (stateAt step s es n) then 1 else 0 := by
  induction n with
  | zero =>
    have : m = 0 := by omega
    subst this
    simp [countSteps]
  | succ n ih =>
    rcases Nat.eq_or_lt_of_le hmn with rfl | hlt
    · simp [countSteps]
    · have hlt' : n < es.length := by omega
      have hi := ih (by omega) (by omega)
      rw [countSteps_succ (by omega) hlt', countSteps_succ (by omega) hlt', stateAt_succ hlt']
      have hu := hup n hlt'
      have hd := hdown n hlt'
      -- the switch before and after the step decide every case
      cases hb : on (stateAt step s es n) <;> cases ha : on (step (stateAt step s es n) es[n]) <;>
        cases hcu : up (stateAt step s es n) es[n] <;> cases hcd : down (stateAt step s es n) es[n] <;>
        simp_all <;> omega

end Trace
