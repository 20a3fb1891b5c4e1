import Mathlib

/-!
# Chains of pointers

`next a` is where `a` points to, if it points anywhere.

* `Ends`, with `Ends.rec_on`: a chain that ends, and the induction along it.
* `all_end_iff`: where only finitely many elements point anywhere, every chain ends exactly if
  none comes back to its start.
-/

namespace Chain

variable {α : Type*} {next : α → Option α}

def after (next : α → Option α) : ℕ → α → Option α
  | 0, a => some a
  | n + 1, a => (next a).bind (after next n)

def Ends (next : α → Option α) (a : α) : Prop := ∃ n, after next n a = none

def Acyclic (next : α → Option α) : Prop := ∀ a n, 0 < n → after next n a ≠ some a

theorem after_add (m n : ℕ) (a : α) : after next (m + n) a = (after next m a).bind (after next n) := by
  induction m generalizing a with
  | zero => rw [Nat.zero_add]; rfl
  | succ m ih =>
    rw [Nat.succ_add]
    simp only [after]
    cases next a with
    | none => rfl
    | some b => exact ih b

theorem after_none {m n : ℕ} {a : α} (h : after next m a = none) (hmn : m ≤ n) : after next n a = none := by
  obtain ⟨k, rfl⟩ := Nat.exists_eq_add_of_le hmn
  rw [after_add, h]
  rfl

theorem ends_of_none {a : α} (h : next a = none) : Ends next a := ⟨1, by simp [after, h]⟩

theorem ends_iff_of_next {a b : α} (h : next a = some b) : Ends next a ↔ Ends next b := by
  constructor
  · rintro ⟨n, hn⟩
    have hlater := after_none hn (Nat.le_succ n)
    rw [after, h] at hlater
    exact ⟨n, hlater⟩
  · rintro ⟨n, hn⟩
    exact ⟨n + 1, by rw [after, h]; exact hn⟩

/-- What holds where a chain stops, and is passed on against the pointers, holds along every
chain that ends. -/
theorem Ends.rec_on {P : α → Prop} {a : α} (h : Ends next a) (stop : ∀ a, next a = none → P a)
    (step : ∀ a b, next a = some b → P b → P a) : P a := by
  obtain ⟨n, hn⟩ := h
  induction n generalizing a with
  | zero => cases hn
  | succ n ih =>
    rw [after] at hn
    cases hnext : next a with
    | none => exact stop a hnext
    | some b =>
      rw [hnext] at hn
      exact step a b hnext (ih hn)

theorem exists_next_of_not_ends {a : α} (h : ¬ Ends next a) : ∃ b, next a = some b ∧ ¬ Ends next b := by
  cases hnext : next a with
  | none => exact absurd (ends_of_none hnext) h
  | some b => exact ⟨b, rfl, fun hb => h ((ends_iff_of_next hnext).2 hb)⟩

theorem not_ends_of_cycle {a : α} {n : ℕ} (hn : 0 < n) (hcycle : after next n a = some a) : ¬ Ends next a := by
  rintro ⟨m, hm⟩
  have hround : ∀ k, after next (k * n) a = some a := by
    intro k
    induction k with
    | zero => rw [Nat.zero_mul]; rfl
    | succ k ih => rw [Nat.succ_mul, after_add, ih]; exact hcycle
  have hnone := after_none hm (Nat.le_mul_of_pos_right m hn)
  rw [hround m] at hnone
  cases hnone

/-- **Where finitely many elements point anywhere, a chain that never comes back ends**: there
are no more places it can be in. -/
theorem Acyclic.ends (h : Acyclic next) (s : Finset α) (hs : ∀ a b, next a = some b → a ∈ s) (a : α) :
    Ends next a := by
  by_contra hnot
  have hgoes : ∀ n, ∃ x, after next n a = some x ∧ x ∈ s := by
    intro n
    obtain ⟨x, hx⟩ := Option.ne_none_iff_exists'.1 (fun hnone : after next n a = none => hnot ⟨n, hnone⟩)
    have hlater : after next (n + 1) a ≠ none := fun hnone => hnot ⟨n + 1, hnone⟩
    rw [after_add, hx, Option.bind_some, after] at hlater
    cases hnext : next x with
    | none => rw [hnext] at hlater; exact absurd rfl hlater
    | some b => exact ⟨x, hx, hs x b hnext⟩
  choose at_ hat hmem using hgoes
  obtain ⟨i, -, j, -, hne, heq⟩ := Finset.exists_ne_map_eq_of_card_lt_of_maps_to
    (s := Finset.range (s.card + 1)) (t := s) (by simp) (f := at_) (fun n _ => hmem n)
  -- two moments at one place are a way round
  have hback : ∀ i j, i < j → at_ i = at_ j → False := by
    intro i j hlt heq
    refine h (at_ i) (j - i) (by omega) ?_
    have hj := hat j
    rw [show j = i + (j - i) by omega, after_add, hat i, Option.bind_some] at hj
    rw [hj, heq, show i + (j - i) = j by omega]
  rcases Nat.lt_or_gt_of_ne hne with hlt | hgt
  · exact hback i j hlt heq
  · exact hback j i hgt heq.symm

theorem all_end_iff (s : Finset α) (hs : ∀ a b, next a = some b → a ∈ s) : (∀ a, Ends next a) ↔ Acyclic next :=
  ⟨fun hall a _ hn hcycle => not_ends_of_cycle hn hcycle (hall a), fun h a => h.ends s hs a⟩

end Chain
