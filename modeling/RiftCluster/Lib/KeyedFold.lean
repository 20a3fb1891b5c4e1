import Mathlib

/-!
# Folds over rows with distinct keys

A fold whose step for a row changes only what is seen under the row's own key. With distinct keys
the steps do not meet: what is seen under a key at the end is one step of its row, from what was
seen there at the start (`foldl_row`), or what was seen there, if it has no row (`foldl_other`).
-/

namespace KeyedFold

variable {σ K X β : Type} [DecidableEq K]

/-- The step for a row acts on what is seen under the row's key, and on nothing else. -/
def Local (view : σ → K → β) (step : σ → K × X → σ) (act : K × X → β → β) : Prop :=
  ∀ s row k, view (step s row) k = if row.1 = k then act row (view s k) else view s k

variable {view : σ → K → β} {step : σ → K × X → σ} {act : K × X → β → β}

theorem foldl_other (h : Local view step act) {rows : List (K × X)} {k : K} (hk : k ∉ rows.map Prod.fst) (s : σ) :
    view (rows.foldl step s) k = view s k := by
  induction rows generalizing s with
  | nil => rfl
  | cons row rows ih =>
    rw [List.map_cons, List.mem_cons, not_or] at hk
    rw [List.foldl_cons, ih hk.2, h, if_neg (Ne.symm hk.1)]

theorem foldl_row (h : Local view step act) {rows : List (K × X)} (hnd : (rows.map Prod.fst).Nodup) {row : K × X}
    (hrow : row ∈ rows) (s : σ) : view (rows.foldl step s) row.1 = act row (view s row.1) := by
  induction rows generalizing s with
  | nil => cases hrow
  | cons first rows ih =>
    rw [List.map_cons, List.nodup_cons] at hnd
    rw [List.foldl_cons]
    rcases List.mem_cons.1 hrow with rfl | hrow
    · rw [foldl_other h hnd.1, h, if_pos rfl]
    · have hne : first.1 ≠ row.1 := fun heq => hnd.1 (heq ▸ List.mem_map_of_mem hrow)
      rw [ih hnd.2 hrow, h, if_neg hne]

end KeyedFold
