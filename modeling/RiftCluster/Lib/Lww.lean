import Mathlib

/-!
# Last-writer-wins registers

A register takes an entry if it holds none, or one of a lower version.

* `isNewest_put`: a register that holds a newest of some entries holds a newest still
  once one more has arrived, in whatever order they came.
* `IsNewest.eq_some`: with distinct versions there is only one it can hold.
* `put_of_le`: an entry that is not newer changes nothing.
-/

namespace Lww

variable {α L : Type} [LinearOrder L] (ver : α → L)

def put (cur : Option α) (a : α) : Option α := if cur.all (fun c => ver c < ver a) then some a else cur

/-- The register holds an entry of the set that no other is newer than, or nothing if the
set is empty. -/
def IsNewest (S : Set α) : Option α → Prop
  | none => S = ∅
  | some a => a ∈ S ∧ ∀ b ∈ S, ver b ≤ ver a

variable {ver} {S : Set α} {cur : Option α} {a c : α}

theorem put_of_lt (h : ver c < ver a) : put ver (some c) a = some a := by simp [put, h]

theorem put_of_le (h : ver a ≤ ver c) : put ver (some c) a = some c := by simp [put, not_lt.2 h]

/-- **A newest entry stays the newest as more arrive.** -/
theorem isNewest_put (h : IsNewest ver S cur) (a : α) : IsNewest ver (insert a S) (put ver cur a) := by
  cases cur with
  | none =>
    obtain rfl : S = ∅ := h
    exact ⟨Set.mem_insert _ _, fun b hb => by
      rcases Set.mem_insert_iff.1 hb with rfl | hb
      · exact le_rfl
      · exact absurd hb (Set.notMem_empty b)⟩
  | some c =>
    obtain ⟨hc, hmax⟩ := h
    rcases lt_or_ge (ver c) (ver a) with hlt | hle
    · rw [put_of_lt hlt]
      refine ⟨Set.mem_insert _ _, fun b hb => ?_⟩
      rcases Set.mem_insert_iff.1 hb with rfl | hb
      · exact le_rfl
      · exact (hmax b hb).trans hlt.le
    · rw [put_of_le hle]
      refine ⟨Set.mem_insert_of_mem _ hc, fun b hb => ?_⟩
      rcases Set.mem_insert_iff.1 hb with rfl | hb
      · exact hle
      · exact hmax b hb

theorem IsNewest.eq_some (h : IsNewest ver S cur) (hinj : Set.InjOn ver S) (ha : a ∈ S)
    (hmax : ∀ b ∈ S, ver b ≤ ver a) : cur = some a := by
  cases cur with
  | none =>
    obtain rfl : S = ∅ := h
    exact absurd ha (Set.notMem_empty a)
  | some c => exact congrArg some (hinj h.1 ha (le_antisymm (hmax c h.1) (h.2 a ha)))

end Lww
