import Mathlib

/-!
# Lists by decreasing rank

`ranked rank l` is `l` with the highest rank first. Where ranks differ it depends on the
elements only (`ranked_perm_eq`), taking an element out of the list takes it out of the ranking
(`ranked_erase`), and its head is the element of highest rank (`ranked_head`).
-/

namespace Ranking

variable {α β : Type} [LinearOrder β] {rank : α → β} {l l' : List α}

def ranked (rank : α → β) (l : List α) : List α := l.insertionSort fun a b => rank b ≤ rank a

theorem ranked_perm (rank : α → β) (l : List α) : (ranked rank l).Perm l := List.perm_insertionSort _ _

theorem mem_ranked {a : α} : a ∈ ranked rank l ↔ a ∈ l := (ranked_perm rank l).mem_iff

theorem ranked_sorted (rank : α → β) (l : List α) : (ranked rank l).Pairwise fun a b => rank b ≤ rank a := by
  have : Std.Total fun a b : α => rank b ≤ rank a := ⟨fun a b => le_total (rank b) (rank a)⟩
  have : IsTrans α fun a b : α => rank b ≤ rank a := ⟨fun _ _ _ hab hbc => hbc.trans hab⟩
  exact List.pairwise_insertionSort _ _

theorem eq_of_sorted (hinj : Function.Injective rank) (hperm : l.Perm l')
    (hl : l.Pairwise fun a b => rank b ≤ rank a) (hl' : l'.Pairwise fun a b => rank b ≤ rank a) : l = l' :=
  List.Perm.eq_of_pairwise (fun _ _ _ _ hba hab => hinj (le_antisymm hab hba)) hl hl' hperm

theorem ranked_perm_eq (hinj : Function.Injective rank) (h : l.Perm l') : ranked rank l = ranked rank l' :=
  eq_of_sorted hinj ((ranked_perm rank l).trans (h.trans (ranked_perm rank l').symm)) (ranked_sorted rank l)
    (ranked_sorted rank l')

theorem ranked_strict (hinj : Function.Injective rank) (hnd : l.Nodup) :
    (ranked rank l).Pairwise fun a b => rank b < rank a := by
  have hne : (ranked rank l).Pairwise (· ≠ ·) := (ranked_perm rank l).nodup_iff.2 hnd
  refine (hne.and (ranked_sorted rank l)).imp fun {a b} h => ?_
  exact lt_of_le_of_ne h.2 fun heq => h.1 (hinj heq).symm

theorem ranked_erase [DecidableEq α] (hinj : Function.Injective rank) (l : List α) (x : α) :
    ranked rank (l.erase x) = (ranked rank l).erase x := by
  refine eq_of_sorted hinj ?_ (ranked_sorted rank _) ((ranked_sorted rank l).sublist List.erase_sublist)
  exact (ranked_perm rank _).trans ((ranked_perm rank l).erase x).symm

/-- **The head of the ranking has the highest rank.** -/
theorem ranked_head [DecidableEq α] (hinj : Function.Injective rank) (l : List α) :
    (ranked rank l).head? = l.argmax rank := by
  cases h : ranked rank l with
  | nil =>
    have hl : l = [] := List.Perm.nil_eq (h ▸ ranked_perm rank l) |>.symm
    rw [hl]
    rfl
  | cons a rest =>
    have hsorted := ranked_sorted rank l
    rw [h, List.pairwise_cons] at hsorted
    have ha : a ∈ l := mem_ranked.1 (h ▸ List.mem_cons_self)
    have hmax : ∀ b ∈ l, rank b ≤ rank a := by
      intro b hb
      have hb' : b ∈ a :: rest := h ▸ mem_ranked.2 hb
      rcases List.mem_cons.1 hb' with rfl | hb'
      · exact le_rfl
      · exact hsorted.1 b hb'
    refine (List.argmax_eq_some_iff.2 ⟨ha, hmax, fun b hb hle => ?_⟩).symm
    rw [hinj (le_antisymm (hmax b hb) hle)]

/-- Taking an element out of the first `n + 1`, or out of the whole, leaves the same first `n`. -/
theorem take_erase [DecidableEq α] (l : List α) (x : α) (n : ℕ) :
    ((l.take (n + 1)).erase x).take n = (l.erase x).take n := by
  induction l generalizing n with
  | nil => simp
  | cons a l ih =>
    rw [List.take_succ_cons]
    by_cases ha : a = x
    · subst ha
      simp
    · rw [List.erase_cons_tail (by simpa using ha), List.erase_cons_tail (by simpa using ha)]
      cases n with
      | zero => rfl
      | succ n => rw [List.take_succ_cons, List.take_succ_cons, ih n]

end Ranking
