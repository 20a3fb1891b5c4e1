import RiftCluster.Model.Ring
import RiftCluster.Lib.Ranking

/-!
# Rendezvous ownership moves minimally

`owners` is the ranking of the members cut to its first entries, and `owner` its head. Members
come and go without moving the others against each other, so an owner changes only when it
leaves, or to a member that comes.
-/

namespace RiftCluster.Ring

open Ranking

variable {score : ℕ → OwnedKey → ℕ} {key : OwnedKey} {members members' : List ℕ} {mIdx : ℕ}

theorem rank_injective (score : ℕ → OwnedKey → ℕ) (key : OwnedKey) : Function.Injective (rank score key) := by
  intro a b h
  have hpair : (score a key, a) = (score b key, b) := toLex.injective h
  exact congrArg Prod.snd hpair

theorem new_members (members : List ℕ) (mIdx : ℕ) :
    (new members mIdx).members = (members.insertionSort (· ≤ ·)).dedup :=
  (List.pairwise_insertionSort (· ≤ ·) members).destutter_eq_dedup

theorem mem_new {a : ℕ} : a ∈ (new members mIdx).members ↔ a ∈ members := by
  rw [new_members, List.mem_dedup, List.mem_insertionSort]

theorem new_nodup (members : List ℕ) (mIdx : ℕ) : (new members mIdx).members.Nodup := by
  rw [new_members]
  exact List.nodup_dedup _

theorem new_length (members : List ℕ) (mIdx : ℕ) : (new members mIdx).members.length = members.toFinset.card := by
  rw [← List.toFinset_card_of_nodup (new_nodup members mIdx)]
  congr 1
  ext a
  rw [List.mem_toFinset, List.mem_toFinset, mem_new]

theorem new_perm {r : List ℕ} (hr : r.Nodup) (h : ∀ a, a ∈ r ↔ a ∈ members) : r.Perm (new members mIdx).members :=
  (List.perm_ext_iff_of_nodup hr (new_nodup members mIdx)).2 fun a => by rw [h, mem_new]

theorem owner_eq_head (r : Ring) (key : OwnedKey) : r.owner score key = (ranked (rank score key) r.members).head? :=
  (ranked_head (rank_injective score key) _).symm

theorem ranked_remove (x : ℕ) :
    ranked (rank score key) (new (members.filter (· ≠ x)) mIdx).members =
      (ranked (rank score key) (new members mIdx).members).erase x := by
  rw [← ranked_erase (rank_injective score key)]
  refine (ranked_perm_eq (rank_injective score key) (new_perm ((new_nodup members mIdx).erase x) fun a => ?_)).symm
  rw [(new_nodup members mIdx).mem_erase_iff, mem_new, List.mem_filter, decide_eq_true_eq, and_comm]

theorem owner_remove (score : ℕ → OwnedKey → ℕ) (key : OwnedKey) (members : List ℕ) (mIdx x : ℕ) :
    (new (members.filter (· ≠ x)) mIdx).owner score key =
      if (new members mIdx).owner score key = some x then ((new members mIdx).owners score key 2)[1]?
      else (new members mIdx).owner score key := by
  have howners : (new members mIdx).owners score key 2 = (ranked (rank score key) (new members mIdx).members).take 2 := rfl
  rw [owner_eq_head, owner_eq_head, ranked_remove, howners]
  cases ranked (rank score key) (new members mIdx).members with
  | nil => rfl
  | cons a rest =>
    rw [List.head?_cons]
    split
    · rename_i ha
      cases ha
      rw [List.erase_cons_head]
      cases rest <;> rfl
    · rename_i ha
      have hne : a ≠ x := fun h => ha (congrArg some h)
      rw [List.erase_cons_tail (by simpa using hne), List.head?_cons]

/-- **Only the set of members matters**, not their order or how often one is given. -/
theorem new_congr (h : ∀ a, a ∈ members' ↔ a ∈ members) : new members' mIdx = new members mIdx := by
  have hperm : (new members' mIdx).members.Perm (new members mIdx).members :=
    new_perm (new_nodup members' mIdx) fun a => by rw [mem_new, h]
  have hsorted : ∀ ms : List ℕ, (new ms mIdx).members.Pairwise (· ≤ ·) := by
    intro ms
    rw [new_members]
    exact (List.pairwise_insertionSort (· ≤ ·) ms).sublist (List.dedup_sublist _)
  have heq := List.Perm.eq_of_pairwise (fun _ _ _ _ hab hba => le_antisymm hab hba) (hsorted members') (hsorted members) hperm
  exact congrArg (Ring.mk · mIdx) heq

theorem owner_add (y : ℕ) :
    (new (y :: members) mIdx).owner score key = (new members mIdx).owner score key ∨
      (new (y :: members) mIdx).owner score key = some y := by
  by_cases hy : (new (y :: members) mIdx).owner score key = some y
  · exact .inr hy
  · refine .inl ?_
    by_cases hmem : y ∈ members
    · have hsame : ∀ a, a ∈ y :: members ↔ a ∈ members := fun a => by
        rw [List.mem_cons]
        exact ⟨fun ha => ha.elim (fun h => h ▸ hmem) id, .inr⟩
      rw [new_congr hsame]
    · -- without `y` it is the ring from before
      have hback : (y :: members).filter (· ≠ y) = members := by
        rw [List.filter_cons_of_neg (by simp), List.filter_eq_self]
        intro a ha
        simpa using fun h : a = y => hmem (h ▸ ha)
      have hremove := owner_remove score key (y :: members) mIdx y
      rw [hback, if_neg hy] at hremove
      exact hremove.symm

/-- **Rendezvous ownership moves minimally.** For any score, any members and any key: the owners are
distinct members in decreasing rank, as many as asked for and there are, the owner first, and no
other member ranks above one of them; without a member they are the old ones without it, so the
owner stays, or is the one next in rank if it was that member; with a new member the owner
stays, or is that member; and only the set of members matters. -/
theorem ownership_moves_minimally (score : ℕ → OwnedKey → ℕ) (key : OwnedKey) (members : List ℕ) (mIdx : ℕ) :
    (∀ n, ((new members mIdx).owners score key n).length = min n members.toFinset.card ∧
      ((new members mIdx).owners score key n).Pairwise (fun a b => rank score key b < rank score key a) ∧
      (∀ a ∈ (new members mIdx).owners score key n, a ∈ members) ∧
      (∀ a ∈ (new members mIdx).owners score key n, ∀ b ∈ members, b ∉ (new members mIdx).owners score key n →
        rank score key b < rank score key a) ∧
      (0 < n → ((new members mIdx).owners score key n).head? = (new members mIdx).owner score key)) ∧
    (∀ x, (new (members.filter (· ≠ x)) mIdx).owner score key =
      if (new members mIdx).owner score key = some x then ((new members mIdx).owners score key 2)[1]?
      else (new members mIdx).owner score key) ∧
    (∀ x n, (new (members.filter (· ≠ x)) mIdx).owners score key n =
      (((new members mIdx).owners score key (n + 1)).erase x).take n) ∧
    (∀ y, (new (y :: members) mIdx).owner score key = (new members mIdx).owner score key ∨
      (new (y :: members) mIdx).owner score key = some y) ∧
    ∀ members', (∀ a, a ∈ members' ↔ a ∈ members) → new members' mIdx = new members mIdx := by
  have hinj := rank_injective score key
  have hstrict := ranked_strict hinj (new_nodup members mIdx)
  have howners : ∀ n, (new members mIdx).owners score key n =
      (ranked (rank score key) (new members mIdx).members).take n := fun _ => rfl
  refine ⟨fun n => ⟨?_, ?_, ?_, ?_, ?_⟩, owner_remove score key members mIdx, ?_, ?_, ?_⟩
  · rw [howners, List.length_take, (ranked_perm _ _).length_eq, new_length]
  · rw [howners]
    exact hstrict.sublist (List.take_sublist _ _)
  · intro a ha
    rw [howners] at ha
    exact mem_new.1 (mem_ranked.1 (List.mem_of_mem_take ha))
  · intro a ha b hb hnot
    rw [howners] at ha hnot
    -- what is not among the first is behind them
    have hb' : b ∈ ranked (rank score key) (new members mIdx).members := mem_ranked.2 (mem_new.2 hb)
    rw [← List.take_append_drop n (ranked _ _), List.mem_append] at hb'
    rw [← List.take_append_drop n (ranked _ _), List.pairwise_append] at hstrict
    exact hstrict.2.2 a ha b (hb'.resolve_left hnot)
  · intro hn
    rw [howners, owner_eq_head]
    obtain ⟨k, rfl⟩ : ∃ k, n = k + 1 := ⟨n - 1, by omega⟩
    cases ranked (rank score key) (new members mIdx).members <;> rfl
  · intro x n
    have hleft : (new (members.filter (· ≠ x)) mIdx).owners score key n =
        (ranked (rank score key) (new (members.filter (· ≠ x)) mIdx).members).take n := rfl
    rw [hleft, howners, ranked_remove, take_erase]
  · exact fun y => owner_add y
  · exact fun members' h => new_congr h

end RiftCluster.Ring
