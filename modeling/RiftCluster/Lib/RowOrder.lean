import RiftCluster.Lib.Table

/-!
# Reading a table in key order

A list in key order with the rows of a table is the list the table is read as
(`toList_eq`). So dropping rows drops them from the reading (`toList_retain`), and a row
under a key past all others is read last (`toList_insert_last`).
-/

namespace KV

open Std

variable {K V : Type} [Ord K] [TransOrd K] [LawfulEqOrd K]

def InOrder (l : List (K × V)) : Prop := l.Pairwise fun a b => compare a.1 b.1 = .lt

omit [LawfulEqOrd K] in
theorem inOrder_toList (t : Table K V) : InOrder t.toList := ExtTreeMap.ordered_keys_toList

omit [LawfulEqOrd K] in
theorem InOrder.nodup {l : List (K × V)} (h : InOrder l) : l.Nodup := by
  refine h.imp fun {a b} hab heq => ?_
  rw [heq, ReflOrd.compare_self] at hab
  cases hab

theorem toList_eq {t : Table K V} {l : List (K × V)} (hl : InOrder l) (h : ∀ k v, (k, v) ∈ l ↔ t[k]? = some v) :
    t.toList = l := by
  have hperm : t.toList.Perm l := by
    rw [List.perm_ext_iff_of_nodup (inOrder_toList t).nodup hl.nodup]
    rintro ⟨k, v⟩
    rw [mem_toList, h]
  have hanti : ∀ a b : K × V, compare a.1 b.1 = .lt → compare b.1 a.1 = .lt → a = b :=
    fun a b hab hba => absurd hba (OrientedCmp.not_lt_of_lt hab)
  exact List.Perm.eq_of_pairwise (fun a b _ _ => hanti a b) (inOrder_toList t) hl hperm

theorem toList_retain (t : Table K V) (f : K → V → Bool) :
    (Table.retain t f).toList = t.toList.filter fun kv => f kv.1 kv.2 := by
  refine toList_eq ((inOrder_toList t).filter _) fun k v => ?_
  rw [List.mem_filter, mem_toList, get_retain, Option.filter_eq_some_iff]

theorem toList_insert_last [DecidableEq K] {t : Table K V} {k : K} (hlast : ∀ kv ∈ t.toList, compare kv.1 k = .lt)
    (v : V) :
    (t.insert k v).toList = t.toList ++ [(k, v)] := by
  refine toList_eq ?_ fun a w => ?_
  · refine List.pairwise_append.2 ⟨inOrder_toList t, List.pairwise_singleton _ _, fun a ha b hb => ?_⟩
    rw [List.mem_singleton.1 hb]
    exact hlast a ha
  · rw [List.mem_append, List.mem_singleton, mem_toList, get_insert, Prod.mk.injEq]
    by_cases hk : k = a
    · -- the key is new
      subst hk
      have hnew : t[k]? ≠ some w := by
        intro hw
        have hlt := hlast (k, w) (mem_toList.2 hw)
        rw [ReflOrd.compare_self] at hlt
        cases hlt
      rw [if_pos rfl]
      constructor
      · rintro (hw | ⟨-, rfl⟩)
        · exact absurd hw hnew
        · rfl
      · intro hw
        exact .inr ⟨rfl, (Option.some.inj hw).symm⟩
    · rw [if_neg hk]
      constructor
      · rintro (hw | ⟨rfl, -⟩)
        · exact hw
        · exact absurd rfl hk
      · exact .inl

end KV
