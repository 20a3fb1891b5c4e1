import Mathlib

/-!
# Ordered key-value tables

A table of an embedded ordered store: a finite map whose rows are read in key
order. It is the standard library's extensional tree map, with the operations a
store's transactions use.

* `Table.retain`: drop every row a predicate rejects (`get_retain`).
* `get_eraseAll`: a fold of `erase` drops exactly the keys it names.
* `Table.load`: insert rows one after the other; loading a table's own rows into
  an emptied table gives the table back (`load_toList`).
* `Table.section1`: on a table keyed by pairs, the cursor from the least key of
  one first component, read while that component lasts. It sees exactly the rows
  of that component (`mem_section1`).
-/

namespace KV

open Std

/-- A table: rows under distinct keys, read in key order. -/
abbrev Table (K V : Type) [Ord K] := ExtTreeMap K V

/-- Pairs are ordered by their first component, then by their second. -/
instance pairOrd {α β : Type} [Ord α] [Ord β] : Ord (α × β) := lexOrd

section Rows

variable {K V : Type} [Ord K] [TransOrd K] [LawfulEqOrd K]

theorem get_insert [DecidableEq K] (t : Table K V) (k a : K) (v : V) :
    (t.insert k v)[a]? = if k = a then some v else t[a]? := by
  rw [ExtTreeMap.getElem?_insert]
  by_cases h : k = a
  · simp [h]
  · have : compare k a ≠ .eq := fun hc => h (LawfulEqOrd.eq_of_compare hc)
    simp [h, this]

theorem get_erase [DecidableEq K] (t : Table K V) (k a : K) :
    (t.erase k)[a]? = if k = a then none else t[a]? := by
  rw [ExtTreeMap.getElem?_erase]
  by_cases h : k = a
  · simp [h]
  · have : compare k a ≠ .eq := fun hc => h (LawfulEqOrd.eq_of_compare hc)
    simp [h, this]

omit [LawfulEqOrd K] in
theorem get_empty (k : K) : (∅ : Table K V)[k]? = none := ExtTreeMap.getElem?_empty

theorem ext_get {t t' : Table K V} (h : ∀ k : K, t[k]? = t'[k]?) : t = t' :=
  ExtTreeMap.ext_getElem? h

theorem mem_toList {t : Table K V} {k : K} {v : V} : (k, v) ∈ t.toList ↔ t[k]? = some v :=
  ExtTreeMap.mem_toList_iff_getElem?_eq_some

theorem nodup_toList_keys (t : Table K V) : (t.toList.map Prod.fst).Nodup := by
  rw [List.Nodup, List.pairwise_map]
  exact (ExtTreeMap.distinct_keys_toList (t := t)).imp fun h he => h (by rw [he]; exact ReflOrd.compare_self)

theorem mem_toList_keys {t : Table K V} {k : K} : k ∈ t.toList.map Prod.fst ↔ t[k]?.isSome = true := by
  rw [List.mem_map, Option.isSome_iff_exists]
  constructor
  · rintro ⟨⟨k', v⟩, h, rfl⟩; exact ⟨v, mem_toList.1 h⟩
  · rintro ⟨v, h⟩; exact ⟨(k, v), mem_toList.2 h, rfl⟩

/-! ## Dropping rows -/

def Table.retain (t : Table K V) (f : K → V → Bool) : Table K V :=
  ExtTreeMap.ofList (t.toList.filter fun kv => f kv.1 kv.2)

theorem get_retain (t : Table K V) (f : K → V → Bool) (k : K) :
    (Table.retain t f)[k]? = t[k]?.filter (f k) := by
  classical
  unfold Table.retain
  have hd := (ExtTreeMap.distinct_keys_toList (t := t)).filter fun kv => f kv.1 kv.2
  by_cases h : ∃ v, t[k]? = some v ∧ f k v = true
  · obtain ⟨v, hv, hf⟩ := h
    have hm : (k, v) ∈ t.toList.filter fun kv => f kv.1 kv.2 := by
      rw [List.mem_filter]; exact ⟨mem_toList.2 hv, hf⟩
    rw [ExtTreeMap.getElem?_ofList_of_mem ReflOrd.compare_self hd hm, hv, Option.filter_some, if_pos hf]
  · have hn : t[k]?.filter (f k) = none := by
      cases hv : t[k]? with
      | none => rfl
      | some v =>
        have : f k v ≠ true := fun hf => h ⟨v, hv, hf⟩
        simp [this]
    rw [hn, ExtTreeMap.getElem?_ofList_of_contains_eq_false]
    rw [Bool.eq_false_iff, Ne, List.contains_iff_mem, List.mem_map]
    rintro ⟨⟨k', v⟩, hm, rfl⟩
    rw [List.mem_filter] at hm
    exact h ⟨v, mem_toList.1 hm.1, hm.2⟩

theorem retain_none (t : Table K V) : Table.retain t (fun _ _ => false) = ∅ :=
  ext_get fun k => by rw [get_retain, get_empty]; cases t[k]? <;> simp

theorem get_eraseAll [DecidableEq K] (ks : List K) (t : Table K V) (k : K) :
    (ks.foldl (fun (t : Table K V) k => t.erase k) t)[k]? = if k ∈ ks then none else t[k]? := by
  induction ks generalizing t with
  | nil => simp
  | cons x ks ih =>
    rw [List.foldl_cons, ih, get_erase]
    by_cases hx : x = k
    · simp [hx]
    · simp [hx, Ne.symm hx]

theorem size_add_le {W : Type} {t : Table K V} {t' : Table K W} {ks : List K} (hnd : ks.Nodup)
    (hks : ∀ k ∈ ks, t[k]?.isSome = true ∧ t'[k]? = none) (hsub : ∀ k : K, t'[k]?.isSome = true → t[k]?.isSome = true) :
    t'.size + ks.length ≤ t.size := by
  have hkeys : (t'.toList.map Prod.fst ++ ks).Nodup := by
    refine List.nodup_append.2 ⟨nodup_toList_keys t', hnd, fun a ha b hb hab => ?_⟩
    rw [mem_toList_keys, hab, (hks b hb).2] at ha
    cases ha
  have hsubset : t'.toList.map Prod.fst ++ ks ⊆ t.toList.map Prod.fst := by
    intro k hk
    rcases List.mem_append.1 hk with h | h
    · exact mem_toList_keys.2 (hsub k (mem_toList_keys.1 h))
    · exact mem_toList_keys.2 (hks k h).1
  have hlen := hkeys.length_le_of_subset hsubset
  simpa [ExtTreeMap.length_toList] using hlen

/-! ## Loading rows -/

def Table.load (t : Table K V) (rows : List (K × V)) : Table K V :=
  rows.foldl (fun t kv => t.insert kv.1 kv.2) t

theorem get_load [DecidableEq K] (rows : List (K × V)) :
    ∀ t : Table K V, rows.Pairwise (fun a b => a.1 ≠ b.1) → ∀ k,
      (Table.load t rows)[k]? = ((rows.find? fun kv => kv.1 = k).map Prod.snd).or t[k]? := by
  induction rows with
  | nil => intro t _ k; simp [Table.load]
  | cons kv rows ih =>
    intro t hd k
    rw [List.pairwise_cons] at hd
    show (Table.load (t.insert kv.1 kv.2) rows)[k]? = _
    rw [ih _ hd.2 k, get_insert]
    by_cases hk : kv.1 = k
    · have : rows.find? (fun a => a.1 = k) = none := by
        rw [List.find?_eq_none]
        intro a ha
        simpa [← hk] using (hd.1 a ha).symm
      simp [hk, this]
    · simp [hk]

/-- **Loading a table's own rows into an empty table gives the table back.** -/
theorem load_toList (t : Table K V) : Table.load ∅ t.toList = t := by
  classical
  have hd : t.toList.Pairwise fun a b => a.1 ≠ b.1 := List.pairwise_map.1 (nodup_toList_keys t)
  apply ext_get
  intro k
  rw [get_load _ _ hd, get_empty]
  cases hk : t[k]? with
  | none =>
    have : t.toList.find? (fun kv => kv.1 = k) = none := by
      rw [List.find?_eq_none]
      rintro ⟨k', v⟩ hm
      simp only [decide_eq_true_eq]
      rintro rfl
      rw [mem_toList, hk] at hm; cases hm
    simp [this]
  | some v =>
    have hf : (t.toList.find? fun kv => decide (kv.1 = k)) = some (k, v) := by
      cases hf : t.toList.find? fun kv => decide (kv.1 = k) with
      | none =>
        have := List.find?_eq_none.1 hf (k, v) (mem_toList.2 hk)
        simp at this
      | some kv =>
        have h1 := List.mem_of_find?_eq_some hf
        have h2 := List.find?_some hf
        obtain ⟨k', v'⟩ := kv
        simp only [decide_eq_true_eq] at h2
        subst h2
        rw [mem_toList, hk] at h1; cases h1; rfl
    simp [hf]

end Rows

/-! ## Cursors -/

section Cursor

theorem mem_dropWhile_of_sorted {γ : Type} {r : γ → γ → Prop} {p : γ → Bool}
    (hp : ∀ x y, r x y → p y = true → p x = true) {l : List γ} (hl : l.Pairwise r) (x : γ) :
    x ∈ l.dropWhile p ↔ x ∈ l ∧ p x = false := by
  induction l with
  | nil => simp
  | cons y l ih =>
    rw [List.pairwise_cons] at hl
    by_cases hy : p y = true
    · rw [List.dropWhile_cons_of_pos hy, ih hl.2]
      constructor
      · rintro ⟨h1, h2⟩; exact ⟨List.mem_cons_of_mem _ h1, h2⟩
      · rintro ⟨h1, h2⟩
        rcases List.mem_cons.1 h1 with rfl | h1
        · rw [hy] at h2; cases h2
        · exact ⟨h1, h2⟩
    · rw [List.dropWhile_cons_of_neg hy]
      refine ⟨fun h => ⟨h, ?_⟩, fun h => h.1⟩
      rcases List.mem_cons.1 h with rfl | h
      · simpa using hy
      · by_contra hx
        exact hy (hp y x (hl.1 x h) (by simpa using hx))

theorem mem_takeWhile_of_sorted {γ : Type} {r : γ → γ → Prop} {p : γ → Bool}
    (hp : ∀ x y, r x y → p y = true → p x = true) {l : List γ} (hl : l.Pairwise r) (x : γ) :
    x ∈ l.takeWhile p ↔ x ∈ l ∧ p x = true := by
  induction l with
  | nil => simp
  | cons y l ih =>
    rw [List.pairwise_cons] at hl
    by_cases hy : p y = true
    · rw [List.takeWhile_cons_of_pos hy, List.mem_cons, ih hl.2, List.mem_cons]
      constructor
      · rintro (rfl | ⟨h1, h2⟩)
        · exact ⟨Or.inl rfl, hy⟩
        · exact ⟨Or.inr h1, h2⟩
      · rintro ⟨rfl | h1, h2⟩
        · exact Or.inl rfl
        · exact Or.inr ⟨h1, h2⟩
    · rw [List.takeWhile_cons_of_neg hy]
      simp only [List.not_mem_nil, false_iff, not_and]
      intro h hx
      rcases List.mem_cons.1 h with rfl | h
      · exact hy hx
      · exact hy (hp y x (hl.1 x h) hx)

variable {K V : Type} [Ord K] [TransOrd K]

def Table.rangeFrom (t : Table K V) (lo : K) : List (K × V) :=
  t.toList.dropWhile fun kv => compare kv.1 lo == .lt

theorem rangeFrom_sorted (t : Table K V) (lo : K) :
    (Table.rangeFrom t lo).Pairwise fun a b => compare a.1 b.1 = .lt :=
  ExtTreeMap.ordered_keys_toList.sublist (List.dropWhile_sublist _)

theorem mem_rangeFrom [LawfulEqOrd K] {t : Table K V} {lo : K} (kv : K × V) :
    kv ∈ Table.rangeFrom t lo ↔ t[kv.1]? = some kv.2 ∧ compare kv.1 lo ≠ .lt := by
  unfold Table.rangeFrom
  rw [mem_dropWhile_of_sorted (r := fun a b => compare a.1 b.1 = .lt) ?_ ExtTreeMap.ordered_keys_toList]
  · rw [← mem_toList]; simp
  · intro x y hxy hy
    simp only [beq_iff_eq] at hy ⊢
    exact TransCmp.lt_trans hxy hy

variable {α β : Type} [Ord α] [TransOrd α] [LawfulEqOrd α] [Ord β] [TransOrd β] [LawfulEqOrd β] [DecidableEq α]

/-- The cursor from `(a, lo)`, read while the first component stays `a`. -/
def Table.section1 (t : Table (α × β) V) (a : α) (lo : β) : List ((α × β) × V) :=
  (Table.rangeFrom t (a, lo)).takeWhile fun kv => kv.1.1 == a

/-- **From the least second component, the cursor sees exactly the rows of `a`.** -/
theorem mem_section1 {t : Table (α × β) V} {a : α} {lo : β} (hlo : ∀ b : β, compare b lo ≠ .lt)
    (kv : (α × β) × V) : kv ∈ Table.section1 t a lo ↔ t[kv.1]? = some kv.2 ∧ kv.1.1 = a := by
  unfold Table.section1
  have hs : (Table.rangeFrom t (a, lo)).Pairwise fun x y =>
      compare x.1 y.1 = .lt ∧ compare x.1 (a, lo) ≠ .lt :=
    (rangeFrom_sorted t (a, lo)).imp_of_mem fun hx _ h => ⟨h, ((mem_rangeFrom _).1 hx).2⟩
  rw [mem_takeWhile_of_sorted ?_ hs, mem_rangeFrom]
  · simp only [beq_iff_eq]
    constructor
    · rintro ⟨⟨h1, -⟩, h2⟩; exact ⟨h1, h2⟩
    · rintro ⟨h1, h2⟩
      refine ⟨⟨h1, ?_⟩, h2⟩
      obtain ⟨⟨a', b⟩, v⟩ := kv
      simp only at h2; subst h2
      show (compare a' a').then (compare b lo) ≠ .lt
      rw [ReflOrd.compare_self]; exact hlo b
  · -- a key after `(a, lo)` and before a row of `a` has `a` itself as first component
    rintro ⟨⟨a1, b1⟩, v1⟩ ⟨⟨a2, b2⟩, v2⟩ ⟨h1, h2⟩ h3
    simp only [beq_iff_eq] at h3 ⊢
    subst h3
    have h1' : (compare a1 a2).then (compare b1 b2) = .lt := h1
    have h2' : (compare a1 a2).then (compare b1 lo) ≠ .lt := h2
    cases hc : compare a1 a2 with
    | lt => rw [hc] at h2'; exact absurd rfl h2'
    | eq => exact LawfulEqOrd.eq_of_compare hc
    | gt => rw [hc] at h1'; cases h1'

theorem rangeFrom_head {t : Table (α × β) V} {a : α} {lo : β} (hlo : ∀ b : β, compare b lo ≠ .lt) :
    ((Table.rangeFrom t (a, lo)).head?.any fun kv => kv.1.1 == a) = true ↔ ∃ (b : β) (v : V), t[(a, b)]? = some v := by
  constructor
  · intro h
    cases hr : Table.rangeFrom t (a, lo) with
    | nil => rw [hr] at h; simp at h
    | cons kv l =>
      rw [hr] at h
      simp only [List.head?_cons, Option.any_some, beq_iff_eq] at h
      have : t[kv.1]? = some kv.2 ∧ compare kv.1 (a, lo) ≠ .lt := (mem_rangeFrom kv).1 (by rw [hr]; exact List.mem_cons_self)
      obtain ⟨⟨a', b⟩, v⟩ := kv
      simp only at h; subst h
      exact ⟨b, v, this.1⟩
  · rintro ⟨b, v, hv⟩
    have hm : ((a, b), v) ∈ Table.section1 t a lo := (mem_section1 hlo _).2 ⟨hv, rfl⟩
    unfold Table.section1 at hm
    cases hr : Table.rangeFrom t (a, lo) with
    | nil => rw [hr] at hm; simp at hm
    | cons kv l =>
      rw [hr] at hm
      by_cases hk : (kv.1.1 == a) = true
      · simpa using hk
      · simp [hk] at hm

end Cursor

end KV
