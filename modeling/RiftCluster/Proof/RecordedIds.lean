import RiftCluster.Proof.Effects

/-!
# Families of recorded stubs

A recorded stub is known by its id alone: `stubKey` is the signature hash and the
rank its id spells. The id a recording mints spells the recording's own signature
(`recordedId_base`, `recordedId_ranked`). Where no two stubs of a list spell the
same key, the newest stub of a family is the one of highest rank
(`newest_of_rank`), and an edit forgets a signature exactly when it leaves no stub
of that id and value (`mem_orphaned_iff`).
-/

namespace RiftCluster

open KV

/-! ## Reading a minted id back -/

theorem isAsciiDigit_eq (c : Char) : isAsciiDigit c = c.isDigit := rfl

theorem isPrefixOf_cons_ne {c d : Char} (h : c ≠ d) (ds l : List Char) : (d :: ds).isPrefixOf (c :: l) = false := by
  simp [List.isPrefixOf, h.symm]

/-- A pattern whose first character is not there splits nothing. -/
theorem splitOnce_none {d : Char} {ds l : List Char} (h : ∀ c ∈ l, c ≠ d) : splitOnce (d :: ds) l = none := by
  induction l with
  | nil => rfl
  | cons c l ih =>
    rw [splitOnce, isPrefixOf_cons_ne (h c List.mem_cons_self), ih fun c' hc' => h c' (List.mem_cons_of_mem _ hc')]
    rfl

theorem splitOnce_append {d : Char} {ds l : List Char} (h : ∀ c ∈ l, c ≠ d) (tl : List Char) :
    splitOnce (d :: ds) (l ++ (d :: ds ++ tl)) = some (l, tl) := by
  induction l with
  | nil =>
    have hp : (d :: ds).isPrefixOf (d :: ds ++ tl) = true := List.isPrefixOf_iff_prefix.2 (List.prefix_append _ _)
    rw [List.nil_append, List.cons_append, splitOnce, ← List.cons_append, if_pos hp, List.drop_left]
  | cons c l ih =>
    rw [List.cons_append, splitOnce, isPrefixOf_cons_ne (h c List.mem_cons_self),
      ih fun c' hc' => h c' (List.mem_cons_of_mem _ hc')]
    rfl

/-- A signature hash as recorded ids spell it: lowercase hex, not empty. -/
def LowerHash (h : String) : Prop := h.toList ≠ [] ∧ ∀ c ∈ h.toList, lowerHex c = true

theorem LowerHash.ne_dash {h : String} (hh : LowerHash h) : ∀ c ∈ h.toList, c ≠ '-' := by
  rintro c hc rfl
  have := hh.2 _ hc
  revert this; decide

theorem sigHashOf_lower {h : String} (hh : LowerHash h) (n : ℕ) : sigHashOf h.toList n = some (h, n) := by
  have h1 : h.toList.isEmpty = false := by simpa using hh.1
  have h2 : h.toList.all lowerHex = true := List.all_eq_true.2 hh.2
  simp [sigHashOf, h1, h2, String.ofList_toList]

theorem all_digits (n : ℕ) : (Nat.toDigits 10 n).all isAsciiDigit = true :=
  List.all_eq_true.2 fun c hc => by
    rw [isAsciiDigit_eq]
    exact Nat.isDigit_of_mem_toDigits (by decide) (by decide) hc

theorem parseU64_toDigits {n : ℕ} (hn : n < 2 ^ 64) : parseU64 (Nat.toDigits 10 n) = some n := by
  simp only [parseU64, Nat.ofDigitChars_ten_toDigits, if_pos hn]

/-- **The base id of a signature spells it**, at rank zero. -/
theorem recordedId_base {h : String} (hh : LowerHash h) : recordedId (recordedStubIdPrefix ++ h) = some (h, 0) := by
  have hp : recordedStubIdPrefix.toList.isPrefixOf (recordedStubIdPrefix.toList ++ h.toList) = true :=
    List.isPrefixOf_iff_prefix.2 (List.prefix_append _ _)
  simp only [recordedId, hp, if_true, String.toList_append, List.drop_left, splitOnce_none hh.ne_dash,
    sigHashOf_lower hh]

/-- **The ranked id of a signature spells it**, at its log index. -/
theorem recordedId_ranked {h : String} (hh : LowerHash h) {n : ℕ} (hn : n < 2 ^ 64) :
    recordedId (recordedStubIdPrefix ++ h ++ "-r" ++ toString n) = some (h, n) := by
  have hl : (recordedStubIdPrefix ++ h ++ "-r" ++ toString n).toList =
      recordedStubIdPrefix.toList ++ (h.toList ++ '-' :: 'r' :: Nat.toDigits 10 n) := by
    simp [String.toList_append]
  have hp : recordedStubIdPrefix.toList.isPrefixOf
      (recordedStubIdPrefix.toList ++ (h.toList ++ '-' :: 'r' :: Nat.toDigits 10 n)) = true :=
    List.isPrefixOf_iff_prefix.2 (List.prefix_append _ _)
  have h1 : (Nat.toDigits 10 n).isEmpty = false := by simp
  have hsplit : splitOnce ['-', 'r'] (h.toList ++ '-' :: 'r' :: Nat.toDigits 10 n) =
      some (h.toList, Nat.toDigits 10 n) :=
    splitOnce_append hh.ne_dash _
  simp only [recordedId, hl, hp, if_true, List.drop_left, hsplit, h1, all_digits, Bool.not_false, Bool.and_self,
    parseU64_toDigits hn, Option.bind_some, sigHashOf_lower hh]

/-- An id that spells a signature has the prefix, and the signature is lowercase hex. -/
theorem recordedId_some {id : String} {k : String × ℕ} (h : recordedId id = some k) :
    recordedStubIdPrefix.toList.isPrefixOf id.toList = true ∧ LowerHash k.1 := by
  have hsig : ∀ (l : List Char) (n : ℕ), sigHashOf l n = some k → LowerHash k.1 := by
    intro l n hl
    unfold sigHashOf at hl
    split at hl
    · rename_i hc
      cases hl
      simp only [Bool.and_eq_true, Bool.not_eq_true', List.isEmpty_eq_false_iff] at hc
      exact ⟨by simpa [String.toList_ofList] using hc.1, by simpa [String.toList_ofList] using List.all_eq_true.1 hc.2⟩
    · cases hl
  unfold recordedId at h
  split at h
  · rename_i hp
    refine ⟨hp, ?_⟩
    dsimp only at h
    split at h
    · split at h
      · obtain ⟨n, -, hn⟩ := Option.bind_eq_some_iff.1 h
        exact hsig _ _ hn
      · cases h
    · exact hsig _ _ h
  · cases h

/-! ## Keys -/

/-- The signature hash and rank a stub's id spells, if it is a recorded one. -/
def stubKey (s : Stub) : Option (String × ℕ) := s.id.bind recordedId

def keys (stubs : List Stub) : List (String × ℕ) := stubs.filterMap stubKey

theorem mem_keys {stubs : List Stub} {k : String × ℕ} : k ∈ keys stubs ↔ ∃ s ∈ stubs, stubKey s = some k :=
  List.mem_filterMap

/-- Where keys are distinct, a key has one stub. -/
theorem eq_of_stubKey {stubs : List Stub} (hd : (keys stubs).Nodup) {x y : Stub} {k : String × ℕ} (hx : x ∈ stubs)
    (hy : y ∈ stubs) (hkx : stubKey x = some k) (hky : stubKey y = some k) : x = y := by
  have hp := List.pairwise_filterMap.1 hd
  rw [List.pairwise_iff_getElem] at hp
  obtain ⟨i, hi, rfl⟩ := List.getElem_of_mem hx
  obtain ⟨j, hj, rfl⟩ := List.getElem_of_mem hy
  rcases Nat.lt_trichotomy i j with hlt | heq | hgt
  · exact absurd rfl (hp i j hi hj hlt k hkx k hky)
  · subst heq; rfl
  · exact absurd rfl (hp j i hj hi hgt k hky k hkx)

theorem taken_iff {stubs : List Stub} {h : String} :
    (stubs.any fun s => s.id.bind recordedSigHash == some h) = true ↔ ∃ n, (h, n) ∈ keys stubs := by
  simp only [List.any_eq_true, beq_iff_eq, mem_keys, stubKey]
  constructor
  · rintro ⟨s, hs, hk⟩
    obtain ⟨id, hid, hrec⟩ := Option.bind_eq_some_iff.1 hk
    obtain ⟨⟨h', n⟩, hkey, rfl⟩ := Option.map_eq_some_iff.1 hrec
    exact ⟨n, s, hs, by rw [hid]; exact hkey⟩
  · rintro ⟨n, s, hs, hk⟩
    obtain ⟨id, hid, hkey⟩ := Option.bind_eq_some_iff.1 hk
    exact ⟨s, hs, by rw [hid]; simp [recordedSigHash, hkey]⟩

/-! ## The newest of a family -/

/-- What the scan holds for a signature: the family's stub of highest rank so far. -/
def IsNewest (seen : List Stub) (h : String) : Option (ℕ × Stub) → Prop
  | none => ∀ n, (h, n) ∉ keys seen
  | some (n, y) => y ∈ seen ∧ stubKey y = some (h, n) ∧ ∀ m, (h, m) ∈ keys seen → m ≤ n

theorem keys_append (a b : List Stub) : keys (a ++ b) = keys a ++ keys b := List.filterMap_append

theorem newestRecordings_spec (stubs : List Stub) (h : String) : IsNewest stubs h (newestRecordings stubs)[h]? := by
  induction stubs using List.reverseRecOn with
  | nil => rw [newestRecordings, List.foldl_nil, get_empty]; exact fun n hn => by cases hn
  | append_singleton seen s ih =>
    have hfold : newestRecordings (seen ++ [s]) = noteRecording (newestRecordings seen) s := by
      simp only [newestRecordings, List.foldl_append, List.foldl_cons, List.foldl_nil]
    rw [hfold, noteRecording]
    cases hk : s.id.bind recordedId with
    | none =>
      have hks : keys (seen ++ [s]) = keys seen := by rw [keys_append]; simp [keys, stubKey, hk]
      dsimp only
      cases hn : (newestRecordings seen)[h]? with
      | none => rw [hn] at ih; intro n; rw [hks]; exact ih n
      | some best => rw [hn] at ih; exact ⟨List.mem_append_left _ ih.1, ih.2.1, by rw [hks]; exact ih.2.2⟩
    | some k =>
      obtain ⟨hash, rank⟩ := k
      have hkey : stubKey s = some (hash, rank) := hk
      have hks : ∀ n, (h, n) ∈ keys (seen ++ [s]) ↔ (h, n) ∈ keys seen ∨ (h = hash ∧ n = rank) := by
        intro n; rw [keys_append]; simp [keys, hkey]
      dsimp only
      by_cases hh : hash = h
      · subst hh
        cases hn : (newestRecordings seen)[hash]? with
        | none =>
          rw [hn] at ih
          rw [if_pos (by rfl), get_insert, if_pos rfl]
          refine ⟨by simp, hkey, fun m hm => ?_⟩
          rcases (hks m).1 hm with h' | ⟨-, rfl⟩
          · exact absurd h' (ih m)
          · exact le_rfl
        | some best =>
          rw [hn] at ih
          by_cases hr : rank > best.1
          · rw [if_pos (by simpa using hr), get_insert, if_pos rfl]
            refine ⟨by simp, hkey, fun m hm => ?_⟩
            rcases (hks m).1 hm with h' | ⟨-, rfl⟩
            · exact (ih.2.2 m h').trans hr.le
            · exact le_rfl
          · rw [if_neg (by simpa using hr), hn]
            refine ⟨List.mem_append_left _ ih.1, ih.2.1, fun m hm => ?_⟩
            rcases (hks m).1 hm with h' | ⟨-, rfl⟩
            · exact ih.2.2 m h'
            · omega
      · -- another family's stub
        have hget : (if (newestRecordings seen)[hash]?.all (fun best => rank > best.1) then
            (newestRecordings seen).insert hash (rank, s) else newestRecordings seen)[h]? =
            (newestRecordings seen)[h]? := by
          split
          · rw [get_insert, if_neg hh]
          · rfl
        rw [hget]
        have hks' : ∀ n, (h, n) ∈ keys (seen ++ [s]) ↔ (h, n) ∈ keys seen := by
          intro n; rw [hks]; simp [Ne.symm hh]
        cases hn : (newestRecordings seen)[h]? with
        | none => rw [hn] at ih; intro n; rw [hks']; exact ih n
        | some best =>
          rw [hn] at ih
          exact ⟨List.mem_append_left _ ih.1, ih.2.1, fun m hm => ih.2.2 m ((hks' m).1 hm)⟩

/-- **Where keys are distinct, the newest of a family is its stub of highest rank.** -/
theorem newest_of_rank {stubs : List Stub} (hd : (keys stubs).Nodup) {x : Stub} {h : String} {n : ℕ} (hx : x ∈ stubs)
    (hk : stubKey x = some (h, n)) (hmax : ∀ m, (h, m) ∈ keys stubs → m ≤ n) :
    (newestRecordings stubs)[h]? = some (n, x) := by
  have hs := newestRecordings_spec stubs h
  cases hn : (newestRecordings stubs)[h]? with
  | none => rw [hn] at hs; exact absurd (mem_keys.2 ⟨x, hx, hk⟩) (hs n)
  | some best =>
    obtain ⟨m, y⟩ := best
    rw [hn] at hs
    obtain ⟨hy, hky, hbest⟩ := hs
    have h1 := hbest n (mem_keys.2 ⟨x, hx, hk⟩)
    have h2 := hmax m (mem_keys.2 ⟨y, hy, hky⟩)
    obtain rfl : n = m := by omega
    rw [eq_of_stubKey hd hx hy hk hky]

variable {U : Upstream}

/-- **An edit forgets a signature exactly when it leaves no stub of the id and value of
the family's newest.** -/
theorem mem_orphaned_iff {before after : List Stub} (hd : (keys before).Nodup) {x : Stub} {h : String} {n : ℕ}
    (hx : x ∈ before) (hk : stubKey x = some (h, n)) (hmax : ∀ m, (h, m) ∈ keys before → m ≤ n) :
    h ∈ orphanedRecordings U before after ↔ ¬ ∃ y ∈ after, y.id = x.id ∧ U.stubValue y = U.stubValue x := by
  have hnew := newest_of_rank hd hx hk hmax
  simp only [orphanedRecordings, List.mem_map, List.mem_filter]
  constructor
  · rintro ⟨⟨h', m, y⟩, ⟨hmem, hkeep⟩, rfl⟩
    rw [mem_toList, hnew] at hmem
    cases hmem
    simpa [keepsStub] using hkeep
  · intro hno
    exact ⟨(h, n, x), ⟨mem_toList.2 hnew, by simpa [keepsStub] using hno⟩, rfl⟩

end RiftCluster
