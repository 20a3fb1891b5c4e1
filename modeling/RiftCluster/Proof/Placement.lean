import RiftCluster.Proof.RecordedIds

/-!
# What edits do to the recorded stubs of a list

* `placed_cases`: a placed recording is one more stub, or one stub of the list
  with more responses.
* `keys_applyEdit`, `keys_strip`: an edit script and a clear never make two stubs
  spell one key, provided the script adds no recorded id that was not there.
-/

namespace RiftCluster

open KV

variable {U : Upstream}

/-! ## Placing a recording -/

theorem findFrom_lt {stubs : List Stub} {start i : ℕ} {p : Stub → Bool} (h : findFrom stubs start p = some i) :
    i < stubs.length := by
  unfold findFrom at h
  obtain ⟨j, hj, rfl⟩ := Option.map_eq_some_iff.1 h
  obtain ⟨hlt, -⟩ := List.findIdx?_eq_some_iff_getElem.1 hj
  rw [List.length_drop] at hlt
  omega

theorem placementAnchor_lt {stubs : List Stub} {proxyTo : String} {anchor : Option ℕ} {i : ℕ}
    (h : placementAnchor stubs proxyTo anchor = some i) : i < stubs.length := by
  unfold placementAnchor at h
  rcases Option.or_eq_some_iff.1 h with h' | ⟨-, h'⟩
  · obtain ⟨start, -, hs⟩ := Option.bind_eq_some_iff.1 h'
    exact findFrom_lt hs
  · exact (List.findIdx?_eq_some_iff_getElem.1 h').1

/-- **What placing a recording does**: it inserts the stub, or appends its responses to
one stub of the list. -/
theorem placed_cases (stubs : List Stub) (stub : Stub) (placement : RecordedStubPlacement) (proxyTo : String)
    (anchor : Option ℕ) :
    (∃ i, i ≤ stubs.length ∧
        placeRecordedStub stubs stub placement proxyTo anchor = (stubs.insertIdx i stub, .inserted i)) ∨
      ∃ i target, placement = .afterProxyMerging ∧ stubs[i]? = some target ∧
        placeRecordedStub stubs stub placement proxyTo anchor =
          (stubs.set i { target with responses := target.responses ++ stub.responses },
            match target.id with
            | some id => .mergedInto i id
            | none => .mergedAnonymous) := by
  cases placement with
  | beforeProxy =>
    refine .inl ⟨(placementAnchor stubs proxyTo anchor).getD stubs.length, ?_, rfl⟩
    cases h : placementAnchor stubs proxyTo anchor with
    | none => exact le_rfl
    | some i => exact (placementAnchor_lt h).le
  | afterProxyMerging =>
    cases h : mergeTarget stubs stub proxyTo anchor with
    | none =>
      refine .inl ⟨stubs.length, le_rfl, ?_⟩
      simp only [placeRecordedStub, h, List.insertIdx_length_self]
    | some i =>
      have hi : i < stubs.length := findFrom_lt h
      have hget : stubs[i]? = some stubs[i] := List.getElem?_eq_getElem hi
      refine .inr ⟨i, stubs[i], rfl, hget, ?_⟩
      simp only [placeRecordedStub, h, hget, Option.bind_some]
      rw [List.modify_eq_set_get _ hi]
      rfl

theorem mem_set_of_ne {stubs : List Stub} {i : ℕ} {target new x : Stub} (hi : stubs[i]? = some target) (hx : x ∈ stubs)
    (hne : x ≠ target) : x ∈ stubs.set i new := by
  obtain ⟨j, hj, rfl⟩ := List.getElem_of_mem hx
  have hij : i ≠ j := by
    rintro rfl
    rw [List.getElem?_eq_getElem hj] at hi
    exact hne (Option.some.inj hi)
  rw [← List.getElem_set_ne hij (a := new) (by rw [List.length_set]; exact hj)]
  exact List.getElem_mem _

/-! ## Keys of an edited list -/

theorem keys_perm {a b : List Stub} (h : a.Perm b) : (keys a).Perm (keys b) := h.filterMap _

theorem keys_of_ids {a b : List Stub} (h : a.map Stub.id = b.map Stub.id) : keys a = keys b := by
  have hk : ∀ l : List Stub, keys l = (l.map Stub.id).filterMap (·.bind recordedId) := by
    intro l; rw [List.filterMap_map]; rfl
  rw [hk, hk, h]

theorem map_id_set_same {stubs : List Stub} {i : ℕ} {target new : Stub} (hi : stubs[i]? = some target)
    (hid : new.id = target.id) : (stubs.set i new).map Stub.id = stubs.map Stub.id := by
  rw [List.map_set, hid]
  obtain ⟨hlt, rfl⟩ := List.getElem?_eq_some_iff.1 hi
  apply List.ext_getElem (by simp)
  intro j h1 h2
  rw [List.getElem_set]
  split
  · rename_i h; subst h; simp
  · rfl

theorem keys_set_same {stubs : List Stub} {i : ℕ} {target new : Stub} (hi : stubs[i]? = some target)
    (hid : new.id = target.id) : keys (stubs.set i new) = keys stubs :=
  keys_of_ids (map_id_set_same hi hid)

theorem keys_append_responses {stubs : List Stub} {i : ℕ} {target : Stub} (hi : stubs[i]? = some target)
    (responses : List StubResponse) :
    keys (stubs.set i { target with responses := target.responses ++ responses }) = keys stubs :=
  keys_set_same hi rfl

def ids (stubs : List Stub) : List String := stubs.filterMap Stub.id

theorem mem_ids {stubs : List Stub} {id : String} : id ∈ ids stubs ↔ ∃ s ∈ stubs, s.id = some id := List.mem_filterMap

/-- No stub carries a recorded id that the list it came from did not hold. -/
def NoNewRecorded (orig next : List Stub) : Prop :=
  ∀ x ∈ next, ∀ id k, x.id = some id → recordedId id = some k → id ∈ ids orig

def AddsNoRecorded (orig : List Stub) (edit : StubEditScript) : Prop :=
  ∀ stub index id, StubEdit.add stub index ∈ edit → stub.id = some id →
    recordedStubIdPrefix.toList.isPrefixOf id.toList = true → id ∈ ids orig

theorem id_unique {orig : List Stub} (hd : (keys orig).Nodup) {a b : String} {k : String × ℕ} (ha : a ∈ ids orig)
    (hb : b ∈ ids orig) (hka : recordedId a = some k) (hkb : recordedId b = some k) : a = b := by
  obtain ⟨x, hx, hxa⟩ := mem_ids.1 ha
  obtain ⟨y, hy, hyb⟩ := mem_ids.1 hb
  have : x = y := eq_of_stubKey hd hx hy (k := k) (by rw [stubKey, hxa]; exact hka) (by rw [stubKey, hyb]; exact hkb)
  subst this
  rw [hxa] at hyb
  exact Option.some.inj hyb

/-- A list whose ids are distinct and whose recorded ids come from `orig` has distinct
keys if `orig` has. -/
theorem keys_nodup_of_ids {orig next : List Stub} (hd : (keys orig).Nodup) (hids : (ids next).Nodup)
    (hno : NoNewRecorded orig next) : (keys next).Nodup := by
  have hk : keys next = (ids next).filterMap recordedId := by
    rw [keys, ids, List.filterMap_filterMap]; rfl
  rw [hk]
  refine List.pairwise_filterMap.2 (hids.imp_of_mem fun {a b} ha hb hab k hka k' hkb => ?_)
  rintro rfl
  obtain ⟨x, hx, hxa⟩ := mem_ids.1 ha
  obtain ⟨y, hy, hyb⟩ := mem_ids.1 hb
  exact hab (id_unique hd (hno x hx a k hxa hka) (hno y hy b k hyb hkb) hka hkb)

theorem NoNewRecorded.sublist {orig next next' : List Stub} (h : NoNewRecorded orig next) (hs : ∀ x ∈ next', x ∈ next) :
    NoNewRecorded orig next' := fun x hx => h x (hs x hx)

/-- **What a step of a script does to the list**: one more stub, of an id that is not
there; another stub in the place of one with its id; fewer stubs; or another order. -/
theorem applyStep_cases {next next' : List Stub} {step : StubEdit} (h : applyStep U next step = .ok next') :
    (∃ stub index, step = .add stub index ∧ next'.Perm (stub :: next) ∧ ∀ id, stub.id = some id → id ∉ ids next) ∨
      (∃ i target new, next[i]? = some target ∧ new.id = target.id ∧ next' = next.set i new) ∨
      next'.Sublist next ∨ next'.Perm next := by
  cases step with
  | add stub index =>
    simp only [applyStep] at h
    split at h
    · cases h
    · rename_i hfree
      cases h
      refine .inl ⟨stub, index, rfl, List.perm_insertIdx _ _ (min_le_right _ _), fun id hid hmem => ?_⟩
      -- the step refuses an id that is there
      obtain ⟨z, hz, hzid⟩ := mem_ids.1 hmem
      rw [hid, Option.filter_some] at hfree
      split at hfree
      · cases hfree
      · rename_i hany
        exact hany (List.any_eq_true.2 ⟨z, hz, by simp [hzid]⟩)
  | replaceById id stub =>
    simp only [applyStep] at h
    split at h
    · cases h
    · rename_i i hpos
      cases h
      obtain ⟨hi, hpi, -⟩ := List.findIdx?_eq_some_iff_getElem.1 hpos
      exact .inr (.inl ⟨i, next[i], _, List.getElem?_eq_getElem hi, (beq_iff_eq.1 hpi).symm, rfl⟩)
  | deleteById id =>
    simp only [applyStep] at h
    split at h
    · cases h
    · cases h
      exact .inr (.inr (.inl (List.eraseIdx_sublist next (by assumption))))
  | deleteBySpace space =>
    simp only [applyStep] at h
    cases h
    exact .inr (.inr (.inl List.filter_sublist))
  | move src dst =>
    simp only [applyStep] at h
    split at h
    · cases h
    · rename_i stub hsrc
      split at h
      · rename_i hdst
        cases h
        obtain ⟨hlt, rfl⟩ := List.getElem?_eq_some_iff.1 hsrc
        refine .inr (.inr (.inr ((List.perm_insertIdx _ _ ?_).trans (List.getElem_cons_eraseIdx_perm hlt))))
        rw [List.length_eraseIdx_of_lt hlt]; omega
      · cases h

theorem keys_applyStep {orig next next' : List Stub} {step : StubEdit} (hd : (keys orig).Nodup)
    (hn : (keys next).Nodup) (hno : NoNewRecorded orig next)
    (hadd : ∀ stub index id, step = .add stub index → stub.id = some id →
      recordedStubIdPrefix.toList.isPrefixOf id.toList = true → id ∈ ids orig)
    (h : applyStep U next step = .ok next') : (keys next').Nodup ∧ NoNewRecorded orig next' := by
  rcases applyStep_cases h with ⟨stub, index, rfl, hp, hfresh⟩ | ⟨i, target, new, hget, hid, rfl⟩ | hs | hp
  · have hno' : NoNewRecorded orig (stub :: next) := by
      intro x hx id k hid hk
      rcases List.mem_cons.1 hx with rfl | hx
      · exact hadd x index id rfl hid (recordedId_some hk).1
      · exact hno x hx id k hid hk
    refine ⟨(keys_perm hp).nodup_iff.2 ?_, hno'.sublist fun x hx => hp.mem_iff.1 hx⟩
    cases hk : stubKey stub with
    | none => simpa [keys, hk] using hn
    | some k =>
      obtain ⟨id, hid, hrec⟩ := Option.bind_eq_some_iff.1 hk
      have hnotin : k ∉ keys next := by
        intro hmem
        obtain ⟨z, hz, hkz⟩ := mem_keys.1 hmem
        obtain ⟨b, hzb, hb⟩ := Option.bind_eq_some_iff.1 hkz
        have hab : id = b := id_unique hd (hno' stub List.mem_cons_self id k hid hrec) (hno z hz b k hzb hb) hrec hb
        subst hab
        exact hfresh id hid (mem_ids.2 ⟨z, hz, hzb⟩)
      have hc : keys (stub :: next) = k :: keys next := by simp [keys, hk]
      rw [hc]
      exact List.nodup_cons.2 ⟨hnotin, hn⟩
  · refine ⟨by rw [keys_set_same hget hid]; exact hn, fun x hx id' k hx' hk => ?_⟩
    rcases List.mem_or_eq_of_mem_set hx with hx | rfl
    · exact hno x hx id' k hx' hk
    · exact hno target (List.mem_of_getElem? hget) id' k (by rw [← hid]; exact hx') hk
  · exact ⟨hn.sublist (hs.filterMap _), hno.sublist fun x hx => hs.subset hx⟩
  · exact ⟨(keys_perm hp).nodup_iff.2 hn, hno.sublist fun x hx => hp.mem_iff.1 hx⟩

/-- **A script keeps the keys distinct.** -/
theorem keys_applyEdit {orig : List Stub} (hd : (keys orig).Nodup) (edit : StubEditScript) :
    ∀ {next next' : List Stub}, (keys next).Nodup → NoNewRecorded orig next → AddsNoRecorded orig edit →
      applyEdit U next edit = .ok next' → (keys next').Nodup ∧ NoNewRecorded orig next' := by
  induction edit with
  | nil =>
    intro next next' hn hno _ h
    cases h
    exact ⟨hn, hno⟩
  | cons step edit ih =>
    intro next next' hn hno hadd h
    rw [applyEdit, List.foldlM_cons] at h
    cases hs : applyStep U next step with
    | error e => rw [hs] at h; cases h
    | ok mid =>
      rw [hs] at h
      obtain ⟨h1, h2⟩ := keys_applyStep hd hn hno
        (fun stub index id heq => hadd stub index id (heq ▸ List.mem_cons_self)) hs
      exact ih h1 h2 (fun stub index id hmem => hadd stub index id (List.mem_cons_of_mem _ hmem)) h

theorem NoNewRecorded.refl (stubs : List Stub) : NoNewRecorded stubs stubs :=
  fun x hx _ _ hid _ => mem_ids.2 ⟨x, hx, hid⟩

theorem stripStub_id {s s' : Stub} (h : stripStub s = some s') : s'.id = s.id := by
  unfold stripStub at h
  split at h
  · dsimp only at h
    split at h
    · cases h
    · cases h; rfl
  · split at h
    · cases h; rfl
    · cases h

theorem filterMap_strip {α : Type} (f : Option String → Option α) (stubs : List Stub) :
    ((stripProxyResponses stubs).1.filterMap fun s => f s.id).Sublist (stubs.filterMap fun s => f s.id) := by
  simp only [stripProxyResponses]
  induction stubs with
  | nil => exact List.Sublist.slnil
  | cons s stubs ih =>
    cases hs : stripStub s with
    | none =>
      rw [List.filterMap_cons_none hs]
      exact ih.trans ((List.sublist_cons_self s stubs).filterMap _)
    | some s' =>
      have hk : f s'.id = f s.id := by rw [stripStub_id hs]
      rw [List.filterMap_cons_some hs]
      simp only [List.filterMap_cons, hk]
      cases f s.id with
      | none => exact ih
      | some k => exact ih.cons_cons k

theorem keys_strip (stubs : List Stub) : (keys (stripProxyResponses stubs).1).Sublist (keys stubs) :=
  filterMap_strip (·.bind recordedId) stubs

end RiftCluster
