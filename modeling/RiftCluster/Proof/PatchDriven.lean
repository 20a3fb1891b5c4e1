import RiftCluster.Model.LiveStubs
import RiftCluster.Proof.StoredRows

/-!
# The driven stub list is the committed one

`drive_patch` runs on the engine's list what `apply_edit` has run on the committed one. Where
ids are distinct an id has one slot, however the engine looks it up (`find_eq_position`), so the two
go through the same lists step by step; the delete of a space is a filter on one side and a run
of deletes from the last slot on the other.
-/

namespace RiftCluster

variable {U : Upstream} {E : StubIndex} {live live' : List Stub}

/-- **With distinct ids, the engine finds the slot the edit finds.** -/
theorem find_eq_position (hd : (ids live).Nodup) (id : String) : E.find live id = position live id := by
  cases hfind : E.find live id with
  | none =>
    symm
    rw [position, List.findIdx?_eq_none_iff]
    intro stub hmem
    simpa using E.misses hfind stub hmem
  | some i =>
    obtain ⟨stub, hi, hid⟩ := E.finds hfind
    exact (position_of_unique hd hi hid).symm

theorem foldlM_deleteStub_live (is : List ℕ) : ∀ live : List Stub, is.Pairwise (· > ·) → (∀ i ∈ is, i < live.length) →
    is.foldlM deleteStub live = .ok (is.foldl List.eraseIdx live) := by
  induction is with
  | nil => exact fun live _ _ => rfl
  | cons i is ih =>
    intro live hs hlt
    rw [List.pairwise_cons] at hs
    have hi := hlt i List.mem_cons_self
    rw [List.foldlM_cons, deleteStub, if_pos hi]
    refine ih (live.eraseIdx i) hs.2 fun j hj => ?_
    have hji : j < i := hs.1 j hj
    rw [List.length_eraseIdx_of_lt hi]
    omega

/-- **One step.** What the edit makes of a list, the call makes of it too. -/
theorem drivePatchStep_ok (hd : (ids live).Nodup) {step : StubEdit} (h : applyStep U live step = .ok live') :
    drivePatchStep E live step = .ok live' := by
  cases step with
  | add stub index =>
    simp only [applyStep, drivePatchStep, addStub] at h ⊢
    cases hid : stub.id with
    | none =>
      simp only [hid, Option.filter_none] at h ⊢
      cases h
      rfl
    | some id =>
      simp only [hid, Option.filter_some] at h ⊢
      by_cases hany : (live.any fun s => s.id == some id) = true
      · rw [if_pos hany] at h
        cases h
      · rw [if_neg hany] at h
        have hfree : ¬ (live.any fun s => decide (s.id = some id)) = true := by simpa using hany
        rw [if_neg hfree]
        cases h
        rfl
  | replaceById id stub =>
    simp only [applyStep, drivePatchStep, replaceStubById, find_eq_position hd] at h ⊢
    cases hpos : position live id with
    | none =>
      rw [hpos] at h
      cases h
    | some i =>
      rw [hpos] at h
      cases h
      rfl
  | deleteById id =>
    simp only [applyStep, drivePatchStep, deleteStubById, find_eq_position hd] at h ⊢
    cases hpos : position live id with
    | none =>
      rw [hpos] at h
      cases h
    | some i =>
      rw [hpos] at h
      cases h
      rfl
  | deleteBySpace space =>
    cases h
    have hdown : (doomed live space).reverse.Pairwise (· > ·) := List.pairwise_reverse.2 (doomed_sorted live space)
    rw [drivePatchStep, foldlM_deleteStub_live _ live hdown fun i hi => doomed_lt (List.mem_reverse.1 hi), eraseIdx_doomed]
  | move src dst =>
    simp only [applyStep, drivePatchStep, moveStub] at h ⊢
    cases hsrc : live[src]? with
    | none =>
      rw [hsrc] at h
      cases h
    | some stub =>
      rw [hsrc] at h
      by_cases hdst : dst < live.length
      · simp only [if_pos hdst] at h ⊢
        cases h
        rfl
      · simp only [if_neg hdst] at h
        cases h

/-- **A whole script**, by induction on its steps: the ids stay distinct along it. -/
theorem drivePatch_ok (edit : StubEditScript) : ∀ {live live' : List Stub}, (ids live).Nodup →
    applyEdit U live edit = .ok live' → drivePatch E live edit = .ok live' := by
  induction edit with
  | nil => exact fun _ h => by cases h; rfl
  | cons step edit ih =>
    intro live live' hd h
    rw [applyEdit, List.foldlM_cons] at h
    cases hs : applyStep U live step with
    | error e => rw [hs] at h; cases h
    | ok mid =>
      rw [hs] at h
      have hmid : (ids mid).Nodup := ids_applyEdit (U := U) [step] hd (by rw [applyEdit, List.foldlM_cons, hs]; rfl)
      rw [drivePatch, List.foldlM_cons, drivePatchStep_ok hd hs]
      exact ih hmid h

/-- **The committed and the driven list agree.** For every list with distinct ids and every script:
if `apply_edit` accepts it, every call of `drive_patch` on the same list succeeds, they end with the
list that was committed, and its ids are distinct again; if not, the list stays, and so do the
tables a `PatchStubs` with that script is applied to. -/
theorem patch_driven_as_committed (U : Upstream) (E : StubIndex) (stubs : List Stub) (edit : StubEditScript)
    (hd : (ids stubs).Nodup) :
    (∀ next, applyEditTo U stubs edit = (next, .ok ()) → drivePatch E stubs edit = .ok next ∧ (ids next).Nodup) ∧
      ∀ next reason, applyEditTo U stubs edit = (next, .error reason) → next = stubs ∧
        ∀ (t : Tables) (port : Port) (index : ℕ) (record : StoredImposter) (config : ImposterConfig),
          storedImposter U t port = .ok (record, config) → config.stubs = stubs →
          patchStubs U t port edit index = (t, .error reason) := by
  unfold applyEditTo
  cases hedit : applyEdit U stubs edit with
  | ok committed =>
    refine ⟨fun next h => ?_, fun next reason h => (by cases h)⟩
    cases h
    exact ⟨drivePatch_ok edit hd hedit, ids_applyEdit edit hd hedit⟩
  | error e =>
    refine ⟨fun next h => (by cases h), fun next reason h => ?_⟩
    cases h
    refine ⟨rfl, ?_⟩
    rintro t port index record config hstored rfl
    simp only [patchStubs, hstored, hedit]

def frontIndex : StubIndex where
  find := position
  finds h := by
    obtain ⟨hlt, hid, -⟩ := List.findIdx?_eq_some_iff_getElem.1 h
    exact ⟨_, List.getElem?_eq_getElem hlt, by simpa using hid⟩
  misses h stub hmem := by simpa using List.findIdx?_eq_none_iff.1 h stub hmem

def threeStubs : List Stub :=
  [{ id := some "a", responses := [] }, { id := none, space := some "cart", responses := [] },
    { id := some "c", space := some "cart", responses := [] }]

/-- An add past the end, a move, the delete of a space and a replacement. -/
def mixedScript : StubEditScript :=
  [.add { id := some "d", responses := [] } (some 9), .move 0 2, .deleteBySpace "cart",
    .replaceById "a" { id := none, responses := [.other "new"] }]

theorem mixedScript_driven :
    (ids threeStubs).Nodup ∧
      applyEditTo jsonUpstream threeStubs mixedScript =
        ([{ id := some "a", responses := [.other "new"] }, { id := some "d", responses := [] }], .ok ()) ∧
      drivePatch frontIndex threeStubs mixedScript =
        .ok [{ id := some "a", responses := [.other "new"] }, { id := some "d", responses := [] }] := by
  have hedit : applyEditTo jsonUpstream threeStubs mixedScript =
      ([{ id := some "a", responses := [.other "new"] }, { id := some "d", responses := [] }], .ok ()) := by rfl
  exact ⟨by decide, hedit,
    ((patch_driven_as_committed jsonUpstream frontIndex threeStubs mixedScript (by decide)).1 _ hedit).1⟩

end RiftCluster
