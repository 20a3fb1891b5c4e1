import RiftCluster.Proof.Rows

/-!
# What an operation leaves behind

One inversion lemma per table, over all operations:

* `mutate_row`: a port's row is as it was, is gone, or is the one the operation
  writes (`RowWrite`), with the applying index as its revision;
* `mutate_marker`: a recorded marker is as it was, is gone, or was absent and is
  written by a recording that does not merge;
* `mutate_routes`: the route table and its revision are as they were, or the
  revision is the applying index.
-/

namespace RiftCluster

open KV

variable {U : Upstream} {t : Tables}

/-! ## Field by field -/

section Fields

variable (p : Port) (config : ImposterConfig) (enabled : Bool) (revision index : ℕ) (hashes : List String)
  (h : String) (resp : RecordedResponse)

theorem store_get (q : Port) : (t.store U p config enabled revision).configs[q]? =
    if p = q then some (Row.text U ⟨config, enabled, revision⟩) else t.configs[q]? := get_insert _ _ _ _

@[simp] theorem store_proxyRecorded : (t.store U p config enabled revision).proxyRecorded = t.proxyRecorded := rfl

@[simp] theorem forget_configs : (t.forget p hashes).configs = t.configs := rfl

@[simp] theorem mark_configs : (t.mark U p h resp).configs = t.configs := rfl

theorem mark_get (key : Port × String) : (t.mark U p h resp).proxyRecorded[key]? =
    if (p, h) = key then some (U.recorded.write resp) else t.proxyRecorded[key]? := get_insert _ _ _ _

/-- What a put forgets of the markers, before it writes the row. -/
def putForgets (U : Upstream) (t : Tables) (p : Port) (config : ImposterConfig) (restart : Option Restart) : Tables :=
  if restart = some .imposter then
    (t.forgetReplaced U p config).forget p (stubLessMarkers (t.forgetReplaced U p config) p config.stubs)
  else t.forgetReplaced U p config

theorem forgetReplaced_spec : (t.forgetReplaced U p config).configs = t.configs ∧
    (t.forgetReplaced U p config).routes = t.routes ∧
    (t.forgetReplaced U p config).routesRevision = t.routesRevision ∧
    ∀ key : Port × String, (t.forgetReplaced U p config).proxyRecorded[key]? = t.proxyRecorded[key]? ∨
      key.1 = p ∧ (t.forgetReplaced U p config).proxyRecorded[key]? = none := by
  have hforget : ∀ key : Port × String, (t.forgetPort p).proxyRecorded[key]? = t.proxyRecorded[key]? ∨
      key.1 = p ∧ (t.forgetPort p).proxyRecorded[key]? = none := by
    intro key
    rw [get_forgetPort]
    split
    · exact .inr ⟨‹_›, rfl⟩
    · exact .inl rfl
  unfold Tables.forgetReplaced
  split
  · split
    · refine ⟨rfl, rfl, rfl, fun key => ?_⟩
      rw [get_forget]
      split
      · rename_i hk; exact .inr ⟨hk.1, rfl⟩
      · exact .inl rfl
    · exact ⟨rfl, rfl, rfl, hforget⟩
    · exact ⟨rfl, rfl, rfl, hforget⟩
  · exact ⟨rfl, rfl, rfl, fun _ => .inl rfl⟩

theorem putForgets_spec (restart : Option Restart) : (putForgets U t p config restart).configs = t.configs ∧
    (putForgets U t p config restart).routes = t.routes ∧
    (putForgets U t p config restart).routesRevision = t.routesRevision ∧
    ∀ key : Port × String, (putForgets U t p config restart).proxyRecorded[key]? = t.proxyRecorded[key]? ∨
      key.1 = p ∧ (putForgets U t p config restart).proxyRecorded[key]? = none := by
  obtain ⟨h1, h2, h3, h4⟩ := forgetReplaced_spec (U := U) (t := t) p config
  unfold putForgets
  split
  · refine ⟨h1, h2, h3, fun key => ?_⟩
    rw [get_forget]
    split
    · rename_i hk; exact .inr ⟨hk.1, rfl⟩
    · exact h4 key
  · exact ⟨h1, h2, h3, h4⟩

end Fields

/-! ## The operations as table updates -/

theorem putImposter_tables {config : ImposterConfig} {p : Port} (hport : config.port = some p) (restart : Option Restart)
    (index : ℕ) (degraded : Bool) :
    (putImposter U t config restart index degraded).1 =
      (putForgets U t p config restart).store U p config config.enabled index := by
  unfold putImposter
  simp only [hport]
  cases degraded <;> rfl

theorem proxyRecorded_tables {p : Port} {r : Row} (hrow : t.configs[p]? = some (r.text U)) (h : String)
    (resp : RecordedResponse) (recorded : RecordedStub) (index : ℕ)
    (hnew : (t.proxyRecorded[(p, h)]?.isSome && !merging (some recorded)) = false) :
    (proxyRecorded U t p h resp (some recorded) index).1 =
      (let placed := placeRecordedStub r.config.stubs (recordedStubValue r.config.stubs recorded h index)
        recorded.placement recorded.proxyTo recorded.anchorIndex
      let stored := t.store U p { r.config with stubs := placed.1 } r.enabled index
      if merging (some recorded) then stored else stored.mark U p h resp) := by
  unfold proxyRecorded
  rw [if_neg (by rw [hnew]; decide), if_neg (by simp [hrow]), storedImposter_text hrow]
  dsimp only
  split <;> rfl

theorem proxyRecordedClear_tables {p : Port} {r : Row} (hrow : t.configs[p]? = some (r.text U)) (index : ℕ)
    (degraded : Bool) :
    (proxyRecordedClear U t p index degraded).1 =
      if (stripProxyResponses r.config.stubs).2 then
        (t.forgetPort p).store U p { r.config with stubs := (stripProxyResponses r.config.stubs).1 } r.enabled index
      else t.forgetPort p := by
  have hrow' : (t.forgetPort p).configs[p]? = some (r.text U) := hrow
  unfold proxyRecordedClear
  dsimp only
  rw [storedImposter_text hrow']
  dsimp only
  split <;> rfl

/-! ## What an operation can do -/

def ControlOp.removes (op : ControlOp) (p : Port) : Prop :=
  match op with
  | .deleteImposter q => q = p
  | .deleteAll => True
  | _ => False

def ControlOp.forgets (op : ControlOp) (p : Port) : Prop :=
  match op with
  | .putImposter config _ => config.port = some p
  | .patchStubs q _ | .deleteImposter q | .proxyRecordedClear q => q = p
  | .deleteAll => True
  | _ => False

theorem storedImposter_cases (hok : TablesOk U t) (p : Port) :
    (t.configs[p]? = none ∧ storedImposter U t p = .error s!"no imposter on port {p}") ∨
      ∃ r : Row, t.configs[p]? = some (r.text U) ∧ r.config.port = some p ∧
        storedImposter U t p = .ok (⟨U.config.write r.config, r.enabled, r.revision⟩, r.config) := by
  cases hrow : t.configs[p]? with
  | none => exact .inl ⟨rfl, storedImposter_none hrow⟩
  | some row =>
    obtain ⟨r, rfl, hport⟩ := hok.configs p row hrow
    exact .inr ⟨r, rfl, hport, storedImposter_text hrow⟩

/-- The row an operation writes for a port, from the row it finds there. -/
inductive RowWrite (U : Upstream) (t : Tables) (index : ℕ) (p : Port) : ControlOp → Row → Prop
  | put {config : ImposterConfig} {restart : Option Restart} (hport : config.port = some p) :
    RowWrite U t index p (.putImposter config restart) ⟨config, config.enabled, index⟩
  | patch {r : Row} {edit : StubEditScript} {stubs : List Stub} (hrow : t.configs[p]? = some (r.text U))
    (hedit : applyEdit U r.config.stubs edit = .ok stubs) :
    RowWrite U t index p (.patchStubs p edit) ⟨{ r.config with stubs }, r.enabled, index⟩
  | toggle {r : Row} {enabled : Bool} (hrow : t.configs[p]? = some (r.text U)) :
    RowWrite U t index p (.setEnabled p enabled) ⟨{ r.config with enabled }, enabled, index⟩
  | record {r : Row} {h : String} {resp : RecordedResponse} {recorded : RecordedStub}
    (hrow : t.configs[p]? = some (r.text U))
    (hnew : (t.proxyRecorded[(p, h)]?.isSome && !merging (some recorded)) = false) :
    RowWrite U t index p (.proxyRecorded p h resp (some recorded))
      ⟨{ r.config with stubs := (placeRecordedStub r.config.stubs (recordedStubValue r.config.stubs recorded h index)
          recorded.placement recorded.proxyTo recorded.anchorIndex).1 }, r.enabled, index⟩
  | clear {r : Row} (hrow : t.configs[p]? = some (r.text U)) (hstrip : (stripProxyResponses r.config.stubs).2 = true) :
    RowWrite U t index p (.proxyRecordedClear p)
      ⟨{ r.config with stubs := (stripProxyResponses r.config.stubs).1 }, r.enabled, index⟩

theorem RowWrite.revision {index : ℕ} {p : Port} {op : ControlOp} {r : Row} (h : RowWrite U t index p op r) :
    r.revision = index := by
  cases h <;> rfl

theorem store_row_cases {P : Row → Prop} (t' : Tables) (h' : t'.configs = t.configs) (q : Port)
    (config : ImposterConfig) (enabled : Bool) (index : ℕ) (p : Port) (hP : q = p → P ⟨config, enabled, index⟩) :
    (t'.store U q config enabled index).configs[p]? = t.configs[p]? ∨
      ∃ r : Row, P r ∧ (t'.store U q config enabled index).configs[p]? = some (r.text U) := by
  rw [store_get, h']
  by_cases hq : q = p
  · exact .inr ⟨_, hP hq, if_pos hq⟩
  · exact .inl (if_neg hq)

/-- **What an operation does to a port's row**: nothing, remove it, or write it at the
applying index. -/
theorem mutate_row (hok : TablesOk U t) (op : ControlOp) (index : ℕ) (degraded : Bool) (p : Port) :
    (mutateTables U t op index degraded).1.configs[p]? = t.configs[p]? ∨
      (op.removes p ∧ (mutateTables U t op index degraded).1.configs[p]? = none) ∨
      ∃ r : Row, RowWrite U t index p op r ∧
        (mutateTables U t op index degraded).1.configs[p]? = some (r.text U) := by
  cases op with
  | putImposter config restart =>
    simp only [mutateTables]
    cases hport : config.port with
    | none => exact .inl (by simp only [putImposter, hport])
    | some q =>
      rw [putImposter_tables hport]
      exact Or.imp_right .inr (store_row_cases _ (putForgets_spec q config restart).1 q config config.enabled index p
        fun hq => .put (hq ▸ hport))
  | patchStubs q edit =>
    simp only [mutateTables, patchStubs]
    rcases storedImposter_cases hok q with ⟨-, hs⟩ | ⟨r, hrow, -, hs⟩
    · rw [hs]; exact .inl rfl
    · rw [hs]
      dsimp only
      split
      · exact .inl rfl
      · exact Or.imp_right .inr (store_row_cases t rfl q _ _ index p fun hq => hq ▸ .patch hrow ‹_›)
  | deleteImposter q =>
    have h : ∀ d, (deleteImposter U t q d).1.configs[p]? = if q = p then none else t.configs[p]? := by
      intro d; cases d <;> exact get_erase _ _ _
    simp only [mutateTables, h]
    by_cases hq : q = p
    · exact .inr (.inl ⟨hq, if_pos hq⟩)
    · exact .inl (if_neg hq)
  | deleteAll => exact .inr (.inl ⟨trivial, by simp only [mutateTables, deleteAll, retain_none]; exact get_empty _⟩)
  | setEnabled q enabled =>
    simp only [mutateTables, setEnabled]
    rcases storedImposter_cases hok q with ⟨-, hs⟩ | ⟨r, hrow, -, hs⟩
    · rw [hs]; exact .inl rfl
    · rw [hs]
      exact Or.imp_right .inr (store_row_cases t rfl q _ _ index p fun hq => hq ▸ .toggle hrow)
  | putRoutes table => exact .inl rfl
  | deleteRoute id => exact .inl rfl
  | sessionKeyPut key => exact .inl rfl
  | fleetNamePut name => exact .inl rfl
  | proxyRecorded q h resp stub =>
    simp only [mutateTables]
    rcases storedImposter_cases hok q with ⟨hnone, -⟩ | ⟨r, hrow, -, -⟩
    · unfold proxyRecorded
      rw [if_pos (by simp [hnone] : t.configs[q]?.isNone = true)]
      split <;> exact .inl rfl
    · cases hnew : t.proxyRecorded[(q, h)]?.isSome && !merging stub with
      | true => exact .inl (by simp only [proxyRecorded, hnew, if_true])
      | false =>
        cases stub with
        | none => exact .inl (by simp only [proxyRecorded, hnew, hrow]; rfl)
        | some recorded =>
          rw [proxyRecorded_tables hrow h resp recorded index hnew]
          dsimp only
          split <;> exact Or.imp_right .inr (store_row_cases t rfl q _ _ index p fun hq => hq ▸ .record hrow hnew)
  | proxyRecordedClear q =>
    simp only [mutateTables]
    rcases storedImposter_cases hok q with ⟨hnone, -⟩ | ⟨r, hrow, -, -⟩
    · have hn : (t.forgetPort q).configs[q]? = none := hnone
      exact .inl (by simp only [proxyRecordedClear, storedImposter_none hn]; rfl)
    · rw [proxyRecordedClear_tables hrow]
      split
      · exact Or.imp_right .inr (store_row_cases (t.forgetPort q) rfl q _ _ index p fun hq => hq ▸ .clear hrow ‹_›)
      · exact .inl rfl

/-- **What an operation does to the route table**: nothing, or leave it stamped with the
applying index. -/
theorem mutate_routes (hok : TablesOk U t) (op : ControlOp) (index : ℕ) (degraded : Bool) :
    ((mutateTables U t op index degraded).1.routes = t.routes ∧
        (mutateTables U t op index degraded).1.routesRevision = t.routesRevision) ∨
      (mutateTables U t op index degraded).1.routesRevision = t.routesRevision.insert routesRevisionRow index := by
  cases op with
  | putImposter config restart =>
    simp only [mutateTables]
    cases hport : config.port with
    | none => exact .inl (by simp only [putImposter, hport, and_self])
    | some q =>
      rw [putImposter_tables hport]
      obtain ⟨-, h2, h3, -⟩ := putForgets_spec (U := U) (t := t) q config restart
      exact .inl ⟨h2, h3⟩
  | patchStubs q edit =>
    simp only [mutateTables, patchStubs]
    split
    · exact .inl ⟨rfl, rfl⟩
    · split <;> exact .inl ⟨rfl, rfl⟩
  | deleteImposter q => cases degraded <;> exact .inl ⟨rfl, rfl⟩
  | deleteAll => exact .inl ⟨rfl, rfl⟩
  | setEnabled q enabled => simp only [mutateTables, setEnabled]; split <;> exact .inl ⟨rfl, rfl⟩
  | putRoutes table => exact .inr rfl
  | deleteRoute id => exact .inr rfl
  | sessionKeyPut key => exact .inl ⟨rfl, rfl⟩
  | fleetNamePut name => exact .inl ⟨rfl, rfl⟩
  | proxyRecorded q h resp stub =>
    simp only [mutateTables]
    rcases storedImposter_cases hok q with ⟨hnone, -⟩ | ⟨r, hrow, -, -⟩
    · unfold proxyRecorded
      rw [if_pos (by simp [hnone] : t.configs[q]?.isNone = true)]
      split <;> exact .inl ⟨rfl, rfl⟩
    · cases hnew : t.proxyRecorded[(q, h)]?.isSome && !merging stub with
      | true => exact .inl (by simp only [proxyRecorded, hnew, if_true, and_self])
      | false =>
        cases stub with
        | none => exact .inl (by simp only [proxyRecorded, hnew, hrow]; exact ⟨rfl, rfl⟩)
        | some recorded =>
          rw [proxyRecorded_tables hrow h resp recorded index hnew]
          dsimp only
          split <;> exact .inl ⟨rfl, rfl⟩
  | proxyRecordedClear q =>
    simp only [mutateTables]
    rcases storedImposter_cases hok q with ⟨hnone, -⟩ | ⟨r, hrow, -, -⟩
    · have hn : (t.forgetPort q).configs[q]? = none := hnone
      exact .inl (by simp only [proxyRecordedClear, storedImposter_none hn]; exact ⟨rfl, rfl⟩)
    · rw [proxyRecordedClear_tables hrow]
      split <;> exact .inl ⟨rfl, rfl⟩

/-- **What an operation does to a marker**: nothing, remove it, or write one that was not
there, for a port that has a row, by a recording that does not merge. -/
theorem mutate_marker (hok : TablesOk U t) (op : ControlOp) (index : ℕ) (degraded : Bool) (p : Port) (h : String) :
    (mutateTables U t op index degraded).1.proxyRecorded[(p, h)]? = t.proxyRecorded[(p, h)]? ∨
      (op.forgets p ∧ (mutateTables U t op index degraded).1.proxyRecorded[(p, h)]? = none) ∨
      (∃ resp stub, op = .proxyRecorded p h resp stub ∧ merging stub = false ∧ t.proxyRecorded[(p, h)]? = none ∧
        t.configs[p]?.isSome ∧
        (mutateTables U t op index degraded).1.proxyRecorded[(p, h)]? = some (U.recorded.write resp)) := by
  have hport : ∀ q, (t.forgetPort q).proxyRecorded[(p, h)]? = t.proxyRecorded[(p, h)]? ∨
      q = p ∧ (t.forgetPort q).proxyRecorded[(p, h)]? = none := by
    intro q
    rw [get_forgetPort]
    by_cases hq : p = q
    · exact .inr ⟨hq.symm, if_pos hq⟩
    · exact .inl (if_neg hq)
  cases op with
  | putImposter config restart =>
    simp only [mutateTables]
    cases hq : config.port with
    | none => exact .inl (by simp only [putImposter, hq])
    | some q =>
      rw [putImposter_tables hq]
      obtain ⟨-, -, -, h4⟩ := putForgets_spec (U := U) (t := t) q config restart
      rcases h4 (p, h) with h4 | ⟨rfl, h4⟩
      · exact .inl h4
      · exact .inr (.inl ⟨hq, h4⟩)
  | patchStubs q edit =>
    simp only [mutateTables, patchStubs]
    split
    · exact .inl rfl
    · split
      · exact .inl rfl
      · dsimp only
        rw [get_forget]
        split
        · rename_i hk; exact .inr (.inl ⟨hk.1.symm, rfl⟩)
        · exact .inl rfl
  | deleteImposter q =>
    have hd : ∀ d, (deleteImposter U t q d).1.proxyRecorded = (t.forgetPort q).proxyRecorded := by
      intro d; cases d <;> rfl
    simp only [mutateTables, hd]
    exact Or.imp_right .inl (hport q)
  | deleteAll =>
    exact .inr (.inl ⟨trivial, by simp only [mutateTables, deleteAll, retain_none]; exact get_empty _⟩)
  | setEnabled q enabled => simp only [mutateTables, setEnabled]; split <;> exact .inl rfl
  | putRoutes table => exact .inl rfl
  | deleteRoute id => exact .inl rfl
  | sessionKeyPut key => exact .inl rfl
  | fleetNamePut name => exact .inl rfl
  | proxyRecorded q h' resp stub =>
    simp only [mutateTables]
    rcases storedImposter_cases hok q with ⟨hnone, -⟩ | ⟨r, hrow, -, -⟩
    · unfold proxyRecorded
      rw [if_pos (by simp [hnone] : t.configs[q]?.isNone = true)]
      split <;> exact .inl rfl
    · cases hnew : t.proxyRecorded[(q, h')]?.isSome && !merging stub with
      | true => exact .inl (by simp only [proxyRecorded, hnew, if_true])
      | false =>
        -- the marker a recording writes, when it writes one
        have hmark : merging stub = false → ∀ t' : Tables, t'.proxyRecorded = t.proxyRecorded →
            (t'.mark U q h' resp).proxyRecorded[(p, h)]? = t.proxyRecorded[(p, h)]? ∨
              (q = p ∧ h' = h) ∧ t.proxyRecorded[(p, h)]? = none ∧ t.configs[p]?.isSome ∧
                (t'.mark U q h' resp).proxyRecorded[(p, h)]? = some (U.recorded.write resp) := by
          intro hm t' ht'
          rw [mark_get, ht']
          by_cases hk : (q, h') = (p, h)
          · obtain ⟨rfl, rfl⟩ := Prod.mk.inj hk
            have hnone : t.proxyRecorded[(q, h')]? = none := by
              rw [hm, Bool.not_false, Bool.and_true] at hnew
              exact Option.isSome_eq_false_iff.1 hnew |> Option.isNone_iff_eq_none.1
            exact .inr ⟨⟨rfl, rfl⟩, hnone, by simp [hrow], if_pos rfl⟩
          · exact .inl (if_neg hk)
        cases stub with
        | none =>
          have heq : (proxyRecorded U t q h' resp none index).1 = t.mark U q h' resp := by
            simp only [proxyRecorded, hnew, hrow]; rfl
          rw [heq]
          rcases hmark rfl t rfl with hm | ⟨⟨rfl, rfl⟩, h1, h2, h3⟩
          · exact .inl hm
          · exact .inr (.inr ⟨resp, none, rfl, rfl, h1, h2, h3⟩)
        | some recorded =>
          rw [proxyRecorded_tables hrow h' resp recorded index hnew]
          dsimp only
          split
          · exact .inl rfl
          · rename_i hm
            have hm' : merging (some recorded) = false := by simpa using hm
            rcases hmark hm' (t.store U q _ r.enabled index) rfl with hm | ⟨⟨rfl, rfl⟩, h1, h2, h3⟩
            · exact .inl hm
            · exact .inr (.inr ⟨resp, some recorded, rfl, hm', h1, h2, h3⟩)
  | proxyRecordedClear q =>
    simp only [mutateTables]
    rcases storedImposter_cases hok q with ⟨hnone, -⟩ | ⟨r, hrow, -, -⟩
    · have hn : (t.forgetPort q).configs[q]? = none := hnone
      simp only [proxyRecordedClear, storedImposter_none hn]
      exact Or.imp_right .inl (hport q)
    · rw [proxyRecordedClear_tables hrow]
      split <;> exact Or.imp_right .inl (hport q)

end RiftCluster
