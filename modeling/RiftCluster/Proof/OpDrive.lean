import RiftCluster.Model.Engine
import RiftCluster.Proof.Placement

/-!
# What an operation has the engine do

`OpDrive` lists, once for all operations, what the tables and the engine are given
when an operation applies: nothing, the whole set, one config, one delete, one edit
of a stored config, or a clear. `mutate_drive` says that these are all the cases.
-/

namespace RiftCluster

open KV

variable {U : Upstream} {t : Tables} {p : Port}

def stripped (config : ImposterConfig) : ImposterConfig :=
  { config with stubs := (stripProxyResponses config.stubs).1 }

theorem strip_of_not_removed {stubs : List Stub} (h : (stripProxyResponses stubs).2 = false) :
    (stripProxyResponses stubs).1 = stubs := by
  simp only [stripProxyResponses, Bool.or_eq_false_iff, bne_eq_false_iff_eq, List.any_eq_false] at h ⊢
  have hkeep : stubs.filterMap stripStub = stubs.filter fun s => s.recordedFrom.isNone := by
    rw [← List.filterMap_eq_filter]
    refine List.filterMap_congr fun s hs => ?_
    simp only [stripStub, if_neg (h.1 s hs), Option.guard]
  rw [hkeep] at h ⊢
  exact List.filter_eq_self.2 (List.length_filter_eq_length_iff.1 h.2)

def RowAt (U : Upstream) (t t' : Tables) (p : Port) (r : Row) : Prop :=
  ∀ q : Port, t'.configs[q]? = if p = q then some (r.text U) else t.configs[q]?

theorem RowAt.row {t' : Tables} {r : Row} (h : RowAt U t t' p r) : t'.configs[p]? = some (r.text U) := by
  rw [h, if_pos rfl]

theorem RowAt.other {t' : Tables} {r : Row} (h : RowAt U t t' p r) (q : Port) (hq : q ≠ p) :
    t'.configs[q]? = t.configs[q]? := by
  rw [h, if_neg (Ne.symm hq)]

/-- The incremental action for an edit that took `before` to `after`. -/
inductive EditAction (U : Upstream) (p : Port) (before : ImposterConfig) : ImposterConfig → EngineAction → Prop
  | patch {edit : StubEditScript} {stubs : List Stub} (hedit : applyEdit U before.stubs edit = .ok stubs) :
    EditAction U p before { before with stubs } (.patch p edit)
  | toggle (enabled : Bool) : EditAction U p before { before with enabled } (.setEnabled p enabled)
  | add {i : ℕ} {stub : Stub} (hi : i ≤ before.stubs.length) :
    EditAction U p before { before with stubs := before.stubs.insertIdx i stub } (.patch p [.add stub (some i)])
  | append {i : ℕ} {target : Stub} {id : String} {responses : List StubResponse} (hi : before.stubs[i]? = some target)
    (hid : target.id = some id) :
    EditAction U p before
      { before with stubs := before.stubs.set i { target with responses := target.responses ++ responses } }
      (.appendResponses p id responses { target with responses := target.responses ++ responses })

/-- What an applied operation does to the config rows, and the actions it returns. -/
inductive OpDrive (U : Upstream) (t t' : Tables) (degraded : Bool) : ControlOp → List EngineAction → Prop
  | still {op : ControlOp} (hrows : t'.configs = t.configs) : OpDrive U t t' degraded op []
  | routes {op : ControlOp} (routes : Table String String) (hrows : t'.configs = t.configs) :
    OpDrive U t t' degraded op [syncRoutesAction U routes]
  | whole {op : ControlOp} : OpDrive U t t' degraded op [syncAction U t'.configs]
  | put {config : ImposterConfig} {restart : Option Restart} {p : Port} {r : Row} (hport : config.port = some p)
    (hr : r.config = config) (hrows : RowAt U t t' p r) (hd : degraded = false) :
    OpDrive U t t' degraded (.putImposter config restart) [.put config restart]
  | restart {config : ImposterConfig} {restart : Restart} {p : Port} {r : Row} (hport : config.port = some p)
    (hr : r.config = config) (hrows : RowAt U t t' p r) (hd : degraded = true) :
    OpDrive U t t' degraded (.putImposter config (some restart))
      [syncAction U t'.configs, .restart p restart config.stubs]
  | delete {p : Port} (hrows : ∀ q : Port, t'.configs[q]? = if p = q then none else t.configs[q]?)
    (hd : degraded = false) : OpDrive U t t' degraded (.deleteImposter p) [.delete p]
  | edit {op : ControlOp} {p : Port} {r : Row} (r' : Row) {action : EngineAction} (hrow : t.configs[p]? = some (r.text U))
    (hport : r'.config.port = some p) (hrows : RowAt U t t' p r') (haction : EditAction U p r.config r'.config action) :
    OpDrive U t t' degraded op (editDrive U (U.admits r.config) r'.config action)
  | clear {p : Port} {r r' : Row} (hrow : t.configs[p]? = some (r.text U)) (hr' : r'.config = stripped r.config)
    (hrows : RowAt U t t' p r') :
    OpDrive U t t' degraded (.proxyRecordedClear p)
      (if degraded || !U.admits r'.config then [syncAction U t'.configs, .clearProxyResponses p]
        else [.clearProxyResponses p])

theorem put_drive {config : ImposterConfig} {restart : Option Restart} {index : ℕ} {degraded : Bool}
    {actions : List EngineAction} (h : (putImposter U t config restart index degraded).2 = .ok actions) :
    OpDrive U t (putImposter U t config restart index degraded).1 degraded (.putImposter config restart) actions := by
  cases hport : config.port with
  | none => simp only [putImposter, hport] at h; cases h
  | some p =>
    have hrows : RowAt U t (putImposter U t config restart index degraded).1 p ⟨config, config.enabled, index⟩ := by
      intro q
      rw [putImposter_tables hport, store_get, (putForgets_spec p config restart).1]
    have hactions : (putImposter U t config restart index degraded).2 =
        .ok (if degraded then syncAction U (putImposter U t config restart index degraded).1.configs ::
          (restart.map fun r => EngineAction.restart p r config.stubs).toList else [.put config restart]) := by
      unfold putImposter
      rw [hport]
      cases degraded <;> rfl
    rw [hactions] at h
    cases h
    cases degraded with
    | false => exact .put hport rfl hrows rfl
    | true =>
      cases restart with
      | none => exact .whole
      | some r => exact .restart hport rfl hrows rfl

theorem patch_drive (hok : TablesOk U t) {edit : StubEditScript} {index : ℕ} {degraded : Bool}
    {actions : List EngineAction} (h : (patchStubs U t p edit index).2 = .ok actions) :
    OpDrive U t (patchStubs U t p edit index).1 degraded (.patchStubs p edit) actions := by
  unfold patchStubs at h ⊢
  rcases storedImposter_cases hok p with ⟨-, hs⟩ | ⟨r, hrow, hport, hs⟩
  · rw [hs] at h; cases h
  · rw [hs] at h ⊢
    dsimp only at h ⊢
    cases hedit : applyEdit U r.config.stubs edit with
    | error e => rw [hedit] at h; cases h
    | ok stubs =>
      rw [hedit] at h
      cases h
      exact .edit ⟨{ r.config with stubs }, r.enabled, index⟩ hrow hport (fun q => store_get ..) (.patch hedit)

theorem toggle_drive (hok : TablesOk U t) {enabled : Bool} {index : ℕ} {degraded : Bool} {actions : List EngineAction}
    (h : (setEnabled U t p enabled index).2 = .ok actions) :
    OpDrive U t (setEnabled U t p enabled index).1 degraded (.setEnabled p enabled) actions := by
  unfold setEnabled at h ⊢
  rcases storedImposter_cases hok p with ⟨-, hs⟩ | ⟨r, hrow, hport, hs⟩
  · rw [hs] at h; cases h
  · rw [hs] at h ⊢
    cases h
    exact .edit ⟨{ r.config with enabled }, enabled, index⟩ hrow hport (fun q => store_get ..) (.toggle enabled)

theorem record_drive (hok : TablesOk U t) {h : String} {resp : RecordedResponse} {stub : Option RecordedStub} {index : ℕ}
    {degraded : Bool} {actions : List EngineAction} (ho : (proxyRecorded U t p h resp stub index).2 = .ok actions) :
    OpDrive U t (proxyRecorded U t p h resp stub index).1 degraded (.proxyRecorded p h resp stub) actions := by
  unfold proxyRecorded at ho ⊢
  split at ho
  · rw [if_pos ‹_›]; cases ho; exact .still rfl
  rw [if_neg ‹_›]
  split at ho
  · cases ho
  rw [if_neg ‹_›]
  cases stub with
  | none => cases ho; exact .still rfl
  | some recorded =>
    rcases storedImposter_cases hok p with ⟨-, hs⟩ | ⟨r, hrow, hport, hs⟩
    · rw [hs] at ho; cases ho
    rw [hs] at ho ⊢
    dsimp only at ho ⊢
    set value := recordedStubValue r.config.stubs recorded h index with hvalue
    have hrows (stubs : List Stub) : RowAt U t
        (if merging (some recorded) = true then t.store U p { r.config with stubs } r.enabled index
          else (t.store U p { r.config with stubs } r.enabled index).mark U p h resp) p
        ⟨{ r.config with stubs }, r.enabled, index⟩ := by
      intro q
      split <;> exact store_get ..
    rcases placed_cases r.config.stubs value recorded.placement recorded.proxyTo recorded.anchorIndex with
      ⟨i, hi, hplaced⟩ | ⟨i, target, -, hi, hplaced⟩
    · have hget : (r.config.stubs.insertIdx i value)[i]? = some value := by
        rw [List.getElem?_insertIdx_self, if_pos hi]
      simp only [hplaced, recordingAction, hget, Option.map_some] at ho ⊢
      cases ho
      exact .edit ⟨{ r.config with stubs := _ }, r.enabled, index⟩ hrow hport (hrows _) (.add hi)
    · have hget : ∀ new : Stub, (r.config.stubs.set i new)[i]? = some new := by
        intro new
        rw [List.getElem?_set_self (List.getElem?_eq_some_iff.1 hi).1]
      cases hid : target.id with
      | none =>
        simp only [hplaced, hid, recordingAction] at ho ⊢
        cases ho
        exact .whole
      | some id =>
        simp only [hplaced, hid, recordingAction, hget, Option.map_some] at ho ⊢
        cases ho
        rw [← hid]
        exact .edit ⟨{ r.config with stubs := _ }, r.enabled, index⟩ hrow hport (hrows _) (.append hi hid)

theorem clear_drive (hok : TablesOk U t) {index : ℕ} {degraded : Bool} {actions : List EngineAction}
    (h : (proxyRecordedClear U t p index degraded).2 = .ok actions) :
    OpDrive U t (proxyRecordedClear U t p index degraded).1 degraded (.proxyRecordedClear p) actions := by
  rcases storedImposter_cases hok p with ⟨hnone, -⟩ | ⟨r, hrow, -, -⟩
  · have hn : (t.forgetPort p).configs[p]? = none := hnone
    simp only [proxyRecordedClear, storedImposter_none hn] at h ⊢
    cases h
    exact .still rfl
  -- the row is the stripped config's, whether it was written or had nothing to lose
  have hrows : ∃ r' : Row, r'.config = stripped r.config ∧
      RowAt U t (proxyRecordedClear U t p index degraded).1 p r' := by
    rw [proxyRecordedClear_tables hrow]
    cases hflag : (stripProxyResponses r.config.stubs).2 with
    | true => exact ⟨⟨stripped r.config, r.enabled, index⟩, rfl, fun q => store_get ..⟩
    | false =>
      refine ⟨r, by rw [stripped, strip_of_not_removed hflag], fun q => ?_⟩
      show t.configs[q]? = _
      by_cases hq : p = q
      · rw [if_pos hq, ← hq, hrow]
      · rw [if_neg hq]
  obtain ⟨r', hr', hrows⟩ := hrows
  have hactions : (proxyRecordedClear U t p index degraded).2 =
      .ok (if degraded || !U.admits r'.config then
          [syncAction U (proxyRecordedClear U t p index degraded).1.configs, .clearProxyResponses p]
        else [.clearProxyResponses p]) := by
    have hrow' : (t.forgetPort p).configs[p]? = some (r.text U) := hrow
    rw [hr']
    unfold proxyRecordedClear stripped
    dsimp only
    rw [storedImposter_text hrow']
    dsimp only
    split <;> rfl
  rw [hactions] at h
  cases h
  exact .clear hrow hr' hrows

/-- **What an applied operation does to the config rows, and has the engine do.** -/
theorem mutate_drive (hok : TablesOk U t) {op : ControlOp} {index : ℕ} {degraded : Bool} {actions : List EngineAction}
    (h : (mutateTables U t op index degraded).2 = .ok actions) :
    OpDrive U t (mutateTables U t op index degraded).1 degraded op actions := by
  cases op with
  | putImposter config restart => exact put_drive h
  | patchStubs p edit => exact patch_drive hok h
  | deleteImposter p =>
    cases degraded with
    | true => cases h; exact .whole
    | false => cases h; exact .delete (fun q => get_erase _ _ _) rfl
  | deleteAll => cases h; exact .whole
  | setEnabled p enabled => exact toggle_drive hok h
  | putRoutes table => cases h; exact .routes _ rfl
  | deleteRoute id => cases h; exact .routes _ rfl
  | sessionKeyPut key => cases h; exact .still rfl
  | fleetNamePut name => cases h; exact .still rfl
  | proxyRecorded p h' resp stub => exact record_drive hok h
  | proxyRecordedClear p => exact clear_drive hok h

end RiftCluster
