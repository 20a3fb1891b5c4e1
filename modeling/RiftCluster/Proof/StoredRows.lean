import RiftCluster.Proof.EngineAgrees
import RiftCluster.Proof.RecordedStub

/-!
# The rows an operation can store

Two invariants of the stored imposters, each from one step lemma about a row's
write (`RowWrite`) and the induction over a run (`rows_inv`).

* `rows_well_formed`: a row decodes to a config of its own, non-zero port, under a
  protocol `validate` accepts, with the enabled flag the config has; its revision is
  the index of the last entry that changed it.
* `stub_ids_unique_iff`: the explicit stub ids of a config are distinct as long as
  every recording inserts a stub whose id is not there. Edits check this; a
  recording takes the id it is given, or mints one from its signature and the log
  index, and inserts it unchecked.
-/

namespace RiftCluster

open KV

variable {U : Upstream} {t : Tables} {es : List Event} {p : Port}

/-! ## Shape -/

/-- What `validate` asks of a stored config, and the flag the row repeats. -/
structure RowOk (p : Port) (r : Row) : Prop where
  port_ne_zero : p ≠ 0
  protocol : r.config.protocol = "http" ∨ r.config.protocol = "https"
  enabled : r.enabled = r.config.enabled

theorem protocol_of_validate {config : ImposterConfig} {restart : Option Restart}
    (h : validate U (.putImposter config restart) = .ok ()) : config.protocol = "http" ∨ config.protocol = "https" := by
  simp only [validate, validateReplicableConfig] at h
  split at h
  · cases h
  · split at h
    · cases h
    · rename_i hp
      by_contra hc
      exact hp (not_or.1 hc)

theorem RowWrite.rowOk {index : ℕ} {op : ControlOp} {r : Row} (hw : RowWrite U t index p op r)
    (hv : validate U op = .ok ()) (hi : ∀ r' : Row, t.configs[p]? = some (r'.text U) → RowOk p r') : RowOk p r := by
  cases hw with
  | put hport =>
    obtain ⟨q, hq, hq0⟩ := port_of_validate hv
    rw [hport] at hq
    cases hq
    exact ⟨hq0, protocol_of_validate hv, rfl⟩
  | patch hrow _ => exact ⟨(hi _ hrow).port_ne_zero, (hi _ hrow).protocol, (hi _ hrow).enabled⟩
  | toggle hrow => exact ⟨(hi _ hrow).port_ne_zero, (hi _ hrow).protocol, rfl⟩
  | record hrow _ => exact ⟨(hi _ hrow).port_ne_zero, (hi _ hrow).protocol, (hi _ hrow).enabled⟩
  | clear hrow _ => exact ⟨(hi _ hrow).port_ne_zero, (hi _ hrow).protocol, (hi _ hrow).enabled⟩

theorem rowOk_run {n : ℕ} (hn : n ≤ es.length) (p : Port) (r : Row)
    (h : (sAt U {} es n).tables.configs[p]? = some (r.text U)) : RowOk p r :=
  rows_inv (P := fun _ => RowOk) (fun _ _ _ h => h)
    (fun _ _ _ _ _ _ _ _ _ hv _ hi hw => hw.rowOk hv hi) hn p r h

/-! ## The applied cursor -/

theorem lastApplied_entry (s : State) (d : Bool) (e : Entry) :
    (s.step U (.entry d e)).applied.lastAppliedLog = some e.logId := by
  rw [State.step]
  rcases applyOne_cases (U := U) d s e with ⟨-, heq⟩ | ⟨_, _, -, -, heq⟩ | ⟨_, -, -, heq⟩ <;> rw [heq] <;> rfl

theorem le_lastApplied (hlog : Increasing es) {k n : ℕ} (hkn : k < n) (hn : n ≤ es.length) {d : Bool} {e : Entry}
    (hk : es[k]? = some (.entry d e)) :
    ∃ last, (sAt U {} es n).applied.lastAppliedLog = some last ∧ e.logId.index ≤ last.index := by
  obtain ⟨hlt, hek⟩ := List.getElem?_eq_some_iff.1 hk
  refine Trace.stateAt_stretch
    (P := fun s : State => ∃ last, s.applied.lastAppliedLog = some last ∧ e.logId.index ≤ last.index) hkn hn ?_ ?_
  · have hs := sAt_succ (U := U) (s := {}) hlt
    rw [hek] at hs
    exact ⟨e.logId, by rw [← sAt, hs, lastApplied_entry], le_rfl⟩
  · intro j hj hkj hjn hlast
    cases hev : es[j] with
    | sweep => exact hlast
    | entry d' e' =>
      refine ⟨e'.logId, lastApplied_entry _ d' e', ?_⟩
      exact (hlog.lt (by omega : k < j) hk (by rw [List.getElem?_eq_getElem hj, hev])).le

theorem WrittenAt.changed (hlog : Increasing es) {row : String} {k n : ℕ} (hn : n ≤ es.length)
    (h : WrittenAt U es p row k n) : (sAt U {} es k).tables.configs[p]? ≠ some row := by
  obtain ⟨hkn, ⟨d, e, hek, hrev⟩, -⟩ := h
  intro hsame
  obtain ⟨j, hjk, ⟨d', e', hej, hrev'⟩, -⟩ := row_written (by omega : k ≤ es.length) hsame
  have hlt := hlog.lt hjk hej hek
  have heq : e'.logId.index = e.logId.index := Option.some.inj (by rw [← hrev', hrev])
  omega

/-- **Stored imposter rows are well formed.** Along a log with growing indexes, from the
empty state, every row of a port decodes, to a config with that port, which is not
zero, under a protocol `validate` accepts, and with the enabled flag of the row. Its
revision is the index of the last entry that changed it, and is no more than the
applied cursor's. -/
theorem rows_well_formed (es : List Event) (hlog : Increasing es) (n : ℕ) (hn : n ≤ es.length) (p : Port) (row : String)
    (h : (sAt U {} es n).tables.configs[p]? = some row) :
    ∃ record config, U.imposter.read row = .ok record ∧ U.config.read record.config = .ok config ∧
      config.port = some p ∧ p ≠ 0 ∧ record.enabled = config.enabled ∧
      (config.protocol = "http" ∨ config.protocol = "https") ∧
      (∃ k d e, k < n ∧ es[k]? = some (.entry d e) ∧ e.logId.index = record.revision ∧
        (sAt U {} es k).tables.configs[p]? ≠ (sAt U {} es (k + 1)).tables.configs[p]? ∧
        ∀ j, k < j → j ≤ n → (sAt U {} es j).tables.configs[p]? = some row) ∧
      ∃ last, (sAt U {} es n).applied.lastAppliedLog = some last ∧ record.revision ≤ last.index := by
  obtain ⟨r, rfl, hport⟩ := (stateOk_run (U := U) stateOk_empty es n).tables.configs p row h
  have hshape := rowOk_run hn p r h
  obtain ⟨k, hw⟩ := row_written hn h
  have hchanged := hw.changed hlog hn
  obtain ⟨hkn, ⟨d, e, hek, hrev⟩, hkept⟩ := hw
  rw [rowRevision_text] at hrev
  have hindex : e.logId.index = r.revision := (Option.some.inj hrev).symm
  refine ⟨⟨U.config.write r.config, r.enabled, r.revision⟩, r.config, by rw [Row.text, Upstream.read_imposterRow],
    Upstream.config_read_write .., hport, hshape.port_ne_zero, hshape.enabled, hshape.protocol,
    ⟨k, d, e, hkn, hek, hindex, ?_, hkept⟩, ?_⟩
  · rw [hkept (k + 1) (by omega) (by omega)]
    exact hchanged
  · obtain ⟨last, hlast, hle⟩ := le_lastApplied (U := U) hlog hkn hn hek
    exact ⟨last, hlast, hindex ▸ hle⟩

theorem putThenToggle_row_well_formed :
    ∃ row record config, (sAt jsonUpstream {} putThenToggle 4).tables.configs[4545]? = some row ∧
      jsonUpstream.imposter.read row = .ok record ∧ jsonUpstream.config.read record.config = .ok config ∧
      record.enabled = config.enabled := by
  obtain ⟨row, hrow⟩ : ∃ row, (sAt jsonUpstream {} putThenToggle 4).tables.configs[4545]? = some row :=
    Option.isSome_iff_exists.1 (by decide +kernel)
  obtain ⟨record, config, hread, hconfig, -, -, henabled, -⟩ :=
    rows_well_formed putThenToggle (by unfold Increasing; decide) 4 (by decide) 4545 row hrow
  exact ⟨row, record, config, hrow, hread, hconfig, henabled⟩

/-! ## Stub ids -/

theorem ids_perm {a b : List Stub} (h : a.Perm b) : (ids a).Perm (ids b) := h.filterMap _

theorem ids_set_same {stubs : List Stub} {i : ℕ} {target new : Stub} (hi : stubs[i]? = some target)
    (hid : new.id = target.id) : ids (stubs.set i new) = ids stubs := by
  have hmap : ∀ l : List Stub, ids l = (l.map Stub.id).filterMap fun id => id := by
    intro l
    rw [List.filterMap_map]
    rfl
  rw [hmap, hmap, map_id_set_same hi hid]

theorem ids_cons_nodup {stubs : List Stub} (hd : (ids stubs).Nodup) (stub : Stub) :
    (ids (stub :: stubs)).Nodup ↔ ∀ id, stub.id = some id → id ∉ ids stubs := by
  cases hid : stub.id with
  | none =>
    have hc : ids (stub :: stubs) = ids stubs := List.filterMap_cons_none hid
    simp [hc, hd]
  | some id =>
    have hc : ids (stub :: stubs) = id :: ids stubs := List.filterMap_cons_some hid
    simp [hc, hd]

/-- **A script keeps stub ids distinct.** -/
theorem ids_applyEdit (edit : StubEditScript) : ∀ {stubs stubs' : List Stub}, (ids stubs).Nodup →
    applyEdit U stubs edit = .ok stubs' → (ids stubs').Nodup := by
  induction edit with
  | nil =>
    intro stubs stubs' hd h
    cases h
    exact hd
  | cons step edit ih =>
    intro stubs stubs' hd h
    rw [applyEdit, List.foldlM_cons] at h
    cases hs : applyStep U stubs step with
    | error e => rw [hs] at h; cases h
    | ok mid =>
      rw [hs] at h
      refine ih ?_ h
      rcases applyStep_cases hs with ⟨stub, -, -, hp, hfresh⟩ | ⟨i, target, new, hget, hid, rfl⟩ | hsub | hp
      · exact (ids_perm hp).nodup_iff.2 ((ids_cons_nodup hd stub).2 hfresh)
      · rw [ids_set_same hget hid]; exact hd
      · exact hd.sublist (hsub.filterMap _)
      · exact (ids_perm hp).nodup_iff.2 hd

/-- The stub a recording inserts, if it inserts one, has an id the port's config does not
hold. A recording whose signature is already marked does not reach the config, and one
that merges inserts nothing. -/
def FreshRecording (U : Upstream) (t : Tables) (index : ℕ) : ControlOp → Prop
  | .proxyRecorded p h _ (some recorded) => ∀ record before, storedImposter U t p = .ok (record, before) →
    (t.proxyRecorded[(p, h)]?.isSome && !merging (some recorded)) = false →
    let stub := recordedStubValue before.stubs recorded h index
    ∀ i, (placeRecordedStub before.stubs stub recorded.placement recorded.proxyTo recorded.anchorIndex).2 = .inserted i →
      ∀ id, stub.id = some id → id ∉ ids before.stubs
  | _ => True

theorem ids_placed {stubs : List Stub} (hd : (ids stubs).Nodup) (stub : Stub) (placement : RecordedStubPlacement)
    (proxyTo : String) (anchor : Option ℕ) :
    (ids (placeRecordedStub stubs stub placement proxyTo anchor).1).Nodup ↔
      ∀ i, (placeRecordedStub stubs stub placement proxyTo anchor).2 = .inserted i →
        ∀ id, stub.id = some id → id ∉ ids stubs := by
  rcases placed_cases stubs stub placement proxyTo anchor with ⟨i, hi, heq⟩ | ⟨i, target, -, hget, heq⟩
  · rw [heq, (ids_perm (List.perm_insertIdx stub stubs hi)).nodup_iff, ids_cons_nodup hd]
    exact ⟨fun h _ _ => h, fun h => h i rfl⟩
  · -- more responses for a stub that is there
    have hids : ids (stubs.set i { target with responses := target.responses ++ stub.responses }) = ids stubs :=
      ids_set_same hget rfl
    rw [heq, hids]
    refine ⟨fun _ j hj => ?_, fun _ => hd⟩
    cases hid : target.id <;> simp [hid] at hj

theorem RowWrite.ids {index : ℕ} {op : ControlOp} {r : Row} (hw : RowWrite U t index p op r)
    (hv : validate U op = .ok ()) (hfresh : FreshRecording U t index op)
    (hi : ∀ r' : Row, t.configs[p]? = some (r'.text U) → (ids r'.config.stubs).Nodup) : (ids r.config.stubs).Nodup := by
  cases hw with
  | put hport => exact ids_nodup_of_validate hv
  | patch hrow hedit => exact ids_applyEdit _ (hi _ hrow) hedit
  | toggle hrow =>
    rename_i r' enabled
    exact hi r' hrow
  | record hrow hnew =>
    refine (ids_placed (hi _ hrow) _ _ _ _).2 ?_
    exact hfresh _ _ (storedImposter_text hrow) hnew
  | clear hrow hstrip => exact (hi _ hrow).sublist (filterMap_strip id _)

/-- Every recording a run executes is fresh: the entry is no replay, and its operation is
validated and meets its preconditions. -/
def RecordsFresh (U : Upstream) (es : List Event) : Prop :=
  ∀ n d e request, es[n]? = some (.entry d e) → e.payload = .normal request →
    replayOf U ((sAt U {} es n).receive e) request = none → validate U request.op = .ok () →
    checkPreconditions U (sAt U {} es n).tables request = .ok () →
    FreshRecording U (sAt U {} es n).tables e.logId.index request.op

theorem executed_tables {s : State} {d : Bool} {e : Entry} {request : ControlRequest} (hp : e.payload = .normal request)
    (hr : replayOf U (s.receive e) request = none) (hv : validate U request.op = .ok ())
    (hc : checkPreconditions U s.tables request = .ok ()) :
    (s.step U (.entry d e)).tables = (mutateTables U s.tables request.op e.logId.index d).1 := by
  have hrun : runOp U (s.receive e).tables request e.logId.index d = mutateTables U s.tables request.op e.logId.index d := by
    have hc' : checkPreconditions U (s.receive e).tables request = .ok () := hc
    simp only [runOp, hv, hc']
    rfl
  simp only [State.step, applyOne, hp, hr, commitOp, hrun]

/-- **Stub ids stay distinct exactly as long as recordings are fresh**, along every run
from the empty state: in every state of it every stored config has distinct explicit
ids, if and only if no recording the run executes inserts a stub under an id that the
port's config holds. -/
theorem stub_ids_unique_iff (es : List Event) :
    (∀ n ≤ es.length, UniqueIds U (sAt U {} es n).tables) ↔ RecordsFresh U es := by
  constructor
  · intro huniq n d e request he hp hr hv hc
    obtain ⟨hlt, hev⟩ := List.getElem?_eq_some_iff.1 he
    have hafter := huniq (n + 1) hlt
    rw [sAt_succ hlt, hev, executed_tables hp hr hv hc] at hafter
    revert hafter
    generalize request.op = op
    intro hafter
    cases op with
    | proxyRecorded q h resp stub =>
      cases stub with
      | none => trivial
      | some recorded =>
        intro record before hs hnew
        have hok := (stateOk_run (U := U) stateOk_empty es n).tables
        obtain ⟨hrow, -⟩ := storedImposter_eq hok hs
        refine (ids_placed (huniq n hlt.le q _ hrow) _ _ _ _).1 (hafter q ⟨{ before with stubs := _ }, record.enabled, e.logId.index⟩ ?_)
        rw [mutateTables, proxyRecorded_tables hrow h resp recorded _ hnew]
        cases merging (some recorded) <;> simp [store_get]
    | _ => trivial
  · intro hfresh n hn p r hrow
    refine rows_inv (P := fun _ _ r => (ids r.config.stubs).Nodup) (fun _ _ _ h => h) ?_ hn p r hrow
    intro k d e request q r' he hp hr hv hc hi hw
    exact hw.ids hv (hfresh k d e request he hp hr hv hc) hi

/-- An imposter whose one stub has the id of a re-recording at index 2. -/
def clientRecordedId : ImposterConfig := httpImposter [{ id := some "proxy-recorded-ab-r2", responses := [] }]

/-- That imposter, and a recording of signature `ab` at index 2. -/
def recordOverClientId : List Event :=
  [.sweep, .entry false (requestAt 1 { opId := "op-1", op := .putImposter clientRecordedId none }),
    .entry false (requestAt 2 (recordStub "op-2" [] .beforeProxy))]

/-- **A minted id that is taken.** The put's ids are distinct; the recording finds a stub
of its signature, mints the id with its log index, and stores it a second time. -/
theorem recordOverClientId_duplicates :
    (ids clientRecordedId.stubs).Nodup ∧ responses jsonUpstream {} recordOverClientId = [⟨1, .applied⟩, ⟨2, .applied⟩] ∧
      (storedStubs jsonUpstream (sAt jsonUpstream {} recordOverClientId 3).tables 4545).map Stub.id =
        [some "proxy-recorded-ab-r2", some "proxy-recorded-ab-r2"] := by
  decide +kernel

end RiftCluster
