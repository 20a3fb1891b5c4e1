import RiftCluster.Proof.Replay

/-!
# The rows of a reachable state

Every row of a state reached from the empty one was written by an operation:
`TablesOk` says in which shape, table by table. It is kept by every operation
(`tablesOk_mutateTables`) and so along every run (`stateOk_run`). Under it a
stored row always decodes, to the config that was written (`storedImposter_eq`).
-/

namespace RiftCluster

open KV

variable {U : Upstream} {t : Tables}

/-- A port's row, decoded. -/
structure Row where
  config : ImposterConfig
  enabled : Bool
  revision : ℕ
  deriving DecidableEq, Repr

def Row.text (U : Upstream) (r : Row) : String := U.imposterRow r.config r.enabled r.revision

theorem Row.text_inj {U : Upstream} {r r' : Row} (h : r.text U = r'.text U) : r = r' := by
  have h1 : U.readRow (r.text U) = U.readRow (r'.text U) := by rw [h]
  have h2 : U.imposter.read (r.text U) = U.imposter.read (r'.text U) := by rw [h]
  simp only [Row.text, Upstream.readRow_imposterRow, Except.ok.injEq] at h1
  simp only [Row.text, Upstream.read_imposterRow, Except.ok.injEq, StoredImposter.mk.injEq] at h2
  obtain ⟨config, enabled, revision⟩ := r
  obtain ⟨config', enabled', revision'⟩ := r'
  simp only [Row.mk.injEq]
  exact ⟨h1, h2.2⟩

/-- The shape of every row an operation writes. -/
structure TablesOk (U : Upstream) (t : Tables) : Prop where
  configs : ∀ (p : Port) row, t.configs[p]? = some row → ∃ r : Row, row = r.text U ∧ r.config.port = some p
  routes : ∀ (id : String) row, t.routes[id]? = some row → ∃ r : Route, row = U.route.write r
  routesRevision : ∀ (k : String) v, t.routesRevision[k]? = some v → k = routesRevisionRow
  sessionKey : ∀ (k : String) v, t.sessionKey[k]? = some v → k = sessionKeyRow
  fleetName : ∀ (k : String) v, t.fleetName[k]? = some v → k = fleetNameRow
  proxyRecorded : ∀ (key : Port × String) row, t.proxyRecorded[key]? = some row →
    ∃ resp, row = U.recorded.write resp

theorem tablesOk_empty : TablesOk U {} where
  configs := fun p row h => by rw [get_empty] at h; cases h
  routes := fun id row h => by rw [get_empty] at h; cases h
  routesRevision := fun k v h => by rw [get_empty] at h; cases h
  sessionKey := fun k v h => by rw [get_empty] at h; cases h
  fleetName := fun k v h => by rw [get_empty] at h; cases h
  proxyRecorded := fun key row h => by rw [get_empty] at h; cases h

/-! ## Reading a row back -/

theorem storedImposter_none {p : Port} (h : t.configs[p]? = none) :
    storedImposter U t p = .error s!"no imposter on port {p}" := by
  simp only [storedImposter, h]

theorem storedImposter_text {p : Port} {r : Row} (h : t.configs[p]? = some (r.text U)) :
    storedImposter U t p = .ok (⟨U.config.write r.config, r.enabled, r.revision⟩, r.config) := by
  simp only [storedImposter, h, Row.text, Upstream.read_imposterRow, Upstream.config_read_write]

/-- **A stored row decodes to what was written.** -/
theorem storedImposter_eq (hok : TablesOk U t) {p : Port} {record : StoredImposter} {config : ImposterConfig}
    (h : storedImposter U t p = .ok (record, config)) :
    t.configs[p]? = some (Row.text U ⟨config, record.enabled, record.revision⟩) ∧ config.port = some p := by
  cases hrow : t.configs[p]? with
  | none => rw [storedImposter_none hrow] at h; cases h
  | some row =>
    obtain ⟨r, rfl, hport⟩ := hok.configs p row hrow
    rw [storedImposter_text hrow] at h
    cases h
    exact ⟨rfl, hport⟩

/-! ## Every table write keeps the shape -/

theorem TablesOk.store (hok : TablesOk U t) {p : Port} {config : ImposterConfig} (hport : config.port = some p)
    (enabled : Bool) (revision : ℕ) : TablesOk U (t.store U p config enabled revision) :=
  { hok with
    configs := fun p' row h => by
      simp only [Tables.store, get_insert] at h
      split at h
      · rename_i heq
        cases h
        exact ⟨⟨config, enabled, revision⟩, rfl, heq ▸ hport⟩
      · exact hok.configs p' row h }

theorem TablesOk.forget (hok : TablesOk U t) (p : Port) (hashes : List String) : TablesOk U (t.forget p hashes) :=
  { hok with
    proxyRecorded := fun key row h => by
      rw [get_forget] at h
      split at h
      · cases h
      · exact hok.proxyRecorded key row h }

theorem TablesOk.forgetPort (hok : TablesOk U t) (p : Port) : TablesOk U (t.forgetPort p) :=
  { hok with
    proxyRecorded := fun key row h => by
      rw [get_forgetPort] at h
      split at h
      · cases h
      · exact hok.proxyRecorded key row h }

theorem TablesOk.mark (hok : TablesOk U t) (p : Port) (h : String) (resp : RecordedResponse) :
    TablesOk U (t.mark U p h resp) :=
  { hok with
    proxyRecorded := fun key row hrow => by
      simp only [Tables.mark, get_insert] at hrow
      split at hrow
      · cases hrow; exact ⟨resp, rfl⟩
      · exact hok.proxyRecorded key row hrow }

theorem TablesOk.stampRoutes (hok : TablesOk U t) (index : ℕ) : TablesOk U (t.stampRoutes index) :=
  { hok with
    routesRevision := fun k v h => by
      simp only [Tables.stampRoutes, get_insert] at h
      split at h
      · rename_i heq; exact heq.symm
      · exact hok.routesRevision k v h }

theorem TablesOk.withRoutes (hok : TablesOk U t) {routes : Table String String}
    (h : ∀ (id : String) row, routes[id]? = some row → ∃ r : Route, row = U.route.write r) :
    TablesOk U { t with routes } :=
  { hok with routes := h }

theorem TablesOk.forgetReplaced (hok : TablesOk U t) (p : Port) (config : ImposterConfig) :
    TablesOk U (t.forgetReplaced U p config) := by
  unfold Tables.forgetReplaced
  split
  · split
    · exact hok.forget _ _
    · exact hok.forgetPort _
    · exact hok.forgetPort _
  · exact hok

theorem get_load_mem {K V : Type} [Ord K] [Std.TransOrd K] [Std.LawfulEqOrd K] [DecidableEq K] {rows : List (K × V)}
    {tab : Table K V} {k : K} {v : V} (h : (tab.load rows)[k]? = some v) : tab[k]? = some v ∨ (k, v) ∈ rows := by
  induction rows generalizing tab with
  | nil => exact .inl h
  | cons kv rows ih =>
    have h1 : (Table.load (tab.insert kv.1 kv.2) rows)[k]? = some v := h
    rcases ih h1 with h' | h'
    · rw [get_insert] at h'
      split at h'
      · rename_i hk
        cases h'
        exact .inr (hk ▸ List.mem_cons_self)
      · exact .inl h'
    · exact .inr (List.mem_cons_of_mem _ h')

/-! ### One lemma per operation -/

section Operations

variable (hok : TablesOk U t) (index : ℕ)
include hok

theorem tablesOk_putImposter (config : ImposterConfig) (restart : Option Restart) (degraded : Bool) :
    TablesOk U (putImposter U t config restart index degraded).1 := by
  unfold putImposter
  cases hport : config.port with
  | none => exact hok
  | some port =>
    have h1 := hok.forgetReplaced port config
    have h2 : TablesOk U (if restart = some .imposter then
        (t.forgetReplaced U port config).forget port (stubLessMarkers (t.forgetReplaced U port config) port config.stubs)
        else t.forgetReplaced U port config) := by
      split
      · exact h1.forget _ _
      · exact h1
    have h3 := h2.store hport config.enabled index
    cases degraded <;> exact h3

theorem tablesOk_patchStubs (port : Port) (edit : StubEditScript) : TablesOk U (patchStubs U t port edit index).1 := by
  unfold patchStubs
  split
  · exact hok
  · rename_i record before hs
    split
    · exact hok
    · rename_i stubs _
      have hport : ({ before with stubs } : ImposterConfig).port = some port := (storedImposter_eq hok hs).2
      exact (hok.store hport _ _).forget _ _

omit index in
theorem tablesOk_deleteImposter (port : Port) (degraded : Bool) : TablesOk U (deleteImposter U t port degraded).1 := by
  have h1 : TablesOk U { t with configs := t.configs.erase port } :=
    { hok with
      configs := fun p row h => by
        simp only [get_erase] at h
        split at h
        · cases h
        · exact hok.configs p row h }
  cases degraded <;> exact h1.forgetPort port

omit index in
theorem tablesOk_deleteAll : TablesOk U (deleteAll U t).1 := by
  simp only [deleteAll, retain_none]
  exact { hok with
    configs := fun p row h => by rw [get_empty] at h; cases h
    proxyRecorded := fun key row h => by rw [get_empty] at h; cases h }

theorem tablesOk_setEnabled (port : Port) (enabled : Bool) : TablesOk U (setEnabled U t port enabled index).1 := by
  unfold setEnabled
  split
  · exact hok
  · rename_i record before hs
    have hport : ({ before with enabled } : ImposterConfig).port = some port := (storedImposter_eq hok hs).2
    exact hok.store hport _ _

theorem tablesOk_putRoutes (table : RouteTable) : TablesOk U (putRoutes U t table index).1 := by
  simp only [putRoutes, retain_none]
  refine (hok.withRoutes fun id row h => ?_).stampRoutes index
  rcases get_load_mem h with h' | h'
  · rw [get_empty] at h'; cases h'
  · obtain ⟨route, -, heq⟩ := List.mem_map.1 h'
    cases heq
    exact ⟨route, rfl⟩

theorem tablesOk_deleteRoute (id : String) : TablesOk U (deleteRoute U t id index).1 := by
  refine (hok.withRoutes fun id' row h => ?_).stampRoutes index
  rw [get_erase] at h
  split at h
  · cases h
  · exact hok.routes id' row h

theorem tablesOk_sessionKeyPut (key : String) : TablesOk U (sessionKeyPut U t key index).1 :=
  { hok with
    sessionKey := fun k v h => by
      simp only [sessionKeyPut, get_insert] at h
      split at h
      · rename_i heq; exact heq.symm
      · exact hok.sessionKey k v h }

omit index in
theorem tablesOk_fleetNamePut (name : String) : TablesOk U (fleetNamePut t name).1 :=
  { hok with
    fleetName := fun k v h => by
      simp only [fleetNamePut, get_insert] at h
      split at h
      · rename_i heq; exact heq.symm
      · exact hok.fleetName k v h }

theorem tablesOk_proxyRecorded (port : Port) (sigHash : String) (resp : RecordedResponse) (stub : Option RecordedStub) :
    TablesOk U (proxyRecorded U t port sigHash resp stub index).1 := by
  simp only [proxyRecorded]
  split
  · exact hok
  · split
    · exact hok
    · split
      · exact hok.mark _ _ _
      · split
        · exact hok
        · -- a stub to place: the marker is written unless the recording merges
          rename_i record before hs
          have hport : ∀ stubs, ({ before with stubs } : ImposterConfig).port = some port := fun _ =>
            (storedImposter_eq hok hs).2
          have h1 : ∀ (stubs : List Stub) (b : Bool), TablesOk U
              (if b then t.store U port { before with stubs } record.enabled index
                else (t.store U port { before with stubs } record.enabled index).mark U port sigHash resp) := by
            intro stubs b
            cases b
            · exact (hok.store (hport stubs) _ _).mark _ _ _
            · exact hok.store (hport stubs) _ _
          split <;> exact h1 _ _

theorem tablesOk_proxyRecordedClear (port : Port) (degraded : Bool) :
    TablesOk U (proxyRecordedClear U t port index degraded).1 := by
  unfold proxyRecordedClear
  have h1 := hok.forgetPort port
  dsimp only
  split
  · exact h1
  · rename_i record before hs
    have hport : ({ before with stubs := (stripProxyResponses before.stubs).1 } : ImposterConfig).port = some port :=
      (storedImposter_eq h1 hs).2
    have h2 : TablesOk U (if (stripProxyResponses before.stubs).2 then
        (t.forgetPort port).store U port { before with stubs := (stripProxyResponses before.stubs).1 } record.enabled index
        else t.forgetPort port) := by
      split
      · exact h1.store hport _ _
      · exact h1
    split <;> exact h2

end Operations

/-- **Every operation keeps the shape of the rows.** -/
theorem tablesOk_mutateTables (hok : TablesOk U t) (op : ControlOp) (index : ℕ) (degraded : Bool) :
    TablesOk U (mutateTables U t op index degraded).1 := by
  cases op with
  | putImposter config restart => exact tablesOk_putImposter hok index config restart degraded
  | patchStubs port edit => exact tablesOk_patchStubs hok index port edit
  | deleteImposter port => exact tablesOk_deleteImposter hok port degraded
  | deleteAll => exact tablesOk_deleteAll hok
  | setEnabled port enabled => exact tablesOk_setEnabled hok index port enabled
  | putRoutes table => exact tablesOk_putRoutes hok index table
  | deleteRoute id => exact tablesOk_deleteRoute hok index id
  | sessionKeyPut key => exact tablesOk_sessionKeyPut hok index key
  | fleetNamePut name => exact tablesOk_fleetNamePut hok name
  | proxyRecorded port sigHash resp stub => exact tablesOk_proxyRecorded hok index port sigHash resp stub
  | proxyRecordedClear port => exact tablesOk_proxyRecordedClear hok index port degraded

/-! ## Along a run -/

/-- **An entry leaves the tables alone, or runs its operation on them.** It leaves them
alone as a replay, or when it is answered `Failed`; then it drives nothing. -/
theorem entry_runs (s : State) (degraded : Bool) (e : Entry) :
    ((applyOne U degraded s e).state.tables = s.tables ∧ (applyOne U degraded s e).actions = [] ∧
      ∀ request, e.payload = .normal request → replayOf U (s.receive e) request = none →
        ∃ reason, (applyOne U degraded s e).reply.outcome = .failed reason) ∨
      ∃ request, e.payload = .normal request ∧ replayOf U (s.receive e) request = none ∧
        validate U request.op = .ok () ∧ checkPreconditions U s.tables request = .ok () ∧
        (applyOne U degraded s e).state.tables = (mutateTables U s.tables request.op e.logId.index degraded).1 ∧
        (applyOne U degraded s e).reply =
          responseOf e.logId.index (mutateTables U s.tables request.op e.logId.index degraded).2 ∧
        (applyOne U degraded s e).actions =
          actionsOf request.principal (mutateTables U s.tables request.op e.logId.index degraded).2 := by
  rcases applyOne_cases (U := U) degraded s e with ⟨hne, heq⟩ | ⟨_, previous, hp, hr, heq⟩ | ⟨request, hp, hr, heq⟩
  · rw [heq]
    exact .inl ⟨rfl, rfl, fun request hp => absurd hp (hne request)⟩
  · rw [heq]
    refine .inl ⟨rfl, rfl, fun request hp' hr' => ?_⟩
    rw [hp] at hp'
    cases hp'
    rw [hr] at hr'
    cases hr'
  · rw [heq]
    have hrun : ∀ outcome, runOp U s.tables request e.logId.index degraded = outcome →
        runOp U (s.receive e).tables request e.logId.index degraded = outcome := fun _ h => h
    cases hv : validate U request.op with
    | error reason =>
      have ho := hrun (s.tables, .error reason) (by simp only [runOp, hv])
      exact .inl ⟨by simp only [commitOp, ho], by simp only [commitOp, ho, actionsOf], fun _ _ _ =>
        ⟨reason, by simp only [commitOp, ho, responseOf, ControlResponse.ofFailed]⟩⟩
    | ok _ =>
      cases hc : checkPreconditions U s.tables request with
      | error reason =>
        have ho := hrun (s.tables, .error reason) (by simp only [runOp, hv, hc])
        exact .inl ⟨by simp only [commitOp, ho], by simp only [commitOp, ho, actionsOf], fun _ _ _ =>
          ⟨reason, by simp only [commitOp, ho, responseOf, ControlResponse.ofFailed]⟩⟩
      | ok _ =>
        have ho := hrun (mutateTables U s.tables request.op e.logId.index degraded) (by simp only [runOp, hv, hc])
        exact .inr ⟨request, hp, hr, hv, hc, by simp only [commitOp, ho], by simp only [commitOp, ho],
          by simp only [commitOp, ho]⟩

/-- **What a step can do to the tables**: nothing, or what one operation does, at the
log index of the entry that carries it. -/
theorem step_tables (s : State) (ev : Event) :
    (s.step U ev).tables = s.tables ∨
      ∃ degraded e request, ev = .entry degraded e ∧ e.payload = .normal request ∧
        replayOf U (s.receive e) request = none ∧ validate U request.op = .ok () ∧
        checkPreconditions U s.tables request = .ok () ∧
        (s.step U ev).tables = (mutateTables U s.tables request.op e.logId.index degraded).1 ∧
        (applyOne U degraded s e).reply =
          responseOf e.logId.index (mutateTables U s.tables request.op e.logId.index degraded).2 ∧
        (applyOne U degraded s e).actions =
          actionsOf request.principal (mutateTables U s.tables request.op e.logId.index degraded).2 := by
  cases ev with
  | sweep => exact .inl rfl
  | entry degraded e =>
    rcases entry_runs (U := U) s degraded e with ⟨h, -⟩ | ⟨request, h⟩
    · exact .inl h
    · exact .inr ⟨degraded, e, request, rfl, h⟩

/-- The shape of the rows of a whole state. -/
structure StateOk (U : Upstream) (s : State) : Prop where
  tables : TablesOk U s.tables
  dedup : ∀ (k : String) row, s.dedup[k]? = some row → ∃ d, row = U.dedup.write d

theorem stateOk_empty : StateOk U {} where
  tables := tablesOk_empty
  dedup := fun k row h => by rw [get_empty] at h; cases h

theorem stateOk_step {s : State} (hok : StateOk U s) (ev : Event) : StateOk U (s.step U ev) where
  tables := by
    rcases step_tables (U := U) s ev with h | ⟨_, _, _, -, -, -, -, -, h, -⟩
    · rw [h]; exact hok.tables
    · rw [h]; exact tablesOk_mutateTables hok.tables _ _ _
  dedup := by
    intro k row h
    cases ev with
    | sweep =>
      rw [State.step, State.sweep, get_gcDedup, Option.filter_eq_some_iff] at h
      exact hok.dedup k row h.1
    | entry degraded e =>
      rw [State.step] at h
      rcases applyOne_cases (U := U) degraded s e with ⟨-, heq⟩ | ⟨_, _, -, -, heq⟩ | ⟨request, -, -, heq⟩
      · rw [heq] at h; exact hok.dedup k row h
      · rw [heq] at h; exact hok.dedup k row h
      · rw [heq] at h
        simp only [commitOp, get_insert] at h
        split at h
        · cases h; exact ⟨_, rfl⟩
        · exact hok.dedup k row h

/-- **Every state of a run has rows of the shape operations write.** -/
theorem stateOk_run {s : State} (hok : StateOk U s) (es : List Event) (n : ℕ) : StateOk U (sAt U s es n) :=
  Trace.stateAt_inv hok (fun _ ev _ h => stateOk_step h ev) n

theorem stateOk_foldl {s : State} (hok : StateOk U s) (es : List Event) : StateOk U (es.foldl (State.step U) s) := by
  rw [← Trace.stateAt_length]; exact stateOk_run hok es es.length

end RiftCluster
