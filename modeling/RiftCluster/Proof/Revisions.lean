import RiftCluster.Proof.Effects

/-!
# Revisions identify contents

A row carries the log index of the entry that wrote it, and is left alone until
the next write (`row_written`). Log indexes never repeat, so two states of a run
in which a port's row has the same revision hold the same row (`row_unique`), and
a write conditional on a revision acts on the row that was written there. The
route table is the same with its own revision (`routes_written`).
-/

namespace RiftCluster

open KV

variable {U : Upstream} {es : List Event}

def Increasing (es : List Event) : Prop := (logOf es).Pairwise fun a b => a.logId.index < b.logId.index

def rowRevision (U : Upstream) (row : String) : Option ℕ := (U.imposter.read row).toOption.map StoredImposter.revision

@[simp] theorem rowRevision_text (r : Row) : rowRevision U (r.text U) = some r.revision := by
  simp [rowRevision, Row.text, Except.toOption]

theorem Increasing.lt (h : Increasing es) {j k : ℕ} (hjk : j < k) {a b : Entry} {d d' : Bool}
    (ha : es[j]? = some (.entry d a)) (hb : es[k]? = some (.entry d' b)) : a.logId.index < b.logId.index := by
  obtain ⟨hj, ha⟩ := List.getElem?_eq_some_iff.1 ha
  obtain ⟨hk, hb⟩ := List.getElem?_eq_some_iff.1 hb
  have hp := List.pairwise_filterMap.1 h
  rw [List.pairwise_iff_getElem] at hp
  exact hp j k hj hk hjk a (by rw [ha]; rfl) b (by rw [hb]; rfl)

theorem Increasing.eq (h : Increasing es) {j k : ℕ} {a b : Entry} {d d' : Bool} (ha : es[j]? = some (.entry d a))
    (hb : es[k]? = some (.entry d' b)) (hab : a.logId.index = b.logId.index) : j = k := by
  rcases Nat.lt_trichotomy j k with hlt | heq | hgt
  · exact absurd hab (h.lt hlt ha hb).ne
  · exact heq
  · exact absurd hab (h.lt hgt hb ha).ne'

/-! ## Rows -/

theorem step_row {s : State} (hok : StateOk U s) (ev : Event) (p : Port) :
    (s.step U ev).tables.configs[p]? = s.tables.configs[p]? ∨ (s.step U ev).tables.configs[p]? = none ∨
      ∃ d e r, ev = .entry d e ∧ r.revision = e.logId.index ∧
        (s.step U ev).tables.configs[p]? = some (Row.text U r) := by
  rcases step_tables (U := U) s ev with h | ⟨d, e, request, hev, -, -, -, -, h, -⟩
  · exact .inl (by rw [h])
  · rw [h]
    rcases mutate_row hok.tables request.op e.logId.index d p with h' | ⟨-, h'⟩ | ⟨r, hr, h'⟩
    · exact .inl h'
    · exact .inr (.inl h')
    · exact .inr (.inr ⟨d, e, r, hev, hr.revision, h'⟩)

/-- **What every write of a row keeps holds of every row of a run.** The write is
judged at its own position, with what the port's row satisfied before it. -/
theorem rows_inv {P : ℕ → Port → Row → Prop} (hmono : ∀ n p r, P n p r → P (n + 1) p r)
    (hwrite : ∀ n d e request p r, es[n]? = some (.entry d e) → e.payload = .normal request →
      replayOf U ((sAt U {} es n).receive e) request = none → validate U request.op = .ok () →
      checkPreconditions U (sAt U {} es n).tables request = .ok () →
      (∀ r' : Row, (sAt U {} es n).tables.configs[p]? = some (r'.text U) → P n p r') →
      RowWrite U (sAt U {} es n).tables e.logId.index p request.op r → P (n + 1) p r)
    {n : ℕ} (hn : n ≤ es.length) :
    ∀ (p : Port) (r : Row), (sAt U {} es n).tables.configs[p]? = some (r.text U) → P n p r := by
  induction n with
  | zero => intro p r h; rw [sAt, Trace.stateAt_zero, get_empty] at h; cases h
  | succ n ih =>
    intro p r h
    have hi := ih (by omega) p
    have hok := (stateOk_run (U := U) stateOk_empty es n).tables
    rw [sAt_succ hn] at h
    rcases step_tables (U := U) (sAt U {} es n) es[n] with h' | ⟨d, e, request, hev, hp, hr, hv, hc, h', -⟩
    · rw [h'] at h; exact hmono n p r (hi r h)
    · rw [h'] at h
      have hk : es[n]? = some (.entry d e) := by rw [List.getElem?_eq_getElem hn, hev]
      rcases mutate_row hok request.op e.logId.index d p with hrow | ⟨-, hrow⟩ | ⟨r', hw, hrow⟩
      · rw [hrow] at h; exact hmono n p r (hi r h)
      · rw [hrow] at h; cases h
      · rw [hrow] at h
        obtain rfl := Row.text_inj (Option.some.inj h)
        exact hwrite n d e request p r' hk hp hr hv hc hi hw

/-- The row a port holds was written by the entry whose index it carries, and has
been left alone since. -/
def WrittenAt (U : Upstream) (es : List Event) (p : Port) (row : String) (k n : ℕ) : Prop :=
  k < n ∧ (∃ d e, es[k]? = some (.entry d e) ∧ rowRevision U row = some e.logId.index) ∧
    ∀ j, k < j → j ≤ n → (sAt U {} es j).tables.configs[p]? = some row

theorem row_written {n : ℕ} (hn : n ≤ es.length) {p : Port} {row : String}
    (h : (sAt U {} es n).tables.configs[p]? = some row) : ∃ k, WrittenAt U es p row k n := by
  obtain ⟨k, hk, hkn, hnot, hmade, hsince⟩ :=
    sAt_origin (fun s => s.tables.configs[p]? = some row) (by simp) hn h
  refine ⟨k, hkn, ?_, hsince⟩
  rcases step_row (stateOk_run (U := U) stateOk_empty es k) es[k] p with hsame | hnone | ⟨d, e, r, hev, hr, hwritten⟩
  · exact absurd (hsame.symm.trans hmade) hnot
  · rw [hnone] at hmade; cases hmade
  · obtain rfl : Row.text U r = row := Option.some.inj (hwritten.symm.trans hmade)
    refine ⟨d, e, ?_, by rw [rowRevision_text, hr]⟩
    rw [List.getElem?_eq_getElem hk, hev]

/-- **Two states in which a port's row has one revision hold one row.** -/
theorem row_unique (hlog : Increasing es) {m n : ℕ} (hm : m ≤ es.length) (hn : n ≤ es.length) {p : Port} {a b : String}
    (ha : (sAt U {} es m).tables.configs[p]? = some a) (hb : (sAt U {} es n).tables.configs[p]? = some b)
    (hrev : rowRevision U a = rowRevision U b) : a = b := by
  obtain ⟨k, hk, ⟨d, e, hek, hra⟩, hja⟩ := row_written hm ha
  obtain ⟨l, hl, ⟨d', e', hel, hrb⟩, hjb⟩ := row_written hn hb
  obtain rfl : k = l := hlog.eq hek hel (Option.some.inj (by rw [← hra, hrev, hrb]))
  have h1 := hja (k + 1) (by omega) (by omega)
  have h2 := hjb (k + 1) (by omega) (by omega)
  rw [h1] at h2
  exact Option.some.inj h2

/-! ## The route table -/

theorem step_routes {s : State} (hok : StateOk U s) (ev : Event) :
    ((s.step U ev).tables.routes = s.tables.routes ∧
        (s.step U ev).tables.routesRevision = s.tables.routesRevision) ∨
      ∃ d e request, ev = .entry d e ∧ e.payload = .normal request ∧
        (s.step U ev).tables.routesRevision = s.tables.routesRevision.insert routesRevisionRow e.logId.index := by
  rcases step_tables (U := U) s ev with h | ⟨d, e, request, hev, hp, -, -, -, h, -⟩
  · exact .inl (by rw [h]; exact ⟨rfl, rfl⟩)
  · rw [h]
    rcases mutate_routes hok.tables request.op e.logId.index d with h' | h'
    · exact .inl h'
    · exact .inr ⟨d, e, request, hev, hp, h'⟩

/-- The route table was written by the entry whose index it carries, and has been left
alone since. -/
def RoutesWrittenAt (U : Upstream) (es : List Event) (k n : ℕ) : Prop :=
  k < n ∧ (∃ d e request, es[k]? = some (.entry d e) ∧ e.payload = .normal request ∧
      (sAt U {} es n).tables.routeRevision = e.logId.index) ∧
    ∀ j, k < j → j ≤ n → (sAt U {} es j).tables.routes = (sAt U {} es n).tables.routes ∧
      (sAt U {} es j).tables.routeRevision = (sAt U {} es n).tables.routeRevision

def RoutesUnwritten (U : Upstream) (es : List Event) (n : ℕ) : Prop :=
  ∀ j ≤ n, (sAt U {} es j).tables.routes = ∅ ∧ (sAt U {} es j).tables.routesRevision = ∅

theorem routes_written {n : ℕ} (hn : n ≤ es.length) :
    RoutesUnwritten U es n ∨ ∃ k, RoutesWrittenAt U es k n := by
  induction n with
  | zero =>
    refine .inl fun j hj => ?_
    obtain rfl : j = 0 := by omega
    rw [sAt, Trace.stateAt_zero]
    exact ⟨rfl, rfl⟩
  | succ n ih =>
    have hs := sAt_succ (U := U) (s := {}) hn
    rcases step_routes (stateOk_run (U := U) stateOk_empty es n) es[n] with ⟨h1, h2⟩ | ⟨d, e, request, hev, hp, h'⟩
    · have hrev : (sAt U {} es (n + 1)).tables.routeRevision = (sAt U {} es n).tables.routeRevision := by
        rw [hs, Tables.routeRevision, h2]; rfl
      rcases ih (by omega) with hun | ⟨k, hk, ⟨d, e, request, hek, hp, hr⟩, hj⟩
      · refine .inl fun j hj => ?_
        rcases Nat.lt_or_ge n j with h3 | h3
        · obtain rfl : j = n + 1 := by omega
          rw [hs, h1, h2]; exact hun n le_rfl
        · exact hun j h3
      · refine .inr ⟨k, by omega, ⟨d, e, request, hek, hp, by rw [hrev, hr]⟩, fun j h3 h4 => ?_⟩
        rw [hrev]
        rcases Nat.lt_or_ge n j with h5 | h5
        · obtain rfl : j = n + 1 := by omega
          exact ⟨rfl, hrev⟩
        · rw [hs, h1]; exact hj j h3 h5
    · have hrev : (sAt U {} es (n + 1)).tables.routeRevision = e.logId.index := by
        rw [hs, Tables.routeRevision, h', get_insert, if_pos rfl]; rfl
      refine .inr ⟨n, by omega, ⟨d, e, request, ?_, hp, hrev⟩, fun j h3 h4 => ?_⟩
      · rw [List.getElem?_eq_getElem hn, hev]
      · obtain rfl : j = n + 1 := by omega
        exact ⟨rfl, rfl⟩

def RequestsAboveZero (es : List Event) : Prop :=
  ∀ e ∈ logOf es, ∀ request, e.payload = .normal request → 0 < e.logId.index

theorem RequestsAboveZero.pos (h : RequestsAboveZero es) {k : ℕ} {d : Bool} {e : Entry} {request : ControlRequest}
    (hk : es[k]? = some (.entry d e)) (hp : e.payload = .normal request) : 0 < e.logId.index :=
  h e (List.mem_filterMap.2 ⟨_, List.mem_of_getElem? hk, rfl⟩) request hp

theorem RoutesUnwritten.revision {n : ℕ} (h : RoutesUnwritten U es n) : (sAt U {} es n).tables.routeRevision = 0 := by
  rw [Tables.routeRevision, (h n le_rfl).2, get_empty]; rfl

/-- **Two states in which the route table has one revision hold one route table.** -/
theorem routes_unique (hlog : Increasing es) (hpos : RequestsAboveZero es) {m n : ℕ} (hm : m ≤ es.length)
    (hn : n ≤ es.length) (hrev : (sAt U {} es m).tables.routeRevision = (sAt U {} es n).tables.routeRevision) :
    (sAt U {} es m).tables.routes = (sAt U {} es n).tables.routes := by
  rcases routes_written (U := U) hm with hum | ⟨k, hk, ⟨d, e, q, hek, hqp, hre⟩, hj⟩ <;>
    rcases routes_written (U := U) hn with hun | ⟨l, hl, ⟨d', e', q', hel, hqp', hre'⟩, hj'⟩
  · rw [(hum m le_rfl).1, (hun n le_rfl).1]
  · rw [hum.revision, hre'] at hrev
    exact absurd hrev (hpos.pos hel hqp').ne
  · rw [hun.revision, hre] at hrev
    exact absurd hrev (hpos.pos hek hqp).ne'
  · obtain rfl : k = l := hlog.eq hek hel (by rw [← hre, hrev, hre'])
    rw [← (hj (k + 1) (by omega) (by omega)).1, (hj' (k + 1) (by omega) (by omega)).1]

/-! ## Conditional writes -/

/-- A request that is no replay and is answered `Applied` passed its precondition, and
its operation ran. -/
theorem applied_runs {s : State} {d : Bool} {e : Entry} {request : ControlRequest} (hp : e.payload = .normal request)
    (hr : replayOf U (s.receive e) request = none) (ha : (applyOne U d s e).reply.outcome = .applied) :
    checkPreconditions U s.tables request = .ok () ∧
      (∃ actions, (mutateTables U s.tables request.op e.logId.index d).2 = .ok actions) ∧
      (applyOne U d s e).state.tables = (mutateTables U s.tables request.op e.logId.index d).1 := by
  rcases entry_runs (U := U) s d e with ⟨-, -, hf⟩ | ⟨request', hp', -, -, hc, ht, hreply, -⟩
  · obtain ⟨reason, hreason⟩ := hf request hp hr
    rw [hreason] at ha
    cases ha
  · rw [hp] at hp'
    cases hp'
    refine ⟨hc, ?_, ht⟩
    cases ho : (mutateTables U s.tables request.op e.logId.index d).2 with
    | ok actions => exact ⟨actions, rfl⟩
    | error reason =>
      rw [hreply, ho] at ha
      cases ha

theorem expected_row {t : Tables} (hok : TablesOk U t) {request : ControlRequest} {r : ℕ} {p : Port}
    (hexp : request.expectedRevision = some r) (htarget : preconditionTarget request.op = some (.imposter p))
    (hc : checkPreconditions U t request = .ok ()) :
    ∃ row, t.configs[p]? = some row ∧ rowRevision U row = some r := by
  unfold checkPreconditions at hc
  rw [hexp] at hc
  cases habs : request.expectAbsent with
  | true => simp [habs] at hc
  | false =>
    simp only [habs, checkExpectedRevision, htarget] at hc
    cases hrow : t.configs[p]? with
    | none => simp [hrow] at hc
    | some row =>
      obtain ⟨w, rfl, -⟩ := hok.configs p row hrow
      simp only [hrow, Row.text, Upstream.read_imposterRow] at hc
      split at hc
      · rename_i hw
        exact ⟨_, rfl, by rw [rowRevision_text]; exact congrArg some hw⟩
      · cases hc

theorem expected_routes {t : Tables} {request : ControlRequest} {r : ℕ} (hexp : request.expectedRevision = some r)
    (htarget : preconditionTarget request.op = some .routeTable) (hc : checkPreconditions U t request = .ok ()) :
    t.routeRevision = r := by
  unfold checkPreconditions at hc
  rw [hexp] at hc
  cases habs : request.expectAbsent with
  | true => simp [habs] at hc
  | false =>
    simp only [habs, checkExpectedRevision, htarget] at hc
    split at hc
    · assumption
    · cases hc

/-- An entry with an absence precondition on a port, other than a delete, that is run
and answered `Applied`. -/
def createsAbsent (U : Upstream) (p : Port) (s : State) : Event → Bool
  | .sweep => false
  | .entry d e =>
    match e.payload with
    | .normal request =>
      request.expectAbsent && preconditionTarget request.op == some (.imposter p) &&
        request.op != .deleteImposter p && (replayOf U (s.receive e) request).isNone &&
        (applyOne U d s e).reply.outcome == .applied
    | _ => false

def removesRow (U : Upstream) (p : Port) (s : State) (ev : Event) : Bool :=
  s.tables.configs[p]?.isSome && (s.step U ev).tables.configs[p]?.isNone

theorem mutate_absent {t : Tables} {p : Port} (hrow : t.configs[p]? = none) {op : ControlOp} {index : ℕ} {d : Bool}
    {actions : List EngineAction} (htarget : preconditionTarget op = some (.imposter p))
    (hdel : op ≠ .deleteImposter p) (ho : (mutateTables U t op index d).2 = .ok actions) :
    ∃ config restart, op = .putImposter config restart ∧ config.port = some p := by
  cases op with
  | putImposter config restart =>
    refine ⟨config, restart, rfl, ?_⟩
    cases hport : config.port with
    | none => simp [preconditionTarget, hport] at htarget
    | some q => simpa [preconditionTarget, hport] using htarget
  | patchStubs q edit =>
    obtain rfl : q = p := by simpa [preconditionTarget] using htarget
    simp [mutateTables, patchStubs, storedImposter_none hrow] at ho
  | deleteImposter q => exact absurd (by simpa [preconditionTarget] using htarget) hdel
  | setEnabled q enabled =>
    obtain rfl : q = p := by simpa [preconditionTarget] using htarget
    simp [mutateTables, setEnabled, storedImposter_none hrow] at ho
  | _ => simp [preconditionTarget] at htarget

/-- **An absence precondition that passes creates the row.** -/
theorem createsAbsent_row {s : State} {p : Port} {ev : Event} (h : createsAbsent U p s ev = true) :
    s.tables.configs[p]? = none ∧ ∃ row, (s.step U ev).tables.configs[p]? = some row := by
  cases ev with
  | sweep => simp [createsAbsent] at h
  | entry d e =>
    cases hp : e.payload with
    | blank => simp [createsAbsent, hp] at h
    | membership m => simp [createsAbsent, hp] at h
    | normal request =>
      simp only [createsAbsent, hp, Bool.and_eq_true, beq_iff_eq, bne_iff_ne, Option.isNone_iff_eq_none] at h
      obtain ⟨⟨⟨⟨habs, htarget⟩, hdel⟩, hr⟩, ha⟩ := h
      obtain ⟨hc, ⟨actions, ho⟩, ht⟩ := applied_runs hp hr ha
      have hnone : s.tables.configs[p]? = none := by
        unfold checkPreconditions at hc
        cases hexp : request.expectedRevision with
        | some r => simp [hexp, habs] at hc
        | none =>
          simp only [hexp, habs, checkExpectAbsent, htarget] at hc
          split at hc
          · cases hc
          · rename_i hnot
            exact Option.not_isSome_iff_eq_none.1 hnot
      obtain ⟨config, restart, hop, hport⟩ := mutate_absent hnone htarget hdel ho
      refine ⟨hnone, Row.text U ⟨config, config.enabled, e.logId.index⟩, ?_⟩
      rw [State.step, ht, hop, mutateTables, putImposter_tables hport, store_get, if_pos rfl]

/-- **Between two states without a row, at most one absence precondition passes per
removal.** -/
theorem createsAbsent_le_removals {m n : ℕ} (hmn : m ≤ n) (hn : n ≤ es.length) {s : State} {p : Port}
    (hm : (sAt U s es m).tables.configs[p]? = none) (hend : (sAt U s es n).tables.configs[p]? = none) :
    Trace.countSteps (State.step U) (createsAbsent U p) s es m n ≤
      Trace.countSteps (State.step U) (removesRow U p) s es m n := by
  have h := @Trace.countSteps_le _ _ (State.step U) s es
    (fun s => s.tables.configs[p]?.isSome) (createsAbsent U p) (removesRow U p) m n hmn hn
    (Option.isSome_eq_false_iff.2 (Option.isNone_iff_eq_none.2 hm))
    (fun k hk hup => by
      obtain ⟨hnone, row, hrow⟩ := createsAbsent_row hup
      exact ⟨Option.isSome_eq_false_iff.2 (Option.isNone_iff_eq_none.2 hnone), by simp only [hrow, Option.isSome_some]⟩)
    (fun k hk h1 h2 => by
      unfold removesRow
      rw [h1, Option.isSome_eq_false_iff.1 h2]; rfl)
  have hoff : (Trace.stateAt (State.step U) s es n).tables.configs[p]?.isSome = false :=
    Option.isSome_eq_false_iff.2 (Option.isNone_iff_eq_none.2 hend)
  simpa only [hoff, Bool.false_eq_true, if_false, Nat.add_zero] using h

/-- **No lost update.** Along a log with growing indexes whose requests are above index
zero, from the empty state:

* two states in which a port's row carries one revision hold one row;
* a request on a port conditional on revision `r` that is run and answered `Applied`
  acts on the row written at log index `r`, untouched since;
* so for the route table and its revision, where zero means never written;
* between two states in which a port has no row, the requests conditional on its
  absence (deletes apart) that are run and answered `Applied` are no more than the
  removals of its row. -/
theorem conditional_writes_lose_no_update (es : List Event) (hlog : Increasing es) (hpos : RequestsAboveZero es) :
    (∀ (p : Port) m n a b, m ≤ es.length → n ≤ es.length → (sAt U {} es m).tables.configs[p]? = some a →
      (sAt U {} es n).tables.configs[p]? = some b → rowRevision U a = rowRevision U b → a = b) ∧
    (∀ m n, m ≤ es.length → n ≤ es.length →
      (sAt U {} es m).tables.routeRevision = (sAt U {} es n).tables.routeRevision →
      (sAt U {} es m).tables.routes = (sAt U {} es n).tables.routes) ∧
    (∀ n d e request r, es[n]? = some (.entry d e) → e.payload = .normal request →
      request.expectedRevision = some r → replayOf U ((sAt U {} es n).receive e) request = none →
      (applyOne U d (sAt U {} es n) e).reply.outcome = .applied →
      (∀ p, preconditionTarget request.op = some (.imposter p) →
        ∃ row k, (sAt U {} es n).tables.configs[p]? = some row ∧ rowRevision U row = some r ∧
          WrittenAt U es p row k n) ∧
      (preconditionTarget request.op = some .routeTable → (sAt U {} es n).tables.routeRevision = r ∧
        ((r = 0 ∧ RoutesUnwritten U es n) ∨ (0 < r ∧ ∃ k, RoutesWrittenAt U es k n)))) ∧
    (∀ (p : Port) m n, m ≤ n → n ≤ es.length → (sAt U {} es m).tables.configs[p]? = none →
      (sAt U {} es n).tables.configs[p]? = none →
      Trace.countSteps (State.step U) (createsAbsent U p) {} es m n ≤
        Trace.countSteps (State.step U) (removesRow U p) {} es m n) := by
  refine ⟨fun p m n a b hm hn ha hb hrev => row_unique hlog hm hn ha hb hrev,
    fun m n hm hn hrev => routes_unique hlog hpos hm hn hrev, ?_,
    fun p m n hmn hn hm hend => createsAbsent_le_removals hmn hn hm hend⟩
  intro n d e request r he hp hexp hr ha
  have hn : n ≤ es.length := (List.getElem?_eq_some_iff.1 he).1.le
  have hc := (applied_runs hp hr ha).1
  have hok := (stateOk_run (U := U) stateOk_empty es n).tables
  refine ⟨fun p htarget => ?_, fun htarget => ?_⟩
  · obtain ⟨row, hrow, hrev⟩ := expected_row hok hexp htarget hc
    obtain ⟨k, hk⟩ := row_written hn hrow
    exact ⟨row, k, hrow, hrev, hk⟩
  · have hrev := expected_routes hexp htarget hc
    refine ⟨hrev, ?_⟩
    rcases routes_written (U := U) hn with hun | ⟨k, hk⟩
    · exact .inl ⟨by rw [← hrev, hun.revision], hun⟩
    · obtain ⟨d', e', request', hek, hp', hre⟩ := hk.2.1
      exact .inr ⟨by rw [← hrev, hre]; exact hpos.pos hek hp', k, hk⟩

/-- A put at index 1, and in the next batch a toggle conditional on revision 1. -/
def putThenToggle : List Event :=
  [.sweep, .entry false (requestAt 1 firstPut), .sweep,
    .entry false (requestAt 2 { opId := "op-2", expectedRevision := some 1, op := .setEnabled 4545 false })]

theorem putThenToggle_acts_on_put :
    ∃ row k, (sAt jsonUpstream {} putThenToggle 3).tables.configs[4545]? = some row ∧
      rowRevision jsonUpstream row = some 1 ∧ WrittenAt jsonUpstream putThenToggle 4545 row k 3 :=
  ((conditional_writes_lose_no_update (U := jsonUpstream) putThenToggle (by unfold Increasing; decide)
    (by simp [RequestsAboveZero, putThenToggle, requestAt])).2.2.1 3 false _ _ 1 rfl rfl rfl
    (by decide +kernel) (by decide +kernel)).1 4545 rfl

/-- A delete conditional on revision 7, under the op id of an earlier request. -/
def replayedDelete : List Event :=
  [.sweep, .entry false (requestAt 1 { opId := "op-1", op := .fleetNamePut "fleet" }),
    .entry false (requestAt 2 { opId := "op-1", expectedRevision := some 7, op := .deleteImposter 4545 })]

/-- Two deletes of a port that has no row, conditional on its absence. -/
def absentDeletes : List Event :=
  [.sweep, .entry false (requestAt 1 { opId := "op-1", expectAbsent := true, op := .deleteImposter 4545 }),
    .entry false (requestAt 2 { opId := "op-2", expectAbsent := true, op := .deleteImposter 4545 })]

def routesAtZero : List Event :=
  [.sweep, .entry false (requestAt 0 { opId := "op-1", op := .putRoutes ⟨[⟨"a", ""⟩]⟩ })]

/-- Why replays, deletes and index zero are set apart: a replayed conditional delete is
answered `Applied` where there is no row; two deletes conditional on absence are both
`Applied` with nothing removed; and a route table written at index zero carries the
revision of one never written. -/
theorem conditional_writes_exceptions :
    (Increasing replayedDelete ∧ responses jsonUpstream {} replayedDelete = [⟨1, .applied⟩, ⟨1, .applied⟩] ∧
      ∀ n ≤ 3, (sAt jsonUpstream {} replayedDelete n).tables.configs[4545]? = none) ∧
    (Increasing absentDeletes ∧ responses jsonUpstream {} absentDeletes = [⟨1, .applied⟩, ⟨2, .applied⟩] ∧
      ∀ n ≤ 3, (sAt jsonUpstream {} absentDeletes n).tables.configs[4545]? = none) ∧
    (Increasing routesAtZero ∧ responses jsonUpstream {} routesAtZero = [⟨0, .applied⟩] ∧
      (sAt jsonUpstream {} routesAtZero 2).tables.routeRevision = (sAt jsonUpstream {} routesAtZero 0).tables.routeRevision ∧
      (sAt jsonUpstream {} routesAtZero 2).tables.routes ≠ (sAt jsonUpstream {} routesAtZero 0).tables.routes) := by
  unfold Increasing
  decide +kernel

end RiftCluster
