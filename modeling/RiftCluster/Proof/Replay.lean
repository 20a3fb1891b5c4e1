import RiftCluster.Proof.BatchSplit

/-!
# Exactly-once replay

The row an outcome is recorded in survives every sweep until the clock reaches
its expiry (`recorded_survives`): a sweep and a lookup use the same test, the
clock only grows, and an entry with the same op id that arrives before then is a
replay and records nothing.
-/

namespace RiftCluster

open KV

variable {U : Upstream}

/-! ## The clock -/

/-- The clock after an entry: the latest `issued_at` seen. -/
def Entry.clock (c : ℕ) (e : Entry) : ℕ :=
  match e.payload with
  | .normal request => max c request.issuedAtSecs
  | _ => c

def logClock (c : ℕ) (log : List Entry) : ℕ := log.foldl Entry.clock c

theorem Entry.le_clock (c : ℕ) (e : Entry) : c ≤ e.clock c := by
  unfold Entry.clock
  split
  · exact le_max_left _ _
  · exact le_rfl

@[simp] theorem receive_clock (s : State) (e : Entry) :
    (s.receive e).applied.logicalClockSecs = e.clock s.applied.logicalClockSecs := rfl

theorem applyOne_applied (d : Bool) (s : State) (e : Entry) :
    (applyOne U d s e).state.applied = (s.receive e).applied := by
  rcases applyOne_cases (U := U) d s e with ⟨-, heq⟩ | ⟨_, _, -, -, heq⟩ | ⟨_, -, -, heq⟩
  · rw [heq]
  · rw [heq]
  · rw [heq]; rfl

/-- **The logical clock is the log's**: sweeps and batches do not move it. -/
theorem run_clock (es : List Event) : ∀ s : State,
    (es.foldl (State.step U) s).applied.logicalClockSecs = logClock s.applied.logicalClockSecs (logOf es) := by
  induction es with
  | nil => intro s; rfl
  | cons ev es ih =>
    intro s
    rw [List.foldl_cons, ih]
    cases ev with
    | sweep => rfl
    | entry d e => rw [State.step, applyOne_applied]; rfl

theorem sAt_clock (s : State) (es : List Event) (n : ℕ) :
    (sAt U s es n).applied.logicalClockSecs = logClock s.applied.logicalClockSecs (logOf (es.take n)) :=
  run_clock _ _

theorem le_logClock (c : ℕ) (log : List Entry) : c ≤ logClock c log := by
  induction log generalizing c with
  | nil => exact le_rfl
  | cons e log ih => exact (e.le_clock c).trans (ih _)

theorem logClock_take_mono (c : ℕ) (es : List Event) {m n : ℕ} (h : m ≤ n) :
    logClock c (logOf (es.take m)) ≤ logClock c (logOf (es.take n)) := by
  have : es.take n = es.take m ++ (es.take n).drop m := by
    conv_lhs => rw [← List.take_append_drop m (es.take n), List.take_take, min_eq_left h]
  rw [this, logOf_append, logClock, logClock, List.foldl_append]
  exact le_logClock _ _

theorem logOf_take_entry {es : List Event} {n : ℕ} (hn : n < es.length) {d : Bool} {e : Entry}
    (he : es[n] = .entry d e) : logOf (es.take (n + 1)) = logOf (es.take n) ++ [e] := by
  rw [List.take_succ_eq_append_getElem hn, he, logOf_append]; rfl

theorem logClock_take_entry (c : ℕ) {es : List Event} {n : ℕ} (hn : n < es.length) {d : Bool} {e : Entry}
    (he : es[n] = .entry d e) : logClock c (logOf (es.take (n + 1))) = e.clock (logClock c (logOf (es.take n))) := by
  rw [logOf_take_entry hn he, logClock, logClock, List.foldl_append]; rfl

/-! ## Recorded outcomes -/

theorem replayOf_of_row {s : State} {request : ControlRequest} {entry : DedupEntry}
    (hrow : s.dedup[request.opId]? = some (U.dedup.write entry))
    (hlive : s.applied.logicalClockSecs < entry.expiresAtSecs) : replayOf U s request = some entry := by
  rw [replayOf_eq, hrow]
  simp [liveEntry, Except.toOption, Option.filter_some, hlive]

theorem step_keeps_row {s : State} {opId : String} {entry : DedupEntry} {ev : Event}
    (hrow : s.dedup[opId]? = some (U.dedup.write entry))
    (hclock : (s.step U ev).applied.logicalClockSecs < entry.expiresAtSecs) :
    (s.step U ev).dedup[opId]? = some (U.dedup.write entry) := by
  cases ev with
  | sweep =>
    have hlive : dedupLive U s.applied.logicalClockSecs (U.dedup.write entry) = true := by
      simpa [dedupLive, State.step, State.sweep] using hclock
    simp only [State.step, State.sweep, get_gcDedup, hrow, Option.filter_some, hlive, if_true]
  | entry d e =>
    rw [State.step, applyOne_applied] at hclock
    rw [State.step]
    rcases applyOne_cases (U := U) d s e with ⟨-, heq⟩ | ⟨_, _, -, -, heq⟩ | ⟨request, -, hr, heq⟩
    · rw [heq]; exact hrow
    · rw [heq]; exact hrow
    · rw [heq]
      simp only [commitOp, get_insert]
      split
      · -- a request of the same op id would have been a replay
        rename_i hop
        have : replayOf U (s.receive e) request = some entry := replayOf_of_row (by rw [hop]; exact hrow) hclock
        rw [hr] at this; cases this
      · exact hrow

/-- **A recorded outcome survives until the clock reaches its expiry.** -/
theorem recorded_survives {s : State} {es : List Event} {m n : ℕ} (hmn : m ≤ n) (hn : n ≤ es.length)
    {opId : String} {entry : DedupEntry} (hrow : (sAt U s es m).dedup[opId]? = some (U.dedup.write entry))
    (hclock : logClock s.applied.logicalClockSecs (logOf (es.take n)) < entry.expiresAtSecs) :
    (sAt U s es n).dedup[opId]? = some (U.dedup.write entry) := by
  refine Trace.stateAt_stretch (P := fun s : State => s.dedup[opId]? = some (U.dedup.write entry)) hmn hn hrow ?_
  intro k hk _ hkn hP
  apply step_keeps_row hP
  change ((sAt U s es k).step U es[k]).applied.logicalClockSecs < _
  rw [← sAt_succ hk]
  calc (sAt U s es (k + 1)).applied.logicalClockSecs
      = logClock s.applied.logicalClockSecs (logOf (es.take (k + 1))) := sAt_clock s es (k + 1)
    _ ≤ logClock s.applied.logicalClockSecs (logOf (es.take n)) := logClock_take_mono _ _ hkn
    _ < entry.expiresAtSecs := hclock

def recordedOutcome (U : Upstream) (d : Bool) (s : State) (e : Entry) : DedupEntry where
  response := (applyOne U d s e).reply
  expiresAtSecs := saturatingAdd (s.receive e).applied.logicalClockSecs dedupTtlSecs

theorem applyOne_records {d : Bool} {s : State} {e : Entry} {request : ControlRequest}
    (hp : e.payload = .normal request) (hr : replayOf U (s.receive e) request = none) :
    (applyOne U d s e).state.dedup[request.opId]? = some (U.dedup.write (recordedOutcome U d s e)) := by
  have heq : applyOne U d s e = commitOp U (s.receive e) request e.logId.index d := by
    simp only [applyOne, hp, hr]
  rw [recordedOutcome, heq]
  simp only [commitOp, get_insert, if_true]

theorem receive_sAt_clock (s : State) {es : List Event} {n : ℕ} (hn : n < es.length) {d : Bool} {e : Entry}
    (he : es[n] = .entry d e) : ((sAt U s es n).receive e).applied.logicalClockSecs =
      logClock s.applied.logicalClockSecs (logOf (es.take (n + 1))) := by
  rw [receive_clock, sAt_clock, logClock_take_entry _ hn he]

theorem recordedOutcome_expires (s : State) {es : List Event} {m : ℕ} (hm : m < es.length) {d : Bool} {e : Entry}
    (he : es[m] = .entry d e) : (recordedOutcome U d (sAt U s es m) e).expiresAtSecs =
      saturatingAdd (logClock s.applied.logicalClockSecs (logOf (es.take (m + 1)))) dedupTtlSecs := by
  rw [recordedOutcome, receive_sAt_clock s hm he]

theorem replayOf_recorded (s : State) (es : List Event) {n m : ℕ} (hmn : m < n) (hn : n < es.length)
    {di dj : Bool} {i j : Entry} {ri rj : ControlRequest}
    (hi : es[m] = .entry di i) (hri : i.payload = .normal ri) (hj : es[n] = .entry dj j) (hop : rj.opId = ri.opId)
    (hrun : replayOf U ((sAt U s es m).receive i) ri = none)
    (hclock : logClock s.applied.logicalClockSecs (logOf (es.take (n + 1))) <
      saturatingAdd (logClock s.applied.logicalClockSecs (logOf (es.take (m + 1)))) dedupTtlSecs) :
    replayOf U ((sAt U s es n).receive j) rj = some (recordedOutcome U di (sAt U s es m) i) := by
  have hexp := recordedOutcome_expires (U := U) s (by omega : m < es.length) hi
  have hrow : (sAt U s es (m + 1)).dedup[ri.opId]? =
      some (U.dedup.write (recordedOutcome U di (sAt U s es m) i)) := by
    rw [sAt_succ (by omega), hi]
    exact applyOne_records hri hrun
  have hkept := recorded_survives (U := U) (by omega : m + 1 ≤ n) hn.le hrow <| by
    rw [hexp]; exact (logClock_take_mono _ _ (by omega)).trans_lt hclock
  apply replayOf_of_row
  · rw [hop]; exact hkept
  · rw [receive_sAt_clock s hn hj, hexp]; exact hclock

/-- **Exactly-once replay.** Entry `i`, at event `m`, is run and its outcome recorded;
entry `j`, at event `n`, has its op id. While the log's clock at `j` is before the
recorded expiry, `j` is answered with `i`'s response, whatever it carries: it emits
no engine action, and of the durable state only the applied id and the clock move. -/
theorem replay_returns_recorded (s : State) (es : List Event) {n m : ℕ} (hmn : m < n) (hn : n < es.length)
    {di dj : Bool} {i j : Entry} {ri rj : ControlRequest}
    (hi : es[m] = .entry di i) (hri : i.payload = .normal ri)
    (hj : es[n] = .entry dj j) (hrj : j.payload = .normal rj) (hop : rj.opId = ri.opId)
    (hrun : replayOf U ((sAt U s es m).receive i) ri = none)
    (hclock : logClock s.applied.logicalClockSecs (logOf (es.take (n + 1))) <
      saturatingAdd (logClock s.applied.logicalClockSecs (logOf (es.take (m + 1)))) dedupTtlSecs) :
    (applyOne U dj (sAt U s es n) j).reply = (applyOne U di (sAt U s es m) i).reply ∧
      (applyOne U dj (sAt U s es n) j).actions = [] ∧
      (applyOne U dj (sAt U s es n) j).state =
        { sAt U s es n with applied :=
          { (sAt U s es n).applied with
            lastAppliedLog := some j.logId
            logicalClockSecs := logClock s.applied.logicalClockSecs (logOf (es.take (n + 1))) } } := by
  have hreplay := replayOf_recorded (U := U) s es hmn hn hi hri hj hop hrun hclock
  have hnow : ((sAt U s es n).receive j).applied.logicalClockSecs =
      logClock s.applied.logicalClockSecs (logOf (es.take (n + 1))) := receive_sAt_clock s hn hj
  have heq : applyOne U dj (sAt U s es n) j =
      ⟨(sAt U s es n).receive j, (recordedOutcome U di (sAt U s es m) i).response, []⟩ := by
    simp only [applyOne, hrj, hreplay]
  rw [heq]
  refine ⟨rfl, rfl, ?_⟩
  rw [← hnow]
  simp only [State.receive, hrj]

/-- A put, and in the next batch a delete under the put's op id. -/
def putThenReplay : List Event :=
  [.sweep, .entry false (requestAt 1 firstPut), .sweep,
    .entry false (requestAt 2 { opId := firstPut.opId, op := .deleteImposter 4545 })]

theorem delete_replays_put :
    let put := requestAt 1 firstPut
    let delete := requestAt 2 { opId := firstPut.opId, op := .deleteImposter 4545 }
    let s := sAt jsonUpstream {} putThenReplay 3
    (applyOne jsonUpstream false s delete).reply =
        (applyOne jsonUpstream false (sAt jsonUpstream {} putThenReplay 1) put).reply ∧
      (applyOne jsonUpstream false s delete).actions = [] ∧
      (applyOne jsonUpstream false s delete).state =
        { s with applied := { s.applied with
            lastAppliedLog := some delete.logId
            logicalClockSecs := logClock 0 (logOf (putThenReplay.take 4)) } } :=
  replay_returns_recorded (U := jsonUpstream) {} putThenReplay (m := 1) (n := 3) (by decide) (by decide)
    rfl rfl rfl rfl rfl (by decide +kernel) (by decide +kernel)

/-! ## Where a recorded outcome comes from -/

/-- The entry of an event list at which a request of the op id is run. -/
def RunAt (U : Upstream) (es : List Event) (opId : String) (m : ℕ) (d : Bool) (e : Entry) (request : ControlRequest) :
    Prop :=
  es[m]? = some (.entry d e) ∧ e.payload = .normal request ∧ request.opId = opId ∧
    replayOf U ((sAt U {} es m).receive e) request = none

/-- **A recorded row is what an entry of its op id wrote when it was run.** -/
theorem dedup_row_written {es : List Event} {n : ℕ} (hn : n ≤ es.length) {opId row : String}
    (hrow : (sAt U {} es n).dedup[opId]? = some row) : ∃ m < n, ∃ d e request, RunAt U es opId m d e request ∧
      row = U.dedup.write (recordedOutcome U d (sAt U {} es m) e) := by
  obtain ⟨m, hm, hmn, hnot, hmade, -⟩ := sAt_origin (fun s => s.dedup[opId]? = some row) (by simp) hn hrow
  refine ⟨m, hmn, ?_⟩
  cases hev : es[m] with
  | sweep =>
    -- a sweep brings no row about
    rw [hev] at hmade
    simp only [State.step, State.sweep, get_gcDedup, Option.filter_eq_some_iff] at hmade
    exact absurd hmade.1 hnot
  | entry d e =>
    rw [hev, State.step] at hmade
    rcases applyOne_cases (U := U) d (sAt U {} es m) e with ⟨-, heq⟩ | ⟨_, _, -, -, heq⟩ | ⟨request, hp, hr, heq⟩
    · rw [heq] at hmade
      exact absurd hmade hnot
    · rw [heq] at hmade
      exact absurd hmade hnot
    · by_cases hop : request.opId = opId
      · -- the entry is run under this op id: the row is its own
        have hown := applyOne_records (U := U) (d := d) hp hr
        rw [hop, hmade] at hown
        refine ⟨d, e, request, ⟨?_, hp, hop, hr⟩, Option.some.inj hown⟩
        rw [List.getElem?_eq_getElem hm, hev]
      · rw [heq] at hmade
        simp only [commitOp, get_insert, if_neg hop] at hmade
        exact absurd hmade hnot

/-- The op id was run at an earlier entry, and its recorded outcome is not expired
at entry `n`. -/
def Remembered (U : Upstream) (es : List Event) (opId : String) (n : ℕ) : Prop :=
  ∃ m < n, (∃ d e request, RunAt U es opId m d e request) ∧
    logClock 0 (logOf (es.take (n + 1))) < saturatingAdd (logClock 0 (logOf (es.take (m + 1)))) dedupTtlSecs

theorem replay_origin {es : List Event} {n : ℕ} (hn : n < es.length) {d : Bool} {e : Entry}
    (he : es[n] = .entry d e) {request : ControlRequest} {previous : DedupEntry}
    (hr : replayOf U ((sAt U {} es n).receive e) request = some previous) :
    ∃ m < n, ∃ d' e' request', RunAt U es request.opId m d' e' request' ∧
      previous = recordedOutcome U d' (sAt U {} es m) e' ∧
      logClock 0 (logOf (es.take (n + 1))) < saturatingAdd (logClock 0 (logOf (es.take (m + 1)))) dedupTtlSecs := by
  rw [replayOf_eq, Option.bind_eq_some_iff] at hr
  obtain ⟨row, hrow, hlive⟩ := hr
  obtain ⟨m, hm, d', e', request', hrun, rfl⟩ := dedup_row_written hn.le hrow
  rw [liveEntry, U.dedup_read, receive_sAt_clock _ hn he] at hlive
  simp only [Except.toOption, Option.filter_eq_some_iff, Option.some.injEq, gt_iff_lt, decide_eq_true_eq] at hlive
  obtain ⟨rfl, hclock⟩ := hlive
  obtain ⟨hm', he'⟩ := List.getElem?_eq_some_iff.1 hrun.1
  rw [recordedOutcome_expires _ hm' he'] at hclock
  exact ⟨m, hm, d', e', request', hrun, rfl, hclock⟩

/-- **A request is a replay iff its op id is remembered.** -/
theorem replay_iff_remembered {es : List Event} {n : ℕ} (hn : n < es.length) {d : Bool} {e : Entry}
    (he : es[n] = .entry d e) (request : ControlRequest) :
    (∃ previous, replayOf U ((sAt U {} es n).receive e) request = some previous) ↔
      Remembered U es request.opId n := by
  constructor
  · rintro ⟨previous, hr⟩
    obtain ⟨m, hm, d', e', request', hrun, -, hclock⟩ := replay_origin hn he hr
    exact ⟨m, hm, ⟨d', e', request', hrun⟩, hclock⟩
  · rintro ⟨m, hm, ⟨d', e', request', hev, hp, hop, hnone⟩, hclock⟩
    obtain ⟨_, he'⟩ := List.getElem?_eq_some_iff.1 hev
    exact ⟨_, replayOf_recorded {} es hm hn he' hp he hop.symm hnone hclock⟩

end RiftCluster
