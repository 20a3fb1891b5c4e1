import RiftCluster.Proof.Revisions

/-!
# Recorded markers

Every marker belongs to a port that has a row (`marker_owned`): the two operations
that remove a row remove its markers with it, and a recording writes one only
where a row is. A recording that does not merge writes tables only where its
marker is absent, and leaves it present (`recording_cases`); so the first one
wins until the marker is removed.
-/

namespace RiftCluster

open KV

variable {U : Upstream} {t : Tables}

/-! ## Ownership -/

def MarkersOwned (t : Tables) : Prop :=
  ∀ (p : Port) (h v : String), t.proxyRecorded[(p, h)]? = some v → ∃ row, t.configs[p]? = some row

theorem removes_markers {op : ControlOp} {p : Port} (hop : op.removes p) (index : ℕ) (degraded : Bool) (h : String) :
    (mutateTables U t op index degraded).1.proxyRecorded[(p, h)]? = none := by
  cases op with
  | deleteImposter q =>
    obtain rfl : q = p := hop
    have hd : ∀ d, (deleteImposter U t q d).1.proxyRecorded[(q, h)]? = (t.forgetPort q).proxyRecorded[(q, h)]? := by
      intro d; cases d <;> rfl
    rw [mutateTables, hd, get_forgetPort, if_pos rfl]
  | deleteAll => simp only [mutateTables, deleteAll, retain_none]; exact get_empty _
  | _ => exact hop.elim

theorem markersOwned_mutateTables (hok : TablesOk U t) (hown : MarkersOwned t) (op : ControlOp) (index : ℕ)
    (degraded : Bool) : MarkersOwned (mutateTables U t op index degraded).1 := by
  intro p h v hv
  rcases mutate_row hok op index degraded p with hrow | ⟨hrem, -⟩ | ⟨r, -, hrow⟩
  · -- the row is as it was: it was there, or the marker's own recording found it
    rw [hrow]
    rcases mutate_marker hok op index degraded p h with hm | ⟨-, hm⟩ | ⟨_, _, -, -, -, hsome, -⟩
    · rw [hm] at hv; exact hown p h v hv
    · rw [hm] at hv; cases hv
    · exact Option.isSome_iff_exists.1 hsome
  · rw [removes_markers hrem] at hv; cases hv
  · exact ⟨_, hrow⟩

/-- **Every marker of a run belongs to a port that has a row.** -/
theorem marker_owned (es : List Event) (n : ℕ) : MarkersOwned (sAt U {} es n).tables := by
  have h := @Trace.stateAt_inv _ _ (State.step U) {} es
    (fun s : State => StateOk U s ∧ MarkersOwned s.tables)
    ⟨stateOk_empty, fun p h v hv => by rw [get_empty] at hv; cases hv⟩
    (fun s ev _ hs => ⟨stateOk_step hs.1 ev, by
      rcases step_tables (U := U) s ev with h | ⟨_, _, _, -, -, -, -, -, h, -⟩
      · rw [h]; exact hs.2
      · rw [h]; exact markersOwned_mutateTables hs.1.tables hs.2 _ _ _⟩) n
  exact h.2

/-! ## First wins -/

/-- A recording that does not merge leaves a marker, where there was none and the port has a row. -/
theorem recording_marks {p : Port} {h : String} {r : Row} (hnew : t.proxyRecorded[(p, h)]? = none)
    (hrow : t.configs[p]? = some (r.text U)) (resp : RecordedResponse) {stub : Option RecordedStub}
    (hm : merging stub = false) (index : ℕ) (degraded : Bool) :
    (mutateTables U t (.proxyRecorded p h resp stub) index degraded).1.proxyRecorded[(p, h)]? =
      some (U.recorded.write resp) := by
  have hblocked : (t.proxyRecorded[(p, h)]?.isSome && !merging stub) = false := by rw [hnew]; rfl
  simp only [mutateTables]
  cases stub with
  | none =>
    have heq : (proxyRecorded U t p h resp none index).1 = t.mark U p h resp := by
      simp only [proxyRecorded, hblocked, hrow]; rfl
    rw [heq, mark_get, if_pos rfl]
  | some recorded =>
    rw [proxyRecorded_tables hrow h resp recorded index hblocked]
    simp only [hm, Bool.false_eq_true, if_false, mark_get, if_true]

/-- What a recording that does not merge can do: nothing, where its marker is; refuse,
where the port has no row; or leave its marker. -/
theorem recording_cases (hok : TablesOk U t) (p : Port) (h : String) (resp : RecordedResponse)
    {stub : Option RecordedStub} (hm : merging stub = false) (index : ℕ) (degraded : Bool) :
    (t.proxyRecorded[(p, h)]?.isSome ∧ mutateTables U t (.proxyRecorded p h resp stub) index degraded = (t, .ok [])) ∨
      (∃ reason, mutateTables U t (.proxyRecorded p h resp stub) index degraded = (t, .error reason)) ∨
      (t.proxyRecorded[(p, h)]? = none ∧
        (mutateTables U t (.proxyRecorded p h resp stub) index degraded).1.proxyRecorded[(p, h)]? =
          some (U.recorded.write resp)) := by
  cases hnew : t.proxyRecorded[(p, h)]? with
  | some v => exact .inl ⟨rfl, by simp [mutateTables, proxyRecorded, hnew, hm]⟩
  | none =>
    rcases storedImposter_cases hok p with ⟨hnone, -⟩ | ⟨r, hrow, -, -⟩
    · exact .inr (.inl ⟨s!"no imposter on port {p}", by simp [mutateTables, proxyRecorded, hnew, hnone]⟩)
    · exact .inr (.inr ⟨rfl, recording_marks hnew hrow resp hm index degraded⟩)

theorem merging_keeps_markers (hok : TablesOk U t) {p : Port} {h : String} {resp : RecordedResponse}
    {stub : Option RecordedStub} (hm : merging stub = true) (index : ℕ) (degraded : Bool) :
    (mutateTables U t (.proxyRecorded p h resp stub) index degraded).1.proxyRecorded = t.proxyRecorded := by
  apply ext_get
  rintro ⟨q, g⟩
  rcases mutate_marker hok (.proxyRecorded p h resp stub) index degraded q g with h' | ⟨hf, -⟩ | ⟨_, _, heq, hm', -⟩
  · exact h'
  · exact hf.elim
  · cases heq
    rw [hm] at hm'; cases hm'

theorem step_marker {s : State} (hok : StateOk U s) (ev : Event) (p : Port) (h v : String)
    (hv : s.tables.proxyRecorded[(p, h)]? = some v) :
    (s.step U ev).tables.proxyRecorded[(p, h)]? = some v ∨ (s.step U ev).tables.proxyRecorded[(p, h)]? = none := by
  rcases step_tables (U := U) s ev with h' | ⟨d, e, request, -, -, -, -, -, h', -⟩
  · exact .inl (by rw [h', hv])
  · rw [h']
    rcases mutate_marker hok.tables request.op e.logId.index d p h with hm | ⟨-, hm⟩ | ⟨_, _, -, -, hnone, -⟩
    · exact .inl (by rw [hm, hv])
    · exact .inr hm
    · rw [hv] at hnone; cases hnone

theorem marker_constant {es : List Event} {p : Port} {h : String} {m n : ℕ} (hmn : m ≤ n) (hn : n ≤ es.length)
    (hpresent : ∀ j, m ≤ j → j ≤ n → (sAt U {} es j).tables.proxyRecorded[(p, h)]?.isSome) {v : String}
    (hv : (sAt U {} es m).tables.proxyRecorded[(p, h)]? = some v) :
    (sAt U {} es n).tables.proxyRecorded[(p, h)]? = some v := by
  induction n with
  | zero => obtain rfl : m = 0 := by omega
            exact hv
  | succ n ih =>
    rcases Nat.eq_or_lt_of_le hmn with rfl | hlt
    · exact hv
    · have hn' := ih (by omega) (by omega) fun j h1 h2 => hpresent j h1 (by omega)
      have hpn := hpresent (n + 1) (by omega) le_rfl
      rw [sAt_succ (by omega)] at hpn ⊢
      rcases step_marker (stateOk_run stateOk_empty es n) es[n] p h v hn' with h' | h'
      · exact h'
      · rw [h'] at hpn; cases hpn

def Recording (ev : Event) (p : Port) (h : String) (mergesInto : Bool) : Prop :=
  ∃ d e request resp stub, ev = .entry d e ∧ e.payload = .normal request ∧
    request.op = .proxyRecorded p h resp stub ∧ merging stub = mergesInto

theorem step_recording {s : State} (hok : StateOk U s) {ev : Event} {p : Port} {h : String}
    (hrec : Recording ev p h false) (hne : (s.step U ev).tables ≠ s.tables) :
    s.tables.proxyRecorded[(p, h)]? = none ∧ ∃ v, (s.step U ev).tables.proxyRecorded[(p, h)]? = some v := by
  obtain ⟨d, e, request, resp, stub, rfl, hp, hop, hm⟩ := hrec
  rcases step_tables (U := U) s (.entry d e) with h' | ⟨d', e', request', hev, hp', -, -, -, h', -⟩
  · exact absurd h' hne
  · cases hev
    rw [hp] at hp'
    cases hp'
    rw [hop] at h'
    rw [h'] at hne ⊢
    rcases recording_cases hok.tables p h resp hm e.logId.index d with ⟨-, heq⟩ | ⟨reason, heq⟩ | ⟨h1, h2⟩
    · rw [heq] at hne; exact absurd rfl hne
    · rw [heq] at hne; exact absurd rfl hne
    · exact ⟨h1, _, h2⟩

/-- A non-merging recording that changes no table drives nothing; run and answered
`Applied`, it found its marker. -/
theorem recording_idle {s : State} (hok : StateOk U s) {d : Bool} {e : Entry} {request : ControlRequest} {p : Port}
    {h : String} {resp : RecordedResponse} {stub : Option RecordedStub} (hp : e.payload = .normal request)
    (hop : request.op = .proxyRecorded p h resp stub) (hm : merging stub = false)
    (hidle : (applyOne U d s e).state.tables = s.tables) :
    (applyOne U d s e).actions = [] ∧
      (replayOf U (s.receive e) request = none → (applyOne U d s e).reply.outcome = .applied →
        s.tables.proxyRecorded[(p, h)]?.isSome) := by
  rcases entry_runs (U := U) s d e with ⟨-, hact, hf⟩ | ⟨request', hp', -, -, -, ht, hreply, hact⟩
  · refine ⟨hact, fun hr ha => ?_⟩
    obtain ⟨reason, hreason⟩ := hf request hp hr
    rw [hreason] at ha
    cases ha
  · rw [hp] at hp'
    cases hp'
    rw [hop] at ht hreply hact
    rw [hact, hreply]
    rcases recording_cases hok.tables p h resp hm e.logId.index d with ⟨hsome, heq⟩ | ⟨reason, heq⟩ | ⟨hnone, hmark⟩
    · rw [heq]
      exact ⟨rfl, fun _ _ => hsome⟩
    · rw [heq]
      exact ⟨rfl, fun _ ha => by cases ha⟩
    · rw [← ht, hidle, hnone] at hmark
      cases hmark

/-- **proxyOnce recordings are first-wins and owned.** Along every run from the empty
state:

* every marker's port has a row;
* while a marker stays present its response never changes;
* of two recordings of one signature that do not merge and both change a table, the
  marker is removed between them;
* any other one leaves every table as it was and drives nothing, and where it is run
  and answered `Applied` its marker is there;
* a merging recording leaves every marker alone. -/
theorem recordings_first_win (es : List Event) :
    (∀ n (p : Port) (h v : String), (sAt U {} es n).tables.proxyRecorded[(p, h)]? = some v →
      ∃ row, (sAt U {} es n).tables.configs[p]? = some row) ∧
    (∀ (p : Port) (h : String) m n a b, m ≤ n → n ≤ es.length →
      (∀ j, m ≤ j → j ≤ n → (sAt U {} es j).tables.proxyRecorded[(p, h)]?.isSome) →
      (sAt U {} es m).tables.proxyRecorded[(p, h)]? = some a →
      (sAt U {} es n).tables.proxyRecorded[(p, h)]? = some b → a = b) ∧
    (∀ (p : Port) (h : String) i j (hij : i < j) (hj : j < es.length),
      Recording es[i] p h false → Recording es[j] p h false →
      (sAt U {} es (i + 1)).tables ≠ (sAt U {} es i).tables →
      (sAt U {} es (j + 1)).tables ≠ (sAt U {} es j).tables →
      ∃ k, i < k ∧ k < j ∧ (sAt U {} es k).tables.proxyRecorded[(p, h)]?.isSome ∧
        (sAt U {} es (k + 1)).tables.proxyRecorded[(p, h)]? = none) ∧
    (∀ (p : Port) (h : String) n d e request resp stub, es[n]? = some (.entry d e) → e.payload = .normal request →
      request.op = .proxyRecorded p h resp stub → merging stub = false →
      (sAt U {} es (n + 1)).tables = (sAt U {} es n).tables →
      (applyOne U d (sAt U {} es n) e).actions = [] ∧
        (replayOf U ((sAt U {} es n).receive e) request = none →
          (applyOne U d (sAt U {} es n) e).reply.outcome = .applied →
          (sAt U {} es n).tables.proxyRecorded[(p, h)]?.isSome)) ∧
    (∀ (p : Port) (h : String) n (hn : n < es.length), Recording es[n] p h true →
      (sAt U {} es (n + 1)).tables.proxyRecorded = (sAt U {} es n).tables.proxyRecorded) := by
  have hok : ∀ n, StateOk U (sAt U {} es n) := stateOk_run stateOk_empty es
  refine ⟨fun n => marker_owned es n, ?_, ?_, ?_, ?_⟩
  · intro p h m n a b hmn hn hpresent ha hb
    rw [marker_constant hmn hn hpresent ha] at hb
    exact Option.some.inj hb
  · intro p h i j hij hj hi hrj hci hcj
    rw [sAt_succ (by omega)] at hci
    rw [sAt_succ hj] at hcj
    obtain ⟨-, v, hv⟩ := step_recording (hok i) hi hci
    obtain ⟨hnone, -⟩ := step_recording (hok j) hrj hcj
    rw [← sAt_succ (by omega)] at hv
    obtain ⟨k, h1, h2, h3, h4⟩ := @Trace.exists_fall _ _ (State.step U) {} es
      (fun s : State => s.tables.proxyRecorded[(p, h)]?.isSome) (i + 1) j hij
      (Option.isSome_iff_exists.2 ⟨v, hv⟩) (Option.isSome_eq_false_iff.2 (Option.isNone_iff_eq_none.2 hnone))
    exact ⟨k, h1, h2, h3, Option.isNone_iff_eq_none.1 (Option.isSome_eq_false_iff.1 h4)⟩
  · intro p h n d e request resp stub hev hp hop hm hidle
    obtain ⟨hn, hev⟩ := List.getElem?_eq_some_iff.1 hev
    rw [sAt_succ hn, hev] at hidle
    exact recording_idle (hok n) hp hop hm hidle
  · intro p h n hn hrec
    obtain ⟨d, e, request, resp, stub, hev, hp, hop, hm⟩ := hrec
    rw [sAt_succ hn, hev]
    rcases step_tables (U := U) (sAt U {} es n) (.entry d e) with h' | ⟨d', e', request', hev', hp', -, -, -, h', -⟩
    · rw [h']
    · cases hev'
      rw [hp] at hp'
      cases hp'
      rw [h', hop]
      exact merging_keeps_markers (hok n).tables hm _ _

def recordBody (opId : String) : ControlRequest :=
  { opId, op := .proxyRecorded 4545 "ab12" { status := 200, headers := [], body := [], latencyMs := none, timestampSecs := 0 } none }

/-- Two lives of an imposter, with a recording of one signature in each and one between them. -/
def recordedTwice : List Event :=
  [.sweep, .entry false (requestAt 1 firstPut), .entry false (requestAt 2 (recordBody "op-2")),
    .entry false (requestAt 3 { opId := "op-3", op := .deleteImposter 4545 }),
    .entry false (requestAt 4 (recordBody "op-4")),
    .entry false (requestAt 5 { opId := "op-5", op := .putImposter (httpImposter []) none }),
    .entry false (requestAt 6 (recordBody "op-6")),
    .entry false (requestAt 7 { opId := "op-7", op := .deleteImposter 4545 })]

/-- In the first life the marker has its owner. -/
theorem recordedTwice_owned :
    ∃ row, (sAt jsonUpstream {} recordedTwice 3).tables.configs[4545]? = some row :=
  (recordings_first_win recordedTwice).1 3 4545 "ab12"
    (jsonUpstream.recorded.write { status := 200, headers := [], body := [], latencyMs := none, timestampSecs := 0 })
    (by decide +kernel)

/-- Between two removals of a marker, a recording that changes nothing may be answered `Failed`. -/
theorem recordedTwice_fails_between :
    (sAt jsonUpstream {} recordedTwice 3).tables.proxyRecorded[((4545 : Port), "ab12")]?.isSome ∧
      (sAt jsonUpstream {} recordedTwice 4).tables.proxyRecorded[((4545 : Port), "ab12")]? = none ∧
      (applyOne jsonUpstream false (sAt jsonUpstream {} recordedTwice 4) (requestAt 4 (recordBody "op-4"))).reply =
        ⟨4, .failed "no imposter on port 4545"⟩ ∧
      (sAt jsonUpstream {} recordedTwice 7).tables.proxyRecorded[((4545 : Port), "ab12")]?.isSome ∧
      (sAt jsonUpstream {} recordedTwice 8).tables.proxyRecorded[((4545 : Port), "ab12")]? = none := by
  decide +kernel

end RiftCluster
