import RiftCluster.Model.Reads
import RiftCluster.Model.Replace
import RiftCluster.Proof.DedupSweep
import RiftCluster.Proof.Effects

/-!
# The imposters under puts and deletes

The imposters of a fleet are a function from ports to configs (`imposters`), and a put or a
delete assigns one port (`ControlOp.sets?`). A run of such requests is an assignment of
those that find no outcome under their op id, in order (`run_imposters`).
-/

namespace RiftCluster

open KV

/-! ## Assignments -/

section Assign

variable {K V : Type} [DecidableEq K]

def assign (f : K → V) (l : List (K × V)) : K → V := l.foldl (fun f a => Function.update f a.1 a.2) f

theorem assign_cons (f : K → V) (a : K × V) (l : List (K × V)) :
    assign f (a :: l) = assign (Function.update f a.1 a.2) l := rfl

theorem assign_apply {l : List (K × V)} {k : K} {v : V} (h : ∀ a ∈ l, a.1 = k → a.2 = v) (f : K → V) :
    assign f l k = if k ∈ l.map Prod.fst then v else f k := by
  induction l generalizing f with
  | nil => simp [assign]
  | cons a l ih =>
    rw [assign_cons, ih (fun b hb => h b (List.mem_cons_of_mem _ hb))]
    by_cases hk : k = a.1
    · have hv : a.2 = v := h a List.mem_cons_self hk.symm
      simp [hk, hv]
    · rw [Function.update_of_ne hk]
      exact if_congr (by rw [List.map_cons, List.mem_cons, or_iff_right hk]) rfl rfl

end Assign

variable {U : Upstream}

/-! ## One request -/

def imposters (U : Upstream) (s : State) : Port → Option ImposterConfig := storedConfig U s.tables

theorem imposters_isSome {s : State} (hok : StateOk U s) (p : Port) :
    (imposters U s p).isSome = s.tables.configs[p]?.isSome := by
  unfold imposters storedConfig
  cases hrow : s.tables.configs[p]? with
  | none => rfl
  | some row =>
    obtain ⟨r, rfl, -⟩ := hok.tables.configs p row hrow
    simp [Row.text, Except.toOption]

/-- The port a put or a delete assigns, and what it assigns. -/
def ControlOp.sets? : ControlOp → Option (Port × Option ImposterConfig)
  | .putImposter config _ => config.port.map fun port => (port, some config)
  | .deleteImposter port => some (port, none)
  | _ => none

/-- A put or a delete that is valid and unconditional. -/
structure Replaces (U : Upstream) (request : ControlRequest) : Prop where
  valid : validate U request.op = .ok ()
  expectedRevision : request.expectedRevision = none
  expectAbsent : request.expectAbsent = false
  sets : request.op.sets?.isSome

theorem mutate_imposters {op : ControlOp} {p : Port} {v : Option ImposterConfig} (hop : op.sets? = some (p, v)) (t : Tables)
    (index : ℕ) (degraded : Bool) :
    storedConfig U (mutateTables U t op index degraded).1 = Function.update (storedConfig U t) p v := by
  funext q
  cases op with
  | putImposter config restart =>
    obtain ⟨port, hport, heq⟩ := Option.map_eq_some_iff.1 hop
    cases heq
    have hkept := (putForgets_spec (U := U) (t := t) p config restart).1
    rw [mutateTables, putImposter_tables hport, storedConfig, store_get, hkept]
    by_cases hq : p = q
    · subst hq
      simp [Row.text, Except.toOption]
    · rw [if_neg hq, Function.update_of_ne (Ne.symm hq)]
      rfl
  | deleteImposter port =>
    cases hop
    have hconfigs : (mutateTables U t (.deleteImposter p) index degraded).1.configs = t.configs.erase p := by
      unfold mutateTables deleteImposter
      cases degraded <;> rfl
    rw [storedConfig, hconfigs, get_erase]
    by_cases hq : p = q
    · subst hq
      simp
    · rw [if_neg hq, Function.update_of_ne (Ne.symm hq)]
      rfl
  | _ => cases hop

def Event.request? : Event → Option ControlRequest
  | .sweep => none
  | .entry _ e => match e.payload with
    | .normal request => some request
    | _ => none

def requestsOf (es : List Event) : List ControlRequest := es.filterMap Event.request?

theorem Event.request?_eq_some {ev : Event} {request : ControlRequest} :
    ev.request? = some request ↔ ∃ d e, ev = .entry d e ∧ e.payload = .normal request := by
  constructor
  · intro h
    cases ev with
    | sweep => cases h
    | entry d e =>
      cases hp : e.payload with
      | normal request' =>
        simp only [Event.request?, hp, Option.some.injEq] at h
        exact ⟨d, e, rfl, by rw [hp, h]⟩
      | blank => simp only [Event.request?, hp, reduceCtorEq] at h
      | membership m => simp only [Event.request?, hp, reduceCtorEq] at h
  · rintro ⟨d, e, rfl, hp⟩
    simp only [Event.request?, hp]

theorem step_fresh {s : State} {ev : Event} {request : ControlRequest} (hev : ev.request? = some request)
    (hreq : Replaces U request) {p : Port} {v : Option ImposterConfig} (hsets : request.op.sets? = some (p, v))
    (hnone : s.dedup[request.opId]? = none) :
    imposters U (s.step U ev) = Function.update (imposters U s) p v := by
  obtain ⟨d, e, rfl, hp⟩ := Event.request?_eq_some.1 hev
  have hrun : replayOf U (s.receive e) request = none := by
    rw [replayOf_eq]
    have hrow : (s.receive e).dedup[request.opId]? = none := hnone
    rw [hrow]
    rfl
  have hcheck : checkPreconditions U (s.receive e).tables request = .ok () := by
    simp only [checkPreconditions, hreq.expectedRevision, hreq.expectAbsent]
  have htables : ((s.step U (.entry d e))).tables = (mutateTables U s.tables request.op e.logId.index d).1 := by
    simp only [State.step, applyOne, hp, hrun, commitOp, runOp, hreq.valid, hcheck]
    rfl
  rw [imposters, htables, mutate_imposters hsets]
  rfl

/-- **What a step can do to the imposters**, where all requests are puts and deletes. -/
theorem step_imposters {s : State} {ev : Event} (hreq : ∀ request, ev.request? = some request → Replaces U request) :
    imposters U (s.step U ev) = imposters U s ∨
      ∃ request p v, ev.request? = some request ∧ request.op.sets? = some (p, v) ∧
        imposters U (s.step U ev) = Function.update (imposters U s) p v := by
  rcases step_tables (U := U) s ev with h | ⟨d, e, request, rfl, hp, -, -, -, h, -⟩
  · exact .inl (by rw [imposters, h]; rfl)
  · have hev : (Event.entry d e).request? = some request := Event.request?_eq_some.2 ⟨d, e, rfl, hp⟩
    obtain ⟨⟨p, v⟩, hsets⟩ := Option.isSome_iff_exists.1 (hreq request hev).sets
    exact .inr ⟨request, p, v, hev, hsets, by rw [imposters, h, mutate_imposters hsets]; rfl⟩

/-! ## A run of requests -/

/-- An outcome is recorded for the op id that is not expired at `clock`. -/
def RecordedUntil (U : Upstream) (clock : ℕ) (s : State) (opId : String) : Prop :=
  ∃ entry, s.dedup[opId]? = some (U.dedup.write entry) ∧ clock < entry.expiresAtSecs

theorem RecordedUntil.step {clock : ℕ} {s : State} {opId : String} (h : RecordedUntil U clock s opId) {ev : Event}
    (hclock : (s.step U ev).applied.logicalClockSecs ≤ clock) : RecordedUntil U clock (s.step U ev) opId := by
  obtain ⟨entry, hrow, hlive⟩ := h
  exact ⟨entry, step_keeps_row hrow (hclock.trans_lt hlive), hlive⟩

theorem RecordedUntil.replays {clock : ℕ} {s : State} {request : ControlRequest} (h : RecordedUntil U clock s request.opId)
    {ev : Event} (hev : ev.request? = some request) (hclock : (s.step U ev).applied.logicalClockSecs ≤ clock) :
    imposters U (s.step U ev) = imposters U s := by
  obtain ⟨entry, hrow, hlive⟩ := h
  obtain ⟨d, e, rfl, hp⟩ := Event.request?_eq_some.1 hev
  rw [State.step, applyOne_applied] at hclock
  have hreplay : replayOf U (s.receive e) request = some entry := replayOf_of_row hrow (hclock.trans_lt hlive)
  simp only [State.step, applyOne, hp, hreplay]
  rfl

/-- A step leaves alone the op ids that its request does not have: a sweep may drop a row,
but makes none. -/
theorem step_none {s : State} {ev : Event} {opId : String} (hnone : s.dedup[opId]? = none)
    (hother : ∀ request, ev.request? = some request → request.opId ≠ opId) : (s.step U ev).dedup[opId]? = none := by
  cases ev with
  | sweep => rw [State.step, State.sweep, get_gcDedup, hnone]; rfl
  | entry d e =>
    rw [State.step, applyOne_other, hnone]
    intro hop
    unfold Entry.opId? at hop
    split at hop
    · rename_i request hp
      exact hother request (Event.request?_eq_some.2 ⟨d, e, rfl, hp⟩) (Option.some.inj hop)
    · cases hop

theorem clock_le_foldl (s : State) (es : List Event) :
    s.applied.logicalClockSecs ≤ (es.foldl (State.step U) s).applied.logicalClockSecs := by
  rw [run_clock]
  exact le_logClock _ _

theorem requestsOf_cons_none {ev : Event} (h : ev.request? = none) (es : List Event) :
    requestsOf (ev :: es) = requestsOf es := by
  simp only [requestsOf, List.filterMap_cons, h]

theorem requestsOf_cons_some {ev : Event} {request : ControlRequest} (h : ev.request? = some request) (es : List Event) :
    requestsOf (ev :: es) = request :: requestsOf es := by
  simp only [requestsOf, List.filterMap_cons, h]

theorem mem_requestsOf_cons {ev : Event} {es : List Event} {request : ControlRequest} :
    request ∈ requestsOf (ev :: es) ↔ ev.request? = some request ∨ request ∈ requestsOf es := by
  simp only [requestsOf, List.mem_filterMap, List.mem_cons, exists_eq_or_imp]

/-- What the requests assign that find no row in a state. -/
def freshSets (s : State) (requests : List ControlRequest) : List (Port × Option ImposterConfig) :=
  (requests.filter fun request => s.dedup[request.opId]?.isNone).filterMap (·.op.sets?)

theorem mem_freshSets {s : State} {requests : List ControlRequest} {a : Port × Option ImposterConfig} :
    a ∈ freshSets s requests ↔ ∃ request ∈ requests, s.dedup[request.opId]? = none ∧ request.op.sets? = some a := by
  simp only [freshSets, List.mem_filterMap, List.mem_filter, Option.isNone_iff_eq_none, and_assoc]

theorem mem_freshSets_ports {s : State} {requests : List ControlRequest} {p : Port} :
    p ∈ (freshSets s requests).map Prod.fst ↔
      ∃ request ∈ requests, s.dedup[request.opId]? = none ∧ ∃ v, request.op.sets? = some (p, v) := by
  constructor
  · intro hmem
    obtain ⟨⟨q, v⟩, ha, rfl⟩ := List.mem_map.1 hmem
    obtain ⟨request, hrequest, hnone, hsets⟩ := mem_freshSets.1 ha
    exact ⟨request, hrequest, hnone, v, hsets⟩
  · rintro ⟨request, hrequest, hnone, v, hsets⟩
    exact List.mem_map.2 ⟨(p, v), mem_freshSets.2 ⟨request, hrequest, hnone, hsets⟩, rfl⟩

theorem freshSets_congr {s s' : State} {requests : List ControlRequest}
    (h : ∀ request ∈ requests, s.dedup[request.opId]?.isNone = s'.dedup[request.opId]?.isNone) :
    freshSets s requests = freshSets s' requests := by
  unfold freshSets
  rw [List.filter_congr h]

theorem RecordedUntil.isNone {clock : ℕ} {s : State} {opId : String} (h : RecordedUntil U clock s opId) :
    s.dedup[opId]?.isNone = false := by
  obtain ⟨entry, hrow, -⟩ := h
  rw [hrow]
  rfl

/-- **A run of puts and deletes assigns those that find no row under their op id.** The
others find an outcome that outlives the run, and are answered with it. -/
theorem run_imposters {clock : ℕ} (es : List Event) : ∀ s : State,
    (es.foldl (State.step U) s).applied.logicalClockSecs ≤ clock →
    ((requestsOf es).map (·.opId)).Nodup → (∀ request ∈ requestsOf es, Replaces U request) →
    (∀ request ∈ requestsOf es, s.dedup[request.opId]? = none ∨ RecordedUntil U clock s request.opId) →
    imposters U (es.foldl (State.step U) s) = assign (imposters U s) (freshSets s (requestsOf es)) := by
  induction es with
  | nil => intro s _ _ _ _; rfl
  | cons ev es ih =>
    intro s hclock hnodup hreq hrows
    rw [List.foldl_cons] at hclock ⊢
    have hstep : (s.step U ev).applied.logicalClockSecs ≤ clock := (clock_le_foldl _ es).trans hclock
    -- the rows of the requests that follow are as they were
    have hkeep : ∀ opId, (∀ request, ev.request? = some request → request.opId ≠ opId) →
        (s.dedup[opId]? = none ∨ RecordedUntil U clock s opId) →
        (s.step U ev).dedup[opId]?.isNone = s.dedup[opId]?.isNone ∧
          ((s.step U ev).dedup[opId]? = none ∨ RecordedUntil U clock (s.step U ev) opId) := by
      intro opId hother hrow
      rcases hrow with hnone | hrec
      · have hnone' := step_none (U := U) hnone hother
        exact ⟨by rw [hnone, hnone'], .inl hnone'⟩
      · exact ⟨by rw [hrec.isNone, (hrec.step hstep).isNone], .inr (hrec.step hstep)⟩
    cases hev : ev.request? with
    | none =>
      rw [requestsOf_cons_none hev] at hnodup hreq hrows ⊢
      have hnone : ∀ request, ev.request? = some request → Replaces U request := by simp [hev]
      have hsame : imposters U (s.step U ev) = imposters U s := by
        rcases step_imposters (s := s) hnone with h | ⟨request, _, _, h, -⟩
        · exact h
        · rw [hev] at h; cases h
      have hrest := fun request hmem => hkeep request.opId (by simp [hev]) (hrows request hmem)
      rw [ih _ hclock hnodup hreq fun request hmem => (hrest request hmem).2, hsame,
        freshSets_congr fun request hmem => (hrest request hmem).1]
    | some request =>
      rw [requestsOf_cons_some hev] at hnodup hreq hrows ⊢
      rw [List.map_cons, List.nodup_cons] at hnodup
      have hrest : ∀ request' ∈ requestsOf es, _ := fun request' hmem => hkeep request'.opId
        (by
          intro r hr heq
          rw [hev] at hr
          cases hr
          exact hnodup.1 (List.mem_map.2 ⟨request', hmem, heq.symm⟩))
        (hrows request' (List.mem_cons_of_mem _ hmem))
      rw [ih _ hclock hnodup.2 (fun r hr => hreq r (List.mem_cons_of_mem _ hr)) fun r hr => (hrest r hr).2,
        freshSets_congr fun r hr => (hrest r hr).1]
      obtain ⟨⟨p, v⟩, hsets⟩ := Option.isSome_iff_exists.1 (hreq request List.mem_cons_self).sets
      rcases hrows request List.mem_cons_self with hnone | hrec
      · have hhead : freshSets s (request :: requestsOf es) = (p, v) :: freshSets s (requestsOf es) := by
          simp [freshSets, hnone, hsets]
        rw [step_fresh hev (hreq request List.mem_cons_self) hsets hnone, hhead, assign_cons]
      · have hhead : freshSets s (request :: requestsOf es) = freshSets s (requestsOf es) := by
          simp only [freshSets]
          rw [List.filter_cons_of_neg (by simp [hrec.isNone])]
        rw [hrec.replays hev hstep, hhead]

theorem run_none {opId : String} (es : List Event) : ∀ s : State, s.dedup[opId]? = none →
    opId ∉ (requestsOf es).map (·.opId) → (es.foldl (State.step U) s).dedup[opId]? = none := by
  induction es with
  | nil => intro s hnone _; exact hnone
  | cons ev es ih =>
    intro s hnone hother
    refine ih _ (step_none hnone ?_) ?_
    · intro request hev heq
      exact hother (List.mem_map.2 ⟨request, mem_requestsOf_cons.2 (.inl hev), heq⟩)
    · intro hlater
      obtain ⟨request, hmem, heq⟩ := List.mem_map.1 hlater
      exact hother (List.mem_map.2 ⟨request, mem_requestsOf_cons.2 (.inr hmem), heq⟩)

/-- Every outcome that a run records is alive at `clock`. -/
def OutlivesRun (U : Upstream) (clock : ℕ) (s : State) (es : List Event) : Prop :=
  ∀ (m : ℕ) (d : Bool) (e : Entry) (request : ControlRequest), es[m]? = some (.entry d e) → e.payload = .normal request →
    clock < saturatingAdd ((sAt U s es m).receive e).applied.logicalClockSecs dedupTtlSecs

/-- **What a run records**: a request that finds no row leaves one. -/
theorem run_records {clock : ℕ} {s : State} {es : List Event}
    (hclock : (es.foldl (State.step U) s).applied.logicalClockSecs ≤ clock) (hlife : OutlivesRun U clock s es)
    (hnodup : ((requestsOf es).map (·.opId)).Nodup) {request : ControlRequest} (hmem : request ∈ requestsOf es) (hnone : s.dedup[request.opId]? = none) :
    RecordedUntil U clock (es.foldl (State.step U) s) request.opId := by
  obtain ⟨before, ev, after, rfl, hev⟩ : ∃ before ev after, es = before ++ ev :: after ∧ ev.request? = some request := by
    obtain ⟨ev, hmem, hev⟩ := List.mem_filterMap.1 hmem
    obtain ⟨before, after, heq⟩ := List.append_of_mem hmem
    exact ⟨before, ev, after, heq, hev⟩
  have hsplit : requestsOf (before ++ ev :: after) = requestsOf before ++ request :: requestsOf after := by
    rw [← requestsOf_cons_some hev]
    exact List.filterMap_append
  obtain ⟨d, e, rfl, hp⟩ := Event.request?_eq_some.1 hev
  set es := before ++ Event.entry d e :: after with hes
  have hm : before.length < es.length := by simp [hes]
  have hat : es[before.length] = .entry d e := by simp [hes]
  have hstate : sAt U s es before.length = before.foldl (State.step U) s := by
    simp [sAt, Trace.stateAt, hes]
  -- no earlier request of the run has the op id, so this one runs
  have hfresh : (sAt U s es before.length).dedup[request.opId]? = none := by
    rw [hstate]
    refine run_none before s hnone fun hearly => ?_
    rw [hsplit, List.map_append, List.nodup_append] at hnodup
    exact hnodup.2.2 _ hearly _ (by simp) rfl
  have hrun : replayOf U ((sAt U s es before.length).receive e) request = none := by
    rw [replayOf_eq]
    have hrow : ((sAt U s es before.length).receive e).dedup[request.opId]? = none := hfresh
    rw [hrow]
    rfl
  have hrow : (sAt U s es (before.length + 1)).dedup[request.opId]? =
      some (U.dedup.write (recordedOutcome U d (sAt U s es before.length) e)) := by
    rw [sAt_succ hm, hat]
    exact applyOne_records hp hrun
  have halive : clock < (recordedOutcome U d (sAt U s es before.length) e).expiresAtSecs :=
    hlife before.length d e request (by rw [List.getElem?_eq_getElem hm, hat]) hp
  refine ⟨_, ?_, halive⟩
  rw [← Trace.stateAt_length]
  refine recorded_survives (by omega : before.length + 1 ≤ es.length) le_rfl hrow ?_
  rw [List.take_length, ← run_clock (U := U)]
  exact hclock.trans_lt halive

/-! ## What a run leaves configured -/

theorem run_configured {p : Port} (es : List Event) : ∀ s : State, (∀ request ∈ requestsOf es, Replaces U request) →
    (∀ request ∈ requestsOf es, request.op ≠ .deleteImposter p) → (imposters U s p).isSome →
    (imposters U (es.foldl (State.step U) s) p).isSome := by
  induction es with
  | nil => intro s _ _ h; exact h
  | cons ev es ih =>
    intro s hreq hother h
    have hsub : ∀ request ∈ requestsOf es, request ∈ requestsOf (ev :: es) :=
      fun request hmem => mem_requestsOf_cons.2 (.inr hmem)
    have hhead : ∀ request, ev.request? = some request → request ∈ requestsOf (ev :: es) :=
      fun request hev => mem_requestsOf_cons.2 (.inl hev)
    refine ih _ (fun r hr => hreq r (hsub r hr)) (fun r hr => hother r (hsub r hr)) ?_
    rcases step_imposters (s := s) fun r hr => hreq r (hhead r hr) with hsame | ⟨r, q, v, hr, hsets, hset⟩
    · rw [hsame]; exact h
    · rw [hset]
      by_cases hq : p = q
      · subst hq
        rw [Function.update_self]
        have hop := hother r (hhead r hr)
        cases hc : r.op <;> rw [hc] at hsets hop <;> simp [ControlOp.sets?] at hsets hop
        · obtain ⟨_, _, _, rfl⟩ := hsets
          rfl
        · exact absurd hsets.1 hop
      · rw [Function.update_of_ne hq]
        exact h

/-! ## The requests of a replace -/

section Requests

variable {v5 : String → ℕ → String} {base : String} {now : ℕ → ℕ} {reconcile : Bool} {existing : List Port}
  {body : List ImposterConfig} {ops : List ControlOp}

theorem replaceOps_ok (hops : replaceOps reconcile existing body = .ok ops) (hne : body ≠ []) :
    (∀ config ∈ body, config.port.isSome) ∧
      ops = body.map (ControlOp.putImposter · (restartOf reconcile)) ++
        (existing.filter (some · ∉ body.map ImposterConfig.port)).map ControlOp.deleteImposter := by
  unfold replaceOps at hops
  split at hops
  · cases hops
  · rename_i hports
    rw [if_neg (by simpa using hne)] at hops
    cases hops
    refine ⟨fun config hmem => ?_, rfl⟩
    by_contra hnone
    exact hports (List.any_eq_true.2 ⟨config, hmem, by simpa using hnone⟩)

theorem mem_mintAll {request : ControlRequest} :
    request ∈ mintAll v5 base now ops ↔
      ∃ i op, ops[i]? = some op ∧ request = mintRequest (opIdFor v5 base i ops.length) op .unconditional (now i) := by
  simp only [mintAll, List.mem_mapIdx]
  constructor
  · rintro ⟨i, hi, rfl⟩
    exact ⟨i, ops[i], List.getElem?_eq_getElem hi, rfl⟩
  · rintro ⟨i, op, hop, rfl⟩
    obtain ⟨hi, rfl⟩ := List.getElem?_eq_some_iff.1 hop
    exact ⟨i, hi, rfl⟩

theorem op_mem_of_mem_mintAll {request : ControlRequest} (h : request ∈ mintAll v5 base now ops) : request.op ∈ ops := by
  obtain ⟨i, op, hop, rfl⟩ := mem_mintAll.1 h
  exact List.mem_of_getElem? hop

theorem mem_replaceOps (hops : replaceOps reconcile existing body = .ok ops) (hne : body ≠ []) {op : ControlOp} :
    op ∈ ops ↔ (∃ config ∈ body, op = .putImposter config (restartOf reconcile)) ∨
      ∃ p ∈ existing, some p ∉ body.map ImposterConfig.port ∧ op = .deleteImposter p := by
  rw [(replaceOps_ok hops hne).2, List.mem_append, List.mem_map, List.mem_map]
  refine or_congr ⟨?_, ?_⟩ ⟨?_, ?_⟩
  · rintro ⟨config, hmem, rfl⟩; exact ⟨config, hmem, rfl⟩
  · rintro ⟨config, hmem, rfl⟩; exact ⟨config, hmem, rfl⟩
  · rintro ⟨p, hmem, rfl⟩
    obtain ⟨hmem, hother⟩ := List.mem_filter.1 hmem
    exact ⟨p, hmem, of_decide_eq_true hother, rfl⟩
  · rintro ⟨p, hmem, hother, rfl⟩
    exact ⟨p, List.mem_filter.2 ⟨hmem, decide_eq_true hother⟩, rfl⟩

theorem replaces_mintAll (hops : replaceOps reconcile existing body = .ok ops) (hne : body ≠ [])
    (hvalid : ∀ config ∈ body, validate U (.putImposter config none) = .ok ()) {request : ControlRequest}
    (hmem : request ∈ mintAll v5 base now ops) : Replaces U request := by
  obtain ⟨i, op, hop, rfl⟩ := mem_mintAll.1 hmem
  rcases (mem_replaceOps hops hne).1 (List.mem_of_getElem? hop) with ⟨config, hconfig, rfl⟩ | ⟨p, -, -, rfl⟩
  · refine ⟨hvalid config hconfig, rfl, rfl, ?_⟩
    have hport := (replaceOps_ok hops hne).1 config hconfig
    simpa [mintRequest, ControlOp.sets?] using hport
  · exact ⟨rfl, rfl, rfl, rfl⟩

end Requests

end RiftCluster
