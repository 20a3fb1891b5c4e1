import RiftCluster.Proof.Replay

/-!
# When replicas agree on the dedup table

A sweep drops what has expired at the clock from before its batch, so two replicas
that cut one log differently may drop different rows. What a log records, op id by
op id, is a function of its op ids and issue times (`expiriesOf`); every cut gives
the same dedup table exactly when no outcome of an earlier entry has expired at the
clock from before the last one, unless the last one records it afresh
(`dedup_agrees_iff`).
-/

namespace RiftCluster

open KV

variable {U : Upstream}

/-! ## What a log records -/

def Entry.opId? (e : Entry) : Option String :=
  match e.payload with
  | .normal request => some request.opId
  | _ => none

/-- The clock, and for every op id the expiry of the outcome last recorded for it. -/
structure Expiries where
  clock : ℕ := 0
  expiresAt : Table String ℕ := ∅

def Expiries.step (x : Expiries) (e : Entry) : Expiries :=
  match e.payload with
  | .normal request =>
    let clock := e.clock x.clock
    if x.expiresAt[request.opId]?.any (fun expiry => expiry > clock) then { x with clock }
    else { clock, expiresAt := x.expiresAt.insert request.opId (saturatingAdd clock dedupTtlSecs) }
  | _ => x

def expiriesOf (log : List Entry) : Expiries := log.foldl Expiries.step {}

/-- No outcome recorded before the last entry has expired at the clock from before it,
unless the last entry carries its op id. -/
def OutcomesAlive (log : List Entry) : Prop :=
  ∀ e, log.getLast? = some e → ∀ (k : String) (expiry : ℕ), (expiriesOf log.dropLast).expiresAt[k]? = some expiry →
    (expiriesOf log.dropLast).clock < expiry ∨ e.opId? = some k

/-! ## The run that never sweeps -/

def unswept (U : Upstream) (s : State) (log : List Entry) : State :=
  log.foldl (fun s e => (applyOne U false s e).state) s

theorem applyOne_dedup (d : Bool) (s : State) (e : Entry) :
    (applyOne U d s e).state.dedup = s.dedup ∧
        (∀ request, e.payload = .normal request → ∃ previous, replayOf U (s.receive e) request = some previous) ∨
      ∃ request, e.payload = .normal request ∧ replayOf U (s.receive e) request = none ∧
        (applyOne U d s e).state.dedup = s.dedup.insert request.opId (U.dedup.write (recordedOutcome U d s e)) := by
  rcases applyOne_cases (U := U) d s e with ⟨hp, heq⟩ | ⟨request, previous, hp, hr, heq⟩ | ⟨request, hp, hr, heq⟩
  · rw [heq]; exact .inl ⟨rfl, fun r hr => absurd hr (hp r)⟩
  · rw [heq]
    refine .inl ⟨rfl, fun r hr' => ?_⟩
    rw [hp] at hr'; cases hr'
    exact ⟨previous, hr⟩
  · refine .inr ⟨request, hp, hr, ?_⟩
    rw [recordedOutcome, heq]
    rfl

/-- A run and the unswept run: alike up to a sweep, and the sweeps only drop rows. -/
def Swept (U : Upstream) (s f : State) : Prop :=
  s.sweep U = f.sweep U ∧ ∀ (k row : String), s.dedup[k]? = some row → f.dedup[k]? = some row

theorem Swept.recordedOutcome {s f : State} (h : Swept U s f) (d d' : Bool) (e : Entry) :
    recordedOutcome U d s e = recordedOutcome U d' f e := by
  have ha : s.applied = f.applied := (State.mk.inj h.1).2.2
  have hr : (applyOne U d s e).reply = (applyOne U d' f e).reply := by
    rw [← (applyOne_sweep (U := U) s e d d).1, h.1, (applyOne_sweep (U := U) f e d d').1]
  simp only [RiftCluster.recordedOutcome, hr, receive_clock, ha]

theorem Swept.replayOf {s f : State} (h : Swept U s f) (e : Entry) (request : ControlRequest) :
    RiftCluster.replayOf U (s.receive e) request = RiftCluster.replayOf U (f.receive e) request := by
  rw [← replayOf_sweep, h.1, replayOf_sweep]

theorem Swept.entry {s f : State} (h : Swept U s f) (d d' : Bool) (e : Entry) :
    Swept U (applyOne U d s e).state (applyOne U d' f e).state := by
  refine ⟨?_, fun k row hrow => ?_⟩
  · rw [← (applyOne_sweep (U := U) s e d d).2, h.1, (applyOne_sweep (U := U) f e d d').2]
  · rcases applyOne_dedup (U := U) d s e with ⟨hs, hrep⟩ | ⟨request, hp, hr, hs⟩ <;>
      rcases applyOne_dedup (U := U) d' f e with ⟨hf, hrep'⟩ | ⟨request', hp', hr', hf⟩
    · rw [hs] at hrow; rw [hf]; exact h.2 k row hrow
    · obtain ⟨previous, hprev⟩ := hrep request' hp'
      rw [h.replayOf, hr'] at hprev; cases hprev
    · obtain ⟨previous, hprev⟩ := hrep' request hp
      rw [← h.replayOf, hr] at hprev; cases hprev
    · rw [hp] at hp'; cases hp'
      rw [hs, get_insert] at hrow
      rw [hf, get_insert]
      split
      · rename_i hk
        rw [if_pos hk, h.recordedOutcome d d'] at hrow
        exact hrow
      · rename_i hk
        rw [if_neg hk] at hrow
        exact h.2 k row hrow

/-- **Every run is the unswept run of its log, less rows that have expired.** -/
theorem swept_run (es : List Event) : ∀ {s f : State}, Swept U s f →
    Swept U (es.foldl (State.step U) s) (unswept U f (logOf es)) := by
  induction es with
  | nil => intro s f h; exact h
  | cons ev es ih =>
    intro s f h
    rw [List.foldl_cons]
    cases ev with
    | sweep =>
      refine ih (s := s.sweep U) ⟨by rw [sweep_sweep, h.1], fun k row hrow => h.2 k row ?_⟩
      rw [State.sweep, get_gcDedup, Option.filter_eq_some_iff] at hrow
      exact hrow.1
    | entry d e => exact ih (h.entry d false e)

theorem Swept.refl (s : State) : Swept U s s := ⟨rfl, fun _ _ h => h⟩

theorem unswept_expiries (log : List Entry) :
    (unswept U {} log).applied.logicalClockSecs = (expiriesOf log).clock ∧
      ∀ k : String, ((unswept U {} log).dedup[k]? = none ∧ (expiriesOf log).expiresAt[k]? = none) ∨
        ∃ entry, (unswept U {} log).dedup[k]? = some (U.dedup.write entry) ∧
          (expiriesOf log).expiresAt[k]? = some entry.expiresAtSecs := by
  induction log using List.reverseRecOn with
  | nil => exact ⟨rfl, fun k => .inl ⟨get_empty k, get_empty k⟩⟩
  | append_singleton log e ih =>
    obtain ⟨hclock, hrows⟩ := ih
    have hu : unswept U {} (log ++ [e]) = (applyOne U false (unswept U {} log) e).state := by
      simp [unswept, List.foldl_append]
    have hx : expiriesOf (log ++ [e]) = (expiriesOf log).step e := by simp [expiriesOf, List.foldl_append]
    have hc : (applyOne U false (unswept U {} log) e).state.applied.logicalClockSecs = e.clock (expiriesOf log).clock := by
      rw [applyOne_applied, receive_clock, hclock]
    rw [hu, hx, hc]
    -- the replay test and the expiry test are one test
    have hrep : ∀ request, replayOf U ((unswept U {} log).receive e) request = none ↔
        (expiriesOf log).expiresAt[request.opId]?.any (fun expiry => expiry > e.clock (expiriesOf log).clock) = false := by
      intro request
      rw [replayOf_eq, receive_clock, hclock]
      rcases hrows request.opId with ⟨h1, h2⟩ | ⟨entry, h1, h2⟩
      · have h1' : ((unswept U {} log).receive e).dedup[request.opId]? = none := h1
        simp [h1', h2]
      · have h1' : ((unswept U {} log).receive e).dedup[request.opId]? = some (U.dedup.write entry) := h1
        simp [h1', h2, liveEntry, Except.toOption, Option.filter_some]
    rcases applyOne_dedup (U := U) false (unswept U {} log) e with ⟨hd, hr⟩ | ⟨request, hp, hr, hd⟩
    · rw [hd]
      cases hp : e.payload with
      | normal request =>
        obtain ⟨previous, hprev⟩ := hr request hp
        have hany : (expiriesOf log).expiresAt[request.opId]?.any
            (fun expiry => expiry > e.clock (expiriesOf log).clock) = true := by
          by_contra hn
          rw [(hrep request).2 (by simpa using hn)] at hprev; cases hprev
        simp only [Expiries.step, hp, hany, if_true]
        exact ⟨trivial, hrows⟩
      | blank => simp only [Expiries.step, Entry.clock, hp]; exact ⟨trivial, hrows⟩
      | membership m => simp only [Expiries.step, Entry.clock, hp]; exact ⟨trivial, hrows⟩
    · have hany := (hrep request).1 hr
      rw [hd]
      simp only [Expiries.step, hp, hany, Bool.false_eq_true, if_false]
      refine ⟨trivial, fun k => ?_⟩
      rw [get_insert, get_insert]
      split
      · exact .inr ⟨_, rfl, by simp only [recordedOutcome, receive_clock, hclock]⟩
      · exact hrows k

/-! ## Agreement -/

def NonemptyBatches (a : List (Bool × List Entry)) : Prop := ∀ b ∈ a, b.2 ≠ []

theorem eventsOf_last {a : List (Bool × List Entry)} (hne : NonemptyBatches a) {log : List Entry} {e : Entry}
    (hlog : a.flatMap Prod.snd = log ++ [e]) : ∃ es d, eventsOf a = es ++ [.entry d e] ∧ logOf es = log := by
  rcases List.eq_nil_or_concat' a with rfl | ⟨a', ⟨d, entries⟩, rfl⟩
  · simp at hlog
  · rcases List.eq_nil_or_concat' entries with rfl | ⟨entries', e', rfl⟩
    · exact absurd rfl (hne (d, []) (by simp))
    · have hev : eventsOf (a' ++ [(d, entries' ++ [e'])]) =
          (eventsOf a' ++ .sweep :: entries'.map (.entry d)) ++ [.entry d e'] := by
        simp [eventsOf]
      have hl : logOf (eventsOf a' ++ .sweep :: entries'.map (.entry d)) ++ [e'] = log ++ [e] := by
        rw [← hlog, ← logOf_eventsOf, hev, logOf_append _ [Event.entry d e']]; rfl
      obtain ⟨h1, h2⟩ := List.append_inj' hl rfl
      cases h2
      exact ⟨_, d, hev, h1⟩

theorem applyOne_other (d : Bool) (s : State) (e : Entry) {k : String} (hk : e.opId? ≠ some k) :
    (applyOne U d s e).state.dedup[k]? = s.dedup[k]? := by
  rcases applyOne_dedup (U := U) d s e with ⟨hd, -⟩ | ⟨request, hp, -, hd⟩
  · rw [hd]
  · rw [hd, get_insert, if_neg]
    rintro rfl
    exact hk (by simp only [Entry.opId?, hp])

theorem dedup_of_alive {es : List Event} {d : Bool} {e : Entry} (halive : OutcomesAlive (logOf es ++ [e])) :
    ((es ++ [Event.entry d e]).foldl (State.step U) {}).dedup = (unswept U {} (logOf es ++ [e])).dedup := by
  set s := es.foldl (State.step U) {} with hs
  set f := unswept U {} (logOf es) with hf
  have hsw : Swept U s f := swept_run es (Swept.refl _)
  have hs' : (es ++ [Event.entry d e]).foldl (State.step U) {} = (applyOne U d s e).state := by
    rw [List.foldl_append]; rfl
  have hf' : unswept U {} (logOf es ++ [e]) = (applyOne U false f e).state := by
    simp only [unswept, List.foldl_append, hf]; rfl
  rw [hs', hf']
  -- a row of the unswept run that is live at its clock is there in every run
  have hlive : ∀ (k row : String), f.dedup[k]? = some row → dedupLive U f.applied.logicalClockSecs row = true →
      s.dedup[k]? = some row := by
    intro k row hrow hl
    have hg : (f.sweep U).dedup[k]? = some row := by
      rw [State.sweep, get_gcDedup, hrow, Option.filter_some, if_pos hl]
    rw [← hsw.1, State.sweep, get_gcDedup, Option.filter_eq_some_iff] at hg
    exact hg.1
  have hal : ∀ (k : String) row, f.dedup[k]? = some row → e.opId? ≠ some k → s.dedup[k]? = some row := by
    intro k row hrow hk
    refine hlive k row hrow ?_
    obtain ⟨hclock, hrows⟩ := unswept_expiries (U := U) (logOf es)
    rcases hrows k with ⟨hnone, -⟩ | ⟨entry, h1, h2⟩
    · rw [← hf, hrow] at hnone; cases hnone
    · rw [← hf, hrow] at h1; cases h1
      have := halive e (by simp) k entry.expiresAtSecs (by simpa using h2)
      rcases this with hlt | hop
      · rw [hf, hclock]
        simpa [dedupLive] using hlt
      · exact absurd hop hk
  apply ext_get
  intro k
  cases hrow : (applyOne U false f e).state.dedup[k]? with
  | none =>
    cases hs'' : (applyOne U d s e).state.dedup[k]? with
    | none => rfl
    | some row => rw [(hsw.entry d false e).2 k row hs''] at hrow; cases hrow
  | some row =>
    by_cases hk : e.opId? = some k
    · rcases applyOne_dedup (U := U) d s e with ⟨hd, hrep⟩ | ⟨request, hp, hr, hd⟩ <;>
        rcases applyOne_dedup (U := U) false f e with ⟨hd', hrep'⟩ | ⟨request', hp', hr', hd'⟩
      · -- a replay: its row is live at the running clock, so at the clock before
        obtain ⟨request, hp, rfl⟩ : ∃ request, e.payload = .normal request ∧ request.opId = k := by
          unfold Entry.opId? at hk
          split at hk
          · exact ⟨_, ‹_›, Option.some.inj hk⟩
          · cases hk
        obtain ⟨previous, hprev⟩ := hrep' request hp
        rw [hd'] at hrow
        rw [hd]
        refine hlive _ row hrow (dedupLive_of_le (clock_receive f e) ?_)
        rw [replayOf_eq] at hprev
        have hrow' : (f.receive e).dedup[request.opId]? = some row := hrow
        rw [hrow', Option.bind_some] at hprev
        rw [dedupLive_eq_isSome, hprev]; rfl
      · obtain ⟨previous, hprev⟩ := hrep request' hp'
        rw [hsw.replayOf, hr'] at hprev; cases hprev
      · obtain ⟨previous, hprev⟩ := hrep' request hp
        rw [← hsw.replayOf, hr] at hprev; cases hprev
      · rw [hp] at hp'; cases hp'
        obtain rfl : request.opId = k := by
          simp only [Entry.opId?, hp, Option.some.injEq] at hk; exact hk
        rw [hd', get_insert, if_pos rfl] at hrow
        rw [hd, get_insert, if_pos rfl, hsw.recordedOutcome d false, hrow]
    · rw [applyOne_other _ _ _ hk] at hrow ⊢
      exact hal k row hrow hk

/-- From the empty state, the first sweep finds nothing, and entries in one batch are
never swept. -/
theorem run_one_batch (log : List Entry) :
    (Event.sweep :: log.map (.entry false)).foldl (State.step U) {} = unswept U {} log := by
  have h0 : State.step U {} .sweep = {} := by
    have : gcDedup U (∅ : Table String String) 0 = ∅ :=
      ext_get fun k => by rw [get_gcDedup, get_empty]; rfl
    simp only [State.step, State.sweep, this]
  rw [List.foldl_cons, h0, List.foldl_map]
  rfl

/-- **Replicas agree on the dedup table after a log, however it was cut, exactly when
its outcomes are alive.** -/
theorem dedup_agrees_iff (log : List Entry) :
    (∀ a b : List (Bool × List Entry), NonemptyBatches a → NonemptyBatches b → a.flatMap Prod.snd = log →
      b.flatMap Prod.snd = log →
      ∃ x y, applyAll U {} a = .ok x ∧ applyAll U {} b = .ok y ∧ x.state.dedup = y.state.dedup) ↔
      OutcomesAlive log := by
  constructor
  · intro h e hlast k expiry hexp
    by_contra hdead
    obtain ⟨hclock, hop⟩ := not_or.1 hdead
    obtain ⟨log', rfl⟩ : ∃ log', log = log' ++ [e] := ⟨log.dropLast, by
      rw [List.dropLast_append_getLast? e (by simpa using hlast)]⟩
    rw [List.dropLast_concat] at hexp hclock
    have hne : log' ≠ [] := by
      rintro rfl
      rw [expiriesOf, List.foldl_nil, get_empty] at hexp; cases hexp
    -- the log in one batch, and the log with its last entry in a batch of its own
    obtain ⟨x, y, hx, hy, hxy⟩ := h [(false, log' ++ [e])] [(false, log'), (false, [e])]
      (by intro b hb; simp at hb; simp [hb]) (by intro b hb; simp at hb; rcases hb with rfl | rfl <;> simp [hne])
      (by simp) (by simp)
    rw [applyAll_eq] at hx hy
    cases hx
    cases hy
    have h1 : (runEvents U {} (eventsOf [(false, log' ++ [e])])).state =
        (applyOne U false (unswept U {} log') e).state := by
      simp only [runEvents, eventsOf, List.flatMap_cons, List.flatMap_nil, List.append_nil, run_one_batch]
      simp only [unswept, List.foldl_append, List.foldl_cons, List.foldl_nil]
    have h2 : (runEvents U {} (eventsOf [(false, log'), (false, [e])])).state =
        (applyOne U false ((unswept U {} log').sweep U) e).state := by
      simp only [runEvents, eventsOf, List.flatMap_cons, List.flatMap_nil, List.append_nil, List.foldl_append,
        run_one_batch]
      rfl
    rw [h1, h2] at hxy
    have hk := congrArg (fun t : Table String String => t[k]?) hxy
    simp only [applyOne_other _ _ _ hop, State.sweep, get_gcDedup] at hk
    obtain ⟨hcl, hrows⟩ := unswept_expiries (U := U) log'
    rcases hrows k with ⟨-, h4⟩ | ⟨entry, h3, h4⟩
    · rw [h4] at hexp; cases hexp
    · rw [h4] at hexp
      cases hexp
      rw [h3, hcl, Option.filter_some, dedupLive, Upstream.dedup_read_write] at hk
      simp only [gt_iff_lt, hclock, decide_false, Bool.false_eq_true, if_false] at hk
      cases hk
  · intro halive a b ha hb hla hlb
    refine ⟨_, _, applyAll_eq a {}, applyAll_eq b {}, ?_⟩
    rcases List.eq_nil_or_concat' log with rfl | ⟨log', e, rfl⟩
    · -- an empty log is cut into no batch at all
      have hnil : ∀ c : List (Bool × List Entry), NonemptyBatches c → c.flatMap Prod.snd = [] → c = [] := by
        intro c hc hl
        rcases c with _ | ⟨b, c⟩
        · rfl
        · simp only [List.flatMap_cons, List.append_eq_nil_iff] at hl
          exact absurd hl.1 (hc b List.mem_cons_self)
      rw [hnil a ha hla, hnil b hb hlb]
    · obtain ⟨es, d, hev, hes⟩ := eventsOf_last ha hla
      obtain ⟨es', d', hev', hes'⟩ := eventsOf_last hb hlb
      simp only [runEvents, hev, hev']
      rw [dedup_of_alive (by rw [hes]; exact halive), dedup_of_alive (by rw [hes']; exact halive), hes, hes']

/-- Three requests, the second and third more than a day after the first. -/
def dayApart : List Entry :=
  [requestAt 1 { opId := "op-1", op := .fleetNamePut "fleet" },
    requestAt 2 { opId := "op-2", issuedAtSecs := 100000, op := .fleetNamePut "fleet" },
    requestAt 3 { opId := "op-3", issuedAtSecs := 100000, op := .fleetNamePut "fleet" }]

/-- What a replica answers for an op after a log in batches. -/
def readAfter (batches : List (Bool × List Entry)) (opId : String) : Except StorageError (Option ControlResponse) := do
  readOp jsonUpstream (← applyAll jsonUpstream {} batches).state opId

/-- A replica that took the log in one batch still answers for the first request; one
that took the third entry in a batch of its own has swept it. -/
theorem dayApart_disagree :
    readAfter [(false, dayApart)] "op-1" = .ok (some ⟨1, .applied⟩) ∧
      readAfter [(false, dayApart.take 2), (false, dayApart.drop 2)] "op-1" = .ok none := by
  decide +kernel

end RiftCluster
