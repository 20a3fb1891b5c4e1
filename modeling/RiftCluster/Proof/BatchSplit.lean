import RiftCluster.Proof.Ops

/-!
# Batches do not matter

The sweep runs once per batch, on the clock from before it, while a lookup
filters on the running clock: a row that is dead at the clock is never read
again, so sweeping it away or keeping it makes no difference. `State.eager` is
the machine that sweeps after every entry. Every run, seen through one more
sweep, is the eager run of its log (`run_sweep`), with the same responses
(`responses_sweep`), whatever the batches were and whatever failed on the node.
-/

namespace RiftCluster

open KV

variable {U : Upstream}

/-! ## Dead rows are never read -/

def liveEntry (U : Upstream) (clock : ℕ) (row : String) : Option DedupEntry :=
  (U.dedup.read row).toOption.filter fun entry => entry.expiresAtSecs > clock

theorem replayOf_eq (s : State) (request : ControlRequest) :
    replayOf U s request = s.dedup[request.opId]?.bind (liveEntry U s.applied.logicalClockSecs) := by
  unfold replayOf lookupDedup liveEntry
  cases hrow : s.dedup[request.opId]? with
  | none => rfl
  | some row =>
    cases hd : U.dedup.read row with
    | error e => simp [hd, Except.toOption]
    | ok entry => simp [hd, Except.toOption, Option.filter_some]

theorem dedupLive_eq_isSome (clock : ℕ) (row : String) :
    dedupLive U clock row = (liveEntry U clock row).isSome := by
  unfold dedupLive liveEntry
  cases hd : U.dedup.read row with
  | error e => simp [Except.toOption]
  | ok entry => by_cases hx : entry.expiresAtSecs > clock <;> simp [hx, Except.toOption, Option.filter_some]

theorem dedupLive_of_le {n m : ℕ} (h : n ≤ m) {row : String} (hm : dedupLive U m row = true) :
    dedupLive U n row = true := by
  unfold dedupLive at hm ⊢
  split at hm
  · simp only [decide_eq_true_eq] at hm ⊢; omega
  · cases hm

/-- **A sweep before a later sweep changes nothing.** -/
theorem gcDedup_gcDedup {n m : ℕ} (h : n ≤ m) (d : Table String String) :
    gcDedup U (gcDedup U d n) m = gcDedup U d m := by
  apply ext_get
  intro k
  rw [get_gcDedup, get_gcDedup, get_gcDedup]
  cases hk : d[k]? with
  | none => rfl
  | some row =>
    by_cases hm : dedupLive U m row = true
    · simp [Option.filter_some, hm, dedupLive_of_le h hm]
    · simp [Option.filter_some, hm]

theorem gcDedup_insert {n m : ℕ} (h : n ≤ m) (d : Table String String) (k row : String) :
    gcDedup U ((gcDedup U d n).insert k row) m = gcDedup U (d.insert k row) m := by
  apply ext_get
  intro k'
  rw [get_gcDedup, get_gcDedup, get_insert, get_insert]
  split
  · rfl
  · rw [← get_gcDedup, gcDedup_gcDedup h, get_gcDedup]

theorem bind_gcDedup {n m : ℕ} (h : n ≤ m) (d : Table String String) (k : String) :
    (gcDedup U d n)[k]?.bind (liveEntry U m) = d[k]?.bind (liveEntry U m) := by
  rw [get_gcDedup]
  cases d[k]? with
  | none => rfl
  | some row =>
    by_cases hn : dedupLive U n row = true
    · rw [Option.filter_some, if_pos hn]
    · have hm : ¬ dedupLive U m row = true := fun hm => hn (dedupLive_of_le h hm)
      rw [dedupLive_eq_isSome, Option.isSome_iff_ne_none, not_not] at hm
      simp [hn, hm]

/-! ## One entry, before and after a sweep -/

theorem clock_receive (s : State) (e : Entry) :
    s.applied.logicalClockSecs ≤ (s.receive e).applied.logicalClockSecs := by
  simp only [State.receive]
  split
  · exact le_max_left _ _
  · exact le_rfl

theorem replayOf_sweep (s : State) (e : Entry) (request : ControlRequest) :
    replayOf U ((s.sweep U).receive e) request = replayOf U (s.receive e) request := by
  rw [replayOf_eq, replayOf_eq]
  exact bind_gcDedup (clock_receive s e) _ _

/-- **A sweep before an entry is invisible**: the entry's response is the same, and
so is the state, up to a sweep after it. The node's failures are invisible too. -/
theorem applyOne_sweep (s : State) (e : Entry) (d d' : Bool) :
    (applyOne U d (s.sweep U) e).reply = (applyOne U d' s e).reply ∧
      (applyOne U d (s.sweep U) e).state.sweep U = (applyOne U d' s e).state.sweep U := by
  have hswept : ((s.sweep U).receive e).sweep U = (s.receive e).sweep U := by
    simp only [State.sweep, State.receive]
    rw [gcDedup_gcDedup]
    exact clock_receive s e
  rcases applyOne_cases (U := U) d' s e with ⟨hp, heq⟩ | ⟨request, previous, hp, hr, heq⟩ | ⟨request, hp, hr, heq⟩
  · rcases applyOne_cases (U := U) d (s.sweep U) e with ⟨-, heq'⟩ | ⟨r, _, hp', -⟩ | ⟨r, hp', -⟩
    · rw [heq, heq']; exact ⟨rfl, hswept⟩
    · exact absurd hp' (hp r)
    · exact absurd hp' (hp r)
  · have hr' : replayOf U ((s.sweep U).receive e) request = some previous := by rw [replayOf_sweep, hr]
    have heq' : applyOne U d (s.sweep U) e = ⟨(s.sweep U).receive e, previous.response, []⟩ := by
      simp only [applyOne, hp, hr']
    rw [heq, heq']; exact ⟨rfl, hswept⟩
  · have hr' : replayOf U ((s.sweep U).receive e) request = none := by rw [replayOf_sweep, hr]
    have heq' : applyOne U d (s.sweep U) e = commitOp U ((s.sweep U).receive e) request e.logId.index d := by
      simp only [applyOne, hp, hr']
    obtain ⟨ht, hresp⟩ := runOp_degraded (U := U) (t := s.tables) request e.logId.index d d'
    rw [heq, heq']
    refine ⟨hresp, ?_⟩
    simp only [commitOp, State.sweep, ht, hresp, State.receive]
    rw [gcDedup_insert]
    exact clock_receive s e

/-! ## Whole runs -/

def State.eager (U : Upstream) (s : State) (e : Entry) : State := (applyOne U false s e).state.sweep U

def eagerResponses (U : Upstream) : State → List Entry → List ControlResponse
  | _, [] => []
  | s, e :: es => (applyOne U false s e).reply :: eagerResponses U (s.eager U e) es

theorem sweep_sweep (s : State) : (s.sweep U).sweep U = s.sweep U := by
  simp only [State.sweep]
  rw [gcDedup_gcDedup le_rfl]

/-- **Every run is the eager run of its log**, seen through one more sweep. -/
theorem run_sweep (es : List Event) : ∀ s : State,
    (es.foldl (State.step U) s).sweep U = (logOf es).foldl (State.eager U) (s.sweep U) := by
  induction es with
  | nil => intro s; rfl
  | cons ev es ih =>
    intro s
    rw [List.foldl_cons, ih]
    cases ev with
    | sweep => simp [State.step, sweep_sweep]
    | entry d e =>
      rw [State.step, ← (applyOne_sweep s e false d).2]
      rfl

theorem responses_sweep (es : List Event) : ∀ s : State,
    responses U s es = eagerResponses U (s.sweep U) (logOf es) := by
  induction es with
  | nil => intro s; rfl
  | cons ev es ih =>
    intro s
    cases ev with
    | sweep => simp [responses, ih, sweep_sweep]
    | entry d e =>
      rw [responses, ih, State.step, ← (applyOne_sweep s e false d).2, ← (applyOne_sweep s e false d).1]
      rfl

theorem logOf_eventsOf (batches : List (Bool × List Entry)) : logOf (eventsOf batches) = batches.flatMap Prod.snd := by
  induction batches with
  | nil => rfl
  | cons b bs ih =>
    have hb : ∀ l : List Entry, logOf (l.map (.entry b.1)) = l := by
      intro l
      induction l with
      | nil => rfl
      | cons e es ih => rw [List.map_cons, logOf_entry, ih]
    rw [List.flatMap_cons, ← ih]
    simp only [eventsOf, List.flatMap_cons, List.cons_append, logOf_sweep, logOf_append, hb]

def liveRows (U : Upstream) (s : State) (k : String) : Option String :=
  s.dedup[k]?.filter (dedupLive U s.applied.logicalClockSecs)

/-- **Batch-split invariance.** Two ways of cutting one log into batches, with any
answers to `is_degraded`, return the same responses and leave the same tables,
the same applied id, membership and clock, and the same live dedup rows. -/
theorem apply_batch_split (s : State) (a b : List (Bool × List Entry))
    (hlog : a.flatMap Prod.snd = b.flatMap Prod.snd) :
    ∃ x y, applyAll U s a = .ok x ∧ applyAll U s b = .ok y ∧ x.reply = y.reply ∧
      x.state.tables = y.state.tables ∧ x.state.applied = y.state.applied ∧
      ∀ k, liveRows U x.state k = liveRows U y.state k := by
  refine ⟨_, _, applyAll_eq a s, applyAll_eq b s, ?_, ?_⟩
  · simp only [runEvents]
    rw [responses_sweep, responses_sweep, logOf_eventsOf, logOf_eventsOf, hlog]
  · -- both final states are the eager one, up to a sweep
    have hsw : ((runEvents U s (eventsOf a)).state).sweep U = ((runEvents U s (eventsOf b)).state).sweep U := by
      simp only [runEvents]
      rw [run_sweep, run_sweep, logOf_eventsOf, logOf_eventsOf, hlog]
    generalize (runEvents U s (eventsOf a)).state = x at hsw ⊢
    generalize (runEvents U s (eventsOf b)).state = y at hsw ⊢
    simp only [State.sweep, State.mk.injEq] at hsw
    refine ⟨hsw.1, hsw.2.2, fun k => ?_⟩
    rw [liveRows, liveRows, ← get_gcDedup, ← get_gcDedup, hsw.2.1]

/-- A put and a delete, in one batch and in two. -/
theorem put_delete_batch_split :
    let put := requestAt 1 firstPut
    let delete := requestAt 2 { opId := "op-2", op := .deleteImposter 4545 }
    ∃ x y, applyAll jsonUpstream {} [(false, [put, delete])] = .ok x ∧
      applyAll jsonUpstream {} [(true, [put]), (false, [delete])] = .ok y ∧ x.reply = y.reply ∧
      x.state.tables = y.state.tables ∧ x.state.applied = y.state.applied ∧
      ∀ k, liveRows jsonUpstream x.state k = liveRows jsonUpstream y.state k :=
  apply_batch_split {} _ _ rfl

end RiftCluster
