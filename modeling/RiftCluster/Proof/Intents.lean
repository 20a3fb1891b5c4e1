import RiftCluster.Model.Intents
import RiftCluster.Proof.Replay

/-!
# A parked intent is kept until it has an outcome

`step_parked` says what one move can do to the parked rows, whichever path makes it: a row
goes for a request that is in the log, or is dropped by a sweep. A request in the log has an
outcome (`hasOutcome_of_logged`), so an op whose parking returned `Ok` is parked, has an
outcome, or was dropped as unusable.

The last holds only while a sweep drops the row it has read. `parked_intents` reads the table in
one transaction and removes what does not parse by op id in later ones, and so does
`drain_parked_intents` with a request over the size limit: a write of the same op id that is
parked between the two goes with the old row (`sweep_drops_new_write`).
-/

namespace RiftCluster

open KV

variable {U : Upstream} {env : IntentEnv}

/-! ## Outcomes -/

/-- An outcome of an op is stored by `apply` at some point of the log. -/
def HasOutcome (U : Upstream) (log : List Event) (opId : String) : Prop :=
  ∃ m ≤ log.length, ∃ response, readOp U (sAt U {} log m) opId = .ok (some response)

theorem logged_iff {log : List Event} {request : ControlRequest} :
    logged log request = true ↔ ∃ d e, Event.entry d e ∈ log ∧ e.payload = .normal request := by
  unfold logged
  rw [List.any_eq_true]
  constructor
  · rintro ⟨ev, hmem, hev⟩
    cases ev with
    | sweep => cases hev
    | entry d e => exact ⟨d, e, hmem, of_decide_eq_true hev⟩
  · rintro ⟨d, e, hmem, he⟩
    exact ⟨.entry d e, hmem, decide_eq_true he⟩

@[simp] theorem logged_append (log log' : List Event) (request : ControlRequest) :
    logged (log ++ log') request = (logged log request || logged log' request) := List.any_append

@[simp] theorem logged_entry (d : Bool) (e : Entry) (request : ControlRequest) :
    logged [.entry d e] request = decide (e.payload = .normal request) := by simp [logged]

@[simp] theorem logged_sweep (request : ControlRequest) : logged [.sweep] request = false := rfl

theorem HasOutcome.mono {log log' : List Event} {opId : String} (h : HasOutcome U log opId) (hlog : log <+: log') :
    HasOutcome U log' opId := by
  obtain ⟨m, hm, response, hrow⟩ := h
  obtain ⟨more, rfl⟩ := hlog
  refine ⟨m, by rw [List.length_append]; omega, response, ?_⟩
  rwa [sAt, Trace.stateAt, List.take_append_of_le_length hm]

theorem readOp_of_replay {s : State} {request : ControlRequest} {previous : DedupEntry}
    (h : replayOf U s request = some previous) : readOp U s request.opId = .ok (some previous.response) := by
  unfold replayOf lookupDedup at h
  unfold readOp
  cases hrow : s.dedup[request.opId]? with
  | none => rw [hrow] at h; cases h
  | some row =>
    simp only [hrow] at h ⊢
    cases hread : U.dedup.read row with
    | error e => rw [hread] at h; cases h
    | ok entry =>
      simp only [hread] at h ⊢
      split at h
      · cases h; rfl
      · cases h

/-- **A request in the log has an outcome**: it is recorded, or was when the request came. -/
theorem hasOutcome_of_logged {log : List Event} {request : ControlRequest} (h : logged log request = true) :
    HasOutcome U log request.opId := by
  obtain ⟨d, e, hmem, hp⟩ := logged_iff.1 h
  obtain ⟨m, hm, hev⟩ := List.getElem_of_mem hmem
  cases hr : replayOf U ((sAt U {} log m).receive e) request with
  | some previous =>
    have hrow : readOp U ((sAt U {} log m).receive e) request.opId = .ok (some previous.response) := readOp_of_replay hr
    exact ⟨m, hm.le, previous.response, hrow⟩
  | none =>
    have hrow := applyOne_records (d := d) hp hr
    refine ⟨m + 1, hm, (recordedOutcome U d (sAt U {} log m) e).response, ?_⟩
    rw [sAt_succ hm, hev, State.step, readOp, hrow]
    simp

namespace IntentNode

/-! ## What a move does to the table and to the log -/

section fields

variable (n : IntentNode) (request : ControlRequest) (opId : String) (b : Bool) (i : ℕ) (task : Option WriteTask)

@[simp] theorem unpark_log : (n.unpark opId b).log = n.log := by unfold unpark; split <;> rfl
@[simp] theorem unpark_inflight : (n.unpark opId b).inflight = n.inflight := by unfold unpark; split <;> rfl
@[simp] theorem unpark_tasks : (n.unpark opId b).tasks = n.tasks := by unfold unpark; split <;> rfl
@[simp] theorem unpark_sweep : (n.unpark opId b).sweep = n.sweep := by unfold unpark; split <;> rfl

theorem unpark_false : (n.unpark opId false).parked = n.parked := by
  unfold unpark; split <;> first | rfl | contradiction

theorem unpark_parked (key : String) :
    (n.unpark opId b).parked[key]? = if b = true ∧ opId = key then none else n.parked[key]? := by
  unfold unpark
  split
  · simp [get_erase]
  · rename_i hrow
    split
    · rename_i h
      obtain ⟨rfl, rfl⟩ := h
      cases hp : n.parked[opId]? with
      | none => rfl
      | some row => exact absurd rfl (hrow row hp)
    · rfl

@[simp] theorem propose_parked : (n.propose env request b).parked = n.parked := by unfold propose; split <;> rfl
@[simp] theorem propose_removed : (n.propose env request b).removed = n.removed := by unfold propose; split <;> rfl
@[simp] theorem propose_log : (n.propose env request b).log = n.log := by unfold propose; split <;> rfl
@[simp] theorem propose_tasks : (n.propose env request b).tasks = n.tasks := by unfold propose; split <;> rfl
@[simp] theorem propose_sweep : (n.propose env request b).sweep = n.sweep := by unfold propose; split <;> rfl

@[simp] theorem setTask_parked : (n.setTask i task).parked = n.parked := rfl
@[simp] theorem setTask_log : (n.setTask i task).log = n.log := rfl
@[simp] theorem setTask_sweep : (n.setTask i task).sweep = n.sweep := rfl

@[simp] theorem write_parked : (n.write request).parked = n.parked.insert request.opId (.intent request) := rfl
@[simp] theorem write_log : (n.write request).log = n.log := rfl
@[simp] theorem write_sweep : (n.write request).sweep = n.sweep := rfl

end fields

variable {n : IntentNode}

/-- What one move does to the parked rows. -/
inductive TableMove (env : IntentEnv) (n : IntentNode) (move : IntentMove) (parked : Table String IntentRow) : Prop where
  | same (h : parked = n.parked)
  | write (request : ControlRequest) (h : parked = n.parked.insert request.opId (.intent request))
  | retire (request : ControlRequest) (b : Bool) (hlog : logged n.log request = true)
      (h : parked = (n.unpark request.opId b).parked)
  | drop (opId : String) (row : IntentRow) (hdoomed : n.doomedBy env move = some (opId, row))
      (h : parked = (n.unpark opId true).parked)
  | restore (undone : List String) (h : parked = n.restore undone)

theorem step_parked (env : IntentEnv) (n : IntentNode) (move : IntentMove) : TableMove env n move (n.step env move).parked := by
  cases move with
  | begin mode requests => exact .same rfl
  | park i =>
    simp only [step]
    split
    · exact .write _ rfl
    · exact .same rfl
  | parkFails i durable =>
    simp only [step]
    split
    · cases durable with
      | true => exact .write _ rfl
      | false => exact .same rfl
    · exact .same rfl
  | submit i reaches =>
    simp only [step]
    split
    · exact .same (propose_parked _ _ _)
    · exact .same rfl
  | answer i a unparks =>
    simp only [step]
    split
    · split
      · rename_i mode request rest htask ha
        unfold answered
        cases a with
        | done failed => exact .retire request unparks ha rfl
        | timedOut => dsimp only; split <;> exact .same rfl
        | unavailable | tooLarge | error => exact .same rfl
      · exact .same rfl
    · exact .same rfl
  | sweep =>
    simp only [step]
    split <;> exact .same rfl
  | drop unparks =>
    simp only [step]
    split
    · rename_i opId row doomed queue waiting hsweep
      cases unparks with
      | true => exact .drop opId row (by simp only [doomedBy, hsweep]) rfl
      | false => exact .same (unpark_false n opId)
    · exact .same rfl
  | sweepSubmit reaches =>
    simp only [step]
    split
    · exact .same (propose_parked _ _ _)
    · exact .same rfl
  | sweepAnswer a unparks =>
    simp only [step]
    split
    · split
      · rename_i request rest hsweep ha
        unfold sweepAnswered
        cases a with
        | done failed => exact .retire request unparks ha rfl
        | tooLarge =>
          cases unparks with
          | true => exact .drop request.opId (.intent request) (by simp only [doomedBy, hsweep]; exact if_pos ha) rfl
          | false => exact .same (unpark_false n request.opId)
        | timedOut | unavailable | error => exact .same rfl
      · exact .same rfl
    · exact .same rfl
  | commit k degraded logId =>
    simp only [step]
    split <;> exact .same rfl
  | apply ev => exact .same rfl
  | crash undone => exact .restore undone rfl

theorem step_log (n : IntentNode) (move : IntentMove) : n.log <+: (n.step env move).log := by
  cases move with
  | begin mode requests => exact List.prefix_rfl
  | park i | sweep | drop unparks => simp only [step]; split <;> simp
  | parkFails i durable => simp only [step]; split <;> (try split) <;> simp
  | submit i reaches | sweepSubmit reaches => simp only [step]; split <;> simp
  | answer i a unparks =>
    simp only [step, answered]
    split
    · split
      · cases a <;> (try dsimp only; split) <;> simp
      · simp
    · simp
  | sweepAnswer a unparks =>
    simp only [step, sweepAnswered]
    split
    · split
      · cases a <;> simp
      · simp
    · simp
  | commit k degraded logId => simp only [step]; split <;> simp
  | apply ev => exact List.prefix_append _ _
  | crash undone => exact List.prefix_rfl

theorem restore_keeps {opId : String} (h : n.parked[opId]? ≠ none) (undone : List String) :
    (n.restore undone)[opId]? ≠ none := by
  unfold restore
  refine List.foldlRecOn (motive := fun parked => parked[opId]? ≠ none) undone _ h fun parked hp key _ => ?_
  split
  · rw [get_insert]
    split
    · simp
    · exact hp
  · exact hp

/-- **Where a parked row goes.** -/
theorem step_keeps (env : IntentEnv) {opId : String} (h : n.parked[opId]? ≠ none) (move : IntentMove) :
    (n.step env move).parked[opId]? ≠ none ∨ (∃ request, logged n.log request = true ∧ request.opId = opId) ∨
      ∃ row, n.droppedBy env move = some (opId, row) := by
  cases step_parked env n move with
  | same hp => rw [hp]; exact .inl h
  | write request hp =>
    rw [hp, get_insert]
    split
    · exact .inl (by simp)
    · exact .inl h
  | retire request b hlog hp =>
    rw [hp, unpark_parked]
    split
    · rename_i hb
      exact .inr (.inl ⟨request, hlog, hb.2⟩)
    · exact .inl h
  | drop key row hdoomed hp =>
    rw [hp, unpark_parked]
    split
    · rename_i hb
      obtain ⟨row', hrow'⟩ := Option.ne_none_iff_exists'.1 h
      refine .inr (.inr ⟨row', ?_⟩)
      rw [droppedBy, hdoomed]
      obtain ⟨-, rfl⟩ := hb
      simp [hrow']
    · exact .inl h
  | restore undone hp => rw [hp]; exact .inl (restore_keeps h undone)

theorem step_accepts {opId : String} {move : IntentMove} (h : n.acceptedBy move = some opId) :
    (n.step env move).parked[opId]? ≠ none := by
  unfold acceptedBy at h
  split at h
  · split at h
    · rename_i htask
      cases h
      simp [step, htask]
    · cases h
  · cases h

/-! ## A whole run -/

/-- A row a sweep may drop: it does not parse, or is over the size limit. -/
def Unusable (env : IntentEnv) : IntentRow → Bool
  | .garbled _ => true
  | .intent request => env.oversize request

def SweepOk (n : IntentNode) : Prop :=
  ∀ sweep, n.sweep = some sweep → ∀ kv ∈ sweep.doomed, kv.2.request? = none

theorem sweepOk_of_nil {queue : List ControlRequest} {waiting : Bool} (hsweep : n.sweep = some ⟨[], queue, waiting⟩) :
    n.SweepOk := by
  rintro sweep hs kv hmem
  rw [hsweep] at hs
  cases hs
  cases hmem

theorem sweepOk_congr {n' : IntentNode} (h : n.SweepOk) (hsweep : n'.sweep = n.sweep) : n'.SweepOk := by
  unfold SweepOk
  rw [hsweep]
  exact h

theorem sweepOk_step (h : n.SweepOk) (move : IntentMove) : (n.step env move).SweepOk := by
  cases move with
  | begin mode requests | apply ev => exact h
  | park i | commit k degraded logId => simp only [step]; split <;> exact h
  | parkFails i durable =>
    simp only [step]
    split
    · cases durable <;> exact h
    · exact h
  | submit i reaches =>
    simp only [step]
    split
    · exact sweepOk_congr h (propose_sweep _ _ _)
    · exact h
  | answer i a unparks =>
    simp only [step, answered]
    split
    · split
      · cases a with
        | done failed => exact sweepOk_congr h (unpark_sweep _ _ _)
        | timedOut => dsimp only; split <;> exact h
        | unavailable | tooLarge | error => exact h
      · exact h
    · exact h
  | sweep =>
    have hread : SweepOk { n with sweep := some (n.readRows env) } := by
      rintro sweep hs kv hmem
      cases hs
      obtain ⟨⟨key, row⟩, -, hkv⟩ := List.mem_filterMap.1 hmem
      cases row with
      | intent request => cases hkv
      | garbled text =>
        obtain ⟨opId, -, rfl⟩ := Option.map_eq_some_iff.1 hkv
        rfl
    simp only [step]
    split <;> first | exact hread | exact h
  | drop unparks =>
    simp only [step]
    split
    · rename_i hsweep
      rintro sweep hs kv hmem
      cases hs
      exact h _ hsweep kv (List.mem_cons_of_mem _ hmem)
    · exact h
  | sweepSubmit reaches =>
    simp only [step]
    split
    · exact sweepOk_of_nil rfl
    · exact h
  | sweepAnswer a unparks =>
    simp only [step, sweepAnswered]
    split
    · split
      · cases a with
        | done failed | tooLarge | error => exact sweepOk_of_nil rfl
        | timedOut => exact h
        | unavailable => exact fun sweep hs => nomatch hs
      · exact h
    · exact h
  | crash undone => exact fun sweep hs => nomatch hs

theorem doomedBy_unusable (h : n.SweepOk) {move : IntentMove} {opId : String} {row : IntentRow}
    (hd : n.doomedBy env move = some (opId, row)) : Unusable env row = true := by
  unfold doomedBy at hd
  split at hd
  · split at hd
    · rename_i hsweep
      cases hd
      have hrow := h _ hsweep _ List.mem_cons_self
      cases row with
      | garbled text => rfl
      | intent request => cases hrow
    · cases hd
  · split at hd
    · split at hd
      · rename_i hsize
        cases hd
        exact hsize
      · cases hd
    · cases hd
  · cases hd

/-- If the move drops a row, it is the row the sweep has read. -/
def DropsWhatItRead (env : IntentEnv) (n : IntentNode) (move : IntentMove) : Prop :=
  ∀ kv ∈ n.doomedBy env move, ∀ row ∈ n.parked[kv.1]?, row = kv.2

instance (move : IntentMove) : Decidable (DropsWhatItRead env n move) :=
  inferInstanceAs (Decidable (∀ kv ∈ n.doomedBy env move, ∀ row ∈ n.parked[kv.1]?, row = kv.2))

theorem droppedBy_unusable (h : n.SweepOk) {move : IntentMove} (hread : DropsWhatItRead env n move) {opId : String}
    {row : IntentRow} (hd : n.droppedBy env move = some (opId, row)) : Unusable env row = true := by
  obtain ⟨⟨key, row'⟩, hdoomed, hd⟩ := Option.bind_eq_some_iff.1 hd
  obtain ⟨row'', hrow, hd⟩ := Option.bind_eq_some_iff.1 hd
  cases hd
  rw [hread _ hdoomed _ hrow]
  exact doomedBy_unusable h hdoomed

/-- **Durable acceptance.** In any run of the writes, of the sweeps and of crashes in which a
sweep drops the rows it has read, an op whose parking has returned `Ok` is parked at every
later moment, or has an outcome that `apply` has stored at some point of the log, or was dropped
since, its row not parsing or over the size limit. -/
theorem parked_until_outcome (U : Upstream) (env : IntentEnv) (n : IntentNode) (moves : List IntentMove)
    (hstart : n.sweep = none)
    (hmoves : ∀ (m : ℕ) (hm : m < moves.length), DropsWhatItRead env (n.runAt env moves m) moves[m])
    {k j : ℕ} (hkj : k < j) (hj : j ≤ moves.length) {opId : String}
    (hk : (n.runAt env moves k).acceptedBy moves[k] = some opId) :
    (n.runAt env moves j).parked[opId]? ≠ none ∨ HasOutcome U (n.runAt env moves j).log opId ∨
      ∃ (m : ℕ) (hm : m < moves.length) (row : IntentRow), k < m ∧ m < j ∧
        (n.runAt env moves m).droppedBy env moves[m] = some (opId, row) ∧ Unusable env row = true := by
  have hok : ∀ m, (n.runAt env moves m).SweepOk := by
    have h0 : n.SweepOk := fun sweep hs => by rw [hstart] at hs; cases hs
    exact Trace.stateAt_inv h0 fun n' move _ h => sweepOk_step h move
  -- by induction on the moves since the op was accepted; an outcome stays in the log, a drop in the past
  induction j, hkj using Nat.le_induction with
  | base =>
    refine .inl ?_
    rw [runAt, Trace.stateAt_succ (by omega)]
    exact step_accepts hk
  | succ j hkj ih =>
    rw [runAt, Trace.stateAt_succ (by omega)]
    rcases ih (by omega) hk with hparked | hout | ⟨m, hm, row, hkm, hmj, hd⟩
    · rcases step_keeps env hparked moves[j] with h | ⟨request, hlog, hop⟩ | ⟨row, hd⟩
      · exact .inl h
      · refine .inr (.inl ?_)
        rw [← hop]
        exact (hasOutcome_of_logged hlog).mono (step_log _ _)
      · exact .inr (.inr ⟨j, by omega, row, by omega, by omega, hd, droppedBy_unusable (hok j) (hmoves j (by omega)) hd⟩)
    · exact .inr (.inl (hout.mono (step_log _ _)))
    · exact .inr (.inr ⟨m, hm, row, hkm, by omega, hd⟩)

/-- A node that no request is too large for, where every key is an op id. -/
def plainEnv : IntentEnv := { oversize := fun _ => false, uuid := some }

def garbledNode (opId : String) : IntentNode := { parked := (∅ : Table String IntentRow).insert opId (.garbled "\x7b") }

/-- A sweep drops the row while a write is parked, submitted and lost. -/
def sweepBesideWrite : List IntentMove :=
  [.sweep, .begin .background [firstPut], .park 0, .drop true, .submit 0 false, .answer 0 .unavailable false]

theorem other_row_dropped :
    (∀ (m : ℕ) (hm : m < sweepBesideWrite.length),
        DropsWhatItRead plainEnv ((garbledNode "op-0").runAt plainEnv sweepBesideWrite m) sweepBesideWrite[m]) ∧
      ((garbledNode "op-0").runAt plainEnv sweepBesideWrite 6).parked["op-0"]? = none ∧
      (((garbledNode "op-0").runAt plainEnv sweepBesideWrite 6).parked["op-1"]? ≠ none ∨
        HasOutcome jsonUpstream ((garbledNode "op-0").runAt plainEnv sweepBesideWrite 6).log "op-1" ∨
        ∃ (m : ℕ) (hm : m < sweepBesideWrite.length) (row : IntentRow), 2 < m ∧ m < 6 ∧
          ((garbledNode "op-0").runAt plainEnv sweepBesideWrite m).droppedBy plainEnv sweepBesideWrite[m] =
            some ("op-1", row) ∧ Unusable plainEnv row = true) := by
  have hmoves : ∀ (m : ℕ) (hm : m < sweepBesideWrite.length),
      DropsWhatItRead plainEnv ((garbledNode "op-0").runAt plainEnv sweepBesideWrite m) sweepBesideWrite[m] := by
    decide +kernel
  exact ⟨hmoves, by decide +kernel,
    parked_until_outcome jsonUpstream plainEnv (garbledNode "op-0") sweepBesideWrite rfl hmoves (k := 2) (j := 6)
      (by decide) (by decide) (by decide +kernel)⟩

/-- **A sweep drops a write it has not read.** The row that does not parse has the op id that a
client now sends again. The write is parked, the sweep removes it under that op id, and
its submit finds no leader: the client has its `202`, and the write is nowhere. -/
theorem sweep_drops_new_write :
    ((garbledNode "op-1").runAt plainEnv sweepBesideWrite 2).acceptedBy (.park 0) = some "op-1" ∧
      ((garbledNode "op-1").runAt plainEnv sweepBesideWrite 6).parked["op-1"]? = none ∧
      ¬ HasOutcome jsonUpstream ((garbledNode "op-1").runAt plainEnv sweepBesideWrite 6).log "op-1" ∧
      ¬ ∃ (m : ℕ) (hm : m < sweepBesideWrite.length) (row : IntentRow),
          ((garbledNode "op-1").runAt plainEnv sweepBesideWrite m).droppedBy plainEnv sweepBesideWrite[m] =
            some ("op-1", row) ∧ Unusable plainEnv row = true := by
  refine ⟨by decide +kernel, by decide +kernel, ?_, ?_⟩
  · have hlog : ((garbledNode "op-1").runAt plainEnv sweepBesideWrite 6).log = [] := by decide +kernel
    rw [hlog]
    rintro ⟨m, hm, response, hread⟩
    obtain rfl : m = 0 := by simpa using hm
    cases hread
  · rintro ⟨m, hm, row, hd, hrow⟩
    have hall : ∀ (m : ℕ) (hm : m < sweepBesideWrite.length),
        ((garbledNode "op-1").runAt plainEnv sweepBesideWrite m).droppedBy plainEnv sweepBesideWrite[m] ∈
          [none, some ("op-1", .intent firstPut)] := by
      decide +kernel
    have hmem := hall m hm
    rw [hd] at hmem
    simp only [List.mem_cons, reduceCtorEq, Option.some.injEq, Prod.mk.injEq, true_and, List.not_mem_nil, or_false,
      false_or] at hmem
    rw [hmem] at hrow
    cases hrow

end IntentNode

end RiftCluster
