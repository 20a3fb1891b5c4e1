import RiftCluster.Proof.Intents
import RiftCluster.Proof.RevisionToken

/-!
# What a refused write leaves behind

A write refused at a gate never reaches the table. One refused because a request could not be
parked has its earlier requests parked, and a sweep submits them: the refusal takes nothing back.
`refused_write_gone_iff` says when nothing of it is ever applied: the failed park is not durable,
and none of its requests is anywhere the node would take it up from (`Absent`).
-/

namespace RiftCluster

open KV

variable {U : Upstream} {env : IntentEnv}

def IntentSweep.todo (sweep : IntentSweep) : List ControlRequest :=
  if sweep.waiting then sweep.queue.tail else sweep.queue

/-- A move by which a request comes in from outside: another write, or another node's. -/
def IntentMove.brings (request : ControlRequest) : IntentMove → Bool
  | .begin _ requests => request ∈ requests
  | .apply (.entry _ e) => e.payload = .normal request
  | _ => false

namespace IntentNode

variable {n : IntentNode} {r : ControlRequest}

/-- A request is neither stored, nor on its way, nor in the log. -/
structure Absent (n : IntentNode) (r : ControlRequest) : Prop where
  parked : ∀ key : String, n.parked[key]? ≠ some (.intent r)
  /-- No crash brings it back. -/
  removed : ∀ key : String, n.removed[key]? = some (.intent r) → n.parked[key]? ≠ none
  log : logged n.log r = false
  inflight : r ∉ n.inflight
  sweep : ∀ w, n.sweep = some w → r ∉ w.todo

def Holds (n : IntentNode) (i : ℕ) (r : ControlRequest) : Prop :=
  ∃ task, n.tasks[i]? = some (some task) ∧ (r ∈ task.toPark ∨ r ∈ task.queue)

/-! ## The writes under way -/

/-- A write goes on from one of the node's, with no other requests. -/
def GoesOn (n : IntentNode) (i : ℕ) (task' : WriteTask) : Prop :=
  ∃ task, n.tasks[i]? = some (some task) ∧ task'.toPark ⊆ task.toPark ∧ task'.queue ⊆ task.queue

theorem goesOn_of_same {tasks : List (Option WriteTask)} {i : ℕ} {task' : WriteTask} (hsame : tasks = n.tasks)
    (h : tasks[i]? = some (some task')) : n.GoesOn i task' := by
  subst hsame
  exact ⟨task', h, fun _ hx => hx, fun _ hx => hx⟩

theorem goesOn_of_set {i j : ℕ} {next : Option WriteTask} {task task' : WriteTask}
    (htask : n.tasks[j]? = some (some task))
    (hnext : ∀ t, next = some t → t.toPark ⊆ task.toPark ∧ t.queue ⊆ task.queue)
    (h : (n.tasks.set j next)[i]? = some (some task')) : n.GoesOn i task' := by
  rw [List.getElem?_set] at h
  split at h
  · rename_i hji
    subst hji
    split at h
    · exact ⟨task, htask, hnext task' (Option.some.inj h)⟩
    · cases h
  · exact goesOn_of_same rfl h

theorem step_tasks {move : IntentMove} {i : ℕ} {task' : WriteTask}
    (h : (n.step env move).tasks[i]? = some (some task')) :
    n.GoesOn i task' ∨ ∃ mode requests, move = .begin mode requests ∧ i = n.tasks.length ∧
      task' = { mode, toPark := requests, queue := requests } := by
  cases move with
  | begin mode requests =>
    simp only [step, List.getElem?_append] at h
    split at h
    · exact .inl (goesOn_of_same rfl h)
    · rename_i hi
      obtain ⟨hlt, h⟩ := List.getElem?_eq_some_iff.1 h
      have : i = n.tasks.length := by simp only [List.length_singleton] at hlt; omega
      subst this
      simp only [Nat.sub_self, List.getElem_cons_zero, Option.some.injEq] at h
      exact .inr ⟨mode, requests, rfl, rfl, h.symm⟩
  | park j =>
    simp only [step] at h
    split at h
    · rename_i mode request left queue waiting htask
      refine .inl (goesOn_of_set htask ?_ h)
      rintro t ht
      cases ht
      exact ⟨fun _ hx => List.mem_cons_of_mem _ hx, fun _ hx => hx⟩
    · exact .inl (goesOn_of_same rfl h)
  | parkFails j durable =>
    simp only [step] at h
    split at h
    · rename_i htask
      have h' : (n.tasks.set j none)[i]? = some (some task') := by cases durable <;> exact h
      exact .inl (goesOn_of_set htask (fun t ht => by cases ht) h')
    · exact .inl (goesOn_of_same rfl h)
  | submit j reaches =>
    simp only [step] at h
    split at h
    · rename_i htask
      rw [setTask, propose_tasks] at h
      refine .inl (goesOn_of_set htask ?_ h)
      rintro t ht
      cases ht
      exact ⟨fun _ hx => hx, fun _ hx => hx⟩
    · exact .inl (goesOn_of_same rfl h)
  | answer j a unparks =>
    simp only [step, answered] at h
    split at h
    · rename_i mode request rest htask
      split at h
      · refine .inl ?_
        cases a with
        | done failed =>
          simp only [setTask, unpark_tasks] at h
          refine goesOn_of_set htask ?_ h
          intro t ht
          split at ht
          · cases ht
          · cases ht
            exact ⟨fun _ hx => hx, fun _ hx => List.mem_cons_of_mem _ hx⟩
        | timedOut =>
          dsimp only at h
          split at h
          · exact goesOn_of_set htask (fun t ht => by cases ht) h
          · exact goesOn_of_same rfl h
        | unavailable | tooLarge | error => exact goesOn_of_set htask (fun t ht => by cases ht) h
      · exact .inl (goesOn_of_same rfl h)
    · exact .inl (goesOn_of_same rfl h)
  | sweep | commit k degraded logId => simp only [step] at h; split at h <;> exact .inl (goesOn_of_same rfl h)
  | drop unparks =>
    simp only [step] at h
    split at h
    · exact .inl (goesOn_of_same (unpark_tasks _ _ _) h)
    · exact .inl (goesOn_of_same rfl h)
  | sweepSubmit reaches =>
    simp only [step] at h
    split at h
    · exact .inl (goesOn_of_same (propose_tasks _ _ _) h)
    · exact .inl (goesOn_of_same rfl h)
  | sweepAnswer a unparks =>
    simp only [step, sweepAnswered] at h
    split at h
    · split at h
      · cases a with
        | done failed | tooLarge => exact .inl (goesOn_of_same (unpark_tasks _ _ _) h)
        | timedOut | unavailable | error => exact .inl (goesOn_of_same rfl h)
      · exact .inl (goesOn_of_same rfl h)
    · exact .inl (goesOn_of_same rfl h)
  | apply ev => exact .inl (goesOn_of_same rfl h)
  | crash undone =>
    simp only [step, List.getElem?_map, Option.map_eq_some_iff] at h
    obtain ⟨_, -, h⟩ := h
    cases h

theorem holds_step {move : IntentMove} {i : ℕ} (hb : move.brings r = false) (h : (n.step env move).Holds i r) :
    n.Holds i r := by
  obtain ⟨task', htask', hr⟩ := h
  rcases step_tasks htask' with ⟨task, htask, hpark, hqueue⟩ | ⟨mode, requests, rfl, -, rfl⟩
  · exact ⟨task, htask, hr.imp (@hpark r) (@hqueue r)⟩
  · have : r ∉ requests := of_decide_eq_false hb
    exact absurd hr (by simpa using this)

theorem holds_run {moves : List IntentMove} {i : ℕ} (hb : ∀ move ∈ moves, move.brings r = false) :
    ∀ {n : IntentNode}, (n.run env moves).Holds i r → n.Holds i r := by
  induction moves with
  | nil => exact fun h => h
  | cons move moves ih =>
    intro n h
    have hrest : (n.step env move).Holds i r := ih (fun m hm => hb m (List.mem_cons_of_mem _ hm)) h
    exact holds_step (hb move List.mem_cons_self) hrest

theorem step_tasks_length (n : IntentNode) (move : IntentMove) : n.tasks.length ≤ (n.step env move).tasks.length := by
  cases move with
  | begin mode requests => simp [step]
  | park i | sweep | drop unparks | submit i reaches | sweepSubmit reaches | commit k degraded logId =>
    simp only [step]; split <;> simp [setTask, write]
  | parkFails i durable => simp only [step]; split <;> (try cases durable) <;> simp [setTask, write]
  | answer i a unparks =>
    simp only [step, answered]
    split
    · split
      · cases a <;> (try dsimp only; split) <;> simp [setTask]
      · exact le_rfl
    · exact le_rfl
  | sweepAnswer a unparks =>
    simp only [step, sweepAnswered]
    split
    · split
      · cases a <;> simp
      · exact le_rfl
    · exact le_rfl
  | apply ev => exact le_rfl
  | crash undone => simp [step]

theorem holds_of_run {moves : List IntentMove} {i : ℕ} :
    ∀ {n : IntentNode}, i < n.tasks.length → (n.run env moves).Holds i r → n.Holds i r := by
  induction moves with
  | nil => exact fun _ h => h
  | cons move moves ih =>
    intro n hi h
    obtain ⟨task', htask', hr⟩ := ih (hi.trans_le (step_tasks_length n move)) h
    rcases step_tasks htask' with ⟨task, htask, hpark, hqueue⟩ | ⟨mode, requests, -, hlast, -⟩
    · exact ⟨task, htask, hr.imp (@hpark r) (@hqueue r)⟩
    · omega

/-! ## A request that is absent stays absent -/

namespace Absent

theorem write (h : n.Absent r) {request : ControlRequest} (hne : request ≠ r) : (n.write request).Absent r := by
  refine ⟨fun key => ?_, fun key hkey => ?_, h.log, h.inflight, h.sweep⟩
  · rw [write_parked, get_insert]
    split
    · simpa using hne
    · exact h.parked key
  · simp only [IntentNode.write, get_erase, get_insert] at hkey ⊢
    split at hkey
    · cases hkey
    · rename_i hk
      rw [if_neg hk]
      exact h.removed key hkey

theorem unpark (h : n.Absent r) (opId : String) (b : Bool) : (n.unpark opId b).Absent r := by
  unfold IntentNode.unpark
  split
  · rename_i row hrow
    refine ⟨fun key => ?_, fun key hkey => ?_, h.log, h.inflight, h.sweep⟩
    · simp only [get_erase]
      split
      · exact Option.some_ne_none _ |>.symm
      · exact h.parked key
    · simp only [get_insert, get_erase] at hkey ⊢
      split at hkey
      · rw [hkey] at hrow
        exact absurd hrow (h.parked opId)
      · rename_i hk
        rw [if_neg hk]
        exact h.removed key hkey
  · exact h

theorem propose (h : n.Absent r) {request : ControlRequest} (hne : request ≠ r) (b : Bool) :
    (n.propose env request b).Absent r := by
  unfold IntentNode.propose
  split
  · refine ⟨h.parked, h.removed, h.log, ?_, h.sweep⟩
    simpa using ⟨h.inflight, hne.symm⟩
  · exact h

theorem setTask (h : n.Absent r) (i : ℕ) (task : Option WriteTask) : (n.setTask i task).Absent r :=
  ⟨h.parked, h.removed, h.log, h.inflight, h.sweep⟩

theorem of_setTask {i : ℕ} {task : Option WriteTask} (h : (n.setTask i task).Absent r) : n.Absent r :=
  ⟨h.parked, h.removed, h.log, h.inflight, h.sweep⟩

theorem withSweep (h : n.Absent r) {w : IntentSweep} (hw : r ∉ w.todo) : { n with sweep := some w }.Absent r := by
  refine ⟨h.parked, h.removed, h.log, h.inflight, ?_⟩
  rintro w' hw'
  cases hw'
  exact hw

theorem readRows (h : n.Absent r) : r ∉ (n.readRows env).todo := by
  intro hmem
  obtain ⟨⟨key, row⟩, hrow, hr⟩ := List.mem_filterMap.1 hmem
  cases row with
  | garbled text => cases hr
  | intent request =>
    cases hr
    exact h.parked key (mem_toList.1 hrow)

theorem restore (h : n.Absent r) (undone : List String) (key : String) : (n.restore undone)[key]? ≠ some (.intent r) := by
  -- what a crash brings back was removed, and nothing is parked in its place
  have hfold : (∀ key : String, (n.restore undone)[key]? ≠ some (.intent r)) ∧
      ∀ key : String, n.parked[key]? ≠ none → (n.restore undone)[key]? ≠ none := by
    refine List.foldlRecOn (motive := fun parked : Table String IntentRow =>
      (∀ key : String, parked[key]? ≠ some (.intent r)) ∧ ∀ key : String, n.parked[key]? ≠ none → parked[key]? ≠ none)
      undone _ ⟨h.parked, fun _ hk => hk⟩ fun parked hp opId _ => ?_
    split
    · rename_i row hnone hrow
      refine ⟨fun key => ?_, fun key hk => ?_⟩
      · rw [get_insert]
        split
        · rintro hr
          rw [hr] at hrow
          exact hp.2 opId (h.removed opId hrow) hnone
        · exact hp.1 key
      · rw [get_insert]
        split
        · exact Option.some_ne_none _
        · exact hp.2 key hk
    · exact hp
  exact hfold.1 key

end Absent

theorem absent_step (h : n.Absent r) (hno : ∀ i, ¬ n.Holds i r) {move : IntentMove} (hb : move.brings r = false) :
    (n.step env move).Absent r := by
  -- a request that a write or a sweep takes up is another one
  have htask : ∀ {i : ℕ} {task : WriteTask} {request : ControlRequest}, n.tasks[i]? = some (some task) →
      request ∈ task.toPark ∨ request ∈ task.queue → request ≠ r := by
    rintro i task request ht hreq rfl
    exact hno i ⟨task, ht, hreq⟩
  cases move with
  | begin mode requests => exact ⟨h.parked, h.removed, h.log, h.inflight, h.sweep⟩
  | park i =>
    simp only [step]
    split
    · rename_i ht
      exact (h.write (htask ht (.inl List.mem_cons_self))).setTask _ _
    · exact h
  | parkFails i durable =>
    simp only [step]
    split
    · rename_i ht
      cases durable with
      | true => exact (h.write (htask ht (.inl List.mem_cons_self))).setTask _ _
      | false => exact h.setTask _ _
    · exact h
  | submit i reaches =>
    simp only [step]
    split
    · rename_i ht
      exact (h.propose (htask ht (.inr List.mem_cons_self)) _).setTask _ _
    · exact h
  | answer i a unparks =>
    simp only [step, answered]
    split
    · split
      · cases a with
        | done failed => exact (h.unpark _ _).setTask _ _
        | timedOut => dsimp only; split <;> first | exact h.setTask _ _ | exact h
        | unavailable | tooLarge | error => exact h.setTask _ _
      · exact h
    · exact h
  | sweep =>
    simp only [step]
    split <;> first | exact h.withSweep h.readRows | exact h
  | drop unparks =>
    simp only [step]
    split
    · rename_i hsweep
      have hnot := h.sweep _ hsweep
      exact (h.unpark _ _).withSweep hnot
    · exact h
  | sweepSubmit reaches =>
    simp only [step]
    split
    · rename_i request rest hsweep
      have hnot : r ∉ request :: rest := h.sweep _ hsweep
      rw [List.mem_cons, not_or] at hnot
      exact (h.propose (Ne.symm hnot.1) _).withSweep hnot.2
    · exact h
  | sweepAnswer a unparks =>
    simp only [step, sweepAnswered]
    split
    · rename_i request rest hsweep
      have hnot : r ∉ rest := h.sweep _ hsweep
      split
      · cases a with
        | done failed | tooLarge => exact (h.unpark _ _).withSweep hnot
        | timedOut => exact h
        | unavailable => exact ⟨h.parked, h.removed, h.log, h.inflight, by rintro _ ⟨⟩⟩
        | error => exact h.withSweep hnot
      · exact h
    · exact h
  | commit k degraded logId =>
    simp only [step]
    split
    · rename_i request hk
      have hne : request ≠ r := by
        rintro rfl
        exact h.inflight (List.mem_of_getElem? hk)
      refine ⟨h.parked, h.removed, ?_, fun hmem => h.inflight (List.mem_of_mem_eraseIdx hmem), h.sweep⟩
      simp [h.log, hne]
    · exact h
  | apply ev =>
    refine ⟨h.parked, h.removed, ?_, h.inflight, h.sweep⟩
    cases ev with
    | sweep => simp [step, h.log]
    | entry d e => simpa [step, h.log] using of_decide_eq_false hb
  | crash undone =>
    refine ⟨h.restore undone, fun key hkey => ?_, h.log, h.inflight, by rintro _ ⟨⟩⟩
    simp [step] at hkey

/-- **A request that is nowhere never gets into the log.** -/
theorem absent_run {moves : List IntentMove} (hb : ∀ move ∈ moves, move.brings r = false) :
    ∀ {n : IntentNode}, n.Absent r → (∀ i, ¬ n.Holds i r) → (n.run env moves).Absent r := by
  induction moves with
  | nil => exact fun h _ => h
  | cons move moves ih =>
    intro n h hno
    have hb1 := hb move List.mem_cons_self
    exact ih (fun m hm => hb m (List.mem_cons_of_mem _ hm)) (absent_step h hno hb1) fun i hi => hno i (holds_step hb1 hi)

/-! ## A request that is stored may be applied -/

/-- Some moves of the node itself bring a request into the log. -/
def MayApply (env : IntentEnv) (n : IntentNode) (r : ControlRequest) : Prop :=
  ∃ moves : List IntentMove, (∀ move ∈ moves, ∀ request, move.brings request = false) ∧
    logged (n.run env moves).log r = true

theorem mayApply_of_step (move : IntentMove) (hb : ∀ request, move.brings request = false)
    (h : MayApply env (n.step env move) r) : MayApply env n r := by
  obtain ⟨moves, hmoves, hlog⟩ := h
  exact ⟨move :: moves, List.forall_mem_cons.2 ⟨hb, hmoves⟩, hlog⟩

theorem mayApply_inflight (h : r ∈ n.inflight) : MayApply env n r := by
  obtain ⟨k, hk, hr⟩ := List.getElem_of_mem h
  refine ⟨[.commit k false ⟨1, 1, 0, by decide⟩], by simp [IntentMove.brings], ?_⟩
  simp [run, step, List.getElem?_eq_getElem hk, hr]

theorem mayApply_queue (hsize : env.oversize r = false) (queue : List ControlRequest) :
    ∀ {n : IntentNode}, n.sweep = some ⟨[], queue, false⟩ → r ∈ queue → MayApply env n r := by
  induction queue with
  | nil => exact fun _ h => nomatch h
  | cons request rest ih =>
    intro n hsweep hmem
    rcases List.mem_cons.1 hmem with rfl | hrest
    · refine mayApply_of_step (.sweepSubmit true) (fun _ => rfl) (mayApply_inflight ?_)
      simp [step, hsweep, propose, hsize]
    · -- the submit of the one before is lost
      refine mayApply_of_step (.sweepSubmit false) (fun _ => rfl) ?_
      refine mayApply_of_step (.sweepAnswer .error false) (fun _ => rfl) (ih ?_ hrest)
      simp [step, hsweep, propose, canAnswer, sweepAnswered]

theorem mayApply_sweep (hsize : env.oversize r = false) {doomed : List (String × IntentRow)}
    {queue : List ControlRequest} {waiting : Bool} :
    ∀ {n : IntentNode}, n.sweep = some ⟨doomed, queue, waiting⟩ → r ∈ (IntentSweep.mk doomed queue waiting).todo →
      MayApply env n r := by
  induction doomed with
  | cons kv doomed ih =>
    intro n hsweep hmem
    refine mayApply_of_step (.drop false) (fun _ => rfl) (ih ?_ hmem)
    simp [step, hsweep]
  | nil =>
    intro n hsweep hmem
    cases waiting with
    | false => exact mayApply_queue hsize queue hsweep hmem
    | true =>
      cases queue with
      | nil => cases hmem
      | cons request rest =>
        refine mayApply_of_step (.sweepAnswer .error false) (fun _ => rfl) (mayApply_queue hsize rest ?_ hmem)
        simp [step, hsweep, canAnswer, sweepAnswered]

theorem mayApply_row (hsize : env.oversize r = false) (key : String) (undone : List String)
    (h : (n.restore undone)[key]? = some (.intent r)) : MayApply env n r := by
  refine mayApply_of_step (.crash undone) (fun _ => rfl) ?_
  refine mayApply_of_step .sweep (fun _ => rfl) ?_
  have hread : r ∈ ((n.step env (.crash undone)).readRows env).queue :=
    List.mem_filterMap.2 ⟨(key, .intent r), mem_toList.2 h, rfl⟩
  exact mayApply_sweep hsize (n := (n.step env (.crash undone)).step env .sweep) rfl hread

/-- **Where nothing brings a request into the log, it is absent.** -/
theorem absent_of_not_mayApply (hsize : env.oversize r = false) (h : ¬ MayApply env n r) : n.Absent r where
  parked key hkey := h (mayApply_row hsize key [] hkey)
  removed key hkey hnone := by
    refine h (mayApply_row hsize key [key] ?_)
    simp [restore, hnone, hkey]
  log := by
    cases hlog : logged n.log r with
    | false => rfl
    | true => exact absurd ⟨[], by simp, hlog⟩ h
  inflight hmem := h (mayApply_inflight hmem)
  sweep w hw hmem := h (mayApply_sweep hsize hw hmem)

/-! ## A write that is refused -/

def envOf (G : Front.Scripts) (uuid : String → Option String) : IntentEnv where
  oversize request := !(Front.admitEntrySize G request).isOk
  uuid := uuid

theorem forM_ok {ε α : Type} {f : α → Except ε Unit} {l : List α} (h : l.forM f = .ok ()) : ∀ a ∈ l, f a = .ok () := by
  induction l with
  | nil => exact fun _ hmem => nomatch hmem
  | cons a rest ih =>
    obtain ⟨_, ha, hrest⟩ := Front.bind_ok h
    exact List.forall_mem_cons.2 ⟨ha, ih hrest⟩

theorem requestsOf_size {G : Front.Scripts} (uuid : String → Option String) {s : Front.GateState} {mutation : Front.Mutation}
    {requests : List ControlRequest} (h : Front.requestsOf U G s mutation = .ok requests) :
    ∀ request ∈ requests, (envOf G uuid).oversize request = false := by
  obtain ⟨ops, -, h⟩ := Front.bind_ok h
  obtain ⟨precondition, -, h⟩ := Front.bind_ok h
  obtain ⟨_, hsize, h⟩ := Front.bind_ok h
  cases h
  intro request hmem
  have := forM_ok hsize request hmem
  cases hfits : Front.admitEntrySize G request with
  | ok _ => simp only [envOf, hfits]; rfl
  | error e => rw [hfits] at this; cases this

/-- **What a refused write leaves behind.** A refusal at a gate leaves the node as it was. Where
the gates pass, and no request of the write is on the node before, let `parkFails` be the refusal
after any moves of other writes, of sweeps and of crashes: no request of the write is ever
applied, whatever follows, if and only if the failed park is not durable and no request of the
write is parked, removed by what a crash may undo, read by a sweep, on its way to a leader or in
the log by then. -/
theorem refused_write_gone_iff (U : Upstream) (G : Front.Scripts) (uuid : String → Option String) (s : Front.GateState)
    (mutation : Front.Mutation) (mode : TaskMode) (n : IntentNode) :
    (∀ reply, Front.requestsOf U G s mutation = .error reply →
      n.accept (envOf G uuid) mode (Front.requestsOf U G s mutation) = (n, some reply)) ∧
    ∀ requests, Front.requestsOf U G s mutation = .ok requests →
      (∀ r ∈ requests, n.Absent r ∧ ∀ i, ¬ n.Holds i r) →
      ∀ before : List IntentMove, (∀ move ∈ before, ∀ r ∈ requests, move.brings r = false) →
      ∀ refused, ((n.accept (envOf G uuid) mode (Front.requestsOf U G s mutation)).1.run (envOf G uuid) before) = refused →
      ∀ task, refused.tasks[n.tasks.length]? = some (some task) → task.toPark ≠ [] → ∀ durable,
        ((∀ after : List IntentMove, (∀ move ∈ after, ∀ r ∈ requests, move.brings r = false) → ∀ r ∈ requests,
            logged ((refused.step (envOf G uuid) (.parkFails n.tasks.length durable)).run (envOf G uuid) after).log r =
              false) ↔
          durable = false ∧ ∀ r ∈ requests, refused.Absent r) := by
  refine ⟨fun reply h => by rw [h]; rfl, ?_⟩
  intro requests hreq hfresh before hbefore refused hrun task htask hpark durable
  rw [hreq] at hrun
  -- only this write has its requests
  have hown : ∀ r ∈ requests, ∀ i, refused.Holds i r → i = n.tasks.length := by
    intro r hr i hi
    subst hrun
    obtain ⟨task', htask', hr'⟩ := holds_run (fun move hm => hbefore move hm r hr) hi
    rcases step_tasks htask' with ⟨old, hold, hp, hq⟩ | ⟨_, _, -, hlast, -⟩
    · exact absurd ⟨old, hold, hr'.imp (@hp r) (@hq r)⟩ ((hfresh r hr).2 i)
    · exact hlast
  obtain ⟨mode', toPark, queue, waiting⟩ := task
  cases toPark with
  | nil => exact absurd rfl hpark
  | cons request left =>
    have hmem : request ∈ requests := by
      have hholds : refused.Holds n.tasks.length request := ⟨_, htask, .inl List.mem_cons_self⟩
      subst hrun
      obtain ⟨task', htask', hr'⟩ := holds_of_run (by simp [accept, step]) hholds
      simp only [accept, step, List.getElem?_append_right (le_refl _), Nat.sub_self, List.getElem?_cons_zero,
        Option.some.injEq] at htask'
      subst htask'
      exact hr'.elim id id
    have hstep : refused.step (envOf G uuid) (.parkFails n.tasks.length durable) =
        (if durable then refused.write request else refused).setTask n.tasks.length none := by
      simp only [step, htask]
    have hsize := requestsOf_size uuid hreq
    rw [hstep]
    constructor
    · intro h
      have hnot : ∀ r ∈ requests, ¬ MayApply (envOf G uuid)
          ((if durable then refused.write request else refused).setTask n.tasks.length none) r := by
        rintro r hr ⟨moves, hmoves, hlog⟩
        rw [h moves (fun move hm r' _ => hmoves move hm r') r hr] at hlog
        cases hlog
      have habsent := fun r hr => absent_of_not_mayApply (hsize r hr) (hnot r hr)
      cases durable with
      | true =>
        refine absurd ?_ ((habsent request hmem).parked request.opId)
        simp
      | false => exact ⟨rfl, fun r hr => (habsent r hr).of_setTask⟩
    · rintro ⟨rfl, habsent⟩ after hafter r hr
      refine (absent_run (fun move hm => hafter move hm r hr) ((habsent r hr).setTask _ _) ?_).log
      rintro i ⟨t, ht, hheld⟩
      rcases eq_or_ne n.tasks.length i with rfl | hi
      · -- the write itself is over
        rw [setTask, List.getElem?_set_self', htask] at ht
        cases ht
      · rw [setTask, List.getElem?_set_ne hi] at ht
        exact hi (hown r hr i ⟨t, ht, hheld⟩).symm

def putBoth : Front.Mutation where
  ops := [.putImposter (httpImposter []) none, .putImposter { httpImposter [] with port := some 4546 } none]
  port := none
  admission := .content

def bothRequests : List ControlRequest :=
  [{ opId := "op0", op := .putImposter (httpImposter []) none },
    { opId := "op1", op := .putImposter { httpImposter [] with port := some 4546 } none }]

theorem putBoth_requests : Front.requestsOf jsonUpstream Front.noScripts (Front.gateOf "op" none) putBoth = .ok bothRequests := by
  rfl

def bothEnv : IntentEnv := envOf Front.noScripts some

/-- The batch has passed its gates, and nothing of it is parked. -/
def bothBegun : IntentNode := ({} : IntentNode).step bothEnv (.begin .sync bothRequests)

theorem absent_idle (tasks : List (Option WriteTask)) (r : ControlRequest) : ({ tasks } : IntentNode).Absent r where
  parked key := by simp
  removed key hkey := by simp at hkey
  log := rfl
  inflight := List.not_mem_nil
  sweep w hw := nomatch hw

theorem first_park_refused_gone :
    (∀ r ∈ bothRequests, bothBegun.Absent r) ∧
      ∀ after : List IntentMove, (∀ move ∈ after, ∀ r ∈ bothRequests, move.brings r = false) → ∀ r ∈ bothRequests,
        logged ((bothBegun.step bothEnv (.parkFails 0 false)).run bothEnv after).log r = false := by
  have habsent : ∀ r ∈ bothRequests, bothBegun.Absent r := fun r _ => absent_idle _ r
  have hgone := (refused_write_gone_iff jsonUpstream Front.noScripts some (Front.gateOf "op" none) putBoth .sync {}).2
    bothRequests putBoth_requests (fun r _ => ⟨absent_idle [] r, fun i ⟨_, ht, _⟩ => nomatch ht⟩) [] (fun _ hm => nomatch hm)
    bothBegun rfl _ rfl (by decide) false
  exact ⟨habsent, hgone.2 ⟨rfl, habsent⟩⟩

/-- **A refused write is applied.** The first imposter of a batch is parked, the second cannot be:
the batch is refused with a `500`, and the next sweep submits the first. -/
theorem half_parked_batch_applied :
    Front.requestsOf jsonUpstream Front.noScripts (Front.gateOf "op" none) putBoth = .ok bothRequests ∧
      ∃ refused after : List IntentMove,
        (bothBegun.run bothEnv refused).tasks = [none] ∧ (bothBegun.run bothEnv refused).log = [] ∧
        (bothBegun.run bothEnv refused).inflight = [] ∧
        (∀ move ∈ refused ++ after, ∀ r, move.brings r = false) ∧
        ((sAt jsonUpstream {} (bothBegun.run bothEnv (refused ++ after)).log 1).tables.configs[(4545 : Port)]?).isSome = true := by
  refine ⟨putBoth_requests, [.park 0, .parkFails 0 false],
    [.sweep, .sweepSubmit true, .commit 0 false ⟨1, 1, 1, by decide⟩], by decide +kernel, by decide +kernel,
    by decide +kernel, ?_, by decide +kernel⟩
  simp [IntentMove.brings]

end IntentNode

end RiftCluster
