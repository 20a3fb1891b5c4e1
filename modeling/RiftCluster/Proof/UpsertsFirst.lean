import RiftCluster.Proof.ReplaceRows

/-!
# A replace puts before it deletes

In the request's own loop the deletes come after the puts, and a put is answered only once
it is in the log. `PrunesLast` says the same of any queue: each delete in it comes after all
puts that are not committed. It holds of the queue of a sweep only where the op ids of the
parked rows sort that way, and a sweep keeps it only where it does not go on past a put
that failed (`ReplaceNode.inOrder`). With it every delete that is submitted finds all puts in the log
(`replaceOk_step`).
-/

namespace RiftCluster

open KV

variable {U : Upstream}

/-! ## Deletes behind puts -/

def ControlRequest.upserts (request : ControlRequest) : Bool :=
  match request.op with
  | .putImposter _ _ => true
  | _ => false

def ControlRequest.prunes (request : ControlRequest) : Bool :=
  match request.op with
  | .deleteImposter _ => true
  | _ => false

/-- A delete of a queue finds all puts among those that are done or come before it. -/
def PrunesLast (puts : List ControlRequest) : (done queue : List ControlRequest) → Prop
  | _, [] => True
  | done, request :: rest =>
    (request.prunes = true → ∀ put ∈ puts, put ∈ done) ∧ PrunesLast puts (request :: done) rest

instance decidablePrunesLast (puts : List ControlRequest) :
    ∀ done queue : List ControlRequest, Decidable (PrunesLast puts done queue)
  | _, [] => isTrue trivial
  | done, request :: rest =>
    have := decidablePrunesLast puts (request :: done) rest
    inferInstanceAs (Decidable (_ ∧ _))

section Queues

variable {puts done done' queue : List ControlRequest}

theorem PrunesLast.mono (h : PrunesLast puts done queue) (hsub : ∀ put ∈ puts, put ∈ done → put ∈ done') :
    PrunesLast puts done' queue := by
  induction queue generalizing done done' with
  | nil => trivial
  | cons request rest ih =>
    refine ⟨fun hprunes put hput => hsub put hput (h.1 hprunes put hput), ih h.2 ?_⟩
    intro put hput hmem
    rcases List.mem_cons.1 hmem with rfl | hmem
    · exact List.mem_cons_self
    · exact List.mem_cons_of_mem _ (hsub put hput hmem)

theorem prunesLast_of_done (h : ∀ put ∈ puts, put ∈ done) : PrunesLast puts done queue := by
  induction queue generalizing done with
  | nil => trivial
  | cons request rest ih => exact ⟨fun _ => h, ih fun put hput => List.mem_cons_of_mem _ (h put hput)⟩

theorem prunesLast_append {a b : List ControlRequest} :
    PrunesLast puts done (a ++ b) ↔ PrunesLast puts done a ∧ PrunesLast puts (a.reverse ++ done) b := by
  induction a generalizing done with
  | nil => simp [PrunesLast]
  | cons request rest ih =>
    rw [List.cons_append, PrunesLast, PrunesLast, ih, List.reverse_cons, List.append_assoc, and_assoc]
    rfl

theorem PrunesLast.mem (h : PrunesLast puts done queue) {request : ControlRequest} (hmem : request ∈ queue)
    (hprunes : request.prunes = true) : ∀ put ∈ puts, put ∈ done ∨ put ∈ queue := by
  induction queue generalizing done with
  | nil => cases hmem
  | cons first rest ih =>
    intro put hput
    rcases List.mem_cons.1 hmem with rfl | hmem
    · exact .inl (h.1 hprunes put hput)
    · rcases ih h.2 hmem put hput with hdone | hrest
      · rcases List.mem_cons.1 hdone with rfl | hdone
        · exact .inr List.mem_cons_self
        · exact .inl hdone
      · exact .inr (List.mem_cons_of_mem _ hrest)

theorem PrunesLast.tail {request : ControlRequest} {rest : List ControlRequest}
    (h : PrunesLast puts done (request :: rest)) (hfirst : request ∈ puts → request ∈ done) :
    PrunesLast puts done rest := by
  refine h.2.mono ?_
  intro put hput hmem
  rcases List.mem_cons.1 hmem with rfl | hmem
  · exact hfirst hput
  · exact hmem

end Queues

/-! ## The requests of a replace -/

section Requests

variable {v5 : String → ℕ → String} {base : String} {now : ℕ → ℕ} {reconcile : Bool} {existing : List Port}
  {body : List ImposterConfig} {ops : List ControlOp}

def putsOf (requests : List ControlRequest) : List ControlRequest := requests.filter (·.upserts)

theorem prunesLast_mintAll (hops : replaceOps reconcile existing body = .ok ops) (hne : body ≠ []) :
    PrunesLast (putsOf (mintAll v5 base now ops)) [] (mintAll v5 base now ops) := by
  obtain ⟨-, heq⟩ := replaceOps_ok hops hne
  have hsplit : ∃ a b, mintAll v5 base now ops = a ++ b ∧ (∀ request ∈ a, request.prunes = false) ∧
      ∀ request ∈ b, request.upserts = false := by
    unfold mintAll
    rw [heq, List.mapIdx_append]
    refine ⟨_, _, rfl, ?_, ?_⟩
    · intro request hmem
      obtain ⟨i, hi, rfl⟩ := List.mem_mapIdx.1 hmem
      simp [ControlRequest.prunes, mintRequest]
    · intro request hmem
      obtain ⟨i, hi, rfl⟩ := List.mem_mapIdx.1 hmem
      simp [ControlRequest.upserts, mintRequest]
  obtain ⟨a, b, hab, ha, hb⟩ := hsplit
  rw [hab]
  refine prunesLast_append.2 ⟨?_, prunesLast_of_done ?_⟩
  · -- no delete is among the first
    have hnone : ∀ l done, (∀ request ∈ l, ControlRequest.prunes request = false) →
        PrunesLast (putsOf (a ++ b)) done l := by
      intro l
      induction l with
      | nil => intro _ _; trivial
      | cons request rest ih =>
        intro done hl
        refine ⟨fun hprunes => ?_, ih _ fun r hr => hl r (List.mem_cons_of_mem _ hr)⟩
        rw [hl request List.mem_cons_self] at hprunes
        cases hprunes
    exact hnone a [] ha
  · intro put hput
    obtain ⟨hmem, hupserts⟩ := List.mem_filter.1 hput
    rcases List.mem_append.1 hmem with hmem | hmem
    · simpa using hmem
    · rw [hb put hmem] at hupserts
      cases hupserts

end Requests

/-! ## The invariant -/

/-- What a task of the front holds, in the order it will submit it. -/
def FrontTask.queue : FrontTask → List ControlRequest
  | .idle => []
  | .parking _ requests => requests
  | .submitting loop => loop.queue

def FrontTask.unparked : FrontTask → List ControlRequest
  | .parking left _ => left
  | _ => []

def ReplaceNode.drainQueue (n : ReplaceNode) : List ControlRequest := n.drain.elim [] Submitter.queue

def ReplaceNode.parkedRequests (n : ReplaceNode) : List ControlRequest := n.parked.toList.map Prod.snd

/-- The condition on a sweep. It reads the puts that are not committed before any delete; and
where it goes on after an error, that was not of such a put. -/
def ReplaceNode.inOrder (puts : List ControlRequest) (n : ReplaceNode) : ReplaceMove → Bool
  | .sweep => PrunesLast puts n.log n.parkedRequests
  | .drainAnswer .tooLarge _ | .drainAnswer .error _ =>
    n.drainQueue.head?.all fun request => request ∉ puts ∨ request ∈ n.log
  | _ => true

/-- What every moment of a run keeps: every delete that is in the log, under way or queued is
behind the puts; and there are no requests but those of the replace. -/
structure ReplaceOk (requests : List ControlRequest) (n : ReplaceNode) : Prop where
  log : PrunesLast (putsOf requests) [] n.log
  inflight : ∀ request ∈ n.inflight, request.prunes = true → ∀ put ∈ putsOf requests, put ∈ n.log
  front : PrunesLast (putsOf requests) n.log n.front.queue
  drain : PrunesLast (putsOf requests) n.log n.drainQueue
  ownLog : ∀ request ∈ n.log, request ∈ requests
  ownInflight : ∀ request ∈ n.inflight, request ∈ requests
  ownFront : ∀ request ∈ n.front.queue, request ∈ requests
  ownUnparked : ∀ request ∈ n.front.unparked, request ∈ requests
  ownDrain : ∀ request ∈ n.drainQueue, request ∈ requests
  ownParked : ∀ (k : String) request, n.parked[k]? = some request → request ∈ requests

namespace ReplaceOk

variable {requests : List ControlRequest} {n : ReplaceNode}

theorem start (h : PrunesLast (putsOf requests) [] requests) : ReplaceOk requests (.start requests) where
  log := trivial
  inflight := fun _ hmem => nomatch hmem
  front := h
  drain := trivial
  ownLog := fun _ hmem => nomatch hmem
  ownInflight := fun _ hmem => nomatch hmem
  ownFront := fun _ hmem => hmem
  ownUnparked := fun _ hmem => hmem
  ownDrain := fun _ hmem => nomatch hmem
  ownParked := fun k request hrow => by rw [ReplaceNode.start, get_empty] at hrow; cases hrow

theorem unpark (h : ReplaceOk requests n) (request : ControlRequest) (unparks : Bool) :
    ReplaceOk requests (n.unpark request unparks) := by
  unfold ReplaceNode.unpark
  split
  · refine { h with ownParked := ?_ }
    intro k request' hrow
    rw [get_erase] at hrow
    split at hrow
    · cases hrow
    · exact h.ownParked k request' hrow
  · exact h

theorem propose (h : ReplaceOk requests n) {request : ControlRequest} (reaches : Bool) (hown : request ∈ requests)
    (hputs : request.prunes = true → ∀ put ∈ putsOf requests, put ∈ n.log) :
    ReplaceOk requests (n.propose request reaches) := by
  unfold ReplaceNode.propose
  split
  · refine { h with inflight := ?_, ownInflight := ?_ }
    · intro request' hmem
      rcases List.mem_append.1 hmem with hmem | hmem
      · exact h.inflight request' hmem
      · cases List.mem_singleton.1 hmem; exact hputs
    · intro request' hmem
      rcases List.mem_append.1 hmem with hmem | hmem
      · exact h.ownInflight request' hmem
      · cases List.mem_singleton.1 hmem; exact hown
  · exact h

theorem setFront (h : ReplaceOk requests n) {front : FrontTask} (hqueue : PrunesLast (putsOf requests) n.log front.queue)
    (hown : ∀ request ∈ front.queue, request ∈ requests) (hunparked : ∀ request ∈ front.unparked, request ∈ requests) :
    ReplaceOk requests { n with front := front } :=
  { h with front := hqueue, ownFront := hown, ownUnparked := hunparked }

theorem setDrain (h : ReplaceOk requests n) {drain : Option Submitter}
    (hqueue : PrunesLast (putsOf requests) n.log (drain.elim [] Submitter.queue))
    (hown : ∀ request ∈ drain.elim [] Submitter.queue, request ∈ requests) :
    ReplaceOk requests { n with drain := drain } :=
  { h with drain := hqueue, ownDrain := hown }

theorem stopFront (h : ReplaceOk requests n) : ReplaceOk requests { n with front := .idle } :=
  h.setFront trivial (fun _ hmem => nomatch hmem) fun _ hmem => nomatch hmem

theorem commit (h : ReplaceOk requests n) {i : ℕ} {request : ControlRequest} (hi : n.inflight[i]? = some request) :
    ReplaceOk requests { n with log := n.log ++ [request], inflight := n.inflight.eraseIdx i } := by
  have hmem : request ∈ n.inflight := List.mem_of_getElem? hi
  have hlonger : ∀ put ∈ putsOf requests, put ∈ n.log → put ∈ n.log ++ [request] :=
    fun put _ hput => List.mem_append_left _ hput
  refine { h with
    log := ?_, inflight := ?_, front := h.front.mono hlonger, drain := h.drain.mono hlonger, ownLog := ?_, ownInflight := ?_ }
  · refine prunesLast_append.2 ⟨h.log, fun hprunes put hput => ?_, trivial⟩
    simpa using h.inflight request hmem hprunes put hput
  · intro r hr hprunes put hput
    exact hlonger put hput (h.inflight r (List.mem_of_mem_eraseIdx hr) hprunes put hput)
  · intro r hr
    rcases List.mem_append.1 hr with hr | hr
    · exact h.ownLog r hr
    · cases List.mem_singleton.1 hr; exact h.ownInflight request hmem
  · exact fun r hr => h.ownInflight r (List.mem_of_mem_eraseIdx hr)

theorem frontAnswered (h : ReplaceOk requests n) {request : ControlRequest} {rest : List ControlRequest}
    (hfront : n.front = .submitting ⟨request :: rest, true⟩) (async unparks : Bool) (a : SubmitAnswer) :
    ReplaceOk requests (n.frontAnswered async request rest unparks a) := by
  have hqueue := h.front
  have hown := h.ownFront
  rw [hfront] at hqueue hown
  unfold ReplaceNode.frontAnswered
  cases a with
  | done failed =>
    dsimp only
    split
    · rename_i hlog
      have hlog' : (n.unpark request unparks).log = n.log := by unfold ReplaceNode.unpark; split <;> rfl
      split
      · exact (h.unpark request unparks).stopFront
      · refine (h.unpark request unparks).setFront ?_ (fun r hr => hown r (List.mem_cons_of_mem _ hr))
          fun _ hmem => nomatch hmem
        rw [hlog']
        exact hqueue.tail fun _ => hlog
    · exact h
  | timedOut =>
    dsimp only
    split
    · exact h
    · exact h.stopFront
  | unavailable => exact h.stopFront
  | tooLarge => exact h.stopFront
  | error => exact h.stopFront

theorem drainAnswered (h : ReplaceOk requests n) {request : ControlRequest} {rest : List ControlRequest}
    (hdrain : n.drain = some ⟨request :: rest, true⟩) (unparks : Bool) (a : SubmitAnswer)
    (horder : n.inOrder (putsOf requests) (.drainAnswer a unparks) = true) :
    ReplaceOk requests (n.drainAnswered request rest unparks a) := by
  have hheld : n.drainQueue = request :: rest := by rw [ReplaceNode.drainQueue, hdrain]; rfl
  have hqueue := h.drain
  have hown := h.ownDrain
  rw [hheld] at hqueue hown
  have hlog' : (n.unpark request unparks).log = n.log := by unfold ReplaceNode.unpark; split <;> rfl
  have hrest : ∀ r ∈ rest, r ∈ requests := fun r hr => hown r (List.mem_cons_of_mem _ hr)
  have hskip : (n.drainQueue.head?.all fun r => r ∉ putsOf requests ∨ r ∈ n.log) = true →
      request ∈ putsOf requests → request ∈ n.log := by
    intro hall hput
    rw [hheld, List.head?_cons, Option.all_some, decide_eq_true_eq] at hall
    exact hall.resolve_left (not_not.2 hput)
  unfold ReplaceNode.drainAnswered
  cases a with
  | done failed =>
    dsimp only
    split
    · rename_i hlog
      refine (h.unpark request unparks).setDrain ?_ hrest
      rw [hlog']
      exact hqueue.tail fun _ => hlog
    · exact h
  | timedOut => exact h
  | unavailable => exact h.setDrain trivial fun _ hmem => nomatch hmem
  | tooLarge =>
    refine (h.unpark request unparks).setDrain ?_ hrest
    rw [hlog']
    exact hqueue.tail (hskip horder)
  | error => exact h.setDrain (hqueue.tail (hskip horder)) hrest

end ReplaceOk

/-- **The invariant is kept by every step in which a sweep is in order.** -/
theorem replaceOk_step {requests : List ControlRequest} {async : Bool} {n : ReplaceNode} (h : ReplaceOk requests n)
    {move : ReplaceMove} (horder : n.inOrder (putsOf requests) move = true) : ReplaceOk requests (n.step async move) := by
  cases move with
  | park =>
    simp only [ReplaceNode.step]
    split
    · rename_i request left rs hfront
      have hunparked := h.ownUnparked
      have hqueue := h.front
      have hown := h.ownFront
      rw [hfront] at hunparked hqueue hown
      have hleft : ReplaceOk requests { n with front := .parking left rs } :=
        h.setFront hqueue hown fun r hr => hunparked r (List.mem_cons_of_mem _ hr)
      refine { hleft with ownParked := ?_ }
      intro k request' hrow
      rw [get_insert] at hrow
      split at hrow
      · cases hrow; exact hunparked request List.mem_cons_self
      · exact h.ownParked k request' hrow
    · rename_i rs hfront
      have hqueue := h.front
      have hown := h.ownFront
      rw [hfront] at hqueue hown
      exact h.setFront hqueue hown fun _ hmem => nomatch hmem
    · exact h
  | parkFails =>
    simp only [ReplaceNode.step]
    split
    · exact h.stopFront
    · exact h
  | submit reaches =>
    simp only [ReplaceNode.step]
    split
    · rename_i request rest hfront
      have hqueue := h.front
      have hown := h.ownFront
      rw [hfront] at hqueue hown
      have hlog : (n.propose request reaches).log = n.log := by unfold ReplaceNode.propose; split <;> rfl
      -- a delete at the head has all puts in the log
      refine (h.propose reaches (hown request List.mem_cons_self) hqueue.1).setFront ?_ hown fun _ hmem => nomatch hmem
      rw [hlog]
      exact hqueue
    · exact h
  | answer a unparks =>
    simp only [ReplaceNode.step]
    split
    · exact h.frontAnswered ‹_› async unparks a
    · exact h
  | sweep =>
    simp only [ReplaceNode.step]
    have hparked : ∀ request ∈ n.parkedRequests, request ∈ requests := by
      intro request hmem
      obtain ⟨⟨k, r⟩, hrow, rfl⟩ := List.mem_map.1 hmem
      exact h.ownParked k r (mem_toList.1 hrow)
    have hrows : PrunesLast (putsOf requests) n.log n.parkedRequests := of_decide_eq_true horder
    split
    · exact h.setDrain hrows hparked
    · exact h.setDrain hrows hparked
    · exact h
  | drainSubmit reaches =>
    simp only [ReplaceNode.step]
    split
    · rename_i request rest hdrain
      have hheld : n.drainQueue = request :: rest := by rw [ReplaceNode.drainQueue, hdrain]; rfl
      have hqueue := h.drain
      have hown := h.ownDrain
      rw [hheld] at hqueue hown
      have hlog : (n.propose request reaches).log = n.log := by unfold ReplaceNode.propose; split <;> rfl
      refine (h.propose reaches (hown request List.mem_cons_self) hqueue.1).setDrain ?_ hown
      rw [hlog]
      exact hqueue
    · exact h
  | drainAnswer a unparks =>
    simp only [ReplaceNode.step]
    split
    · exact h.drainAnswered ‹_› unparks a horder
    · exact h
  | commit i =>
    simp only [ReplaceNode.step]
    split
    · exact h.commit ‹_›
    · exact h
  | crash =>
    exact h.stopFront.setDrain trivial fun _ hmem => nomatch hmem

/-! ## The log of a replace -/

/-- A put that finds no row under its op id leaves its port configured, if no request deletes
the port. -/
theorem run_put {request : ControlRequest} {p : Port} {config : ImposterConfig}
    (hsets : request.op.sets? = some (p, some config)) (es : List Event) : ∀ s : State,
    (∀ r ∈ requestsOf es, Replaces U r) → (∀ r ∈ requestsOf es, r.opId = request.opId → r = request) →
    (∀ r ∈ requestsOf es, r.op ≠ .deleteImposter p) → s.dedup[request.opId]? = none → request ∈ requestsOf es →
    (imposters U (es.foldl (State.step U) s) p).isSome := by
  induction es with
  | nil => intro s _ _ _ _ hmem; cases hmem
  | cons ev es ih =>
    intro s hreq hids hkept hnone hmem
    have hsub : ∀ r ∈ requestsOf es, r ∈ requestsOf (ev :: es) := fun r hr => mem_requestsOf_cons.2 (.inr hr)
    have hreq' := fun r hr => hreq r (hsub r hr)
    have hkept' := fun r hr => hkept r (hsub r hr)
    by_cases hev : ev.request? = some request
    · refine run_configured es _ hreq' hkept' ?_
      rw [step_fresh hev (hreq request hmem) hsets hnone, Function.update_self]
      rfl
    · have hmem' : request ∈ requestsOf es := (mem_requestsOf_cons.1 hmem).resolve_left hev
      refine ih _ hreq' (fun r hr => hids r (hsub r hr)) hkept' (step_none hnone ?_) hmem'
      intro r hr hop
      rw [hids r (mem_requestsOf_cons.2 (.inl hr)) hop] at hr
      exact hev hr

/-- **A replace deletes nothing before it has put everything, where every sweep is in order.**
Take any run of `run_mutation`'s loop, of its submits' failures, of sweeps and of crashes, in
which each sweep reads the puts that are not committed before any delete, and goes on past no
such put that failed. Every prefix of the log that has one of the request's deletes has all of
its puts. So where no request but these is applied, a fleet in which a configured port is
missing has every port of the body. -/
theorem puts_before_deletes (U : Upstream) (v5 : String → ℕ → String) (base : String) (now : ℕ → ℕ)
    (reconcile : Bool) (existing : List Port) (body : List ImposterConfig) (hne : body ≠ []) (ops : List ControlOp)
    (hops : replaceOps reconcile existing body = .ok ops) (async : Bool) (moves : List ReplaceMove)
    (horder : ∀ k move, moves[k]? = some move →
      (ReplaceNode.runAt async (.start (mintAll v5 base now ops)) moves k).inOrder
        (putsOf (mintAll v5 base now ops)) move = true)
    (k : ℕ) (hk : k ≤ moves.length) (n : ℕ) :
    let requests := mintAll v5 base now ops
    let log := (ReplaceNode.runAt async (.start requests) moves k).log.take n
    ((∃ delete ∈ log, delete.prunes = true) → ∀ put ∈ requests, put.upserts = true → put ∈ log) ∧
      ∀ (s : State) (es : List Event), StateOk U s → requestsOf es = log →
        (∀ config ∈ body, validate U (.putImposter config none) = .ok ()) →
        (requests.map (·.opId)).Nodup → (∀ request ∈ requests, s.dedup[request.opId]? = none) →
        (∃ p : Port, s.tables.configs[p]?.isSome ∧ (es.foldl (State.step U) s).tables.configs[p]? = none) →
        ∀ config ∈ body, ∀ p, config.port = some p → (es.foldl (State.step U) s).tables.configs[p]?.isSome := by
  intro requests log
  have hrun : ReplaceOk requests (ReplaceNode.runAt async (.start requests) moves k) := by
    refine Trace.stateAt_stretch (P := ReplaceOk requests) (Nat.zero_le k) hk ?_ ?_
    · rw [Trace.stateAt_zero]; exact .start (prunesLast_mintAll hops hne)
    · intro m hm _ _ hok
      exact replaceOk_step hok (horder m moves[m] (List.getElem?_eq_getElem (by omega)))
  have hlog : PrunesLast (putsOf requests) [] log := by
    have h := hrun.log
    rw [← List.take_append_drop n (ReplaceNode.runAt async (.start requests) moves k).log] at h
    exact (prunesLast_append.1 h).1
  have hfirst : (∃ delete ∈ log, delete.prunes = true) → ∀ put ∈ requests, put.upserts = true → put ∈ log := by
    rintro ⟨delete, hmem, hprunes⟩ put hput hupserts
    exact (hlog.mem hmem hprunes put (List.mem_filter.2 ⟨hput, hupserts⟩)).resolve_left (fun h => nomatch h)
  refine ⟨hfirst, ?_⟩
  intro s es hok hes hvalid hnodup hfresh ⟨q, hq, hgone⟩ config hconfig p hp
  have hown : ∀ request ∈ requestsOf es, request ∈ requests := by
    intro request hmem
    rw [hes] at hmem
    exact hrun.ownLog request (List.mem_of_mem_take hmem)
  have hreq : ∀ request ∈ requestsOf es, Replaces U request :=
    fun request hmem => replaces_mintAll hops hne hvalid (hown request hmem)
  have hafter : StateOk U (es.foldl (State.step U) s) := stateOk_foldl hok es
  -- a port that is gone was deleted
  obtain ⟨delete, hdelete, hdop⟩ : ∃ delete ∈ requestsOf es, delete.op = .deleteImposter q := by
    by_contra hnone
    have hkept := run_configured es s hreq (fun r hr hop => hnone ⟨r, hr, hop⟩) (by rw [imposters_isSome hok]; exact hq)
    rw [imposters_isSome hafter, hgone] at hkept
    cases hkept
  have hputs := hfirst ⟨delete, by rw [← hes]; exact hdelete, by simp [ControlRequest.prunes, hdop]⟩
  -- so the body's put is in the log, and is applied
  obtain ⟨i, hi⟩ := List.mem_iff_getElem?.1 ((mem_replaceOps hops hne).2 (.inl ⟨config, hconfig, rfl⟩))
  have hput : mintRequest (opIdFor v5 base i ops.length) (.putImposter config (restartOf reconcile)) .unconditional (now i) ∈ requests :=
    mem_mintAll.2 ⟨i, _, hi, rfl⟩
  have hsets : (ControlOp.putImposter config (restartOf reconcile)).sets? = some (p, some config) := by simp [ControlOp.sets?, hp]
  rw [← imposters_isSome hafter]
  refine run_put hsets es s hreq ?_ ?_ (hfresh _ hput) (by rw [hes]; exact hputs _ hput rfl)
  · intro r hr hop
    exact List.inj_on_of_nodup_map hnodup (hown r hr) hput hop
  · intro r hr hop
    have hmem := op_mem_of_mem_mintAll (hown r hr)
    rw [hop] at hmem
    rcases (mem_replaceOps hops hne).1 hmem with ⟨_, _, h⟩ | ⟨_, _, hother, h⟩
    · cases h
    · cases h
      exact hother (List.mem_map.2 ⟨config, hconfig, hp⟩)

def sortedKey : String := "00000000-0000-4000-8000-000000000002"

def crossedKey : String := "00000000-0000-4000-8000-000000000007"

def keyedIds (base : String) (index : ℕ) : String :=
  if base = sortedKey then
    if index = 0 then "56fc8b49-0826-5eda-ab45-ca34535e588a" else "5de10cad-a6a2-5ccf-b5e8-1af5910fba9c"
  else if index = 0 then "3025b4b4-e550-5693-8ef4-c9cb89627b80" else "25b43045-3d3e-58f1-8f3b-1efe2e3081c9"

def replaceOne : List ControlOp := [.putImposter (httpImposter []) (some .imposter), .deleteImposter 4546]

/-- The node that has accepted a put of port 4545 and a delete of port 4546 under a key. -/
def replaceOneAt (key : String) (moves : List ReplaceMove) (k : ℕ) : ReplaceNode :=
  .runAt false (.start (mintAll keyedIds key (fun _ => 0) replaceOne)) moves k

/-- The node crashes when the put is submitted. A sweep submits both. -/
def drainedInOrder : List ReplaceMove :=
  [.park, .park, .park, .submit true, .crash, .sweep, .drainSubmit true, .commit 0, .drainAnswer (.done false) true,
    .drainSubmit true, .commit 1, .drainAnswer (.done false) true]

/-- Where the put's id sorts first, it is committed first. -/
theorem drainedInOrder_puts_first :
    (replaceOneAt sortedKey drainedInOrder 12).log = mintAll keyedIds sortedKey (fun _ => 0) replaceOne ∧
      ∀ put ∈ mintAll keyedIds sortedKey (fun _ => 0) replaceOne, put.upserts = true →
        put ∈ (replaceOneAt sortedKey drainedInOrder 12).log.take 2 := by
  have hlog : (replaceOneAt sortedKey drainedInOrder 12).log = mintAll keyedIds sortedKey (fun _ => 0) replaceOne := by
    decide +kernel
  have horder : ∀ k < 12, (drainedInOrder[k]?.all fun move => (replaceOneAt sortedKey drainedInOrder k).inOrder
      (putsOf (mintAll keyedIds sortedKey (fun _ => 0) replaceOne)) move) = true := by
    decide +kernel
  have hdelete : ∃ delete ∈ (replaceOneAt sortedKey drainedInOrder 12).log.take 2, delete.prunes = true := by
    rw [hlog]
    exact ⟨_, List.mem_of_getElem? (i := 1) rfl, rfl⟩
  refine ⟨hlog, ?_⟩
  refine (puts_before_deletes jsonUpstream keyedIds sortedKey (fun _ => 0) false [4546] [httpImposter []] (by decide) replaceOne
    (by decide) false drainedInOrder (fun k move hmove => ?_) 12 (by decide) 2).1 hdelete
  have h := horder k (List.getElem?_eq_some_iff.1 hmove).1
  rw [hmove, Option.all_some] at h
  exact h

/-- The node crashes when both requests are parked. A sweep submits the first row. -/
def drainedCrossed : List ReplaceMove := [.park, .park, .crash, .sweep, .drainSubmit true, .commit 0]

/-- Port 4546 is put, and then what is committed of the replace. -/
def crossedLog : List Event :=
  .entry false (requestAt 1 { opId := "op-1", op := .putImposter { httpImposter [] with port := some 4546 } none }) ::
    (replaceOneAt crossedKey drainedCrossed 6).log.map fun request => .entry false (requestAt 2 request)

/-- **Where the delete's id sorts first, it is committed first**; the old port is gone, and the
new one is not there. -/
theorem drainedCrossed_deletes_first :
    (replaceOneAt crossedKey drainedCrossed 6).log =
        [{ opId := "25b43045-3d3e-58f1-8f3b-1efe2e3081c9", op := .deleteImposter 4546 }] ∧
      existingPorts (sAt jsonUpstream {} crossedLog 1).tables = [4546] ∧
      existingPorts (sAt jsonUpstream {} crossedLog 2).tables = [] := by
  refine ⟨by decide +kernel, by decide +kernel, by decide +kernel⟩

end RiftCluster
