import RiftCluster.Model.Wire

/-!
# What an operation can do to the tables

* `mutateTables_refused`: an operation that refuses has written nothing, and so a
  request answered `Failed` is a no-op (`failed_entry_is_noop`).
* `mutateTables_degraded`: the node's own failures pick the drive, never the
  tables or the outcome, and so no part of the durable state
  (`applyOne_degraded`).
-/

namespace RiftCluster

open KV

variable {U : Upstream} {t : Tables}

/-! ## Markers of a port -/

theorem compare_empty_ne_lt (b : String) : compare b "" ≠ .lt := by
  intro h
  have hb : b < "" := compareOfLessAndEq_eq_lt.1 h
  rw [String.lt_iff_toList_lt] at hb
  simp at hb

theorem get_forget (port : Port) (hashes : List String) (key : Port × String) :
    (t.forget port hashes).proxyRecorded[key]? =
      if key.1 = port ∧ key.2 ∈ hashes then none else t.proxyRecorded[key]? := by
  obtain ⟨p, h⟩ := key
  simp only [Tables.forget]
  generalize t.proxyRecorded = rows
  induction hashes generalizing rows with
  | nil => simp
  | cons x xs ih =>
    rw [List.foldl_cons, ih, get_erase]
    by_cases hp : p = port
    · by_cases hx : h = x
      · simp [hp, hx]
      · simp [hp, hx, Ne.symm hx]
    · simp [hp, Ne.symm hp]

theorem get_forgetPort (port : Port) (key : Port × String) :
    (t.forgetPort port).proxyRecorded[key]? = if key.1 = port then none else t.proxyRecorded[key]? := by
  simp only [Tables.forgetPort, get_retain]
  by_cases hp : key.1 = port
  · cases t.proxyRecorded[key]? <;> simp [hp]
  · cases t.proxyRecorded[key]? <;> simp [hp]

theorem hasMarkers_iff (port : Port) :
    hasMarkers t port = true ↔ ∃ (h v : String), t.proxyRecorded[(port, h)]? = some v :=
  rangeFrom_head compare_empty_ne_lt

/-! ## Refusals -/

def RefusalKeeps (t : Tables) (o : Outcome) : Prop := ∀ reason, o.2 = .error reason → o.1 = t

theorem refusalKeeps_error (reason : String) : RefusalKeeps t (t, .error reason) := fun _ _ => rfl

theorem refusalKeeps_ok (t' : Tables) (actions : List EngineAction) : RefusalKeeps t (t', .ok actions) := by
  intro reason h; cases h

/-- **An operation that refuses has written nothing.** -/
theorem mutateTables_refused (op : ControlOp) (index : ℕ) (degraded : Bool) :
    RefusalKeeps t (mutateTables U t op index degraded) := by
  cases op with
  | putImposter config restart =>
    simp only [mutateTables, putImposter]
    split
    · exact refusalKeeps_error _
    · split <;> exact refusalKeeps_ok _ _
  | patchStubs port edit =>
    simp only [mutateTables, patchStubs]
    split
    · exact refusalKeeps_error _
    · split
      · exact refusalKeeps_error _
      · exact refusalKeeps_ok _ _
  | deleteImposter port => simp only [mutateTables, deleteImposter]; split <;> exact refusalKeeps_ok _ _
  | deleteAll => exact refusalKeeps_ok _ _
  | setEnabled port enabled =>
    simp only [mutateTables, setEnabled]
    split
    · exact refusalKeeps_error _
    · exact refusalKeeps_ok _ _
  | putRoutes table => exact refusalKeeps_ok _ _
  | deleteRoute id => exact refusalKeeps_ok _ _
  | sessionKeyPut key => exact refusalKeeps_ok _ _
  | fleetNamePut name => exact refusalKeeps_ok _ _
  | proxyRecorded port sigHash resp stub =>
    simp only [mutateTables, proxyRecorded]
    split
    · exact refusalKeeps_ok _ _
    · split
      · exact refusalKeeps_error _
      · split
        · exact refusalKeeps_ok _ _
        · split
          · exact refusalKeeps_error _
          · split <;> exact refusalKeeps_ok _ _
  | proxyRecordedClear port =>
    -- the one operation that writes before it looks at the row: it never refuses
    simp only [mutateTables, proxyRecordedClear]
    split
    · exact refusalKeeps_ok _ _
    · split <;> exact refusalKeeps_ok _ _

theorem runOp_refused (request : ControlRequest) (index : ℕ) (degraded : Bool) :
    RefusalKeeps t (runOp U t request index degraded) := by
  unfold runOp
  split
  · exact refusalKeeps_error _
  · split
    · exact refusalKeeps_error _
    · exact mutateTables_refused _ _ _

/-- **A refused operation is a no-op.** A request that is no replay and is answered
`Failed` leaves every table as it was and drives nothing; the durable state moves
only by the recorded outcome, the applied id and the clock. -/
theorem failed_entry_is_noop (s : State) (degraded : Bool) (e : Entry) (request : ControlRequest) (reason : String)
    (hp : e.payload = .normal request) (hr : replayOf U (s.receive e) request = none)
    (hf : (applyOne U degraded s e).reply.outcome = .failed reason) :
    (applyOne U degraded s e).state.tables = s.tables ∧ (applyOne U degraded s e).actions = [] ∧
      (applyOne U degraded s e).state.applied.lastMembership = s.applied.lastMembership ∧
      ∀ k : String, k ≠ request.opId → (applyOne U degraded s e).state.dedup[k]? = s.dedup[k]? := by
  have heq : applyOne U degraded s e = commitOp U (s.receive e) request e.logId.index degraded := by
    simp only [applyOne, hp, hr]
  rw [heq] at hf ⊢
  cases ho : (runOp U (s.receive e).tables request e.logId.index degraded).2 with
  | ok actions => simp [commitOp, ho, responseOf, ControlResponse.ofApplied] at hf
  | error r =>
    refine ⟨runOp_refused _ _ _ _ ho, ?_, ?_, fun k hk => ?_⟩
    · simp only [commitOp, ho, actionsOf]
    · simp only [commitOp, State.receive, hp]
    · simp only [commitOp, get_insert, if_neg hk.symm]
      rfl

def strayPatch : ControlRequest := { opId := "op-1", op := .patchStubs 4545 [.deleteById "a"] }

theorem strayPatch_is_noop :
    (applyOne jsonUpstream false {} (requestAt 1 strayPatch)).state.tables = ({} : Tables) ∧
      (applyOne jsonUpstream false {} (requestAt 1 strayPatch)).actions = [] ∧
      (applyOne jsonUpstream false {} (requestAt 1 strayPatch)).state.applied.lastMembership = {} ∧
      ∀ k : String, k ≠ "op-1" →
        (applyOne jsonUpstream false {} (requestAt 1 strayPatch)).state.dedup[k]? = (∅ : Table String String)[k]? :=
  failed_entry_is_noop (U := jsonUpstream) {} false (requestAt 1 strayPatch) strayPatch "no imposter on port 4545" rfl
    (by decide +kernel) (by decide +kernel)

/-! ## The node's own failures -/

/-- **`degraded` picks the drive only**: the tables and the response do not depend on it. -/
theorem mutateTables_degraded (op : ControlOp) (index : ℕ) (d d' : Bool) :
    (mutateTables U t op index d).1 = (mutateTables U t op index d').1 ∧
      responseOf index (mutateTables U t op index d).2 = responseOf index (mutateTables U t op index d').2 := by
  cases op with
  | putImposter config restart =>
    simp only [mutateTables, putImposter]
    cases config.port with
    | none => exact ⟨rfl, rfl⟩
    | some port => cases d <;> cases d' <;> exact ⟨rfl, rfl⟩
  | deleteImposter port => cases d <;> cases d' <;> exact ⟨rfl, rfl⟩
  | proxyRecordedClear port =>
    simp only [mutateTables, proxyRecordedClear]
    split
    · exact ⟨rfl, rfl⟩
    · generalize U.admits _ = admitted
      cases admitted <;> cases d <;> cases d' <;> exact ⟨rfl, rfl⟩
  | _ => exact ⟨rfl, rfl⟩

theorem runOp_degraded (request : ControlRequest) (index : ℕ) (d d' : Bool) :
    (runOp U t request index d).1 = (runOp U t request index d').1 ∧
      responseOf index (runOp U t request index d).2 = responseOf index (runOp U t request index d').2 := by
  unfold runOp
  split
  · exact ⟨rfl, rfl⟩
  · split
    · exact ⟨rfl, rfl⟩
    · exact mutateTables_degraded _ _ _ _

/-- **A node's own failures move no part of the durable state.** -/
theorem applyOne_degraded (s : State) (e : Entry) (d d' : Bool) :
    (applyOne U d s e).reply = (applyOne U d' s e).reply ∧ (applyOne U d s e).state = (applyOne U d' s e).state := by
  have hc : ∀ request, (commitOp U (s.receive e) request e.logId.index d).reply =
        (commitOp U (s.receive e) request e.logId.index d').reply ∧
      (commitOp U (s.receive e) request e.logId.index d).state =
        (commitOp U (s.receive e) request e.logId.index d').state := by
    intro request
    obtain ⟨ht, hresp⟩ := runOp_degraded (U := U) (t := (s.receive e).tables) request e.logId.index d d'
    simp only [commitOp, ht, hresp, and_self]
  unfold applyOne
  dsimp only
  split
  · exact ⟨rfl, rfl⟩
  · exact ⟨rfl, rfl⟩
  · split
    · exact ⟨rfl, rfl⟩
    · exact hc _

end RiftCluster
