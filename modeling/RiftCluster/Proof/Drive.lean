import RiftCluster.Model.Engine
import RiftCluster.Proof.Placement

/-!
# What engine calls and drives do

One fact per call, and from these one fact per drive. A call on a port changes
what that port serves and nothing else of the node (`OnlyServes`); a drive for one
port also changes that port's entry of the failure trackers, and never hides a
failure of another port (`OnPort`). A drive of the whole set settles each port of
the set (`Settles`), and its report names every port it failed on.
-/

namespace RiftCluster

open KV

variable {U : Upstream} {F : Calls} {n n' : Engine} {p : Port}

/-! ## Frames -/

/-- A recorded failure of a port; of port 0, the whole set's. -/
def Engine.Failing (n : Engine) (p : Port) : Prop := n.applyFailures[p]?.isSome = true

/-- Nothing but what `p` serves changed, as far as the trackers and the table of served
configs go. -/
structure OnlyServes (p : Port) (n n' : Engine) : Prop where
  served : ∀ q, q ≠ p → n'.served[q]? = n.served[q]?
  failures : n'.applyFailures = n.applyFailures
  resync : n'.needsResync = n.needsResync

theorem OnlyServes.refl : OnlyServes p n n := ⟨fun _ _ => rfl, rfl, rfl⟩

theorem OnlyServes.trans {m : Engine} (h : OnlyServes p n m) (h' : OnlyServes p m n') : OnlyServes p n n' :=
  ⟨fun q hq => (h'.served q hq).trans (h.served q hq), h'.failures.trans h.failures, h'.resync.trans h.resync⟩

/-- A drive for one port: the others serve what they served, and no failure of theirs,
nor the wish for a whole-set drive, is lost. -/
structure OnPort (p : Port) (n n' : Engine) : Prop where
  served : ∀ q, q ≠ p → n'.served[q]? = n.served[q]?
  failing : ∀ q, q ≠ p → n.Failing q → n'.Failing q
  resync : n.needsResync = true → n'.needsResync = true

theorem OnlyServes.onPort (h : OnlyServes p n n') : OnPort p n n' :=
  ⟨h.served, fun q _ hq => by rw [Engine.Failing, h.failures]; exact hq, fun hr => by rw [h.resync]; exact hr⟩

theorem OnPort.trans {m : Engine} (h : OnPort p n m) (h' : OnPort p m n') : OnPort p n n' :=
  ⟨fun q hq => (h'.served q hq).trans (h.served q hq), fun q hq hf => h'.failing q hq (h.failing q hq hf),
    fun hr => h'.resync (h.resync hr)⟩

@[simp] theorem serve_served (config : Option ImposterConfig) (q : Port) :
    (n.serve p config).served[q]? = if p = q then config else n.served[q]? := by
  cases config with
  | some c => exact get_insert _ _ _ _
  | none => exact get_erase _ _ _

theorem onlyServes_serve (config : Option ImposterConfig) : OnlyServes p n (n.serve p config) :=
  ⟨fun q hq => by rw [serve_served, if_neg (Ne.symm hq)], rfl, rfl⟩

theorem onlyServes_tick : OnlyServes p n n.tick := ⟨fun _ _ => rfl, rfl, rfl⟩

theorem failing_fail (e : ImposterError) : (n.fail p e).Failing p := by
  simp [Engine.Failing, Engine.fail]

theorem onPort_fail (e : ImposterError) : OnPort p n (n.fail p e) :=
  ⟨fun _ _ => rfl, fun q hq hf => by
    rw [Engine.Failing, Engine.fail, get_insert, if_neg (Ne.symm hq)]; exact hf, id⟩

/-! ## Calls on one imposter -/

/-- **A call on a port.** It touches nothing else, and if it succeeds it had its
documented effect on what the port served. -/
theorem call_spec {effect : ImposterConfig → Except String ImposterConfig} :
    OnlyServes p n (n.call F p effect).1 ∧
      ((n.call F p effect).2 = .ok () → ∃ config config', n.served[p]? = some config ∧
        effect config = .ok config' ∧ (n.call F p effect).1.served[p]? = some config') := by
  unfold Engine.call
  cases hs : n.served[p]? with
  | none => exact ⟨onlyServes_tick, by simp⟩
  | some config =>
    dsimp only
    cases ((F n.calls).verdict p).error with
    | some e => exact ⟨onlyServes_tick.trans (onlyServes_serve _), by simp⟩
    | none =>
      dsimp only
      cases he : effect config with
      | error e => exact ⟨onlyServes_tick, by simp⟩
      | ok config' =>
        dsimp only
        exact ⟨onlyServes_tick.trans (onlyServes_serve _), fun _ => ⟨config, config', rfl, he, by simp⟩⟩

theorem inOrder_spec {α : Type} {f : Engine → α → Engine × Except ImposterError Unit}
    {step : ImposterConfig → α → Except String ImposterConfig}
    (hf : ∀ n a, OnlyServes p n (f n a).1 ∧ ((f n a).2 = .ok () → ∀ config, n.served[p]? = some config →
      ∃ config', step config a = .ok config' ∧ (f n a).1.served[p]? = some config')) (as : List α) :
    ∀ n : Engine, OnlyServes p n (n.inOrder f as).1 ∧ ((n.inOrder f as).2 = .ok () →
      ∀ config, n.served[p]? = some config →
        ∃ config', as.foldlM step config = .ok config' ∧ (n.inOrder f as).1.served[p]? = some config') := by
  induction as with
  | nil => exact fun n => ⟨.refl, fun _ config h => ⟨config, rfl, h⟩⟩
  | cons a as ih =>
    intro n
    have hone := hf n a
    rw [Engine.inOrder]
    generalize f n a = r at hone ⊢
    obtain ⟨m, outcome⟩ := r
    cases outcome with
    | error e => exact ⟨hone.1, by simp⟩
    | ok u =>
      dsimp only at hone ⊢
      refine ⟨hone.1.trans (ih m).1, fun hok config hc => ?_⟩
      obtain ⟨config₁, h1, h2⟩ := hone.2 rfl config hc
      obtain ⟨config', h3, h4⟩ := (ih m).2 hok config₁ h2
      refine ⟨config', ?_, h4⟩
      rw [List.foldlM_cons, h1]
      exact h3

/-! ## The stubs of a space -/

theorem doomed_append (stubs : List Stub) (stub : Stub) (space : String) :
    doomed (stubs ++ [stub]) space =
      doomed stubs space ++ if stub.space == some space then [stubs.length] else [] := by
  unfold doomed
  rw [List.length_append, List.length_singleton, List.range_succ, List.filter_append]
  congr 1
  · refine List.filter_congr fun i hi => ?_
    rw [List.getElem?_append_left (List.mem_range.1 hi)]
  · simp [List.filter_cons]

theorem doomed_lt {stubs : List Stub} {space : String} {i : ℕ} (h : i ∈ doomed stubs space) : i < stubs.length :=
  List.mem_range.1 (List.mem_filter.1 h).1

theorem doomed_sorted (stubs : List Stub) (space : String) : (doomed stubs space).Pairwise (· < ·) :=
  List.pairwise_lt_range.sublist List.filter_sublist

theorem eraseIdx_append_fold {α : Type} (x : α) (is : List ℕ) : ∀ l : List α, is.Pairwise (· > ·) →
    (∀ i ∈ is, i < l.length) → is.foldl List.eraseIdx (l ++ [x]) = is.foldl List.eraseIdx l ++ [x] := by
  induction is with
  | nil => intro l _ _; rfl
  | cons i is ih =>
    intro l hs hlt
    rw [List.pairwise_cons] at hs
    have hi := hlt i List.mem_cons_self
    rw [List.foldl_cons, List.foldl_cons, List.eraseIdx_append_of_lt_length hi]
    refine ih _ hs.2 fun j hj => ?_
    have : j < i := hs.1 j hj
    rw [List.length_eraseIdx_of_lt hi]
    omega

/-- **Deleting a space's stubs one by one, from the last one, filters the list.** -/
theorem eraseIdx_doomed (stubs : List Stub) (space : String) :
    (doomed stubs space).reverse.foldl List.eraseIdx stubs = stubs.filter fun s => s.space != some space := by
  induction stubs using List.reverseRecOn with
  | nil => rfl
  | append_singleton stubs stub ih =>
    rw [doomed_append, List.filter_append]
    have hrest : (doomed stubs space).reverse.foldl List.eraseIdx (stubs ++ [stub]) =
        (doomed stubs space).reverse.foldl List.eraseIdx stubs ++ [stub] :=
      eraseIdx_append_fold stub _ stubs (List.pairwise_reverse.2 (doomed_sorted _ _))
        fun i hi => doomed_lt (List.mem_reverse.1 hi)
    by_cases hs : (stub.space == some space) = true
    · have hlast : (stubs ++ [stub]).eraseIdx stubs.length = stubs := by
        rw [List.eraseIdx_append_of_length_le le_rfl]; simp
      rw [if_pos hs, List.reverse_append, List.reverse_singleton, List.singleton_append, List.foldl_cons, hlast, ih]
      simp [beq_iff_eq.1 hs]
    · rw [if_neg hs, List.append_nil, hrest, ih]
      simp [bne, hs]

/-! ## Drives of stub edits -/

def editConfig (U : Upstream) (config : ImposterConfig) (step : StubEdit) : Except String ImposterConfig :=
  (applyStep U config.stubs step).map fun stubs => { config with stubs }

theorem foldlM_editConfig (edit : StubEditScript) : ∀ config : ImposterConfig,
    edit.foldlM (editConfig U) config = (applyEdit U config.stubs edit).map fun stubs => { config with stubs } := by
  induction edit with
  | nil => intro config; rfl
  | cons step edit ih =>
    intro config
    rw [List.foldlM_cons, applyEdit, List.foldlM_cons, editConfig]
    cases applyStep U config.stubs step with
    | error e => rfl
    | ok stubs => exact ih { config with stubs }

theorem stubStep_spec (step : StubEdit) :
    OnlyServes p n (n.stubStep U F p step).1 ∧ ((n.stubStep U F p step).2 = .ok () →
      ∀ config, n.served[p]? = some config →
        ∃ config', editConfig U config step = .ok config' ∧ (n.stubStep U F p step).1.served[p]? = some config') := by
  refine ⟨call_spec.1, fun hok config hc => ?_⟩
  obtain ⟨c, config', h1, h2, h3⟩ := call_spec.2 hok
  rw [hc] at h1
  cases h1
  exact ⟨config', h2, h3⟩

theorem deleteStub_spec (i : ℕ) :
    OnlyServes p n (n.deleteStub F p i).1 ∧ ((n.deleteStub F p i).2 = .ok () →
      ∀ config, n.served[p]? = some config → ∃ config',
        (Except.ok { config with stubs := config.stubs.eraseIdx i } : Except String ImposterConfig) = .ok config' ∧
        (n.deleteStub F p i).1.served[p]? = some config') := by
  refine ⟨call_spec.1, fun hok config hc => ?_⟩
  obtain ⟨c, config', h1, h2, h3⟩ := call_spec.2 hok
  rw [hc] at h1
  cases h1
  split at h2
  · exact ⟨config', h2, h3⟩
  · cases h2

theorem foldlM_eraseIdx (is : List ℕ) : ∀ config : ImposterConfig,
    is.foldlM (fun c i => (Except.ok { c with stubs := c.stubs.eraseIdx i } : Except String ImposterConfig)) config =
      .ok { config with stubs := is.foldl List.eraseIdx config.stubs } := by
  induction is with
  | nil => intro config; rfl
  | cons i is ih => intro config; rw [List.foldlM_cons]; exact ih _

theorem driveStep_spec (n : Engine) (step : StubEdit) :
    OnlyServes p n (n.driveStep U F p step).1 ∧ ((n.driveStep U F p step).2 = .ok () →
      ∀ config, n.served[p]? = some config →
        ∃ config', editConfig U config step = .ok config' ∧ (n.driveStep U F p step).1.served[p]? = some config') := by
  cases step with
  | deleteBySpace space =>
    simp only [Engine.driveStep]
    cases hs : n.served[p]? with
    | none => exact ⟨.refl, by simp⟩
    | some config =>
      have h := inOrder_spec (p := p) (fun n i => deleteStub_spec (F := F) (n := n) (p := p) i)
        (doomed config.stubs space).reverse n
      refine ⟨h.1, fun hok c hc => ?_⟩
      cases hc
      obtain ⟨config', h1, h2⟩ := h.2 hok config hs
      rw [foldlM_eraseIdx, eraseIdx_doomed] at h1
      exact ⟨config', h1, h2⟩
  | add stub index => exact stubStep_spec _
  | replaceById id stub => exact stubStep_spec _
  | deleteById id => exact stubStep_spec _
  | move src dst => exact stubStep_spec _

/-- **A driven script does to the served stubs what the stored ones went through.** -/
theorem drivePatch_spec (edit : StubEditScript) :
    OnlyServes p n (n.drivePatch U F p edit).1 ∧ ((n.drivePatch U F p edit).2 = .ok () →
      ∀ config, n.served[p]? = some config → ∃ stubs, applyEdit U config.stubs edit = .ok stubs ∧
        (n.drivePatch U F p edit).1.served[p]? = some { config with stubs }) := by
  have h := inOrder_spec (p := p) (fun n step => driveStep_spec (U := U) (F := F) (p := p) n step) edit n
  refine ⟨h.1, fun hok config hc => ?_⟩
  obtain ⟨config', h1, h2⟩ := h.2 hok config hc
  rw [foldlM_editConfig] at h1
  cases hedit : applyEdit U config.stubs edit with
  | error e => rw [hedit] at h1; cases h1
  | ok stubs =>
    rw [hedit] at h1
    cases h1
    exact ⟨stubs, rfl, h2⟩

theorem position_of_unique {stubs : List Stub} {i : ℕ} {target : Stub} {id : String} (hd : (ids stubs).Nodup)
    (hi : stubs[i]? = some target) (hid : target.id = some id) : position stubs id = some i := by
  obtain ⟨hlt, rfl⟩ := List.getElem?_eq_some_iff.1 hi
  refine List.findIdx?_eq_some_iff_getElem.2 ⟨hlt, by simp [hid], fun j hj => ?_⟩
  have hne := (List.pairwise_filterMap.1 hd)
  have := List.pairwise_iff_getElem.1 hne j i (hj.trans hlt) hlt hj
  simp only [beq_iff_eq]
  exact fun hj' => this id hj' id hid rfl

/-- An append, or the whole stub where this node's engine leaves the sequence to its
owner: the same stub either way. -/
theorem driveAppend_spec {id : String} {responses : List StubResponse} {i : ℕ} {target : Stub}
    {config : ImposterConfig} (hd : (ids config.stubs).Nodup) (hi : config.stubs[i]? = some target)
    (hid : target.id = some id) (hc : n.served[p]? = some config) (call : Engine × Except ImposterError Unit)
    (hcall : call = n.stubStep U F p (.replaceById id { target with responses := target.responses ++ responses }) ∨
      call = n.appendStubResponsesById F p id responses) (hok : call.2 = .ok ()) :
    call.1.served[p]? =
      some { config with stubs := config.stubs.set i { target with responses := target.responses ++ responses } } := by
  have hpos : position config.stubs id = some i := position_of_unique hd hi hid
  rcases hcall with rfl | rfl
  · obtain ⟨config', h1, h2⟩ := (stubStep_spec _).2 hok config hc
    simp only [editConfig, applyStep, hpos] at h1
    cases h1
    rw [h2, ← hid]
  · obtain ⟨c, config', h1, h2, h3⟩ := call_spec.2 hok
    rw [hc] at h1
    cases h1
    simp only [hpos] at h2
    cases h2
    obtain ⟨hlt, rfl⟩ := List.getElem?_eq_some_iff.1 hi
    rw [List.modify_eq_set_get _ hlt] at h3
    exact h3

/-! ## Bookkeeping of drives for one port -/

theorem onPort_clearDriveOutcome : OnPort p n (n.clearDriveOutcome p) := by
  unfold Engine.clearDriveOutcome
  split
  · exact ⟨fun _ _ => rfl, fun q hq hf => by
      rw [Engine.Failing, get_erase, if_neg (Ne.symm hq)]; exact hf, fun _ => rfl⟩
  · exact ⟨fun _ _ => rfl, fun _ _ => id, id⟩

@[simp] theorem clearDriveOutcome_served : (n.clearDriveOutcome p).served = n.served := by
  unfold Engine.clearDriveOutcome
  split <;> rfl

theorem clearDriveOutcome_resync (h : n.Failing p) : (n.clearDriveOutcome p).needsResync = true := by
  unfold Engine.clearDriveOutcome
  rw [if_pos (show n.applyFailures[p]?.isSome = true from h)]

/-- **The outcome of a call on a port**: a failed one is recorded; a successful one
leaves what the call served, and forgets no failure of the port for good. -/
theorem outcome_spec {call : Engine × Except ImposterError Unit} (h : OnlyServes p n call.1) :
    OnPort p n (Engine.outcome p call) ∧ ((Engine.outcome p call).Failing p ∨
      (call.2 = .ok () ∧ (Engine.outcome p call).served[p]? = call.1.served[p]? ∧
        (n.Failing p → (Engine.outcome p call).needsResync = true))) := by
  obtain ⟨m, outcome⟩ := call
  cases outcome with
  | error e => exact ⟨h.onPort.trans (onPort_fail e), .inl (failing_fail e)⟩
  | ok u =>
    refine ⟨h.onPort.trans onPort_clearDriveOutcome, .inr ⟨rfl, ?_, fun hf => ?_⟩⟩
    · exact congrArg (·[p]?) clearDriveOutcome_served
    · refine clearDriveOutcome_resync ?_
      rw [Engine.Failing, h.failures]
      exact hf

theorem onlyServes_settle (verdict : Verdict) (want : Option ImposterConfig) :
    OnlyServes p n (n.settle verdict p want).1 := by
  unfold Engine.settle
  dsimp only
  split <;> exact ⟨fun q hq => by rw [serve_served, if_neg (Ne.symm hq)], rfl, rfl⟩

theorem settle_served (verdict : Verdict) (want : Option ImposterConfig) :
    (∃ e, (p, e) ∈ (n.settle verdict p want).2.failed) ∨ (n.settle verdict p want).1.served[p]? = want := by
  unfold Engine.settle
  dsimp only
  split
  · exact .inl ⟨_, List.mem_singleton.2 rfl⟩
  · exact .inr (by simp)

theorem settle_touched (verdict : Verdict) (want : Option ImposterConfig) :
    ∀ t ∈ (n.settle verdict p want).2.touched, t.2 = p := by
  unfold Engine.settle
  dsimp only
  split <;> (rintro t ht; obtain ⟨b, -, rfl⟩ := List.mem_map.1 ht; rfl)

/-! ## Reports -/

theorem isSome_load {β : Type} (rows : List (Port × β)) : ∀ (m : Table Port β) (q : Port),
    (Table.load m rows)[q]?.isSome = true ↔ (∃ e, (q, e) ∈ rows) ∨ m[q]?.isSome = true := by
  induction rows with
  | nil => intro m q; simp [Table.load]
  | cons row rows ih =>
    intro m q
    obtain ⟨port, e⟩ := row
    show (Table.load (m.insert port e) rows)[q]?.isSome = true ↔ _
    rw [ih, get_insert]
    by_cases h : port = q
    · subst h; simp
    · have h' : q ≠ port := Ne.symm h
      simp [h, h']

/-- **A report records every port that failed.** -/
theorem recordReport_failing {report : ApplyReport} (scope : ReportScope) {e : ImposterError}
    (h : (p, e) ∈ report.failed) : (n.recordReport report scope).Failing p :=
  (isSome_load _ _ _).2 (.inl ⟨e, h⟩)

theorem onPort_recordReport {report : ApplyReport} (h : ∀ t ∈ report.touched, t.2 = p) :
    OnPort p n (n.recordReport report (.port p)) := by
  refine ⟨fun _ _ => rfl, fun q hq hf => (isSome_load _ _ _).2 (.inr ?_), id⟩
  rw [eraseAll, get_eraseAll, if_neg]
  · exact hf
  · intro hm
    obtain ⟨t, ht, rfl⟩ := List.mem_map.1 hm
    exact hq (h t ht)

/-! ## Drives of whole configs -/

theorem applyOne_spec (config : ImposterConfig) :
    OnlyServes p n (n.applyOne F p config).1 ∧
      ((∃ e, (n.applyOne F p config).2 = .error e) ∨
        ∃ report, (n.applyOne F p config).2 = .ok report ∧ (∀ t ∈ report.touched, t.2 = p) ∧
          ((∃ e, (p, e) ∈ report.failed) ∨ (n.applyOne F p config).1.served[p]? = some config)) := by
  unfold Engine.applyOne
  dsimp only
  cases (F n.calls).refuses with
  | some e => exact ⟨onlyServes_tick.trans (onlyServes_serve _), .inl ⟨_, rfl⟩⟩
  | none =>
    exact ⟨onlyServes_tick.trans (onlyServes_settle _ _),
      .inr ⟨_, rfl, settle_touched _ _, settle_served _ _⟩⟩

theorem onlyServes_rewriteStubs (f : List Stub → List Stub) : OnlyServes p n (n.rewriteStubs p f) := by
  unfold Engine.rewriteStubs
  split
  · exact .refl
  · exact onlyServes_serve _

theorem rewriteStubs_served (f : List Stub → List Stub) :
    (n.rewriteStubs p f).served[p]? = n.served[p]?.map fun config => { config with stubs := f config.stubs } := by
  unfold Engine.rewriteStubs
  cases h : n.served[p]? with
  | none => simpa using h
  | some config => simp

theorem onlyServes_restart (r : Restart) (stubs : List Stub) : OnlyServes p n (n.restart p r stubs) := by
  unfold Engine.restart
  split
  · split
    · exact onlyServes_rewriteStubs _
    · exact .refl
  · exact onlyServes_rewriteStubs _
  · exact .refl
  · exact .refl

theorem restart_served (r : Restart) {config : ImposterConfig} (h : n.served[p]? = some config) :
    (n.restart p r config.stubs).served[p]? = some config := by
  unfold Engine.restart
  split
  · rename_i i
    split
    · rename_i stub hi
      obtain ⟨hlt, rfl⟩ := List.getElem?_eq_some_iff.1 hi
      rw [rewriteStubs_served, h, Option.map_some, List.set_getElem_self]
    · exact h
  · rw [rewriteStubs_served, h, Option.map_some]
  · exact h
  · exact h

theorem restart_eq {r : Restart} (h : ∀ i, r ≠ .stubAt i) (h' : r ≠ .allStubs) (stubs : List Stub) :
    n.restart p r stubs = n := by
  cases r with
  | stubAt i => exact absurd rfl (h i)
  | allStubs => exact absurd rfl h'
  | imposter => rfl
  | unknown => rfl

theorem admits_iff {config : ImposterConfig} : U.admits config = true ↔ U.admissionVerdict config = .ok () := by
  unfold Upstream.admits
  cases U.admissionVerdict config with
  | ok u => simp [Except.isOk, Except.toBool]
  | error e => simp [Except.isOk, Except.toBool]

theorem drivePut_refused {config : ImposterConfig} (hport : config.port = some p) (h : U.admits config = false)
    (restart : Option Restart) : n.drivePut U F config restart = n := by
  unfold Engine.drivePut
  rw [hport]
  dsimp only
  cases hv : U.admissionVerdict config with
  | error e => rfl
  | ok u => rw [admits_iff.2 hv] at h; cases h

/-- **The drive of an admitted config**: the port serves it, or has failed. -/
theorem drivePut_spec {config : ImposterConfig} (hport : config.port = some p) (h : U.admits config = true)
    (restart : Option Restart) : OnPort p n (n.drivePut U F config restart) ∧
      ((n.drivePut U F config restart).Failing p ∨ (n.drivePut U F config restart).served[p]? = some config) := by
  have hone := applyOne_spec (F := F) (n := n.setMode p config) (p := p) config
  have hset : OnlyServes p n (n.setMode p config) := ⟨fun _ _ => rfl, rfl, rfl⟩
  unfold Engine.drivePut
  rw [hport]
  dsimp only
  rw [admits_iff.1 h]
  dsimp only
  generalize (n.setMode p config).applyOne F p config = one at hone ⊢
  obtain ⟨m, outcome⟩ := one
  have hm : OnlyServes p n m := hset.trans hone.1
  cases outcome with
  | error e => exact ⟨hm.onPort.trans (onPort_fail e), .inl (failing_fail e)⟩
  | ok report =>
    rcases hone.2 with ⟨e, he⟩ | ⟨report', hr, htouched, hserved⟩
    · cases he
    cases hr
    dsimp only
    have hrec : OnPort p n (m.recordReport report (.port p)) := hm.onPort.trans (onPort_recordReport htouched)
    have hres : (m.recordReport report (.port p)).Failing p ∨
        (m.recordReport report (.port p)).served[p]? = some config :=
      hserved.imp (fun ⟨e, he⟩ => recordReport_failing _ he) id
    split
    · rename_i r
      split
      · exact ⟨hrec, hres⟩
      · refine ⟨hrec.trans (onlyServes_restart r _).onPort, hres.imp (fun hf => ?_) (restart_served r)⟩
        rw [Engine.Failing, (onlyServes_restart r _).failures]
        exact hf
    · exact ⟨hrec, hres⟩

theorem deleteImposter_spec : OnlyServes p n (n.deleteImposter F p).1 ∧
    ((∃ e, (n.deleteImposter F p).2 = .error (.other e)) ∨ (n.deleteImposter F p).1.served[p]? = none) := by
  unfold Engine.deleteImposter
  cases hs : n.served[p]? with
  | none => exact ⟨onlyServes_tick, .inr hs⟩
  | some config =>
    dsimp only
    cases ((F n.calls).verdict p).error with
    | some e => exact ⟨onlyServes_tick.trans (onlyServes_serve _), .inl ⟨e, rfl⟩⟩
    | none =>
      dsimp only
      exact ⟨onlyServes_tick.trans (onlyServes_serve _), .inr (by simp)⟩

/-- **The drive of a delete**: the port serves nothing, or has failed. -/
theorem driveDelete_spec : OnPort p n (n.driveDelete F p) ∧
    ((n.driveDelete F p).Failing p ∨ (n.driveDelete F p).served[p]? = none) := by
  have hone := deleteImposter_spec (F := F) (n := n.removeMode p) (p := p)
  have hmode : OnlyServes p n (n.removeMode p) := ⟨fun _ _ => rfl, rfl, rfl⟩
  unfold Engine.driveDelete
  generalize (n.removeMode p).deleteImposter F p = one at hone ⊢
  obtain ⟨m, outcome⟩ := one
  have hm : OnPort p n m := (hmode.trans hone.1).onPort
  -- not found counts as deleted: both reach the same bookkeeping
  have hdone (hs : m.served[p]? = none) :
      OnPort p n { m with applyFailures := m.applyFailures.erase p, bindFailures := m.bindFailures.erase p } ∧
        (Engine.Failing { m with applyFailures := m.applyFailures.erase p, bindFailures := m.bindFailures.erase p } p ∨
          m.served[p]? = none) := by
    refine ⟨hm.trans ⟨fun _ _ => rfl, fun q hq hf => ?_, id⟩, .inr hs⟩
    rw [Engine.Failing, get_erase, if_neg (Ne.symm hq)]
    exact hf
  have hgone (hne : ∀ e, outcome ≠ .error (.other e)) : m.served[p]? = none :=
    hone.2.resolve_left fun ⟨e, he⟩ => hne e he
  cases outcome with
  | ok u => exact hdone (hgone (by simp))
  | error e =>
    cases e with
    | notFound q => exact hdone (hgone (by simp))
    | other e => exact ⟨hm.trans (onPort_fail _), .inl (failing_fail _)⟩

end RiftCluster
