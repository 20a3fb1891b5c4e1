import RiftCluster.Model.Reconcile
import RiftCluster.Proof.EngineAgrees

/-!
# An engine whose calls all do what they document

What each drive does to the stubs a port serves when no call fails.

* `driveSync_faultless`: a whole-set drive serves every admitted row.
* `OpDrive.keeps`: the drive of an operation takes stubs that match the tables before
  it to stubs that match the tables after it. Where it holds no incremental stub
  edit it also leaves alone every port that it does not put right, so running it on
  an engine that is already past it does no harm.
-/

namespace RiftCluster

open KV

variable {U : Upstream} {n n' : Engine} {p : Port} {t t' : Tables}

/-! ## Calls -/

def Engine.stubsAt (n : Engine) (p : Port) : Option (List Stub) := n.served[p]?.map ImposterConfig.stubs

/-- On an admitted port the engine serves the stub list of the row. -/
def ServesAt (U : Upstream) (t : Tables) (n : Engine) (p : Port) : Prop :=
  ∀ row config, t.configs[p]? = some row → admitRow U row = .ok config → n.stubsAt p = some config.stubs

theorem servesAt_row {r : Row} (h : t.configs[p]? = some (r.text U)) :
    ServesAt U t n p ↔ (U.admits r.config = true → n.stubsAt p = some r.config.stubs) := by
  constructor
  · exact fun hc ha => hc _ _ h ((admitRow_text _ _).2 ⟨ha, rfl⟩)
  · intro hc row config hrow hadmit
    rw [h] at hrow
    cases hrow
    obtain ⟨ha, rfl⟩ := (admitRow_text _ _).1 hadmit
    exact hc ha

theorem servesAt_none (h : t.configs[p]? = none) : ServesAt U t n p := fun row _ hrow => by rw [h] at hrow; cases hrow

theorem AgreeAt.servesAt (h : AgreeAt U t n p) : ServesAt U t n p := by
  intro row config hrow hc
  unfold AgreeAt at h
  rw [hrow] at h
  rw [Engine.stubsAt, h config hc]
  rfl

theorem ServesAt.congr (h : ServesAt U t n p) (ht : t'.configs[p]? = t.configs[p]?) (hn : n'.stubsAt p = n.stubsAt p) :
    ServesAt U t' n' p := by
  intro row config hrow hc
  rw [hn]
  exact h row config (ht ▸ hrow) hc

theorem OnPort.stubsAt (h : OnPort p n n') {q : Port} (hq : q ≠ p) : n'.stubsAt q = n.stubsAt q := by
  rw [Engine.stubsAt, h.served q hq, Engine.stubsAt]

theorem call_faultless {effect : ImposterConfig → Except String ImposterConfig} {config config' : ImposterConfig}
    (hs : n.served[p]? = some config) (he : effect config = .ok config') :
    (n.call .faultless p effect).2 = .ok () ∧ (n.call .faultless p effect).1.served[p]? = some config' := by
  unfold Engine.call
  rw [hs]
  simp [Calls.faultless, he]

theorem toggle_faultless {config : ImposterConfig} (hs : n.served[p]? = some config) (enabled : Bool) :
    (n.setImposterEnabled .faultless p enabled).1.served[p]? = some { config with enabled } :=
  (@call_faultless _ _ (fun config => .ok { config with enabled }) _ _ hs rfl).2

theorem inOrder_faultless {α : Type} {f : Engine → α → Engine × Except ImposterError Unit}
    {step : ImposterConfig → α → Except String ImposterConfig}
    (hf : ∀ n a config config', n.served[p]? = some config → step config a = .ok config' →
      (f n a).2 = .ok () ∧ (f n a).1.served[p]? = some config') (as : List α) :
    ∀ (n : Engine) (config config' : ImposterConfig), n.served[p]? = some config →
      as.foldlM step config = .ok config' →
      (n.inOrder f as).2 = .ok () ∧ (n.inOrder f as).1.served[p]? = some config' := by
  induction as with
  | nil => intro n config config' hs h; cases h; exact ⟨rfl, hs⟩
  | cons a as ih =>
    intro n config config' hs h
    rw [List.foldlM_cons] at h
    cases h1 : step config a with
    | error e => rw [h1] at h; cases h
    | ok config₁ =>
      rw [h1] at h
      have hone := hf n a config config₁ hs h1
      rw [Engine.inOrder]
      generalize f n a = r at hone ⊢
      obtain ⟨m, outcome⟩ := r
      cases hone.1
      exact ih m config₁ config' hone.2 h

theorem foldlM_deleteStub (is : List ℕ) : ∀ config : ImposterConfig, is.Pairwise (· > ·) →
    (∀ i ∈ is, i < config.stubs.length) →
    is.foldlM (fun c i => if i < c.stubs.length then
        (Except.ok { c with stubs := c.stubs.eraseIdx i } : Except String ImposterConfig)
      else .error "no such stub") config = .ok { config with stubs := is.foldl List.eraseIdx config.stubs } := by
  induction is with
  | nil => intro config _ _; rfl
  | cons i is ih =>
    intro config hs hlt
    rw [List.pairwise_cons] at hs
    have hi := hlt i List.mem_cons_self
    rw [List.foldlM_cons, if_pos hi]
    refine ih { config with stubs := config.stubs.eraseIdx i } hs.2 fun j hj => ?_
    have : j < i := hs.1 j hj
    rw [List.length_eraseIdx_of_lt hi]
    omega

theorem driveStep_faultless (n : Engine) (step : StubEdit) (config config' : ImposterConfig)
    (hs : n.served[p]? = some config) (he : editConfig U config step = .ok config') :
    (n.driveStep U .faultless p step).2 = .ok () ∧ (n.driveStep U .faultless p step).1.served[p]? = some config' := by
  cases step with
  | deleteBySpace space =>
    simp only [Engine.driveStep, hs]
    cases he
    refine inOrder_faultless (p := p) (fun n i c c' hc h => call_faultless hc h) _ n config _ hs ?_
    rw [foldlM_deleteStub _ _ (List.pairwise_reverse.2 (doomed_sorted _ _))
      fun i hi => doomed_lt (List.mem_reverse.1 hi), eraseIdx_doomed]
  | add stub index => exact call_faultless hs he
  | replaceById id stub => exact call_faultless hs he
  | deleteById id => exact call_faultless hs he
  | move src dst => exact call_faultless hs he

theorem drivePatch_faultless {edit : StubEditScript} {config : ImposterConfig} {stubs : List Stub}
    (hs : n.served[p]? = some config) (he : applyEdit U config.stubs edit = .ok stubs) :
    (n.drivePatch U .faultless p edit).2 = .ok () ∧
      (n.drivePatch U .faultless p edit).1.served[p]? = some { config with stubs } :=
  inOrder_faultless (p := p) driveStep_faultless edit n config _ hs (by rw [foldlM_editConfig, he]; rfl)

theorem outcome_served {call : Engine × Except ImposterError Unit} :
    (Engine.outcome p call).served = call.1.served := by
  obtain ⟨m, outcome⟩ := call
  cases outcome with
  | ok u => exact clearDriveOutcome_served
  | error e => rfl

/-! ## Whole configs -/

theorem drivePut_faultless {config : ImposterConfig} (hport : config.port = some p) (h : U.admits config = true)
    (restart : Option Restart) : (n.drivePut U .faultless config restart).served[p]? = some config := by
  have hset : ((n.setMode p config).applyOne .faultless p config).1.served[p]? = some config := by
    simp [Engine.applyOne, Calls.faultless, Engine.settle]
  unfold Engine.drivePut
  rw [hport]
  dsimp only
  rw [admits_iff.1 h]
  dsimp only
  have hone : ((n.setMode p config).applyOne .faultless p config).2 = .ok {} := rfl
  generalize (n.setMode p config).applyOne .faultless p config = one at hset hone ⊢
  obtain ⟨m, outcome⟩ := one
  cases hone
  dsimp only
  split
  · split
    · exact hset
    · exact restart_served _ hset
  · exact hset

theorem settleAll_faultless (call : Call) (hcall : call = {}) (wants : List (Port × Option ImposterConfig)) :
    ∀ n : Engine, (n.settleAll call wants).2.failed = [] := by
  subst hcall
  induction wants with
  | nil => exact fun n => rfl
  | cons w wants ih => intro n; exact ih _

theorem deleteStale_faultless (ports : List Port) :
    ∀ n : Engine, (n.deleteStale .faultless ports).2.failed = [] := by
  induction ports with
  | nil => exact fun n => rfl
  | cons port ports ih =>
    intro n
    have hone : ∀ e, (n.deleteImposter .faultless port).2 ≠ .error (.other e) := by
      intro e
      unfold Engine.deleteImposter
      cases n.served[port]? with
      | none => simp
      | some config => simp [Calls.faultless]
    rw [Engine.deleteStale]
    show _ ++ ((n.deleteImposter .faultless port).1.deleteStale .faultless ports).2.failed = []
    rw [ih, List.append_nil]
    split
    · rfl
    · rfl
    · rename_i e hne he
      cases e with
      | notFound q => exact absurd rfl (hne q)
      | other e => exact absurd he (hone e)

theorem applyEach_faultless (configs : List (Port × ImposterConfig)) :
    ∀ n : Engine, (n.applyEach .faultless configs).2.failed = [] := by
  induction configs with
  | nil => exact fun n => rfl
  | cons pc configs ih => intro n; exact ih _

/-- **A whole-set drive that meets no failure serves the tables.** -/
theorem driveSync_faultless (hok : TablesOk U t) (p : Port) :
    AgreeAt U t (n.driveSync .faultless (desiredConfigs U t.configs)) p := by
  unfold Engine.driveSync
  dsimp only
  set m := n.applyHolding (byPort (desiredConfigs U t.configs).admitted) (desiredConfigs U t.configs).held with hm
  by_cases hnone : (desiredConfigs U t.configs).refused = []
  · simp only [if_pos hnone]
    have hok' : ∃ report, (m.applyConfig .faultless (byPort (desiredConfigs U t.configs).admitted)).2 = .ok report ∧
        report.failed = [] := ⟨_, rfl, settleAll_faultless _ rfl _ _⟩
    obtain ⟨report, hr, hempty⟩ := hok'
    have h := applyConfig_settles (F := .faultless) (n := m) hok _ hr p
    rw [hempty] at h
    have ha := h.resolve_left (by simp)
    generalize m.applyConfig .faultless (byPort (desiredConfigs U t.configs).admitted) = r at hr ha ⊢
    obtain ⟨m', outcome⟩ := r
    cases hr
    exact ha.congr rfl rfl
  · simp only [if_neg hnone]
    have h := (applyAdmitted_settles (F := .faultless) (n := m) hok p).1.resolve_left ?_
    · exact h.congr rfl rfl
    · rintro ⟨e, he⟩
      rw [show (m.applyAdmitted .faultless (byPort (desiredConfigs U t.configs).admitted)
        (desiredConfigs U t.configs).held).2.failed = [] from ?_] at he
      · cases he
      · exact List.append_eq_nil_iff.2 ⟨deleteStale_faultless _ _, applyEach_faultless _ _⟩

/-! ## Every operation -/

/-- The actions that change the stubs an engine serves from what they are. -/
def EngineAction.incremental : EngineAction → Bool
  | .patch _ _ | .appendResponses _ _ _ _ | .clearProxyResponses _ => true
  | _ => false

/-- What the drive of one operation owes when no call fails. `kept`: stubs that matched
the tables before it match the tables after it. `replayed`: without an incremental
action, every port either matches the tables after it or serves the stubs it served. -/
structure Keeps (U : Upstream) (t t' : Tables) (n n' : Engine) (actions : List EngineAction) : Prop where
  kept : ∀ p, ServesAt U t n p → ServesAt U t' n' p
  replayed : (∀ a ∈ actions, a.incremental = false) → ∀ p, ServesAt U t' n' p ∨ n'.stubsAt p = n.stubsAt p

theorem Keeps.same (hrows : t'.configs = t.configs) (hs : n'.served = n.served) (actions : List EngineAction) :
    Keeps U t t' n n' actions where
  kept := fun p h => h.congr (by rw [hrows]) (by rw [Engine.stubsAt, Engine.stubsAt, hs])
  replayed := fun _ p => .inr (by rw [Engine.stubsAt, Engine.stubsAt, hs])

theorem Keeps.absolute (h : ∀ p, ServesAt U t' n' p) (actions : List EngineAction) : Keeps U t t' n n' actions where
  kept := fun p _ => h p
  replayed := fun _ p => .inl (h p)

theorem OnPort.keeps {actions : List EngineAction} (h : OnPort p n n')
    (hrows : ∀ q, q ≠ p → t'.configs[q]? = t.configs[q]?) (hkept : ServesAt U t n p → ServesAt U t' n' p)
    (hreplayed : (∀ a ∈ actions, a.incremental = false) → ServesAt U t' n' p ∨ n'.stubsAt p = n.stubsAt p) :
    Keeps U t t' n n' actions where
  kept := fun q hq => by
    by_cases hqp : q = p
    · rw [hqp] at hq ⊢; exact hkept hq
    · exact hq.congr (hrows q hqp) (h.stubsAt hqp)
  replayed := fun hinc q => by
    by_cases hqp : q = p
    · rw [hqp]; exact hreplayed hinc
    · exact .inr (h.stubsAt hqp)

theorem stubsAt_eq_some {stubs : List Stub} (h : n.stubsAt p = some stubs) :
    ∃ config, n.served[p]? = some config ∧ config.stubs = stubs := Option.map_eq_some_iff.1 h

theorem stubsAt_outcome {call : Engine × Except ImposterError Unit} {config : ImposterConfig}
    (h : call.1.served[p]? = some config) : (Engine.outcome p call).stubsAt p = some config.stubs := by
  rw [Engine.stubsAt, outcome_served, h]; rfl

/-- **An incremental action that does not fail takes the served stubs where the edit took
the stored ones.** -/
theorem EditAction.faultless {before after : ImposterConfig} {action : EngineAction}
    (h : EditAction U p before after action) (hd : (ids before.stubs).Nodup) (hd' : (ids after.stubs).Nodup)
    (hs : n.stubsAt p = some before.stubs) : (n.driveOne U .faultless action).stubsAt p = some after.stubs := by
  obtain ⟨config, hc, hstubs⟩ := stubsAt_eq_some hs
  cases h with
  | @patch edit stubs hedit => exact (stubsAt_outcome (drivePatch_faultless hc (hstubs ▸ hedit)).2).trans rfl
  | toggle enabled => exact (stubsAt_outcome (toggle_faultless hc enabled)).trans (congrArg some hstubs)
  | @add i stub hi =>
    have hedit : applyEdit U config.stubs [.add stub (some i)] = .ok (before.stubs.insertIdx i stub) := by
      -- the id is new: it would be there twice
      have hnew : (stub.id.filter fun id => before.stubs.any fun s => s.id == some id) = none := by
        rw [Option.filter_eq_none_iff]
        intro id hid hany
        obtain ⟨s, hs, hsid⟩ := List.any_eq_true.1 hany
        have hperm : (ids (before.stubs.insertIdx i stub)).Perm (id :: ids before.stubs) := by
          have := (List.perm_insertIdx stub before.stubs hi).filterMap Stub.id
          rwa [List.filterMap_cons, hid] at this
        exact (List.nodup_cons.1 (hperm.nodup_iff.1 hd')).1 (mem_ids.2 ⟨s, hs, beq_iff_eq.1 hsid⟩)
      rw [applyEdit, List.foldlM_cons, hstubs]
      simp only [applyStep, hnew, Option.getD_some, min_eq_left hi]
      rfl
    exact (stubsAt_outcome (drivePatch_faultless hc hedit).2).trans rfl
  | @append i target id responses hi hid =>
    have hpos : position before.stubs id = some i := position_of_unique hd hi hid
    set merged : Stub := { target with responses := target.responses ++ responses } with hmerged
    show (Engine.outcome p (if n.ownsSequence p then n.stubStep U .faultless p (.replaceById id merged)
      else n.appendStubResponsesById .faultless p id responses)).stubsAt p = some (before.stubs.set i merged)
    split
    · refine @stubsAt_outcome _ _ { config with stubs := before.stubs.set i merged } (call_faultless hc ?_).2
      simp only [applyStep, hstubs, hpos, Except.map]
      rw [hmerged, ← hid]
    · refine @stubsAt_outcome _ _ { config with stubs := before.stubs.set i merged } (call_faultless hc ?_).2
      obtain ⟨hlt, rfl⟩ := List.getElem?_eq_some_iff.1 hi
      simp only [hstubs, hpos]
      rw [List.modify_eq_set_get _ hlt]
      rfl

/-- The only action of an edit that is not incremental is the toggle, which leaves the
stubs alone. -/
theorem EditAction.stubsAt_same {before after : ImposterConfig} {action : EngineAction}
    (h : EditAction U p before after action) (hinc : action.incremental = false) :
    (n.driveOne U .faultless action).stubsAt p = n.stubsAt p := by
  cases h with
  | patch _ => cases hinc
  | add _ => cases hinc
  | append _ _ => cases hinc
  | toggle enabled =>
    show (Engine.outcome p (n.setImposterEnabled .faultless p enabled)).stubsAt p = _
    cases hs : n.served[p]? with
    | some config =>
      rw [stubsAt_outcome (toggle_faultless hs enabled), Engine.stubsAt, hs]
      rfl
    | none =>
      have : (n.setImposterEnabled .faultless p enabled).1.served = n.served := by
        simp only [Engine.setImposterEnabled, Engine.call, hs]
        rfl
      rw [Engine.stubsAt, outcome_served, this, Engine.stubsAt]

theorem keeps_put {config : ImposterConfig} (restart : Option Restart) {r : Row} (hport : config.port = some p)
    (hr : r.config = config) (hrows : RowAt U t t' p r) (actions : List EngineAction) :
    Keeps U t t' n (n.drivePut U .faultless config restart) actions := by
  subst hr
  cases hv : U.admits r.config with
  | true =>
    have hserved := (servesAt_row (n := n.drivePut U .faultless r.config restart) hrows.row).2 fun _ => by
      rw [Engine.stubsAt, drivePut_faultless hport hv restart]; rfl
    exact (drivePut_spec hport hv restart).1.keeps hrows.other (fun _ => hserved) fun _ => .inl hserved
  | false =>
    rw [drivePut_refused hport hv]
    have hvac : ServesAt U t' n p := (servesAt_row hrows.row).2 fun ha => by rw [hv] at ha; cases ha
    exact OnPort.keeps (p := p) ⟨fun _ _ => rfl, fun _ _ => id, id⟩ hrows.other (fun _ => hvac) fun _ => .inl hvac

theorem keeps_edit {r r' : Row} {action : EngineAction} (hrow : t.configs[p]? = some (r.text U))
    (hport : r'.config.port = some p) (hrows : RowAt U t t' p r') (haction : EditAction U p r.config r'.config action)
    (hd : (ids r.config.stubs).Nodup) (hd' : (ids r'.config.stubs).Nodup) :
    Keeps U t t' n (n.drive U .faultless (editDrive U (U.admits r.config) r'.config action))
      (editDrive U (U.admits r.config) r'.config action) := by
  unfold editDrive
  cases hv : U.admissionVerdict r'.config with
  | error e =>
    have hno : U.admits r'.config = false := by
      rw [Bool.eq_false_iff, Ne, admits_iff, hv]; simp
    have hvac : ServesAt U t' n p := (servesAt_row hrows.row).2 fun ha => by rw [hno] at ha; cases ha
    exact OnPort.keeps (p := p) ⟨fun _ _ => rfl, fun _ _ => id, id⟩ hrows.other (fun _ => hvac) fun _ => .inl hvac
  | ok u =>
    dsimp only
    cases hwas : U.admits r.config with
    | false => exact keeps_put none hport rfl hrows _
    | true =>
      refine OnPort.keeps (haction.spec hd).1 hrows.other (fun hs => (servesAt_row hrows.row).2 fun _ => ?_)
        fun h => .inr (haction.stubsAt_same (h action (List.mem_singleton.2 rfl)))
      exact haction.faultless hd hd' ((servesAt_row hrow).1 hs hwas)

/-- A clear is driven on stubs the engine took: the config was admitted before, or the
whole set is driven first and stripping it once more removes nothing. -/
def ClearSafe (U : Upstream) (t : Tables) (degraded : Bool) : ControlOp → Prop
  | .proxyRecordedClear p => ∀ r : Row, t.configs[p]? = some (r.text U) → U.admits (stripped r.config) = true →
      if degraded then stripped (stripped r.config) = stripped r.config else U.admits r.config = true
  | _ => True

section Drives

variable {degraded : Bool} (hok' : TablesOk U t')
include hok'

theorem keeps_restart (restart : Restart) {r : Row} (hrows : RowAt U t t' p r) (actions : List EngineAction) :
    Keeps U t t' n (n.drive U .faultless [syncAction U t'.configs, .restart p restart r.config.stubs]) actions := by
  have hsync (q : Port) : AgreeAt U t' (n.driveSync .faultless (desiredConfigs U t'.configs)) q :=
    driveSync_faultless hok' q
  refine .absolute (fun q => ?_) _
  show ServesAt U t' ((n.driveSync .faultless (desiredConfigs U t'.configs)).restart p restart r.config.stubs) q
  by_cases hq : q = p
  · subst hq
    refine (servesAt_row hrows.row).2 fun hv => ?_
    rw [Engine.stubsAt, restart_served restart ((agreeAt_row hrows.row).1 (hsync q) hv)]
    rfl
  · exact (hsync q).servesAt.congr rfl ((onlyServes_restart restart _).onPort.stubsAt hq)

omit hok' in
theorem clear_stubsAt (m : Engine) :
    (m.clearProxyResponses p).stubsAt p = (m.stubsAt p).map fun stubs => (stripProxyResponses stubs).1 := by
  rw [Engine.stubsAt, clear_served, Engine.stubsAt]
  cases m.served[p]? <;> rfl

theorem servesAt_synced_clear {r r' : Row} (hrow : t.configs[p]? = some (r.text U)) (hr' : r'.config = stripped r.config)
    (hrows : RowAt U t t' p r') (hsafe : ClearSafe U t degraded (.proxyRecordedClear p))
    (hd : (degraded || !U.admits r'.config) = true) (q : Port) :
    ServesAt U t' ((n.driveSync .faultless (desiredConfigs U t'.configs)).clearProxyResponses p) q := by
  have hsync : AgreeAt U t' (n.driveSync .faultless (desiredConfigs U t'.configs)) q := driveSync_faultless hok' q
  by_cases hq : q = p
  · subst hq
    refine (servesAt_row hrows.row).2 fun hv => ?_
    rw [hv, Bool.not_true, Bool.or_false] at hd
    have htwice := hsafe r hrow (hr' ▸ hv)
    rw [if_pos hd, ← hr'] at htwice
    rw [clear_stubsAt, (servesAt_row hrows.row).1 hsync.servesAt hv, Option.map_some]
    exact congrArg (fun c => some c.stubs) htwice
  · exact hsync.servesAt.congr rfl (onlyServes_clear.onPort.stubsAt hq)

omit hok' in
theorem ServesAt.clear {r r' : Row} (hrow : t.configs[p]? = some (r.text U)) (hr' : r'.config = stripped r.config)
    (hrows : RowAt U t t' p r') (hsafe : ClearSafe U t degraded (.proxyRecordedClear p))
    (hd : ¬ (degraded || !U.admits r'.config) = true) {q : Port} (hq : ServesAt U t n q) :
    ServesAt U t' (n.clearProxyResponses p) q := by
  by_cases hqp : q = p
  · subst hqp
    refine (servesAt_row hrows.row).2 fun hv => ?_
    have hbefore := hsafe r hrow (hr' ▸ hv)
    rw [if_neg (by intro h; exact hd (by rw [h]; rfl))] at hbefore
    rw [clear_stubsAt, (servesAt_row hrow).1 hq hbefore, hr']
    rfl
  · exact hq.congr (hrows.other q hqp) (onlyServes_clear.onPort.stubsAt hqp)

theorem keeps_clear {r r' : Row} (hrow : t.configs[p]? = some (r.text U)) (hr' : r'.config = stripped r.config)
    (hrows : RowAt U t t' p r') (hsafe : ClearSafe U t degraded (.proxyRecordedClear p)) {actions : List EngineAction}
    (hactions : actions = if degraded || !U.admits r'.config then [syncAction U t'.configs, .clearProxyResponses p]
      else [.clearProxyResponses p]) : Keeps U t t' n (n.drive U .faultless actions) actions := by
  subst hactions
  refine ⟨?_, fun h => ?_⟩
  · by_cases hd : (degraded || !U.admits r'.config) = true
    · rw [if_pos hd]
      exact fun q _ => servesAt_synced_clear hok' hrow hr' hrows hsafe hd q
    · rw [if_neg hd]
      exact fun q hq => hq.clear hrow hr' hrows hsafe hd
  · -- the clear itself is incremental
    have := h (.clearProxyResponses p) (by split <;> simp)
    cases this

/-- **Every operation's drive, when no call fails.** -/
theorem OpDrive.keeps {op : ControlOp} {actions : List EngineAction} (h : OpDrive U t t' degraded op actions)
    (huniq : UniqueIds U t) (huniq' : UniqueIds U t') (hsafe : ClearSafe U t degraded op) :
    Keeps U t t' n (n.drive U .faultless actions) actions := by
  cases h with
  | still hrows => exact .same hrows rfl _
  | routes routes hrows =>
    simp only [Engine.drive, syncRoutesAction, List.foldl_cons, List.foldl_nil]
    split <;> exact .same hrows (by rfl) _
  | whole => exact .absolute (fun q => (driveSync_faultless hok' q).servesAt) _
  | put hport hr hrows _ => exact keeps_put _ hport hr hrows _
  | restart hport hr hrows hd =>
    subst hr
    exact keeps_restart hok' _ hrows _
  | @delete p hrows hd =>
    have hnone : t'.configs[p]? = none := by rw [hrows, if_pos rfl]
    exact driveDelete_spec.1.keeps (fun q hq => by rw [hrows, if_neg (Ne.symm hq)]) (fun _ => servesAt_none hnone)
      fun _ => .inl (servesAt_none hnone)
  | @edit _ p r r' action hrow hport hrows haction =>
    exact keeps_edit hrow hport hrows haction (huniq p r hrow) (huniq' p r' hrows.row)
  | clear hrow hr' hrows => exact keeps_clear hok' hrow hr' hrows hsafe rfl

end Drives

end RiftCluster
