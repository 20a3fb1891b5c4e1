import RiftCluster.Proof.OpDrive
import RiftCluster.Proof.WholeSet

/-!
# The engine serves what the tables hold

`Tracks` ties the engine to the tables: a port that does not serve what its row
asks for has a recorded failure, or the node wants a whole-set drive. Every drive
keeps it (`OpDrive.driven`), whatever calls fail; so on a node that records nothing
the engine serves the tables (`engine_serves_tables`).

The drive of a clear and the restart of a put reach a port's stubs without asking
whether the engine runs that port's config at all. `OpSafe` keeps them away from
ports where it does not.
-/

namespace RiftCluster

open KV

variable {U : Upstream} {F : Calls} {n n' : Engine} {p : Port} {t t' : Tables}

/-! ## The invariant -/

/-- The node wants a whole-set drive: said so, or the last one was refused whole. -/
def Engine.Covered (n : Engine) : Prop := n.needsResync = true ∨ n.Failing 0

/-- Where the engine does not agree with the tables, the node knows. -/
def Tracks (U : Upstream) (t : Tables) (n : Engine) : Prop :=
  n.Covered ∨ ∀ p, n.Failing p ∨ AgreeAt U t n p

/-- **A node that records no failure serves its tables.** -/
theorem Tracks.agrees (h : Tracks U t n) (hd : n.isDegraded = false) (p : Port) : AgreeAt U t n p := by
  simp only [Engine.isDegraded, Bool.or_eq_false_iff, Bool.not_eq_false', ] at hd
  have hnone : ∀ q, ¬ n.Failing q := by
    intro q hq
    have hempty : n.applyFailures = ∅ := Std.ExtTreeMap.isEmpty_iff.1 hd.1.1
    rw [Engine.Failing, hempty, get_empty] at hq
    cases hq
  rcases h with (hr | h0) | h
  · rw [hd.2] at hr; cases hr
  · exact absurd h0 (hnone 0)
  · exact (h p).resolve_left (hnone p)

/-- What the drive of one operation owes: the engine keeps track of the tables the
operation leaves, and a port refused in them serves what it served. -/
structure Driven (U : Upstream) (t t' : Tables) (n n' : Engine) : Prop where
  tracks : Tracks U t n → Tracks U t' n'
  refused : ∀ p, Refused U t' p → n'.served[p]? = n.served[p]?

theorem Refused.congr (h : Refused U t p) (ht : t'.configs[p]? = t.configs[p]?) : Refused U t' p := by
  obtain ⟨row, hrow, hno⟩ := h
  exact ⟨row, ht.trans hrow, hno⟩

theorem Driven.same (hrows : t'.configs = t.configs) (hs : n'.served = n.served)
    (hf : n'.applyFailures = n.applyFailures) (hr : n'.needsResync = n.needsResync) : Driven U t t' n n' where
  tracks := by
    have hfail : ∀ q, n'.Failing q ↔ n.Failing q := fun q => by rw [Engine.Failing, Engine.Failing, hf]
    refine Or.imp (Or.imp (fun h => hr.trans h) (hfail 0).2) fun h q => ?_
    exact (h q).imp (hfail q).2 fun ha => ha.congr (by rw [hrows]) (by rw [hs])
  refused := fun q _ => by rw [hs]

theorem Driven.trans {t'' : Tables} {m : Engine} (h : Driven U t t' n m) (h' : Driven U t' t'' m n')
    (hrows : t''.configs = t'.configs) : Driven U t t'' n n' where
  tracks := fun ht => h'.tracks (h.tracks ht)
  refused := fun q hq => (h'.refused q hq).trans (h.refused q (hq.congr (by rw [hrows])))

theorem driven_sync (hok : TablesOk U t') : Driven U t t' n (n.driveSync F (desiredConfigs U t'.configs)) where
  tracks := fun _ => (driveSync_spec hok).1.imp .inr id
  refused := (driveSync_spec hok).2

/-- **A drive for one port.** The others are as they were, and the port is to agree with
its new row unless its failure is recorded. -/
theorem OnPort.driven (h : OnPort p n n') (hp0 : p ≠ 0) (hrows : ∀ q, q ≠ p → t'.configs[q]? = t.configs[q]?)
    (hp : n.Failing p ∨ AgreeAt U t n p → n'.needsResync = true ∨ n'.Failing p ∨ AgreeAt U t' n' p)
    (hrefused : Refused U t' p → n'.served[p]? = n.served[p]?) : Driven U t t' n n' where
  tracks := by
    rintro ((hr | h0) | hall)
    · exact .inl (.inl (h.resync hr))
    · exact .inl (.inr (h.failing 0 (Ne.symm hp0) h0))
    · rcases hp (hall p) with hr | hok
      · exact .inl (.inl hr)
      · refine .inr fun q => ?_
        by_cases hq : q = p
        · rw [hq]; exact hok
        · exact (hall q).imp (h.failing q hq) fun ha => ha.congr (hrows q hq) (h.served q hq)
  refused := fun q hq => by
    by_cases hqp : q = p
    · rw [hqp] at hq ⊢; exact hrefused hq
    · exact h.served q hqp

/-! ## Every operation -/

def UniqueIds (U : Upstream) (t : Tables) : Prop :=
  ∀ (p : Port) (r : Row), t.configs[p]? = some (r.text U) → (ids r.config.stubs).Nodup

theorem uniqueIds_empty (h : t.configs = ∅) : UniqueIds U t := by
  intro p r hrow
  rw [h, get_empty] at hrow
  cases hrow

/-- The operation does not reach past the engine's own checks. A clear finds a config the
engine runs, before and after; on a degraded node, where the engine is given the
stripped config first, stripping it once more removes nothing. A put that restarts
stubs on a degraded node names a config the engine runs. No delete names port 0, whose
entry of the failure tracker is the whole set's. -/
def OpSafe (U : Upstream) (t : Tables) (degraded : Bool) : ControlOp → Prop
  | .putImposter config restart =>
    degraded = true → U.admits config = true ∨ (∀ i, restart ≠ some (.stubAt i)) ∧ restart ≠ some .allStubs
  | .deleteImposter p => p = 0 → degraded = true
  | .proxyRecordedClear p => ∀ r : Row, t.configs[p]? = some (r.text U) →
      U.admits r.config = true ∧ U.admits (stripped r.config) = true ∧
        (degraded = true → stripped (stripped r.config) = stripped r.config)
  | _ => True

theorem ne_zero_of_row (h0 : t.configs[0]? = none) {row : String} (h : t.configs[p]? = some row) : p ≠ 0 := by
  rintro rfl
  rw [h0] at h
  cases h

theorem port_of_validate {config : ImposterConfig} {restart : Option Restart}
    (h : validate U (.putImposter config restart) = .ok ()) : ∃ p, config.port = some p ∧ p ≠ 0 := by
  simp only [validate, validateReplicableConfig] at h
  split at h
  · cases h
  · rename_i hall
    cases hp : config.port with
    | none => rw [hp] at hall; exact absurd rfl hall
    | some p => exact ⟨p, rfl, by simpa [hp] using hall⟩

/-- **An incremental action takes the served config where the edit took the stored one**,
or its failure is recorded; and it forgets no failure of the port for good. -/
theorem EditAction.spec {before after : ImposterConfig} {action : EngineAction}
    (h : EditAction U p before after action) (hd : (ids before.stubs).Nodup) :
    OnPort p n (n.driveOne U F action) ∧ ((n.driveOne U F action).Failing p ∨
      (n.Failing p → (n.driveOne U F action).needsResync = true) ∧
        (n.served[p]? = some before → (n.driveOne U F action).served[p]? = some after)) := by
  have hcall {call : Engine × Except ImposterError Unit} (honly : OnlyServes p n call.1)
      (hs : call.2 = .ok () → n.served[p]? = some before → call.1.served[p]? = some after) :
      OnPort p n (Engine.outcome p call) ∧ ((Engine.outcome p call).Failing p ∨
        (n.Failing p → (Engine.outcome p call).needsResync = true) ∧
          (n.served[p]? = some before → (Engine.outcome p call).served[p]? = some after)) := by
    obtain ⟨hon, hout⟩ := outcome_spec honly
    exact ⟨hon, hout.imp id fun ⟨hok, heq, hresync⟩ => ⟨hresync, fun hb => heq.trans (hs hok hb)⟩⟩
  cases h with
  | @patch edit stubs hedit =>
    refine hcall (drivePatch_spec edit).1 fun hok hserved => ?_
    obtain ⟨stubs', h1, h2⟩ := (drivePatch_spec edit).2 hok _ hserved
    rw [hedit] at h1
    cases h1
    exact h2
  | toggle enabled =>
    refine @hcall (n.setImposterEnabled F p enabled) call_spec.1 fun hok hserved => ?_
    obtain ⟨c, c', h1, h2, h3⟩ := call_spec.2 hok
    rw [hserved] at h1
    cases h1
    cases h2
    exact h3
  | @add i stub hi =>
    refine hcall (drivePatch_spec _).1 fun hok hserved => ?_
    obtain ⟨stubs, h1, h2⟩ := (drivePatch_spec _).2 hok _ hserved
    rw [applyEdit, List.foldlM_cons] at h1
    simp only [applyStep] at h1
    split at h1
    · cases h1
    · cases h1
      simpa [hi] using h2
  | @append i target id responses hi hid =>
    set merged : Stub := { target with responses := target.responses ++ responses } with hmerged
    have hcases : (if n.ownsSequence p then n.stubStep U F p (.replaceById id merged)
          else n.appendStubResponsesById F p id responses) = n.stubStep U F p (.replaceById id merged) ∨
        (if n.ownsSequence p then n.stubStep U F p (.replaceById id merged)
          else n.appendStubResponsesById F p id responses) = n.appendStubResponsesById F p id responses := by
      split
      · exact .inl rfl
      · exact .inr rfl
    refine hcall ?_ fun hok hserved => driveAppend_spec hd hi hid hserved _ hcases hok
    rcases hcases with h | h <;> rw [h] <;> exact call_spec.1

theorem driven_edit {r r' : Row} {action : EngineAction} (hp0 : p ≠ 0) (hrow : t.configs[p]? = some (r.text U))
    (hport : r'.config.port = some p) (hrows : RowAt U t t' p r') (haction : EditAction U p r.config r'.config action)
    (hd : (ids r.config.stubs).Nodup) :
    Driven U t t' n (n.drive U F (editDrive U (U.admits r.config) r'.config action)) := by
  unfold editDrive
  cases hv : U.admissionVerdict r'.config with
  | error e =>
    -- refused: nothing is driven, and the row asks for nothing
    have hno : U.admits r'.config = false := by
      rw [Bool.eq_false_iff, Ne, admits_iff, hv]; simp
    refine OnPort.driven (p := p) ⟨fun _ _ => rfl, fun _ _ => id, id⟩ hp0 hrows.other (fun _ => ?_) fun _ => rfl
    exact .inr (.inr ((agreeAt_row hrows.row).2 fun ha => by rw [hno] at ha; cases ha))
  | ok u =>
    have hyes : U.admits r'.config = true := admits_iff.2 hv
    have hnot : ¬ Refused U t' p := by rw [refused_row hrows.row, hyes]; simp
    dsimp only
    cases hwas : U.admits r.config with
    | false =>
      have h := drivePut_spec (F := F) (n := n) hport hyes none
      exact h.1.driven hp0 hrows.other (fun _ => .inr (h.2.imp id fun hs => (agreeAt_row hrows.row).2 fun _ => hs))
        fun hr => absurd hr hnot
    | true =>
      obtain ⟨hon, hinc⟩ := haction.spec (F := F) (n := n) hd
      refine OnPort.driven hon hp0 hrows.other (fun hpre => ?_) fun hr => absurd hr hnot
      rcases hinc with hf | ⟨hresync, hserved⟩
      · exact .inr (.inl hf)
      · rcases hpre with hf | ha
        · exact .inl (hresync hf)
        · exact .inr (.inr ((agreeAt_row hrows.row).2 fun _ => hserved ((agreeAt_row hrow).1 ha hwas)))

theorem driven_put {config : ImposterConfig} {restart : Option Restart} {r : Row} (hp0 : p ≠ 0)
    (hport : config.port = some p) (hr : r.config = config) (hrows : RowAt U t t' p r) :
    Driven U t t' n (n.drivePut U F config restart) := by
  subst hr
  cases hv : U.admits r.config with
  | true =>
    have h := drivePut_spec (F := F) (n := n) hport hv restart
    refine h.1.driven hp0 hrows.other
      (fun _ => .inr (h.2.imp id fun hs => (agreeAt_row hrows.row).2 fun _ => hs)) fun hr => ?_
    rw [refused_row hrows.row, hv] at hr
    cases hr
  | false =>
    rw [drivePut_refused hport hv]
    refine OnPort.driven (p := p) ⟨fun _ _ => rfl, fun _ _ => id, id⟩ hp0 hrows.other (fun _ => ?_) fun _ => rfl
    exact .inr (.inr ((agreeAt_row hrows.row).2 fun ha => by rw [hv] at ha; cases ha))

/-- A restart after the whole set was driven: it re-puts what is there, or reaches a
refused port only to restart what is no stub. -/
theorem driven_restart {restart : Restart} {r : Row} (hp0 : p ≠ 0) (hrow : t.configs[p]? = some (r.text U))
    (hsafe : U.admits r.config = true ∨ (∀ i, restart ≠ .stubAt i) ∧ restart ≠ .allStubs) :
    Driven U t t n (n.restart p restart r.config.stubs) := by
  cases hv : U.admits r.config with
  | true =>
    refine (onlyServes_restart restart _).onPort.driven hp0 (fun _ _ => rfl) (fun hpre => .inr ?_) fun hr => ?_
    · refine hpre.imp (fun hf => ?_) fun ha => (agreeAt_row hrow).2 fun _ => ?_
      · rw [Engine.Failing, (onlyServes_restart restart _).failures]; exact hf
      · exact restart_served restart ((agreeAt_row hrow).1 ha hv)
    · rw [refused_row hrow, hv] at hr
      cases hr
  | false =>
    obtain ⟨h1, h2⟩ := hsafe.resolve_left (by simp [hv])
    rw [restart_eq h1 h2]
    exact .same rfl rfl rfl rfl

theorem driven_delete (hp0 : p ≠ 0) (hrows : ∀ q : Port, t'.configs[q]? = if p = q then none else t.configs[q]?) :
    Driven U t t' n (n.driveDelete F p) := by
  have hnone : t'.configs[p]? = none := by rw [hrows, if_pos rfl]
  have h := driveDelete_spec (F := F) (n := n) (p := p)
  refine h.1.driven hp0 (fun q hq => by rw [hrows, if_neg (Ne.symm hq)])
    (fun _ => .inr (h.2.imp id (agreeAt_none hnone).2)) ?_
  rintro ⟨row, hrow, -⟩
  rw [hnone] at hrow
  cases hrow

theorem clear_served : (n.clearProxyResponses p).served[p]? = n.served[p]?.map stripped := rewriteStubs_served _

theorem onlyServes_clear : OnlyServes p n (n.clearProxyResponses p) := onlyServes_rewriteStubs _

theorem driven_clear {r r' : Row} (hp0 : p ≠ 0) (hrow : t.configs[p]? = some (r.text U))
    (hr' : r'.config = stripped r.config) (hrows : RowAt U t t' p r') (hbefore : U.admits r.config = true)
    (hafter : U.admits r'.config = true) : Driven U t t' n (n.clearProxyResponses p) := by
  refine onlyServes_clear.onPort.driven hp0 hrows.other (fun hpre => .inr (hpre.imp (fun hf => ?_) fun ha => ?_))
    fun hr => ?_
  · rw [Engine.Failing, onlyServes_clear.failures]; exact hf
  · rw [agreeAt_row hrows.row, clear_served, (agreeAt_row hrow).1 ha hbefore, hr']
    exact fun _ => rfl
  · rw [refused_row hrows.row, hafter] at hr
    cases hr

/-- **Every operation's drive keeps track**, whatever the engine's calls do. -/
theorem OpDrive.driven {degraded : Bool} {op : ControlOp} {actions : List EngineAction}
    (h : OpDrive U t t' degraded op actions) (hok' : TablesOk U t') (h0 : t.configs[0]? = none)
    (huniq : UniqueIds U t) (hvalid : validate U op = .ok ()) (hsafe : OpSafe U t degraded op) :
    Driven U t t' n (n.drive U F actions) := by
  cases h with
  | still hrows => exact .same hrows rfl rfl rfl
  | routes routes hrows =>
    simp only [Engine.drive, syncRoutesAction, List.foldl_cons, List.foldl_nil]
    split <;> exact .same hrows rfl rfl rfl
  | whole => exact driven_sync hok'
  | put hport hr hrows _ =>
    obtain ⟨p, hp, hp0⟩ := port_of_validate hvalid
    rw [hport] at hp
    cases hp
    exact driven_put hp0 hport hr hrows
  | @restart config restart p r hport hr hrows hd =>
    obtain ⟨p', hp, hp0⟩ := port_of_validate hvalid
    rw [hport] at hp
    cases hp
    subst hr
    exact (driven_sync (F := F) hok').trans (driven_restart hp0 hrows.row ((hsafe hd).imp id fun ⟨h1, h2⟩ =>
      ⟨fun i hi => h1 i (by rw [hi]), fun ha => h2 (by rw [ha])⟩)) rfl
  | @delete p hrows hd => exact driven_delete (fun hp => by rw [hsafe hp] at hd; cases hd) hrows
  | @edit _ p r r' action hrow hport hrows haction =>
    exact driven_edit (ne_zero_of_row h0 hrow) hrow hport hrows haction (huniq p r hrow)
  | @clear p r r' hrow hr' hrows =>
    obtain ⟨hbefore, hafter, htwice⟩ := hsafe r hrow
    have hp0 := ne_zero_of_row h0 hrow
    rw [← hr'] at hafter
    rw [hafter]
    cases degraded with
    | false => exact driven_clear hp0 hrow hr' hrows hbefore hafter
    | true =>
      -- the engine is given the stripped config first, and then strips it again
      have hsame : RowAt U t' t' p r' := fun q => by
        by_cases hq : p = q
        · rw [if_pos hq, ← hq, hrows.row]
        · rw [if_neg hq]
      exact (driven_sync (F := F) hok').trans
        (driven_clear hp0 hrows.row (by rw [hr', htwice rfl]) hsame hafter hafter) rfl

/-! ## Runs of a node -/

theorem runOp_zero (hok : TablesOk U t) (h0 : t.configs[0]? = none) (request : ControlRequest) (index : ℕ)
    (degraded : Bool) : (runOp U t request index degraded).1.configs[0]? = none := by
  unfold runOp
  split
  · exact h0
  · rename_i hvalid
    split
    · exact h0
    · rcases mutate_row hok request.op index degraded 0 with h | ⟨-, h⟩ | ⟨r, hw, -⟩
      · rw [h]; exact h0
      · exact h
      · exfalso
        generalize request.op = op at hvalid hw
        cases hw with
        | put hport =>
          obtain ⟨p, hp, hp0⟩ := port_of_validate hvalid
          rw [hport] at hp
          cases hp
          exact hp0 rfl
        | patch hrow _ => rw [h0] at hrow; cases hrow
        | toggle hrow => rw [h0] at hrow; cases hrow
        | record hrow _ => rw [h0] at hrow; cases hrow
        | clear hrow _ => rw [h0] at hrow; cases hrow

theorem runOp_drive (hok : TablesOk U t) (request : ControlRequest) (index : ℕ) (degraded : Bool) :
    (runOp U t request index degraded).1 = t ∧ (∃ reason, (runOp U t request index degraded).2 = .error reason) ∨
      validate U request.op = .ok () ∧ ∃ actions, (runOp U t request index degraded).2 = .ok actions ∧
        OpDrive U t (runOp U t request index degraded).1 degraded request.op actions := by
  cases ho : (runOp U t request index degraded).2 with
  | error reason => exact .inl ⟨runOp_refused request index degraded reason ho, reason, rfl⟩
  | ok actions =>
    refine .inr ?_
    unfold runOp at ho ⊢
    split at ho
    · cases ho
    · rename_i hvalid
      rw [hvalid]
      split at ho
      · cases ho
      · exact ⟨rfl, actions, rfl, mutate_drive hok ho⟩

theorem tablesOk_runOp (hok : TablesOk U t) (request : ControlRequest) (index : ℕ) (degraded : Bool) :
    TablesOk U (runOp U t request index degraded).1 := by
  unfold runOp
  split
  · exact hok
  · split
    · exact hok
    · exact tablesOk_mutateTables hok _ _ _

theorem commitOp_actions (s : State) (e : Entry) (request : ControlRequest) (index : ℕ) (degraded : Bool) :
    (commitOp U (s.receive e) request index degraded).actions.map AttributedAction.action =
      (runOp U s.tables request index degraded).2.toOption.getD [] := by
  show (actionsOf request.principal (runOp U s.tables request index degraded).2).map AttributedAction.action = _
  cases (runOp U s.tables request index degraded).2 with
  | error reason => rfl
  | ok actions => simp [actionsOf, Except.toOption, Function.comp_def]

/-- The step keeps away from the cases of `OpSafe`, and finds stub ids unique. -/
def StepSafe (U : Upstream) (s : Node) : NodeEvent → Prop
  | .begin => True
  | .entry e => UniqueIds U s.sm.tables ∧
      ∀ request, e.payload = .normal request → OpSafe U s.sm.tables s.degraded request.op

/-- What every state of a run keeps. -/
structure NodeOk (U : Upstream) (s : Node) : Prop where
  tables : TablesOk U s.sm.tables
  zero : s.sm.tables.configs[0]? = none
  tracks : Tracks U s.sm.tables s.engine

/-- **One step of a node.** -/
theorem node_step {s : Node} (hok : NodeOk U s) {ev : NodeEvent} (hsafe : StepSafe U s ev) :
    NodeOk U (s.step U F ev) ∧
      ∀ p, Refused U (s.step U F ev).sm.tables p → (s.step U F ev).engine.served[p]? = s.engine.served[p]? := by
  cases ev with
  | begin => exact ⟨⟨hok.tables, hok.zero, hok.tracks⟩, fun _ _ => rfl⟩
  | entry e =>
    rcases applyOne_cases (U := U) s.degraded s.sm e with ⟨-, heq⟩ | ⟨_, _, -, -, heq⟩ | ⟨request, hp, -, heq⟩
    · simp only [Node.step, heq]
      exact ⟨⟨hok.tables, hok.zero, hok.tracks⟩, fun _ _ => rfl⟩
    · simp only [Node.step, heq]
      exact ⟨⟨hok.tables, hok.zero, hok.tracks⟩, fun _ _ => rfl⟩
    · have htables := tablesOk_runOp hok.tables request e.logId.index s.degraded
      have hzero := runOp_zero hok.tables hok.zero request e.logId.index s.degraded
      simp only [Node.step, heq, commitOp_actions]
      rcases runOp_drive hok.tables request e.logId.index s.degraded with ⟨hsame, reason, ho⟩ | ⟨hvalid, actions, ho, hdrive⟩
      · refine ⟨⟨htables, hzero, ?_⟩, fun _ _ => ?_⟩
        · rw [show (commitOp U (s.sm.receive e) request e.logId.index s.degraded).state.tables = s.sm.tables from hsame, ho]
          exact hok.tracks
        · rw [ho]; rfl
      · have hdriven := hdrive.driven (F := F) (n := s.engine) htables hok.zero hsafe.1 hvalid (hsafe.2 request hp)
        rw [ho]
        exact ⟨⟨htables, hzero, hdriven.tracks hok.tracks⟩, hdriven.refused⟩

/-- **A node that records no failure serves its tables.** Along any batches of a node
whose engine agreed with its tables at the start, and whatever engine calls fail: where
no failure is recorded, every admitted port serves its stored config and no port without
a row is served; and a port keeps what it serves for as long as its row is refused. -/
theorem engine_serves_tables (U : Upstream) (F : Calls) (s : Node) (htables : TablesOk U s.sm.tables)
    (hzero : s.sm.tables.configs[0]? = none) (hagree : ∀ p, AgreeAt U s.sm.tables s.engine p)
    (batches : List (List Entry))
    (hsafe : ∀ k (hk : k < (nodeEventsOf batches).length),
      StepSafe U (nAt U F s (nodeEventsOf batches) k) (nodeEventsOf batches)[k]) :
    s.applyBatches U F batches = .ok (nAt U F s (nodeEventsOf batches) (nodeEventsOf batches).length) ∧
      ∀ k ≤ (nodeEventsOf batches).length,
        let s' := nAt U F s (nodeEventsOf batches) k
        (s'.engine.isDegraded = false → ∀ p, AgreeAt U s'.sm.tables s'.engine p) ∧
          ∀ p, ∀ j ≤ k,
            (∀ i, j < i → i ≤ k → Refused U (nAt U F s (nodeEventsOf batches) i).sm.tables p) →
            s'.engine.served[p]? = (nAt U F s (nodeEventsOf batches) j).engine.served[p]? := by
  set es := nodeEventsOf batches with hes
  have hstart : NodeOk U s := ⟨htables, hzero, .inr fun p => .inr (hagree p)⟩
  have hrun : ∀ k, k ≤ es.length → NodeOk U (nAt U F s es k) := by
    intro k hk
    refine Trace.stateAt_stretch (Nat.zero_le k) hk ?_ fun i hi _ _ h => (node_step h (hsafe i hi)).1
    rw [Trace.stateAt_zero]
    exact hstart
  refine ⟨by rw [applyBatches_eq, nAt, Trace.stateAt_length], fun k hk => ⟨(hrun k hk).tracks.agrees, fun p j hj => ?_⟩⟩
  -- while the row stays refused no step touches what the port serves
  induction k, hj using Nat.le_induction with
  | base => exact fun _ => rfl
  | succ k hjk ih =>
    intro href
    have hstep := node_step (F := F) (hrun k (Nat.le_of_lt hk)) (hsafe k hk)
    rw [← nAt_succ hk] at hstep
    rw [hstep.2 p (href (k + 1) (Nat.lt_succ_of_le hjk) le_rfl)]
    exact ih (Nat.le_of_lt hk) fun i hi hik => href i hi (Nat.le_succ_of_le hik)

/-- A put on a fresh node: the engine runs the config, and no call fails. -/
theorem firstPut_is_served :
    let s := nAt jsonUpstream .faultless {} (nodeEventsOf [[requestAt 1 firstPut]]) 2
    ∀ p, AgreeAt jsonUpstream s.sm.tables s.engine p := by
  have h := engine_serves_tables jsonUpstream .faultless {} tablesOk_empty (get_empty 0)
    (fun p => (agreeAt_none (get_empty p)).2 (get_empty p)) [[requestAt 1 firstPut]] ?_
  · exact (h.2 2 (by decide)).1 (by decide +kernel)
  · intro k hk
    match k with
    | 0 => trivial
    | 1 =>
      refine ⟨uniqueIds_empty rfl, fun request hp => ?_⟩
      cases hp
      exact fun hd => by cases hd
    | k + 2 => exact absurd hk (by simp [nodeEventsOf])

/-- A recorded stub with a predicate that will not compile. -/
def refusedStub : Stub :=
  { id := none, predicates := ["("], responses := [.is (some 5) ""], recordedFrom := some "u" }

/-- The put of a config the engine refuses for that stub, and the clear of its port. -/
def refusedThenCleared : List (List Entry) :=
  [[requestAt 1 { opId := "op-1", op := .putImposter (httpImposter [refusedStub]) none }],
    [requestAt 2 { opId := "op-2", op := .proxyRecordedClear 4545 }]]

def clearedNode : Node := nAt jsonUpstream .faultless {} (nodeEventsOf refusedThenCleared) 4

theorem clearedNode_row : clearedNode.sm.tables.configs[(4545 : Port)]? =
    some ((⟨httpImposter [], true, 2⟩ : Row).text jsonUpstream) := by
  decide +kernel

/-- **An admitted port that is not served, on a node that records no failure.** The clear
leaves a config the engine runs, and drives only the clearing of a port it never made. -/
theorem clearedNode_not_served :
    clearedNode.engine.isDegraded = false ∧ ¬ AgreeAt jsonUpstream clearedNode.sm.tables clearedNode.engine 4545 := by
  have hadmits : jsonUpstream.admits (httpImposter []) = true := by decide +kernel
  have hnone : clearedNode.engine.served[(4545 : Port)]? = none := by decide +kernel
  refine ⟨by decide +kernel, ?_⟩
  rw [agreeAt_row clearedNode_row, hnone]
  exact fun hserved => nomatch hserved hadmits

end RiftCluster
