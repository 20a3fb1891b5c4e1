import RiftCluster.Model.Sweep
import RiftCluster.Model.Wire
import RiftCluster.Proof.Shard

/-!
# What the orphan sweep drops

A port the sweep has accused had no row when the configured ports were read
(`SweepOk`), and only flows of accused ports are dropped (`advance_flow`). The sweep
does not read the tables again, so the two together say that a dropped flow has no row
only where no step since that read has given its port one (`sweep_drops_orphaned`).
Where a batch does, the sweep drops the flows of a live imposter, those it has just
written included (`recreatedImposter_loses_flow`).
-/

namespace RiftCluster

open KV

variable {V : Type} {U : Upstream} {C : SnapshotCodec} {n : SweepNode V} {p : Port} {f : String} {now : ℕ}

theorem mem_configuredPorts {t : Tables} : p ∈ configuredPorts t ↔ t.configs[p]?.isSome = true := by
  rw [configuredPorts, List.mem_toFinset, mem_toList_keys]

/-! ## One step of a clear -/

/-- All that is left of a flow's clear is to tell the writer. -/
def ScopeClear.Submits (c : ScopeClear V) : Prop := ∀ task ∈ c.pending, ∃ request, task = .submit request

/-- **A step of a clear** keeps its ports, and takes a flow out of the memory only if
its port is one of them. -/
theorem ScopeClear.step_spec {c : ScopeClear V} (hc : c.Submits) (now : ℕ) (s : Shard V) (f : String) :
    (c.step now s).2.ports = c.ports ∧ (c.step now s).2.Submits ∧
      ((c.step now s).1.memory[f]? = s.memory[f]? ∨ ∃ port ∈ c.ports, imposterPort f = some port) := by
  obtain ⟨ports, flows, dropped, pending⟩ := c
  cases pending with
  | cons task pending =>
    obtain ⟨request, rfl⟩ := hc _ List.mem_cons_self
    refine ⟨rfl, fun task h => hc task (List.mem_cons_of_mem _ h), .inl ?_⟩
    exact congrArg (·[f]?) (s.send_memory request)
  | nil =>
    cases flows with
    | nil => exact ⟨rfl, nofun, .inl rfl⟩
    | cons flowId flows =>
      cases hport : imposterPort flowId with
      | none =>
        have hstep : ScopeClear.step now s ⟨ports, flowId :: flows, dropped, []⟩ = (s, ⟨ports, flows, dropped, []⟩) := by
          simp only [ScopeClear.step, hport]
        rw [hstep]
        exact ⟨rfl, nofun, .inl rfl⟩
      | some port =>
        by_cases hmem : port ∈ ports
        · simp only [ScopeClear.step, hport, if_pos hmem, ShardCall.begin]
          refine ⟨trivial, fun task h => ⟨_, List.mem_singleton.1 h⟩, ?_⟩
          rcases eq_or_ne f flowId with rfl | hne
          · exact .inr ⟨port, hmem, hport⟩
          · left
            rw [Shard.drop, get_erase, if_neg hne.symm]
        · have hstep : ScopeClear.step now s ⟨ports, flowId :: flows, dropped, []⟩ =
              (s, ⟨ports, flows, dropped, []⟩) := by
            simp only [ScopeClear.step, hport, if_neg hmem]
          rw [hstep]
          exact ⟨rfl, nofun, .inl rfl⟩

/-! ## Along a run -/

/-- The ports a sweep has found orphaned, until it is done with them. -/
def Sweep.accused : Sweep V → Finset Port
  | .idle _ | .held _ => ∅
  | .orphaned ports => ports
  | .clearing c => c.ports

/-- A port that is accused has no row. -/
structure SweepOk (p : Port) (n : SweepNode V) : Prop where
  absent : p ∈ n.sweep.accused → n.state.tables.configs[p]? = none
  submits : ∀ c, n.sweep = .clearing c → c.Submits

theorem sweepOk_advance (h : SweepOk p n) : SweepOk p (n.advance now) := by
  unfold SweepNode.advance
  split
  · exact h
  · rename_i t _
    split
    · exact ⟨nofun, nofun⟩
    · rename_i ports _
      dsimp only
      split
      · exact ⟨nofun, nofun⟩
      · refine ⟨fun hp => ?_, nofun⟩
        -- the second read acquits every port that has a row
        have hnot := (Finset.mem_sdiff.1 hp).2
        rwa [mem_configuredPorts, Bool.not_eq_true, Option.isSome_eq_false_iff, Option.isNone_iff_eq_none] at hnot
    · rename_i ports hsweep
      refine ⟨fun hp => h.absent (by rwa [hsweep]), ?_⟩
      rintro c ⟨⟩
      exact nofun
    · rename_i c hsweep
      split
      · exact ⟨nofun, nofun⟩
      · obtain ⟨hports, hsubmits, -⟩ := ScopeClear.step_spec (h.submits c hsweep) now t.shard ""
        refine ⟨fun hp => h.absent ?_, ?_⟩
        · rw [hsweep, Sweep.accused, ← hports]
          exact hp
        · rintro c' ⟨⟩
          exact hsubmits

/-- **The sweep drops flows of accused ports only.** -/
theorem advance_flow (h : SweepOk p n) (hf : imposterPort f = some p) (hheld : (n.flow? f).isSome = true)
    (hgone : (n.advance now).flow? f = none) : p ∈ n.sweep.accused := by
  have hsame : (n.advance now).flowNet = n.flowNet → p ∈ n.sweep.accused := by
    intro heq
    rw [SweepNode.flow?, heq] at hgone
    rw [SweepNode.flow?, hgone] at hheld
    cases hheld
  cases hnet : n.flowNet with
  | none => exact hsame (by simp [SweepNode.advance, hnet])
  | some t =>
    cases hsweep : n.sweep with
    | idle _ => exact hsweep ▸ hsame (by simp [SweepNode.advance, hnet, hsweep])
    | held ports => exact hsweep ▸ hsame (by simp [SweepNode.advance, hnet, hsweep])
    | orphaned ports => exact hsweep ▸ hsame (by simp [SweepNode.advance, hnet, hsweep])
    | clearing c =>
      by_cases hdone : c.finished = true
      · exact hsweep ▸ hsame (by simp [SweepNode.advance, hnet, hsweep, hdone])
      · obtain ⟨-, -, hkeeps | ⟨port, hmem, hport⟩⟩ :=
          ScopeClear.step_spec (h.submits c hsweep) now t.shard f
        · simp only [SweepNode.flow?, SweepNode.advance, hnet, hsweep, hdone, Bool.false_eq_true, if_false,
            Option.bind_some, hkeeps] at hgone hheld
          rw [hgone] at hheld
          cases hheld
        · rw [hf] at hport
          cases hport
          exact hmem

/-- The step gives the port no row while the sweep accuses it. -/
def SweepMove.LeavesOrphaned (U : Upstream) (C : SnapshotCodec) (n : SweepNode V) (p : Port) (move : SweepMove V) : Prop :=
  p ∈ n.sweep.accused → n.state.tables.configs[p]? = none → (move.commits U C n.state).tables.configs[p]? = none

instance (move : SweepMove V) : Decidable (move.LeavesOrphaned U C n p) :=
  inferInstanceAs (Decidable (_ → _ → _))

theorem sweepOk_step {move : SweepMove V} (h : SweepOk p n) (hmove : move.LeavesOrphaned U C n p) :
    SweepOk p (n.step U C move) := by
  cases move with
  | apply degraded entries => exact ⟨fun hp => hmove hp (h.absent hp), h.submits⟩
  | install received => exact ⟨fun hp => hmove hp (h.absent hp), h.submits⟩
  | shard m => exact ⟨h.absent, h.submits⟩
  | sweep now => exact sweepOk_advance h

def SweepNode.after (U : Upstream) (C : SnapshotCodec) (n : SweepNode V) (moves : List (SweepMove V)) (i : ℕ) :
    SweepNode V :=
  Trace.stateAt (SweepNode.step U C) n moves i

/-- The step is one of the sweep, and takes a flow out of the shard. -/
def SweepMove.Drops (U : Upstream) (C : SnapshotCodec) (n : SweepNode V) (f : String) (move : SweepMove V) : Prop :=
  (∃ now, move = .sweep now) ∧ (n.flow? f).isSome = true ∧ (n.step U C move).flow? f = none

/-- **The sweep drops orphaned state only**, along every run in which no step gives a
port a row between the sweep's read of the configured ports and the end of its clear. -/
theorem sweep_drops_orphaned (U : Upstream) (C : SnapshotCodec) (n : SweepNode V) (dropped : Table Port ℕ)
    (hidle : n.sweep = .idle dropped) (moves : List (SweepMove V)) (p : Port)
    (hmoves : ∀ i (hi : i < moves.length), moves[i].LeavesOrphaned U C (n.after U C moves i) p)
    (i : ℕ) (hi : i < moves.length) (f : String) (hf : imposterPort f = some p)
    (hdrop : moves[i].Drops U C (n.after U C moves i) f) : (n.after U C moves i).state.tables.configs[p]? = none := by
  have hstart : SweepOk p n := by
    constructor
    · rw [hidle]; nofun
    · rw [hidle]; nofun
  have hok : SweepOk p (n.after U C moves i) :=
    Trace.stateAt_stretch (Nat.zero_le i) hi.le (by simpa using hstart) fun k hk _ _ h => sweepOk_step h (hmoves k hk)
  obtain ⟨⟨now, hmove⟩, hheld, hgone⟩ := hdrop
  rw [hmove] at hgone
  exact hok.absent (advance_flow hok hf hheld hgone)

/-- A node without imposters, whose shard still holds a flow under each of two ports. -/
def leftoverNode : SweepNode ℕ where
  flowNet := some {
    shard := (({ maxFlows := 10 } : Shard ℕ).set 1 "i4545:cart" "step" ⟨1, 1, 1, 0, 7, false⟩ .async).set 1
      "i6400:cart" "step" ⟨1, 1, 1, 0, 8, false⟩ .async }

/-- One of the two imposters is put again between the sweep's reads; the sweep then passes
over that port's flow, and drops the other's. -/
def putBetweenReads : List (SweepMove ℕ) :=
  [.sweep 1, .apply false [requestAt 1 firstPut], .sweep 1, .sweep 1, .sweep 1, .sweep 1]

theorem putBetweenReads_drops_orphan :
    (leftoverNode.after jsonUpstream jsonSnapshot putBetweenReads 6).flow? "i4545:cart" ≠ none ∧
      (leftoverNode.after jsonUpstream jsonSnapshot putBetweenReads 6).flow? "i6400:cart" = none ∧
      (leftoverNode.after jsonUpstream jsonSnapshot putBetweenReads 5).state.tables.configs[(6400 : Port)]? = none :=
  ⟨by decide +kernel, by decide +kernel,
    sweep_drops_orphaned jsonUpstream jsonSnapshot leftoverNode ∅ rfl putBetweenReads 6400 (by decide +kernel) 5
      (by decide) "i6400:cart" (by decide +kernel) ⟨⟨1, rfl⟩, by decide +kernel, by decide +kernel⟩⟩

/-- The imposter is put again after the sweep's second read, and writes a flow. -/
def putAfterReads : List (SweepMove ℕ) :=
  [.sweep 1, .sweep 1, .apply false [requestAt 1 firstPut],
    .shard (.call 2 (.set "i4545:order" "step" ⟨1, 1, 1, 0, 9, false⟩ .async)), .sweep 2, .sweep 2, .sweep 2, .sweep 2]

/-- The sweep drops the flow the live imposter has just written. -/
theorem recreatedImposter_loses_flow : ∃ i, ∃ hi : i < putAfterReads.length,
    putAfterReads[i].Drops jsonUpstream jsonSnapshot (leftoverNode.after jsonUpstream jsonSnapshot putAfterReads i)
        "i4545:order" ∧
      imposterPort "i4545:order" = some 4545 ∧
      (leftoverNode.after jsonUpstream jsonSnapshot putAfterReads i).state.tables.configs[(4545 : Port)]?.isSome = true :=
  ⟨7, by decide, ⟨⟨2, rfl⟩, by decide +kernel, by decide +kernel⟩, by decide +kernel, by decide +kernel⟩

end RiftCluster
