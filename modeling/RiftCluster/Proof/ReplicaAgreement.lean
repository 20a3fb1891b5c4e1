import RiftCluster.Proof.Snapshot

/-!
# Replicas of one log agree

The state machines of a fleet, over the committed log. A replica applies the next entries in
batches of its own, builds a snapshot of what it holds, or installs one that another built. The
invariant is `HoldsLog`: seen through one more sweep, a replica's state is the eager run of the
entries it stands for. So replicas at one position agree (`replicas_agree`).
-/

namespace RiftCluster

open KV

variable {U : Upstream} {C : SnapshotCodec} {log : List Entry}

structure LogReplica where
  state : State := {}
  /-- How many entries of the log the state stands for. -/
  position : ℕ := 0

structure ReplicaFleet where
  replicas : ℕ → LogReplica := fun _ => {}
  /-- The snapshots that were built, each with the position of its replica. -/
  files : List (ℕ × List UInt8) := []

inductive ReplicaMove where
  /-- The replica applies the next entries of the log in one batch. -/
  | apply (node : ℕ) (degraded : Bool) (count : ℕ)
  | build (node : ℕ)
  | install (node file : ℕ)

/-- One move. It ends the run if the storage fails. -/
def ReplicaFleet.step (U : Upstream) (C : SnapshotCodec) (log : List Entry) (f : ReplicaFleet) :
    ReplicaMove → Option ReplicaFleet
  | .apply node degraded count =>
    let r := f.replicas node
    let batch := (log.drop r.position).take count
    (RiftCluster.apply U degraded r.state batch).toOption.map fun x =>
      { f with replicas := Function.update f.replicas node ⟨x.state, r.position + batch.length⟩ }
  | .build node =>
    let r := f.replicas node
    some { f with files := f.files ++ [(r.position, buildSnapshot U C r.state)] }
  | .install node file =>
    match f.files[file]? with
    | none => some f
    | some (position, bytes) =>
      (installSnapshot U C (f.replicas node).state bytes).toOption.map fun x =>
        { f with replicas := Function.update f.replicas node ⟨x.1, position⟩ }

/-- The state is one that the first `position` entries lead to. -/
structure HoldsLog (U : Upstream) (log : List Entry) (s : State) (position : ℕ) : Prop where
  ok : StateOk U s
  swept : s.sweep U = (log.take position).foldl (State.eager U) (({} : State).sweep U)

structure ReplicaFleet.Ok (U : Upstream) (C : SnapshotCodec) (log : List Entry) (f : ReplicaFleet) : Prop where
  replicas : ∀ node, HoldsLog U log (f.replicas node).state (f.replicas node).position
  files : ∀ file ∈ f.files, ∃ s, file.2 = buildSnapshot U C s ∧ HoldsLog U log s file.1

theorem holdsLog_apply {s : State} {position : ℕ} (h : HoldsLog U log s position) (degraded : Bool) (count : ℕ) :
    ∃ x, apply U degraded s ((log.drop position).take count) = .ok x ∧
      HoldsLog U log x.state (position + ((log.drop position).take count).length) := by
  refine ⟨_, apply_eq degraded s _, stateOk_foldl h.ok _, ?_⟩
  have hbatch : ∀ es : List Entry, logOf (.sweep :: es.map (.entry degraded)) = es := by
    intro es
    simpa [eventsOf] using logOf_eventsOf [(degraded, es)]
  have htake : log.take (position + ((log.drop position).take count).length) =
      log.take position ++ (log.drop position).take count := by
    rw [List.take_add, List.length_take, ← List.take_take, List.take_length]
  rw [runEvents, run_sweep, hbatch, h.swept, htake, List.foldl_append]

theorem Ok_update {f : ReplicaFleet} (hf : f.Ok U C log) {s : State} {position : ℕ} (h : HoldsLog U log s position)
    (node : ℕ) : ({ f with replicas := Function.update f.replicas node ⟨s, position⟩ } : ReplicaFleet).Ok U C log where
  files := hf.files
  replicas := by
    intro other
    by_cases hother : other = node
    · subst hother
      simpa only [Function.update_self] using h
    · simpa only [Function.update_of_ne hother] using hf.replicas other

theorem fleet_step {f : ReplicaFleet} (hf : f.Ok U C log) (move : ReplicaMove) :
    ∃ f', f.step U C log move = some f' ∧ f'.Ok U C log := by
  cases move with
  | apply node degraded count =>
    obtain ⟨x, hx, hholds⟩ := holdsLog_apply (hf.replicas node) degraded count
    refine ⟨_, ?_, Ok_update hf hholds node⟩
    rw [ReplicaFleet.step, hx]
    rfl
  | build node =>
    refine ⟨_, rfl, hf.replicas, ?_⟩
    intro file hfile
    rcases List.mem_append.1 hfile with hfile | hfile
    · exact hf.files file hfile
    · cases List.mem_singleton.1 hfile
      exact ⟨_, rfl, hf.replicas node⟩
  | install node file =>
    rw [ReplicaFleet.step]
    cases hfile : f.files[file]? with
    | none => exact ⟨f, rfl, hf⟩
    | some row =>
      obtain ⟨s, hbytes, hholds⟩ := hf.files row (List.mem_of_getElem? hfile)
      obtain ⟨actions, hinstall⟩ := install_build (C := C) hholds.ok (f.replicas node).state
      refine ⟨_, ?_, Ok_update hf hholds node⟩
      simp only [hbytes, hinstall]
      rfl

/-- **Replicas of one log agree.** In any run of a new fleet, with batches of any size and
snapshots built at any point and installed anywhere, no move fails. Replicas at one position have
the same tables, the same applied id, membership and clock, and the same live dedup rows; and
whatever log follows, in whatever batches on each, they answer it alike. -/
theorem replicas_agree (U : Upstream) (C : SnapshotCodec) (log : List Entry) (moves : List ReplicaMove) :
    ∃ f, moves.foldlM (ReplicaFleet.step U C log) {} = some f ∧
      ∀ m n, (f.replicas m).position = (f.replicas n).position →
        (f.replicas m).state.tables = (f.replicas n).state.tables ∧
        (f.replicas m).state.applied = (f.replicas n).state.applied ∧
        (∀ k, liveRows U (f.replicas m).state k = liveRows U (f.replicas n).state k) ∧
        ∀ a b : List (Bool × List Entry), a.flatMap Prod.snd = b.flatMap Prod.snd →
          ∃ x y, applyAll U (f.replicas m).state a = .ok x ∧ applyAll U (f.replicas n).state b = .ok y ∧
            x.reply = y.reply := by
  have hrun : ∀ f : ReplicaFleet, f.Ok U C log → ∃ f', moves.foldlM (ReplicaFleet.step U C log) f = some f' ∧ f'.Ok U C log := by
    induction moves with
    | nil => exact fun f hf => ⟨f, rfl, hf⟩
    | cons move moves ih =>
      intro f hf
      obtain ⟨next, hnext, hok⟩ := fleet_step hf move
      rw [List.foldlM_cons, hnext]
      exact ih next hok
  obtain ⟨f, hf, hok⟩ := hrun {} ⟨fun _ => ⟨stateOk_empty, rfl⟩, by simp⟩
  refine ⟨f, hf, fun m n hposition => ?_⟩
  have hswept : (f.replicas m).state.sweep U = (f.replicas n).state.sweep U := by
    rw [(hok.replicas m).swept, (hok.replicas n).swept, hposition]
  have hparts := hswept
  simp only [State.sweep, State.mk.injEq] at hparts
  refine ⟨hparts.1, hparts.2.2, fun k => ?_, fun a b hab => ⟨_, _, applyAll_eq a _, applyAll_eq b _, ?_⟩⟩
  · rw [liveRows, liveRows, ← get_gcDedup, ← get_gcDedup, hparts.2.1]
  · simp only [runEvents]
    rw [responses_sweep, responses_sweep, hswept, logOf_eventsOf, logOf_eventsOf, hab]

end RiftCluster
