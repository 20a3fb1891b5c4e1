import RiftCluster.Proof.Faultless

/-!
# Apply and reconcile together

`Ready` says of some tables: on an engine that serves them, driving what is still
pending ends with the engine serving the tables as they are now. The tables before
a batch are ready once it is committed. The tables after it are ready too, if no
pending action is incremental; an incremental stub edit done once more is another
edit. A run whose reconciles read only ready tables ends with the engine serving
the tables (`reconcile_serves_tables`).
-/

namespace RiftCluster

open KV

variable {U : Upstream} {n : Engine} {p : Port} {s s' : System}

/-! ## A batch, on an engine that serves the tables before or after it -/

def EventSafe (U : Upstream) (s : State) : Event → Prop
  | .sweep => True
  | .entry degraded e => ∀ request, e.payload = .normal request → ClearSafe U s.tables degraded request.op

/-- Along a run, stub ids are unique in every stored config and every entry is safe. -/
def RunSafe (U : Upstream) : State → List Event → Prop
  | s, [] => UniqueIds U s.tables
  | s, ev :: es => UniqueIds U s.tables ∧ EventSafe U s ev ∧ RunSafe U (s.step U ev) es

theorem RunSafe.unique {s : State} {es : List Event} (h : RunSafe U s es) : UniqueIds U s.tables := by
  cases es with
  | nil => exact h
  | cons ev es => exact h.1

def eventActions (U : Upstream) (s : State) : Event → List EngineAction
  | .sweep => []
  | .entry degraded e => (applyOne U degraded s e).actions.map AttributedAction.action

theorem actions_cons (s : State) (ev : Event) (es : List Event) :
    (actions U s (ev :: es)).map AttributedAction.action =
      eventActions U s ev ++ (actions U (s.step U ev) es).map AttributedAction.action := by
  cases ev with
  | sweep => rfl
  | entry degraded e => simp [actions, eventActions]

/-- **One event's drive, when no call fails.** -/
theorem event_keeps {s : State} (hok : TablesOk U s.tables) {ev : Event} (huniq : UniqueIds U s.tables)
    (huniq' : UniqueIds U (s.step U ev).tables) (hsafe : EventSafe U s ev) :
    Keeps U s.tables (s.step U ev).tables n (n.drive U .faultless (eventActions U s ev)) (eventActions U s ev) := by
  cases ev with
  | sweep => exact .same rfl rfl _
  | entry degraded e =>
    have hstep : s.step U (.entry degraded e) = (applyOne U degraded s e).state := rfl
    have hacts : eventActions U s (.entry degraded e) =
        (applyOne U degraded s e).actions.map AttributedAction.action := rfl
    rw [hstep] at huniq' ⊢
    rw [hacts]
    rcases applyOne_cases (U := U) degraded s e with ⟨-, heq⟩ | ⟨_, _, -, -, heq⟩ | ⟨request, hp, -, heq⟩
    · rw [heq]; exact .same rfl rfl _
    · rw [heq]; exact .same rfl rfl _
    · rw [heq] at huniq' ⊢
      rw [commitOp_actions]
      rcases runOp_drive hok request e.logId.index degraded with ⟨hsame, reason, ho⟩ | ⟨-, actions, ho, hdrive⟩
      · rw [ho]
        exact .same (congrArg Tables.configs hsame) rfl _
      · rw [ho]
        exact hdrive.keeps (tablesOk_runOp hok request e.logId.index degraded) huniq huniq' (hsafe request hp)

/-- **A batch's drive.** It takes an engine that serves the tables before the batch to one
that serves the tables after it. Without an incremental action it does so from an
engine that serves any tables `T`, or leaves it serving them. -/
theorem run_keeps (es : List Event) : ∀ {s : State} {n : Engine}, StateOk U s → RunSafe U s es →
    (∀ p, ServesAt U s.tables n p →
      ServesAt U (es.foldl (State.step U) s).tables
        (n.drive U .faultless ((actions U s es).map AttributedAction.action)) p) ∧
    ((∀ a ∈ (actions U s es).map AttributedAction.action, a.incremental = false) →
      ∀ T p, ServesAt U T n p ∨ ServesAt U s.tables n p →
        ServesAt U T (n.drive U .faultless ((actions U s es).map AttributedAction.action)) p ∨
          ServesAt U (es.foldl (State.step U) s).tables
            (n.drive U .faultless ((actions U s es).map AttributedAction.action)) p) := by
  induction es with
  | nil => exact fun _ _ => ⟨fun _ h => h, fun _ _ _ h => h⟩
  | cons ev es ih =>
    intro s n hok hsafe
    have hone := event_keeps (n := n) hok.tables hsafe.1 hsafe.2.2.unique hsafe.2.1
    have hrest := ih (n := n.drive U .faultless (eventActions U s ev)) (stateOk_step hok ev) hsafe.2.2
    rw [actions_cons, drive_append, List.foldl_cons]
    refine ⟨fun p h => hrest.1 p (hone.kept p h), fun hinc T p h => ?_⟩
    have hinc1 : ∀ a ∈ eventActions U s ev, a.incremental = false :=
      fun a ha => hinc a (List.mem_append_left _ ha)
    refine hrest.2 (fun a ha => hinc a (List.mem_append_right _ ha)) T p ?_
    rcases h with h | h
    · rcases hone.replayed hinc1 p with hr | hr
      · exact .inr hr
      · exact .inl (h.congr rfl hr)
    · exact .inr (hone.kept p h)

/-! ## The system -/

/-- On an engine that serves `T`, driving what is pending ends with the engine serving
the tables as they are now. -/
def Ready (U : Upstream) (s : System) (T : Tables) : Prop :=
  TablesOk U T ∧ match s.pending with
    | none => T = s.sm.tables
    | some actions => ∀ n, (∀ p, ServesAt U T n p) → ∀ p, ServesAt U s.sm.tables (n.drive U .faultless actions) p

def Replayable (s : System) : Prop := ∀ actions, s.pending = some actions → ∀ a ∈ actions, a.incremental = false

/-- What every move keeps. `serving` is asked of the engine once it has served the tables
at some moment. -/
structure SystemOk (U : Upstream) (served : Prop) (s : System) : Prop where
  state : StateOk U s.sm
  serving : served → s.holding = none → ∃ T, Ready U s T ∧ ∀ p, ServesAt U T s.engine p
  holding : ∀ actions, s.holding = some actions → ∃ T, Ready U s T ∧ actions = reconcileActions U T
  again : Replayable s → Ready U s s.sm.tables

/-- A reconcile reads no tables that are past an incremental action still pending, and a
batch is safe. -/
def MoveSafe (U : Upstream) (s : System) : Move → Prop
  | .commit degraded entries => RunSafe U s.sm (.sweep :: entries.map (.entry degraded))
  | .read => Replayable s
  | .drive | .sync => True

theorem ready_quiet {T : Tables} (h : Ready U s T) (hp : s.pending = none) : T = s.sm.tables := by
  have := h.2
  rw [hp] at this
  exact this

theorem reconcile_serves {T : Tables} (hok : TablesOk U T) (p : Port) :
    ServesAt U T (n.drive U .faultless (reconcileActions U T)) p := by
  have hsync := (driveSync_faultless (n := n) hok p).servesAt
  refine hsync.congr rfl ?_
  simp only [Engine.drive, reconcileActions, List.foldl_cons, List.foldl_nil, syncRoutesAction]
  split <;> rfl

/-- **A commit.** The tables before it are ready; those after it are if nothing it leaves
to drive is incremental. -/
theorem commit_ok {served : Prop} (h : SystemOk U served s) {degraded : Bool} {entries : List Entry}
    (hsafe : MoveSafe U s (.commit degraded entries)) (hm : s.move U .faultless (.commit degraded entries) = some s') :
    SystemOk U served s' := by
  simp only [System.move, apply_eq] at hm
  cases hp : s.pending with
  | some actions => rw [hp] at hm; cases hm
  | none =>
    rw [hp] at hm
    cases hm
    set es : List Event := .sweep :: entries.map (.entry degraded) with hes
    have hrun := fun n => run_keeps (n := n) es h.state hsafe
    have hok' : StateOk U (es.foldl (State.step U) s.sm) := stateOk_foldl h.state es
    refine ⟨hok', fun hs hh => ?_, fun actions ha => ?_, fun hre => ⟨hok'.tables, fun n hn p => ?_⟩⟩
    · obtain ⟨T, hT, hserves⟩ := h.serving hs hh
      have hT' := ready_quiet hT hp
      subst hT'
      exact ⟨s.sm.tables, ⟨hT.1, fun n hn p => (hrun n).1 p (hn p)⟩, hserves⟩
    · obtain ⟨T, hT, hacts⟩ := h.holding actions ha
      have hT' := ready_quiet hT hp
      subst hT'
      exact ⟨s.sm.tables, ⟨hT.1, fun n hn p => (hrun n).1 p (hn p)⟩, hacts⟩
    · exact ((hrun n).2 (hre _ rfl) _ p (.inl (hn p))).elim id id

/-- **Every move keeps the system's invariant**, and a reconcile's drive establishes what
it asks of the engine. -/
theorem move_ok {served : Prop} (h : SystemOk U served s) {m : Move} (hsafe : MoveSafe U s m)
    (hm : s.move U .faultless m = some s') : SystemOk U (served ∨ m = .sync) s' := by
  have hquiet (T : Tables) (s : System) (hp : s.pending = none) (hT : T = s.sm.tables) (hok : StateOk U s.sm) :
      Ready U s T := by
    subst hT
    exact ⟨hok.tables, by rw [hp]⟩
  cases m with
  | commit degraded entries =>
    have hok := commit_ok h hsafe hm
    exact ⟨hok.state, fun hs => hok.serving (hs.resolve_right (by simp)), hok.holding, hok.again⟩
  | drive =>
    simp only [System.move] at hm
    split at hm
    · rename_i actions hp hh
      cases hm
      refine ⟨h.state, fun hs _ => ?_, fun acts ha => ?_, fun _ => hquiet _ _ rfl rfl h.state⟩
      · obtain ⟨T, hT, hserves⟩ := h.serving (hs.resolve_right (by simp)) hh
        have hready := hT.2
        rw [hp] at hready
        exact ⟨s.sm.tables, hquiet _ _ rfl rfl h.state, hready s.engine hserves⟩
      · rw [show s.holding = some acts from ha] at hh
        cases hh
    · cases hm
  | read =>
    simp only [System.move] at hm
    split at hm
    · cases hm
      refine ⟨h.state, fun _ hh => (by cases hh), fun actions ha => ?_, fun hre => h.again hre⟩
      cases ha
      exact ⟨s.sm.tables, h.again hsafe, rfl⟩
    · cases hm
  | sync =>
    simp only [System.move] at hm
    split at hm
    · rename_i actions hh
      cases hm
      obtain ⟨T, hT, hacts⟩ := h.holding actions hh
      subst hacts
      exact ⟨h.state, fun _ _ => ⟨T, hT, reconcile_serves hT.1⟩, fun acts ha => (by cases ha), fun hre => h.again hre⟩
    · cases hm

theorem moves_ok (ms : List Move) : ∀ {served : Prop} {s s' : System}, SystemOk U served s →
    s.moves U .faultless ms = some s' →
    (∀ ms₁ m ms₂ s₁, ms = ms₁ ++ m :: ms₂ → s.moves U .faultless ms₁ = some s₁ → MoveSafe U s₁ m) →
    SystemOk U (served ∨ Move.sync ∈ ms) s' := by
  induction ms with
  | nil =>
    intro served s s' h hrun _
    cases hrun
    exact ⟨h.state, fun hs => h.serving (hs.resolve_right (by simp)), h.holding, h.again⟩
  | cons m ms ih =>
    intro served s s' h hrun hsafe
    rw [System.moves, List.foldlM_cons] at hrun
    cases hm : s.move U .faultless m with
    | none => rw [hm] at hrun; cases hrun
    | some s₁ =>
      rw [hm] at hrun
      have hone := move_ok h (hsafe [] m ms s rfl rfl) hm
      have hrest := ih hone hrun fun ms₁ m' ms₂ s₂ hms hs₂ => by
        refine hsafe (m :: ms₁) m' ms₂ s₂ (by rw [hms]; rfl) ?_
        rw [System.moves, List.foldlM_cons, hm]
        exact hs₂
      refine ⟨hrest.state, fun hs => hrest.serving ?_, hrest.holding, hrest.again⟩
      rcases hs with hs | hs
      · exact .inl (.inl hs)
      · rcases List.mem_cons.1 hs with rfl | hs
        · exact .inl (.inr rfl)
        · exact .inr hs

/-- **Apply and reconcile leave the engine serving the tables.** Of an engine whose calls
all do what they document: along any interleaving of commits, drives and reconciles that
starts from an engine serving the tables, or in which a reconcile completes, and whose
moves are all safe, once neither task is under way every admitted port serves the stub
list of its row. -/
theorem reconcile_serves_tables (U : Upstream) (s s' : System) (hstate : StateOk U s.sm) (hquiet : s.quiet = true)
    (ms : List Move) (hserves : (∀ p, ServesAt U s.sm.tables s.engine p) ∨ Move.sync ∈ ms)
    (hsafe : ∀ ms₁ m ms₂ s₁, ms = ms₁ ++ m :: ms₂ → s.moves U .faultless ms₁ = some s₁ → MoveSafe U s₁ m)
    (hrun : s.moves U .faultless ms = some s') (hdone : s'.quiet = true) :
    ∀ p, ServesAt U s'.sm.tables s'.engine p := by
  simp only [System.quiet, Bool.and_eq_true, Option.isNone_iff_eq_none] at hquiet hdone
  have hready : Ready U s s.sm.tables := ⟨hstate.tables, by rw [hquiet.1]⟩
  have hstart : SystemOk U (∀ p, ServesAt U s.sm.tables s.engine p) s :=
    ⟨hstate, fun hs _ => ⟨s.sm.tables, hready, hs⟩, fun actions ha => (by rw [hquiet.2] at ha; cases ha),
      fun _ => hready⟩
  obtain ⟨T, hT, hend⟩ := (moves_ok ms hstart hrun hsafe).serving hserves hdone.2
  rw [ready_quiet hT hdone.1] at hend
  exact hend

/-- A put, and a reconcile between its commit and its drive. -/
def putReconciled : List Move := [.commit false [requestAt 1 firstPut], .read, .sync, .drive]

theorem putReconciled_safe (ms₁ : List Move) (m : Move) (ms₂ : List Move) (s₁ : System)
    (hms : putReconciled = ms₁ ++ m :: ms₂) (hs₁ : ({} : System).moves jsonUpstream .faultless ms₁ = some s₁) :
    MoveSafe jsonUpstream s₁ m := by
  match ms₁ with
  | [] =>
    cases hms
    cases hs₁
    refine ⟨uniqueIds_empty rfl, trivial, uniqueIds_empty rfl, fun request hp => ?_, ?_⟩
    · cases hp
      trivial
    · intro p r hrow
      have hput : State.step jsonUpstream (State.step jsonUpstream {} .sweep) (.entry false (requestAt 1 firstPut)) =
          sAt jsonUpstream {} [.sweep, .entry false (requestAt 1 firstPut)] 2 := rfl
      have hall : ∀ kv ∈ (sAt jsonUpstream {} [.sweep, .entry false (requestAt 1 firstPut)] 2).tables.configs.toList,
          (jsonUpstream.readRow kv.2).toOption = some (httpImposter []) := by
        decide +kernel
      have hread := hall (p, r.text jsonUpstream) (mem_toList.2 (by rw [← hput]; exact hrow))
      have hconfig : r.config = httpImposter [] := by simpa [Row.text, Except.toOption] using hread
      rw [hconfig]
      exact List.nodup_nil
  | [.commit _ _] =>
    cases hms
    have hactions : ((({} : System).moves jsonUpstream .faultless [.commit false [requestAt 1 firstPut]]).bind
        System.pending).all (fun actions => actions.all fun a => !a.incremental) = true := by
      decide +kernel
    intro actions hp a ha
    rw [hs₁, Option.bind_some, hp] at hactions
    simpa using List.all_eq_true.1 hactions a ha
  | [_, _] => cases hms; trivial
  | [_, _, _] => cases hms; trivial
  | _ :: _ :: _ :: _ :: ms₁ => simp [putReconciled] at hms

theorem putReconciled_serves : ∃ s', ({} : System).moves jsonUpstream .faultless putReconciled = some s' ∧
    ∀ p, ServesAt jsonUpstream s'.sm.tables s'.engine p := by
  have hquiet : ((({} : System).moves jsonUpstream .faultless putReconciled).map System.quiet) = some true := by
    decide +kernel
  obtain ⟨s', hrun, hdone⟩ := Option.map_eq_some_iff.1 hquiet
  exact ⟨s', hrun, reconcile_serves_tables jsonUpstream {} s' stateOk_empty rfl putReconciled (.inr (by decide))
    putReconciled_safe hrun hdone⟩

/-- Two stubs that a patch swaps, and a reconcile between the patch's commit and its drive. -/
def swapReconciled : List Move :=
  let stubs : List Stub := [{ id := some "a", responses := [] }, { id := some "b", responses := [] }]
  [.commit false [requestAt 1 { opId := "op-1", op := .putImposter (httpImposter stubs) none }], .drive,
    .commit false [requestAt 2 { opId := "op-2", op := .patchStubs 4545 [.move 0 1] }], .read, .sync, .drive]

/-- The stored stub ids of a port, where the engine would run its row. -/
def admittedIds (s : System) (port : Port) : Option (List (Option String)) :=
  (s.sm.tables.configs[port]?).bind fun row => (admitRow jsonUpstream row).toOption.map fun c => c.stubs.map Stub.id

/-- **The engine is left with the order from before the patch.** The reconcile already
swapped the stubs; the patch's own drive swaps them back. -/
theorem swapReconciled_diverges :
    (({} : System).moves jsonUpstream .faultless swapReconciled).map (fun s =>
      (s.quiet, admittedIds s 4545, s.engine.served[4545]?.map fun c => c.stubs.map Stub.id)) =
      some (true, some [some "b", some "a"], some [some "a", some "b"]) := by
  decide +kernel

end RiftCluster
