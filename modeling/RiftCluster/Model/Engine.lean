import RiftCluster.Model.Machine

/-!
# The local engine and its drive

The engine of one node as the state machine drives it: which config each port
serves, and the three failure trackers. `drive` runs the actions of a batch.

The engine itself is upstream's. A call either does what it documents or fails,
and then leaves what the port serves arbitrary; which of the two, and how a report
names the port, is what `Calls` says, call by call. Restarts and the clearing of
saved proxy responses always do what they document.

Flow state, metrics and the trace of refusals are left out: no call here reads
them.
-/

namespace RiftCluster

open KV

/-! ## Engine calls -/

/-- The bucket of a report a port is named in. -/
inductive Bucket where
  | created
  | replaced
  | stubPatched
  | toggled
  | deleted
  deriving DecidableEq, Repr

inductive ImposterError where
  | notFound (port : Port)
  | other (message : String)
  deriving DecidableEq, Repr

/-- What a call does to a port: what it documents, or a failure that leaves the port
serving `left`; and how the call's report names the port. -/
structure Verdict where
  error : Option String := none
  left : Option ImposterConfig := none
  buckets : List Bucket := []
  unbound : Bool := false
  deriving DecidableEq, Repr

/-- One engine call: whether it is refused as a whole, else what it does port by port. -/
structure Call where
  refuses : Option String := none
  verdict : Port → Verdict := fun _ => {}

/-- What the engine does, call after call. -/
abbrev Calls := ℕ → Call

/-- An engine whose calls all do what they document. -/
def Calls.faultless : Calls := fun _ => {}

inductive SequencingMode where
  | ofLocal
  | owner
  deriving DecidableEq, Repr

/-- `mode_of`: a mode this build does not know is local. -/
def SequencingMode.ofConfig (config : ImposterConfig) : SequencingMode :=
  match config.sequencing with
  | some (some "owner") => .owner
  | _ => .ofLocal

/-- The engine side of a node: what each port serves and whether it is bound, the modes
the sequencer was told, and the failure trackers. Key 0 of `applyFailures` is the
whole set's. -/
structure Engine where
  served : Table Port ImposterConfig := ∅
  unbound : Table Port Bool := ∅
  calls : ℕ := 0
  sequencing : Option (Table Port SequencingMode) := none
  applyFailures : Table Port ImposterError := ∅
  bindFailures : Table Port ImposterError := ∅
  needsResync : Bool := false
  routes : Option RouteTable := none
  deriving DecidableEq

/-- What the engine reports of an `apply_config` or `apply_one`. -/
structure ApplyReport where
  touched : List (Bucket × Port) := []
  failed : List (Port × ImposterError) := []
  deriving DecidableEq, Repr

def ApplyReport.append (a b : ApplyReport) : ApplyReport := ⟨a.touched ++ b.touched, a.failed ++ b.failed⟩

def Engine.isDegraded (n : Engine) : Bool :=
  !n.applyFailures.isEmpty || !n.bindFailures.isEmpty || n.needsResync

/-- What a port serves from now on. -/
def Engine.serve (n : Engine) (port : Port) (config : Option ImposterConfig) : Engine :=
  { n with served := match config with
    | some c => n.served.insert port c
    | none => n.served.erase port }

def Engine.tick (n : Engine) : Engine := { n with calls := n.calls + 1 }

def Engine.fail (n : Engine) (port : Port) (e : ImposterError) : Engine :=
  { n with applyFailures := n.applyFailures.insert port e }

variable (U : Upstream) (F : Calls)

/-- A call on one imposter: not found where nothing is served, else its documented
effect on the config, or a failure. -/
def Engine.call (n : Engine) (port : Port) (effect : ImposterConfig → Except String ImposterConfig) :
    Engine × Except ImposterError Unit :=
  match n.served[port]? with
  | none => (n.tick, .error (.notFound port))
  | some config =>
    match ((F n.calls).verdict port).error with
    | some e => (n.tick.serve port ((F n.calls).verdict port).left, .error (.other e))
    | none =>
      match effect config with
      | .ok config => (n.tick.serve port config, .ok ())
      | .error e => (n.tick, .error (.other e))

def Engine.setImposterEnabled (n : Engine) (port : Port) (enabled : Bool) : Engine × Except ImposterError Unit :=
  n.call F port fun config => .ok { config with enabled }

/-- `add_stub`, `replace_stub_by_id`, `delete_stub_by_id` and `move_stub` do to the
served list what the edit step does to the stored one. -/
def Engine.stubStep (n : Engine) (port : Port) (step : StubEdit) : Engine × Except ImposterError Unit :=
  n.call F port fun config => (applyStep U config.stubs step).map fun stubs => { config with stubs }

def Engine.deleteStub (n : Engine) (port : Port) (index : ℕ) : Engine × Except ImposterError Unit :=
  n.call F port fun config =>
    if index < config.stubs.length then .ok { config with stubs := config.stubs.eraseIdx index }
    else .error "no such stub"

def Engine.appendStubResponsesById (n : Engine) (port : Port) (id : String) (responses : List StubResponse) :
    Engine × Except ImposterError Unit :=
  n.call F port fun config =>
    match position config.stubs id with
    | none => .error "no such stub"
    | some i => .ok { config with
        stubs := config.stubs.modify i fun s => { s with responses := s.responses ++ responses } }

def Engine.deleteImposter (n : Engine) (port : Port) : Engine × Except ImposterError Unit :=
  match n.served[port]? with
  | none => (n.tick, .error (.notFound port))
  | some _ =>
    match ((F n.calls).verdict port).error with
    | some e => (n.tick.serve port ((F n.calls).verdict port).left, .error (.other e))
    | none => (n.tick.serve port none, .ok ())

/-- One port of an `apply_config` or `apply_one`: it serves `want` from now on, or it
failed; the report says which. -/
def Engine.settle (n : Engine) (verdict : Verdict) (port : Port) (want : Option ImposterConfig) : Engine × ApplyReport :=
  let touched := verdict.buckets.map fun b => (b, port)
  let n := { n with unbound := n.unbound.insert port verdict.unbound }
  match verdict.error with
  | some e => (n.serve port verdict.left, ⟨touched, [(port, .other e)]⟩)
  | none => (n.serve port want, ⟨touched, []⟩)

def Engine.applyOne (n : Engine) (port : Port) (config : ImposterConfig) : Engine × Except ImposterError ApplyReport :=
  let call := F n.calls
  match call.refuses with
  | some e => (n.tick.serve port (call.verdict port).left, .error (.other e))
  | none =>
    let (n, report) := n.tick.settle (call.verdict port) port config
    (n, .ok report)

/-- Settle ports one after the other, under one call. -/
def Engine.settleAll (call : Call) : Engine → List (Port × Option ImposterConfig) → Engine × ApplyReport
  | n, [] => (n, {})
  | n, (port, want) :: rest =>
    let one := n.settle (call.verdict port) port want
    let all := settleAll call one.1 rest
    (all.1, one.2.append all.2)

/-- What a set asks of its ports, and of the ports it leaves out. -/
def wants (stale : List Port) (admitted : List (Port × ImposterConfig)) : List (Port × Option ImposterConfig) :=
  stale.map (fun p => (p, none)) ++ admitted.map fun pc => (pc.1, some pc.2)

/-- `apply_config`: every port of the set serves its config, every other port nothing.
A refused set is left as it was. -/
def Engine.applyConfig (n : Engine) (admitted : List (Port × ImposterConfig)) :
    Engine × Except ImposterError ApplyReport :=
  let call := F n.calls
  match call.refuses with
  | some e => (n.tick, .error (.other e))
  | none =>
    let stale := (n.served.toList.map Prod.fst).filter fun p => !(admitted.map Prod.fst).contains p
    let (n, report) := n.tick.settleAll call (wants stale admitted)
    (n, .ok report)

/-! ## Restarts and clears, which always do what they document -/

def Engine.rewriteStubs (n : Engine) (port : Port) (f : List Stub → List Stub) : Engine :=
  match n.served[port]? with
  | none => n
  | some config => n.serve port (some { config with stubs := f config.stubs })

def Engine.clearProxyResponses (n : Engine) (port : Port) : Engine :=
  n.rewriteStubs port fun stubs => (stripProxyResponses stubs).1

def Engine.restart (n : Engine) (port : Port) (restart : Restart) (stubs : List Stub) : Engine :=
  match restart with
  | .stubAt index =>
    match stubs[index]? with
    | some stub => n.rewriteStubs port fun live => live.set index stub
    | none => n
  | .allStubs => n.rewriteStubs port fun _ => stubs
  -- the runtime state is no part of what is served
  | .imposter | .unknown => n

/-! ## Failure trackers -/

/-- What a report speaks for: every port of the table, or one port. -/
inductive ReportScope where
  | wholeSet (desired : List Port)
  | port (port : Port)
  deriving DecidableEq, Repr

def ReportScope.desires : ReportScope → Port → Bool
  | .wholeSet desired, p => desired.contains p
  | .port q, p => q == p

/-- Whether a report in this bucket says that a bind was attempted, or the port is gone. -/
def Bucket.settlesBind : Bucket → Bool
  | .created | .replaced | .deleted => true
  | .stubPatched | .toggled => false

/-- The engine holds the port, unbound. -/
def Engine.servingUnbound (n : Engine) (port : Port) : Bool :=
  n.served[port]?.isSome && n.unbound[port]?.getD false

def eraseAll {β : Type} (m : Table Port β) (ports : List Port) : Table Port β := ports.foldl (fun m p => m.erase p) m

/-- Only the first failure of a port is the reason it is unbound. -/
def firstFailures (failed : List (Port × ImposterError)) : List (Port × ImposterError) :=
  failed.foldr (fun f rest => f :: rest.filter fun g => g.1 != f.1) []

def Engine.recordReport (n : Engine) (report : ApplyReport) (scope : ReportScope) : Engine :=
  let failures := eraseAll n.applyFailures (report.touched.map Prod.snd)
  let bindFailures := eraseAll n.bindFailures ((report.touched.filter fun t => t.1.settlesBind).map Prod.snd)
  let failures := match scope with
    | .wholeSet desired => failures.retain fun p _ => desired.contains p
    | .port _ => failures
  let bindFailures := match scope with
    | .wholeSet desired => bindFailures.retain fun p _ => desired.contains p
    | .port _ => bindFailures
  { n with
    applyFailures := failures.load report.failed
    bindFailures := bindFailures.load
      ((firstFailures report.failed).filter fun f => scope.desires f.1 && n.servingUnbound f.1) }

/-- A toggle or a stub edit succeeded. A failure it erased may have been another drive's,
so the node stays degraded until the whole set is reconciled. -/
def Engine.clearDriveOutcome (n : Engine) (port : Port) : Engine :=
  if n.applyFailures[port]?.isSome then
    { n with applyFailures := n.applyFailures.erase port, needsResync := true }
  else n

/-- The bookkeeping of a call on one port. -/
def Engine.outcome (port : Port) : Engine × Except ImposterError Unit → Engine
  | (n, .ok ()) => n.clearDriveOutcome port
  | (n, .error e) => n.fail port e

/-! ## The sequencer's modes -/

def Engine.setMode (n : Engine) (port : Port) (config : ImposterConfig) : Engine :=
  { n with sequencing := n.sequencing.map fun modes => modes.insert port (.ofConfig config) }

def Engine.removeMode (n : Engine) (port : Port) : Engine :=
  { n with sequencing := n.sequencing.map fun modes => modes.erase port }

/-- `apply_holding`: a port the table still names keeps its mode, an admitted one takes
its config's. -/
def Engine.applyHolding (n : Engine) (admitted : List (Port × ImposterConfig)) (held : List Port) : Engine :=
  let told := admitted.map fun (pc : Port × ImposterConfig) => (pc.1, SequencingMode.ofConfig pc.2)
  { n with sequencing := n.sequencing.map fun modes => (modes.retain fun p _ => held.contains p).load told }

def Engine.ownsSequence (n : Engine) (port : Port) : Bool :=
  n.sequencing.any fun modes => modes[port]? == some .owner

/-! ## Drives -/

/-- Run calls one after the other, up to the first that fails. -/
def Engine.inOrder {α : Type} (f : Engine → α → Engine × Except ImposterError Unit) :
    Engine → List α → Engine × Except ImposterError Unit
  | n, [] => (n, .ok ())
  | n, a :: rest =>
    match f n a with
    | (n, .ok ()) => inOrder f n rest
    | (n, .error e) => (n, .error e)

/-- The indexes of a space's stubs. -/
def doomed (stubs : List Stub) (space : String) : List ℕ :=
  (List.range stubs.length).filter fun i => stubs[i]?.any fun stub => stub.space == some space

def Engine.driveStep (n : Engine) (port : Port) : StubEdit → Engine × Except ImposterError Unit
  | .deleteBySpace space =>
    match n.served[port]? with
    | none => (n, .error (.notFound port))
    | some config =>
      -- from the last one: each delete re-indexes what follows it
      n.inOrder (fun n i => n.deleteStub F port i) (doomed config.stubs space).reverse
  | step => n.stubStep U F port step

def Engine.drivePatch (n : Engine) (port : Port) (edit : StubEditScript) : Engine × Except ImposterError Unit :=
  n.inOrder (fun n step => n.driveStep U F port step) edit

/-- The configs of a set, under their own ports. -/
def byPort (configs : List ImposterConfig) : List (Port × ImposterConfig) :=
  configs.filterMap fun config => config.port.map fun port => (port, config)

/-- Delete each port: one that is gone already needs no mention. -/
def Engine.deleteStale : Engine → List Port → Engine × ApplyReport
  | n, [] => (n, {})
  | n, port :: rest =>
    let one := n.deleteImposter F port
    let report : ApplyReport := match one.2 with
      | .ok () => ⟨[(.deleted, port)], []⟩
      | .error (.notFound _) => {}
      | .error e => ⟨[], [(port, e)]⟩
    let all := deleteStale one.1 rest
    (all.1, report.append all.2)

def Engine.applyEach : Engine → List (Port × ImposterConfig) → Engine × ApplyReport
  | n, [] => (n, {})
  | n, (port, config) :: rest =>
    let one := n.applyOne F port config
    let report : ApplyReport := match one.2 with
      | .ok report => report
      | .error e => ⟨[], [(port, e)]⟩
    let all := applyEach one.1 rest
    (all.1, report.append all.2)

/-- The whole-set drive with refused rows in the table: no refused port is deleted or
applied. -/
def Engine.applyAdmitted (n : Engine) (admitted : List (Port × ImposterConfig)) (held : List Port) :
    Engine × ApplyReport :=
  let stale := (n.served.toList.map Prod.fst).filter fun p => !held.contains p
  let deleted := n.deleteStale F stale
  let applied := deleted.1.applyEach F admitted
  (applied.1, deleted.2.append applied.2)

def Engine.driveSync (n : Engine) (desired : DesiredSet) : Engine :=
  let admitted := byPort desired.admitted
  let n := n.applyHolding admitted desired.held
  let (n, outcome) := if desired.refused = [] then n.applyConfig F admitted
    else let applied := n.applyAdmitted F admitted desired.held; (applied.1, .ok applied.2)
  match outcome with
  | .ok report => { n.recordReport report (.wholeSet desired.held) with needsResync := false }
  | .error e => n.fail 0 e

/-- Whether a report says that its port is fresh already, or not there to restart. -/
def ApplyReport.fresh (report : ApplyReport) (port : Port) : Bool :=
  report.touched.contains (.created, port) || report.touched.contains (.replaced, port) ||
    report.failed.any fun f => f.1 == port

def Engine.drivePut (n : Engine) (config : ImposterConfig) (restart : Option Restart) : Engine :=
  match config.port with
  | none => n.fail 0 (.other "a committed config carried no port")
  | some port =>
    match U.admissionVerdict config with
    -- what this engine refuses leaves the port as it was
    | .error _ => n
    | .ok () =>
      match (n.setMode port config).applyOne F port config with
      | (n, .error e) => n.fail port e
      | (n, .ok report) =>
        let n := n.recordReport report (.port port)
        match restart with
        | some r => if report.fresh port then n else n.restart port r config.stubs
        | none => n

def Engine.driveDelete (n : Engine) (port : Port) : Engine :=
  match (n.removeMode port).deleteImposter F port with
  | (n, .error (.other e)) => n.fail port (.other e)
  -- not found is a delete too
  | (n, _) => { n with
      applyFailures := n.applyFailures.erase port
      bindFailures := n.bindFailures.erase port }

def Engine.driveAppend (n : Engine) (port : Port) (id : String) (responses : List StubResponse) (merged : Stub) :
    Engine :=
  .outcome port (if n.ownsSequence port then n.stubStep U F port (.replaceById id merged)
    else n.appendStubResponsesById F port id responses)

def Engine.driveOne (n : Engine) : EngineAction → Engine
  | .sync desired => n.driveSync F desired
  | .put config restart => n.drivePut U F config restart
  | .delete port => n.driveDelete F port
  | .setEnabled port enabled => .outcome port (n.setImposterEnabled F port enabled)
  | .patch port edit => .outcome port (n.drivePatch U F port edit)
  | .clearProxyResponses port => n.clearProxyResponses port
  | .restart port restart stubs => n.restart port restart stubs
  | .appendResponses port id responses merged => n.driveAppend U F port id responses merged
  | .syncRoutes table => { n with routes := some table }
  | .refuseRoutesSync _ _ => n

/-- The drive of a batch, in log order. -/
def Engine.drive (n : Engine) (actions : List EngineAction) : Engine :=
  actions.foldl (fun n action => n.driveOne U F action) n

/-! ## A node -/

/-- A node: its state machine, its engine, and whether the engine was failing when the
batch now applied began. -/
structure Node where
  sm : State := {}
  engine : Engine := {}
  degraded : Bool := false
  deriving DecidableEq

/-- `apply`: commit the batch, then drive the engine with its actions. -/
def Node.applyBatch (s : Node) (entries : List Entry) : Except StorageError (Node × List ControlResponse) :=
  (apply U s.engine.isDegraded s.sm entries).map fun applied =>
    ({ sm := applied.state, degraded := s.engine.isDegraded
       engine := s.engine.drive U F (applied.actions.map AttributedAction.action) }, applied.reply)

/-- Successive batches. -/
def Node.applyBatches : Node → List (List Entry) → Except StorageError Node
  | s, [] => .ok s
  | s, entries :: batches => do
    let (s, _) ← s.applyBatch U F entries
    applyBatches s batches

/-! ## A batch as a run of the node -/

/-- A batch begins with the sweep and the answer to `is_degraded`; then each entry is
applied and driven. -/
inductive NodeEvent where
  | begin
  | entry (e : Entry)
  deriving DecidableEq, Repr

def Node.step (s : Node) : NodeEvent → Node
  | .begin => { s with sm := s.sm.sweep U, degraded := s.engine.isDegraded }
  | .entry e =>
    let applied := RiftCluster.applyOne U s.degraded s.sm e
    { s with sm := applied.state, engine := s.engine.drive U F (applied.actions.map AttributedAction.action) }

def nodeEventsOf (batches : List (List Entry)) : List NodeEvent :=
  batches.flatMap fun entries => .begin :: entries.map .entry

/-- The node after the first `k` events. -/
def nAt (s : Node) (es : List NodeEvent) (k : ℕ) : Node := Trace.stateAt (Node.step U F) s es k

variable {U F}

theorem nAt_succ {s : Node} {es : List NodeEvent} {k : ℕ} (hk : k < es.length) :
    nAt U F s es (k + 1) = (nAt U F s es k).step U F es[k] := Trace.stateAt_succ hk

theorem drive_append (n : Engine) (as bs : List EngineAction) :
    n.drive U F (as ++ bs) = (n.drive U F as).drive U F bs := List.foldl_append

/-- No drive reads the tables, so driving each entry where it stands in the log is
driving the batch at its end. -/
theorem entries_run (entries : List Entry) : ∀ s : Node,
    (entries.map NodeEvent.entry).foldl (Node.step U F) s =
      { sm := (runEvents U s.sm (entries.map (.entry s.degraded))).state
        engine := s.engine.drive U F
          ((runEvents U s.sm (entries.map (.entry s.degraded))).actions.map AttributedAction.action)
        degraded := s.degraded } := by
  induction entries with
  | nil => intro s; rfl
  | cons e entries ih =>
    intro s
    rw [List.map_cons, List.foldl_cons, ih]
    simp only [Node.step, runEvents, List.map_cons, List.foldl_cons, actions, List.map_append, drive_append]
    rfl

theorem applyBatch_eq (s : Node) (entries : List Entry) : ∃ replies,
    s.applyBatch U F entries = .ok ((.begin :: entries.map NodeEvent.entry).foldl (Node.step U F) s, replies) := by
  unfold Node.applyBatch
  rw [apply_eq, List.foldl_cons, entries_run]
  exact ⟨_, rfl⟩

/-- **A node's batches are a run.** -/
theorem applyBatches_eq (batches : List (List Entry)) : ∀ s : Node,
    s.applyBatches U F batches = .ok ((nodeEventsOf batches).foldl (Node.step U F) s) := by
  induction batches with
  | nil => intro s; rfl
  | cons entries batches ih =>
    intro s
    obtain ⟨replies, h⟩ := applyBatch_eq (U := U) (F := F) s entries
    have hcons : nodeEventsOf (entries :: batches) = (.begin :: entries.map .entry) ++ nodeEventsOf batches := by
      simp [nodeEventsOf]
    unfold Node.applyBatches
    rw [h, hcons, List.foldl_append]
    exact ih _

end RiftCluster
