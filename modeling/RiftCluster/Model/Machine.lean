import RiftCluster.Lib.Trace
import RiftCluster.Model.Store

/-!
# The state machine

`RedbStateMachine::apply` over the durable state: one dedup sweep on the clock
from before the batch, then the entries in order. A batch is also a run of
events, a sweep and then its entries, of a total machine `State.step`
(`apply_eq`); a log cut into batches is the run of all of them (`applyAll_eq`),
and what holds of every event list holds of every way of cutting a log.
-/

namespace RiftCluster

open KV

/-- The durable state of a replica: the tables, the op dedup table and the applied
cursor. -/
structure State where
  tables : Tables := {}
  dedup : Table String String := ∅
  applied : AppliedState := {}
  deriving DecidableEq

/-- An engine action with the principal whose operation caused it. -/
structure AttributedAction where
  principal : Option String
  action : EngineAction
  deriving DecidableEq, Repr

/-- A storage failure: the transaction is dropped and the state machine stops. -/
inductive StorageError where
  | corruptDedup (opId error : String)
  deriving DecidableEq, Repr

/-- What one entry, or a whole batch, gives back. -/
structure Applied (ρ : Type) where
  state : State
  reply : ρ
  actions : List AttributedAction

def dedupTtlSecs : ℕ := 24 * 60 * 60

def u64Max : ℕ := 2 ^ 64 - 1

/-- `saturating_add` on `u64`. -/
def saturatingAdd (a b : ℕ) : ℕ := min (a + b) u64Max

variable (U : Upstream)

/-! ## Applying a batch -/

/-- Whether a dedup row is one the sweep at `now` keeps. -/
def dedupLive (now : ℕ) (row : String) : Bool :=
  match U.dedup.read row with
  | .ok entry => entry.expiresAtSecs > now
  | .error _ => false

def gcDedup (dedup : Table String String) (now : ℕ) : Table String String :=
  dedup.retain fun _ row => dedupLive U now row

/-- The recorded outcome of an op id, if it is not expired at `clock`. -/
def lookupDedup (dedup : Table String String) (opId : String) (clock : ℕ) :
    Except StorageError (Option DedupEntry) :=
  match dedup[opId]? with
  | none => .ok none
  | some row =>
    match U.dedup.read row with
    | .error e => .error (.corruptDedup opId e)
    | .ok prev => .ok (if prev.expiresAtSecs > clock then some prev else none)

/-- Validate, check the preconditions, and mutate. -/
def runOp (t : Tables) (request : ControlRequest) (index : ℕ) (degraded : Bool) : Outcome :=
  match validate U request.op with
  | .error reason => (t, .error reason)
  | .ok () =>
    match checkPreconditions U t request with
    | .error reason => (t, .error reason)
    | .ok () => mutateTables U t request.op index degraded

def responseOf (index : ℕ) : Except String (List EngineAction) → ControlResponse
  | .ok _ => .ofApplied index
  | .error reason => .ofFailed index reason

def actionsOf (principal : Option String) : Except String (List EngineAction) → List AttributedAction
  | .ok actions => actions.map fun action => ⟨principal, action⟩
  | .error _ => []

/-- A request that is no replay: run it, and record its response for its op id. -/
def commitOp (s : State) (request : ControlRequest) (index : ℕ) (degraded : Bool) : Applied ControlResponse :=
  let outcome := runOp U s.tables request index degraded
  let response := responseOf index outcome.2
  let entry := { response, expiresAtSecs := saturatingAdd s.applied.logicalClockSecs dedupTtlSecs }
  { state := { s with tables := outcome.1, dedup := s.dedup.insert request.opId (U.dedup.write entry) }
    reply := response
    actions := actionsOf request.principal outcome.2 }

/-- The state once an entry's log id, and the clock of its request, are taken over. -/
def State.receive (s : State) (e : Entry) : State :=
  { s with applied := { s.applied with
      lastAppliedLog := some e.logId
      lastMembership := match e.payload with
        | .membership m => ⟨some e.logId, m⟩
        | _ => s.applied.lastMembership
      logicalClockSecs := match e.payload with
        | .normal request => max s.applied.logicalClockSecs request.issuedAtSecs
        | _ => s.applied.logicalClockSecs } }

def applyEntry (degraded : Bool) (s : State) (e : Entry) : Except StorageError (Applied ControlResponse) :=
  let s := s.receive e
  match e.payload with
  | .blank | .membership _ => .ok ⟨s, .ofApplied e.logId.index, []⟩
  | .normal request => do
    match ← lookupDedup U s.dedup request.opId s.applied.logicalClockSecs with
    -- replayed intent: the original response, and nothing changes
    | some previous => return ⟨s, previous.response, []⟩
    | none => return commitOp U s request e.logId.index degraded

def applyEntries (degraded : Bool) : State → List Entry → Except StorageError (Applied (List ControlResponse))
  | s, [] => .ok ⟨s, [], []⟩
  | s, e :: es => do
    let one ← applyEntry U degraded s e
    let rest ← applyEntries degraded one.state es
    return ⟨rest.state, one.reply :: rest.reply, one.actions ++ rest.actions⟩

/-- `apply`: the sweep, then the entries. The actions are what the drive after the
commit is given. -/
def apply (degraded : Bool) (s : State) (entries : List Entry) : Except StorageError (Applied (List ControlResponse)) :=
  applyEntries U degraded { s with dedup := gcDedup U s.dedup s.applied.logicalClockSecs } entries

/-- `read_op`: the recorded outcome of an op. -/
def readOp (s : State) (opId : String) : Except StorageError (Option ControlResponse) :=
  match s.dedup[opId]? with
  | none => .ok none
  | some row =>
    match U.dedup.read row with
    | .error e => .error (.corruptDedup opId e)
    | .ok entry => .ok (some entry.response)

/-- Successive batches, each with the node's answer to `is_degraded` before it. -/
def applyAll : State → List (Bool × List Entry) → Except StorageError (Applied (List ControlResponse))
  | s, [] => .ok ⟨s, [], []⟩
  | s, (degraded, entries) :: batches => do
    let one ← apply U degraded s entries
    let rest ← applyAll one.state batches
    return ⟨rest.state, one.reply ++ rest.reply, one.actions ++ rest.actions⟩

/-! ## The machine of events -/

/-- The recorded outcome an entry would be answered with; a row that will not parse
is none. -/
def replayOf (s : State) (request : ControlRequest) : Option DedupEntry :=
  (lookupDedup U s.dedup request.opId s.applied.logicalClockSecs).toOption.bind id

/-- One entry, where the dedup row it looks up parses. -/
def applyOne (degraded : Bool) (s : State) (e : Entry) : Applied ControlResponse :=
  let s := s.receive e
  match e.payload with
  | .blank | .membership _ => ⟨s, .ofApplied e.logId.index, []⟩
  | .normal request =>
    match replayOf U s request with
    | some previous => ⟨s, previous.response, []⟩
    | none => commitOp U s request e.logId.index degraded

/-- A batch starts with a sweep; then its entries follow, under one answer to
`is_degraded`. -/
inductive Event where
  | sweep
  | entry (degraded : Bool) (e : Entry)
  deriving DecidableEq, Repr

def State.sweep (s : State) : State :=
  { s with dedup := gcDedup U s.dedup s.applied.logicalClockSecs }

def State.step (s : State) : Event → State
  | .sweep => s.sweep U
  | .entry degraded e => (applyOne U degraded s e).state

/-- The responses of a run. -/
def responses : State → List Event → List ControlResponse
  | _, [] => []
  | s, .sweep :: es => responses (s.sweep U) es
  | s, .entry degraded e :: es =>
    (applyOne U degraded s e).reply :: responses (s.step U (.entry degraded e)) es

/-- The engine actions of a run. -/
def actions : State → List Event → List AttributedAction
  | _, [] => []
  | s, .sweep :: es => actions (s.sweep U) es
  | s, .entry degraded e :: es =>
    (applyOne U degraded s e).actions ++ actions (s.step U (.entry degraded e)) es

/-- The events of a log cut into batches. -/
def eventsOf (batches : List (Bool × List Entry)) : List Event :=
  batches.flatMap fun b => .sweep :: b.2.map (.entry b.1)

/-- The log of a list of events. -/
def Event.entry? : Event → Option Entry
  | .sweep => none
  | .entry _ e => some e

def logOf (es : List Event) : List Entry := es.filterMap Event.entry?

@[simp] theorem logOf_nil : logOf [] = [] := rfl

@[simp] theorem logOf_sweep (es : List Event) : logOf (.sweep :: es) = logOf es := rfl

@[simp] theorem logOf_entry (degraded : Bool) (e : Entry) (es : List Event) :
    logOf (.entry degraded e :: es) = e :: logOf es := rfl

@[simp] theorem logOf_append (es es' : List Event) : logOf (es ++ es') = logOf es ++ logOf es' :=
  List.filterMap_append

/-- The state after the first `n` events. -/
def sAt (s : State) (es : List Event) (n : ℕ) : State := Trace.stateAt (State.step U) s es n

/-! ## A batch is a run -/

/-- Every dedup row parses. -/
def DedupOk (dedup : Table String String) : Prop :=
  ∀ (k row : String), dedup[k]? = some row → ∃ d, U.dedup.read row = .ok d

variable {U}

theorem sAt_succ {s : State} {es : List Event} {n : ℕ} (hn : n < es.length) :
    sAt U s es (n + 1) = (sAt U s es n).step U es[n] := Trace.stateAt_succ hn

/-- A longer run goes through the same states. -/
theorem sAt_append {es more : List Event} {n : ℕ} (hn : n ≤ es.length) (s : State) :
    sAt U s (es ++ more) n = sAt U s es n := by
  unfold sAt Trace.stateAt
  rw [List.take_append_of_le_length hn]

/-- What holds of a state and not of the empty one was brought about by one event, and
has held since. -/
theorem sAt_origin {es : List Event} {n : ℕ} (P : State → Prop) (h0 : ¬ P {}) (hn : n ≤ es.length)
    (h : P (sAt U {} es n)) :
    ∃ k, ∃ hk : k < es.length, k < n ∧ ¬ P (sAt U {} es k) ∧ P ((sAt U {} es k).step U es[k]) ∧
      ∀ j, k < j → j ≤ n → P (sAt U {} es j) := Trace.stateAt_origin h0 hn h

theorem get_gcDedup (dedup : Table String String) (now : ℕ) (k : String) :
    (gcDedup U dedup now)[k]? = dedup[k]?.filter (dedupLive U now) := get_retain _ _ _

theorem dedupOk_gcDedup (dedup : Table String String) (now : ℕ) : DedupOk U (gcDedup U dedup now) := by
  intro k row h
  rw [get_gcDedup, Option.filter_eq_some_iff] at h
  have := h.2
  unfold dedupLive at this
  split at this
  · exact ⟨_, ‹_›⟩
  · cases this

theorem dedupOk_sweep (s : State) : DedupOk U (s.sweep U).dedup := dedupOk_gcDedup _ _

theorem dedupOk_insert {dedup : Table String String} (h : DedupOk U dedup) (k : String) (d : DedupEntry) :
    DedupOk U (dedup.insert k (U.dedup.write d)) := by
  intro k' row hr
  rw [get_insert] at hr
  split at hr
  · cases hr; exact ⟨d, by simp⟩
  · exact h k' row hr

/-- **What an entry does.** It is a blank or a membership change, the replay of a
recorded outcome, or a request that is run and recorded. -/
theorem applyOne_cases (degraded : Bool) (s : State) (e : Entry) :
    ((∀ request, e.payload ≠ .normal request) ∧
        applyOne U degraded s e = ⟨s.receive e, .ofApplied e.logId.index, []⟩) ∨
      (∃ request previous, e.payload = .normal request ∧ replayOf U (s.receive e) request = some previous ∧
        applyOne U degraded s e = ⟨s.receive e, previous.response, []⟩) ∨
      (∃ request, e.payload = .normal request ∧ replayOf U (s.receive e) request = none ∧
        applyOne U degraded s e = commitOp U (s.receive e) request e.logId.index degraded) := by
  unfold applyOne
  cases hp : e.payload with
  | blank => exact .inl ⟨by simp, rfl⟩
  | membership m => exact .inl ⟨by simp, rfl⟩
  | normal request =>
    cases hr : replayOf U (s.receive e) request with
    | some previous => exact .inr (.inl ⟨request, previous, rfl, hr, by simp [hr]⟩)
    | none => exact .inr (.inr ⟨request, rfl, hr, by simp [hr]⟩)

theorem dedupOk_applyOne {s : State} (h : DedupOk U s.dedup) (degraded : Bool) (e : Entry) :
    DedupOk U (applyOne U degraded s e).state.dedup := by
  rcases applyOne_cases (U := U) degraded s e with ⟨-, heq⟩ | ⟨_, _, -, -, heq⟩ | ⟨request, -, -, heq⟩
  · rw [heq]; exact h
  · rw [heq]; exact h
  · rw [heq]; exact dedupOk_insert h _ _

/-- Where every dedup row parses, an entry meets no storage error. -/
theorem applyEntry_eq {s : State} (h : DedupOk U s.dedup) (degraded : Bool) (e : Entry) :
    applyEntry U degraded s e = .ok (applyOne U degraded s e) := by
  have hl : ∀ opId clock, ∃ prev, lookupDedup U s.dedup opId clock = .ok prev := by
    intro opId clock
    unfold lookupDedup
    split
    · exact ⟨_, rfl⟩
    · obtain ⟨d, hd⟩ := h _ _ ‹_›
      rw [hd]; exact ⟨_, rfl⟩
  unfold applyEntry applyOne
  cases hp : e.payload with
  | blank => rfl
  | membership m => rfl
  | normal request =>
    obtain ⟨prev, hprev⟩ := hl request.opId (s.receive e).applied.logicalClockSecs
    have hrep : replayOf U (s.receive e) request = prev := by
      simp only [replayOf, State.receive] at hprev ⊢
      rw [hprev]; rfl
    have hprev' : lookupDedup U (s.receive e).dedup request.opId (s.receive e).applied.logicalClockSecs = .ok prev :=
      hprev
    simp only [hrep, hprev']
    cases prev <;> rfl

/-- What a run of events gives back as a whole. -/
def runEvents (U : Upstream) (s : State) (es : List Event) : Applied (List ControlResponse) :=
  ⟨es.foldl (State.step U) s, responses U s es, actions U s es⟩

theorem runEvents_append (s : State) (es es' : List Event) :
    runEvents U s (es ++ es') =
      ⟨(runEvents U (runEvents U s es).state es').state,
        (runEvents U s es).reply ++ (runEvents U (runEvents U s es).state es').reply,
        (runEvents U s es).actions ++ (runEvents U (runEvents U s es).state es').actions⟩ := by
  induction es generalizing s with
  | nil => simp [runEvents, responses, actions]
  | cons ev es ih =>
    have hi := ih (s.step U ev)
    simp only [runEvents, Applied.mk.injEq] at hi ⊢
    cases ev with
    | sweep => simpa [responses, actions, State.step] using hi
    | entry degraded e =>
      refine ⟨hi.1, ?_, ?_⟩
      · simp [responses, hi.2.1]
      · simp [actions, hi.2.2]

theorem applyEntries_eq (degraded : Bool) (entries : List Entry) : ∀ {s : State}, DedupOk U s.dedup →
    applyEntries U degraded s entries = .ok (runEvents U s (entries.map (.entry degraded))) := by
  induction entries with
  | nil => intro s _; rfl
  | cons e es ih =>
    intro s h
    unfold applyEntries
    rw [applyEntry_eq h]
    simp only [bind, Except.bind, ih (dedupOk_applyOne h degraded e)]
    rfl

/-- **A batch is a run.** `apply` never meets a storage error of the model: the sweep
drops every dedup row that will not parse, and entries only write rows that do. -/
theorem apply_eq (degraded : Bool) (s : State) (entries : List Entry) :
    apply U degraded s entries = .ok (runEvents U s (.sweep :: entries.map (.entry degraded))) := by
  unfold apply
  rw [show ({ s with dedup := gcDedup U s.dedup s.applied.logicalClockSecs } : State) = s.sweep U from rfl,
    applyEntries_eq degraded entries (dedupOk_sweep s)]
  rfl

/-- **A log cut into batches is a run.** -/
theorem applyAll_eq (batches : List (Bool × List Entry)) : ∀ s : State,
    applyAll U s batches = .ok (runEvents U s (eventsOf batches)) := by
  induction batches with
  | nil => intro s; rfl
  | cons b bs ih =>
    intro s
    obtain ⟨degraded, entries⟩ := b
    have hcons : eventsOf ((degraded, entries) :: bs) =
        (.sweep :: entries.map (.entry degraded)) ++ eventsOf bs := by simp [eventsOf]
    unfold applyAll
    rw [apply_eq]
    simp only [bind, Except.bind, ih, hcons, runEvents_append]
    rfl

end RiftCluster
