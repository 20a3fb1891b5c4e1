import RiftCluster.Model.Auth
import RiftCluster.Model.Replace

/-!
# The console's keyed writes

`keyedAttempt` lends each call a key, keeps it while the outcome is unknown and
drops it on any answer. The admin front turns the key into an op id, and the log
takes the requests in: those of this call, of earlier calls whose response was lost,
and everything else the fleet does. `runBulk` makes one call after another through
one instance.
-/

namespace RiftCluster.Console

/-- What `mintKey` returns: `crypto.randomUUID`, or `k-` with the time and a random
part; never blank. -/
structure Key where
  text : String
  nonblank : Auth.trim text.toList ≠ []
  deriving DecidableEq

/-- The UUIDs of the admin front. -/
structure Uuids where
  /-- A key that is a UUID itself. -/
  parse : String → Option String
  /-- `Uuid::new_v5` under `IDEMPOTENCY_NAMESPACE`. -/
  v5 : String → String
  /-- `Uuid::new_v5` of an index under a base. -/
  v5Index : String → ℕ → String

/-- `base_op_id`, with the UUID it would mint for a request without a key. -/
def baseOpId (I : Uuids) (v4 : String) (idempotency : Option String) : String :=
  match idempotency.map fun key => Auth.trim key.toList with
  | some [] | none => v4
  | some key => (I.parse (String.ofList key)).getD (I.v5 (String.ofList key))

/-- A write that makes one op: what its method, path, body and headers come to. -/
structure Write where
  op : ControlOp
  precondition : Precondition := .unconditional
  principal : Option String := none
  deriving DecidableEq, Repr

/-- The request the front submits for a write. -/
def Write.request (write : Write) (I : Uuids) (base : String) (now : ℕ) : ControlRequest :=
  { mintRequest (opIdFor I.v5Index base 0 1) write.op write.precondition now with principal := write.principal }

/-- How the promise of a call settles: the fleet answered success, it answered a
refusal (`ApiError`), or there was no answer. -/
inductive Settled where
  | resolved
  | apiError
  | unknown
  deriving DecidableEq, Repr

def Settled.outcomeIsUnknown : Settled → Bool
  | .unknown => true
  | _ => false

/-- One call through a `keyedAttempt` instance: the key it holds afterwards, and how
the attempt settled. -/
def keyedAttempt (held : Option Key) (mint : Key) (attempt : Key → Settled) : Option Key × Settled :=
  let key := held.getD mint
  let settled := attempt key
  (if settled.outcomeIsUnknown then some key else none, settled)

/-- A request as the console sent it. -/
structure Sent where
  key : Key
  write : Write
  deriving DecidableEq

/-- What the log takes in during a call: a request the console has sent, by this call
or an earlier one, or an event of its own. -/
inductive Arrival where
  | own (attempt : ℕ) (degraded : Bool) (logId : LogId) (now : ℕ) (v4 : String)
  | other (event : Event)

/-- How a call ends: the front answers with the outcome of a log entry, or refuses, or
the response is lost. -/
inductive Ending where
  | answered (position : ℕ)
  | refused
  | lost

/-- What happens while a call is out. -/
structure Exchange where
  mint : Key
  arrivals : List Arrival
  ending : Ending

structure Attempt where
  write : Write
  exchange : Exchange

/-- A console instance and the log it writes to. -/
structure World where
  held : Option Key := none
  sent : List Sent := []
  settled : List Settled := []
  log : List Event := []

section Run

variable (U : Upstream) (I : Uuids)

def arrive (sent : List Sent) (log : List Event) : Arrival → List Event
  | .own attempt degraded logId now v4 =>
    match sent[attempt]? with
    | none => log
    | some s => log ++ [.entry degraded ⟨logId, .normal (s.write.request I (baseOpId I v4 (some s.key.text)) now)⟩]
  | .other event => log ++ [event]

/-- Whether the request is the write's. -/
def Write.carriedBy (write : Write) (request : ControlRequest) : Bool :=
  request == write.request I request.opId request.issuedAtSecs

/-- Whether the entry at a position carries the write under the key, and is answered
`Applied`. -/
def succeeds (log : List Event) (key : Key) (write : Write) (position : ℕ) : Bool :=
  match log[position]? with
  | some (.entry degraded e) =>
    match e.payload with
    | .normal request =>
      request.opId == baseOpId I "" (some key.text) && write.carriedBy I request &&
        (applyOne U degraded (sAt U {} log position) e).reply.outcome == .applied
    | _ => false
  | _ => false

def Ending.settles (log : List Event) (key : Key) (write : Write) : Ending → Settled
  | .answered position => if succeeds U I log key write position then .resolved else .unknown
  | .refused => .apiError
  | .lost => .unknown

/-- One call. -/
def World.call (w : World) (x : Attempt) : World :=
  let sent := w.sent ++ [⟨w.held.getD x.exchange.mint, x.write⟩]
  let log := x.exchange.arrivals.foldl (arrive I sent) w.log
  let (held, settled) := keyedAttempt w.held x.exchange.mint fun key => x.exchange.ending.settles U I log key x.write
  { held, sent, settled := w.settled ++ [settled], log }

def World.run (w : World) (calls : List Attempt) : World := calls.foldl (World.call U I) w

/-! ## Bulk actions -/

/-- `BulkItemOutcome` under a synchronous front; a failed commit is thrown. -/
inductive BulkItemOutcome where
  | done
  | refused
  deriving DecidableEq, Repr

def runOne : Settled → BulkItemOutcome
  | .resolved => .done
  | .apiError | .unknown => .refused

/-- `runBulk`: one call per port, in order, whatever became of the ones before. -/
def runBulk (write : Port → Write) : World → List (Port × Exchange) → World × List (Port × BulkItemOutcome)
  | w, [] => (w, [])
  | w, (port, exchange) :: rest =>
    let w' := w.call U I ⟨write port, exchange⟩
    let (after, results) := runBulk write w' rest
    (after, (port, runOne ((w'.settled.getLast?).getD .unknown)) :: results)

/-! ## What was applied -/

/-- Whether the entry at a position ran the write, with `Applied` as its outcome. -/
def ranAt (log : List Event) (write : Write) (position : ℕ) : Bool :=
  match log[position]? with
  | some (.entry degraded e) =>
    match e.payload with
    | .normal request =>
      write.carriedBy I request && (replayOf U ((sAt U {} log position).receive e) request).isNone &&
        (applyOne U degraded (sAt U {} log position) e).reply.outcome == .applied
    | _ => false
  | _ => false

/-- The state machine has applied the write. -/
def WasApplied (log : List Event) (write : Write) : Prop := ∃ m < log.length, ranAt U I log write m = true

instance (log : List Event) (write : Write) : Decidable (WasApplied U I log write) :=
  inferInstanceAs (Decidable (∃ m < log.length, ranAt U I log write m = true))

end Run

end RiftCluster.Console
