import RiftCluster.Lib.Trace

/-!
# Single-flight replication

`PeerClient::append_entries`. A request with entries is carried by a detached transfer, and the
slot `inflight` remembers it, so that a call that is dropped while it waits leaves the transfer
running and a later call with the same base attaches to it. A request without entries is sent
inline.

Calls on a client are made one at a time. `PeerClient.step` is one atomic step: a call up to its
wait, the drop of the waiting call, the end of a transfer, and the return of a call. Log ids are of
any linear order, and an id that may be absent is below every id. What a request carries beside its
base and its entries, the leader's commit index, is not read here.
-/

namespace RiftCluster

structure LogEntry (L P : Type) where
  logId : L
  payload : P
  deriving DecidableEq, Repr

/-- An `AppendEntriesRequest`; the entries are a stretch of a log. -/
structure AppendRequest (V L P : Type) [LinearOrder L] where
  vote : V
  prevLogId : WithBot L
  entries : List (LogEntry L P)
  ascending : entries.Pairwise (·.logId < ·.logId)

inductive AppendResponse (V L : Type) where
  | success
  | partialSuccess (through : WithBot L)
  | conflict
  | higherVote (vote : V)

/-- How a transfer's task ends: with what the follower or the network answered, or not at all. -/
inductive TransferEnd (V L X : Type) where
  | answered (result : Except X (AppendResponse V L))
  | failed

/-- Why a call has no answer of the follower's. -/
inductive AppendError (X : Type) where
  | transfer (error : X)
  | taskFailed
  /-- The request could not be serialized. -/
  | unserialized

structure InflightAppend (V L : Type) where
  vote : V
  prevLogId : WithBot L
  lastLogId : WithBot L
  /-- The transfer whose handle it holds. -/
  handle : ℕ

variable (V L P X : Type) [LinearOrder L]

/-- A request that went out, and how that ended. -/
structure Transfer where
  request : AppendRequest V L P
  outcome : Option (TransferEnd V L X)

structure PeerClient where
  inflight : Option (InflightAppend V L) := none
  /-- The call under way. -/
  waiting : Option (AppendRequest V L P) := none
  transfers : List (Transfer V L P X) := []
  /-- What the calls returned. -/
  returned : List (AppendRequest V L P × Except (AppendError X) (AppendResponse V L)) := []

inductive ClientMove where
  /-- A call is made. -/
  | call (rpc : AppendRequest V L P) (serializes : Bool)
  /-- The call under way is dropped. -/
  | drop
  /-- A request that was sent inline is answered. -/
  | answer (result : Except X (AppendResponse V L))
  /-- A transfer's task ends. -/
  | settle (handle : ℕ) (outcome : TransferEnd V L X)
  /-- The call under way finds its transfer ended, and returns. -/
  | join

variable {V L P X} [DecidableEq V]

def AppendRequest.lastLogId (rpc : AppendRequest V L P) : WithBot L :=
  match rpc.entries.getLast? with
  | some entry => entry.logId
  | none => ⊥

/-- Attach only to a transfer based identically and carrying no more than the request wants. -/
def InflightAppend.attaches (slot : InflightAppend V L) (rpc : AppendRequest V L P) : Bool :=
  slot.vote = rpc.vote && slot.prevLogId = rpc.prevLogId && slot.lastLogId ≤ rpc.lastLogId

/-- What a call makes of its transfer's end. -/
def appendResult (sentThrough : WithBot L) (rpc : AppendRequest V L P) :
    TransferEnd V L X → Except (AppendError X) (AppendResponse V L)
  | .answered (.ok .success) =>
    if sentThrough < rpc.lastLogId then .ok (.partialSuccess sentThrough) else .ok .success
  | .answered (.ok response) => .ok response
  | .answered (.error e) => .error (.transfer e)
  | .failed => .error .taskFailed

def Transfer.settle (outcome : TransferEnd V L X) (t : Transfer V L P X) : Transfer V L P X :=
  if t.outcome.isNone then { t with outcome := some outcome } else t

namespace PeerClient

variable (c : PeerClient V L P X)

/-- `append_entries` up to its wait. -/
def call (rpc : AppendRequest V L P) (serializes : Bool) : PeerClient V L P X :=
  if rpc.entries.isEmpty then { c with waiting := some rpc }
  else if c.inflight.any (·.attaches rpc) then { c with waiting := some rpc }
  else if serializes then
    { c with
      inflight := some ⟨rpc.vote, rpc.prevLogId, rpc.lastLogId, c.transfers.length⟩
      transfers := c.transfers ++ [⟨rpc, none⟩]
      waiting := some rpc }
  else { c with inflight := none, returned := c.returned ++ [(rpc, .error .unserialized)] }

/-- A request sent inline returns what it is answered. -/
def answer (result : Except X (AppendResponse V L)) : PeerClient V L P X :=
  match c.waiting with
  | some rpc =>
    if rpc.entries.isEmpty then
      { c with
        waiting := none
        transfers := c.transfers ++ [⟨rpc, some (.answered result)⟩]
        returned := c.returned ++ [(rpc, result.mapError .transfer)] }
    else c
  | none => c

/-- `append_entries` from its wait on. -/
def join : PeerClient V L P X :=
  match c.waiting, c.inflight with
  | some rpc, some slot =>
    if rpc.entries.isEmpty then c
    else
      match c.transfers[slot.handle]?.bind Transfer.outcome with
      | some outcome =>
        { c with
          inflight := none
          waiting := none
          returned := c.returned ++ [(rpc, appendResult slot.lastLogId rpc outcome)] }
      | none => c
  | _, _ => c

def step : ClientMove V L P X → PeerClient V L P X
  -- a call holds the client until it is over
  | .call rpc serializes => if c.waiting.isSome then c else c.call rpc serializes
  | .drop => { c with waiting := none }
  | .answer result => c.answer result
  | .settle handle outcome => { c with transfers := c.transfers.modify handle (Transfer.settle outcome) }
  | .join => c.join

/-- A new client after the moves. -/
def run (moves : List (ClientMove V L P X)) : PeerClient V L P X := moves.foldl step {}

end PeerClient

/-- The requests of the calls that are made. -/
def callsOf (moves : List (ClientMove V L P X)) : List (AppendRequest V L P) :=
  moves.filterMap fun m => match m with
    | .call rpc _ => some rpc
    | .drop | .answer _ | .settle _ _ | .join => none

end RiftCluster
