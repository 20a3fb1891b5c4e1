import RiftCluster.Model.PeerHealth
import RiftCluster.Model.RpcPort

/-!
# Calls of the cluster client

`rpc/client.rs`: `call`, `call_once` and `fetch_stream` ask the tracker for admission, and report
to it when they end (`OpenCall.settle`); a probe asks for none. Between the two a call makes its
attempts, and tells the tracker nothing. A call whose future is dropped never reports.
-/

namespace RiftCluster.Rpc

inductive CallKind where
  /-- `call`: the timeout is the configured one, after all retries. -/
  | retried
  /-- `call_once` and `fetch_stream`: one attempt, on the caller's own deadline. -/
  | once
  deriving DecidableEq

/-- A call that was admitted and has not reported. -/
structure OpenCall where
  kind : CallKind
  peer : String
  admission : Admission
  dropped : Bool := false

/-- What a call records when it ends, with an error or with a reply. -/
def OpenCall.settle (call : OpenCall) : Option RpcError → HealthCall
  | none => .recordSuccess call.peer call.admission
  | some e =>
    if call.kind = .once ∧ e = .timeout then .release call.peer call.admission
    else if e.isLivenessFailure then .recordFailure call.peer call.admission
    else .recordSuccess call.peer call.admission

structure ClientState where
  health : TrackedPeerHealth := {}
  calls : ℕ → Option OpenCall := fun _ => none

inductive ClientMove where
  | start (k : ℕ) (kind : CallKind) (peer : String)
  | finish (k : ℕ) (error : Option RpcError)
  | drop (k : ℕ)
  /-- A probe is answered. -/
  | probed (peer : String)

/-- The call that an admission opens. A refused one has ended. -/
def opened (kind : CallKind) (peer : String) (admission : Admission) : Option OpenCall :=
  if admission = .refused then none else some { kind, peer, admission }

/-- One move, at a reading of the clock. -/
def ClientState.step (c : HealthParams) (s : ClientState) (e : ℕ × ClientMove) : ClientState :=
  match e.2 with
  | .start k kind peer =>
    if (s.calls k).isSome then s
    else
      { health := (s.health.admitCall c e.1 peer).1
        calls := Function.update s.calls k (opened kind peer (s.health.admitCall c e.1 peer).2) }
  | .finish k error =>
    match s.calls k with
    | none => s
    | some call =>
      if call.dropped then s
      else { health := s.health.step c ⟨e.1, call.settle error⟩, calls := Function.update s.calls k none }
  | .drop k => { s with calls := Function.update s.calls k ((s.calls k).map fun call => { call with dropped := true }) }
  | .probed peer => { s with health := s.health.recordSuccess peer }

/-- The client after a run of moves. -/
def clientAfter (c : HealthParams) (moves : List (ℕ × ClientMove)) : ClientState := moves.foldl (ClientState.step c) {}

end RiftCluster.Rpc
