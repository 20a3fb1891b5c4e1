import RiftCluster.Lib.Table
import RiftCluster.Lib.Trace

/-!
# Locally observed peer health

`TrackedPeerHealth` counts the failed calls to each peer. At `threshold` failures the peer is
marked down for `cooldown`, and while it is marked one call at a time is let through as a
trial, `half_open_interval` after the last one at the earliest. The caller hands its admission
back when the call ends, and only the trial's own outcome closes the trial.

Every call on the tracker takes its lock, so a run is a list of calls with the clock's reading
at each (`HealthEvent`), in the order of the lock. Trial ids come from one counter that counts
without wrapping here.
-/

namespace RiftCluster

open KV

/-- What `admit` decided about one call. -/
inductive Admission where
  | healthy
  /-- The peer is marked down, and this call is the one half-open trial. -/
  | trial (id : ℕ)
  | refused
  deriving DecidableEq, Repr

structure PeerState where
  consecutiveFailures : ℕ := 0
  unhealthyUntil : Option ℕ := none
  /-- When the current pacing window opened. -/
  windowFrom : Option ℕ := none
  /-- The trial that is outstanding. -/
  trial : Option ℕ := none
  deriving DecidableEq, Repr

/-- What a tracker is built with. -/
structure HealthParams where
  threshold : ℕ
  cooldown : ℕ
  halfOpenInterval : ℕ
  deriving DecidableEq, Repr

structure TrackedPeerHealth where
  state : Table String PeerState := ∅
  nextTrial : ℕ := 0
  deriving DecidableEq

/-- The pacing window has passed. A reading before the window's start counts as its start. -/
def PeerState.due (c : HealthParams) (now : ℕ) (entry : PeerState) : Bool :=
  entry.windowFrom.all fun since => c.halfOpenInterval ≤ now - since

namespace TrackedPeerHealth

/-- `admit`. -/
def admitCall (c : HealthParams) (h : TrackedPeerHealth) (now : ℕ) (peer : String) :
    TrackedPeerHealth × Admission :=
  match h.state[peer]? with
  | none => (h, .healthy)
  | some entry =>
    match entry.unhealthyUntil with
    | none => (h, .healthy)
    | some limit =>
      if limit ≤ now then ({ h with state := h.state.erase peer }, .healthy)
      else if entry.trial.isSome then (h, .refused)
      else if entry.due c now then
        ({ state := h.state.insert peer { entry with windowFrom := some now, trial := some h.nextTrial }
           nextTrial := h.nextTrial + 1 }, .trial h.nextTrial)
      else (h, .refused)

def recordSuccess (h : TrackedPeerHealth) (peer : String) : TrackedPeerHealth :=
  { h with state := h.state.erase peer }

end TrackedPeerHealth

/-- The trial's own failure: the window is shut and the mark armed again. -/
def PeerState.trialFailed (c : HealthParams) (now : ℕ) (entry : PeerState) : PeerState :=
  { entry with trial := none, windowFrom := some now, unhealthyUntil := some (now + c.cooldown) }

/-- An ordinary failure. The count saturates at `u32::MAX`. -/
def PeerState.callFailed (c : HealthParams) (now : ℕ) (entry : PeerState) : PeerState :=
  let failures := min (entry.consecutiveFailures + 1) (2 ^ 32 - 1)
  if c.threshold ≤ failures then
    { entry with consecutiveFailures := failures, unhealthyUntil := some (now + c.cooldown), windowFrom := some now }
  else { entry with consecutiveFailures := failures }

/-- What a failure makes of the peer's entry. -/
def PeerState.failed (c : HealthParams) (now : ℕ) (entry : PeerState) : Admission → PeerState
  | .trial id => if entry.trial = some id then entry.trialFailed c now else entry.callFailed c now
  | .healthy => entry.callFailed c now
  -- a refused call was never made
  | .refused => entry

namespace TrackedPeerHealth

def recordFailure (c : HealthParams) (h : TrackedPeerHealth) (now : ℕ) (peer : String) (admission : Admission) :
    TrackedPeerHealth :=
  { h with state := h.state.insert peer ((h.state[peer]?.getD {}).failed c now admission) }

def release (h : TrackedPeerHealth) (peer : String) : Admission → TrackedPeerHealth
  | .trial id =>
    match h.state[peer]? with
    | none => h
    | some entry =>
      if entry.trial = some id then { h with state := h.state.insert peer { entry with trial := none } } else h
  | .healthy | .refused => h

end TrackedPeerHealth

inductive HealthCall where
  | admitCall (peer : String)
  | recordSuccess (peer : String) (admission : Admission)
  | recordFailure (peer : String) (admission : Admission)
  | release (peer : String) (admission : Admission)
  deriving DecidableEq, Repr

/-- A call on the tracker and the clock's reading in it. -/
structure HealthEvent where
  now : ℕ
  call : HealthCall
  deriving DecidableEq, Repr

def TrackedPeerHealth.step (c : HealthParams) (h : TrackedPeerHealth) (e : HealthEvent) : TrackedPeerHealth :=
  match e.call with
  | .admitCall peer => (h.admitCall c e.now peer).1
  | .recordSuccess peer _ => h.recordSuccess peer
  | .recordFailure peer admission => h.recordFailure c e.now peer admission
  | .release peer admission => h.release peer admission

/-- A new tracker after the first `k` calls. -/
def healthAt (c : HealthParams) (es : List HealthEvent) (k : ℕ) : TrackedPeerHealth :=
  Trace.stateAt (TrackedPeerHealth.step c) {} es k

/-- What the `k`-th call is answered, if it asks to be admitted to the peer. -/
def answerAt (c : HealthParams) (es : List HealthEvent) (k : ℕ) (peer : String) : Option Admission :=
  es[k]?.bind fun e =>
    if e.call = .admitCall peer then some ((healthAt c es k).admitCall c e.now peer).2 else none

/-- The trial that is outstanding for the peer. -/
def TrackedPeerHealth.trialOf (h : TrackedPeerHealth) (peer : String) : Option ℕ :=
  h.state[peer]?.bind PeerState.trial

/-- The peer's mark has run out. -/
def TrackedPeerHealth.expired (h : TrackedPeerHealth) (now : ℕ) (peer : String) : Bool :=
  h.state[peer]?.any fun entry => entry.unhealthyUntil.any (· ≤ now)

/-- The call takes the peer's entry out: a success, or an admission after the cooldown. -/
def HealthEvent.removes (h : TrackedPeerHealth) (peer : String) (e : HealthEvent) : Bool :=
  match e.call with
  | .recordSuccess q _ => q = peer
  | .admitCall q => q = peer && h.expired e.now peer
  | .recordFailure _ _ | .release _ _ => false

def removedAt (c : HealthParams) (es : List HealthEvent) (k : ℕ) (peer : String) : Bool :=
  es[k]?.any (HealthEvent.removes (healthAt c es k) peer)

/-- The `k`-th call reports a trial of the peer, as failed or with no evidence. -/
def settledAt (es : List HealthEvent) (k : ℕ) (peer : String) (id : ℕ) : Bool :=
  es[k]?.any fun e => e.call = .recordFailure peer (.trial id) || e.call = .release peer (.trial id)

/-- The call reports a failure of a call that was made. -/
def HealthEvent.fails (peer : String) (e : HealthEvent) : Bool :=
  match e.call with
  | .recordFailure q admission => q = peer && admission ≠ .refused
  | .admitCall _ | .recordSuccess _ _ | .release _ _ => false

/-- How many failures are recorded for the peer from the `m`-th call up to the `n`-th. -/
def failuresBetween (c : HealthParams) (es : List HealthEvent) (peer : String) (m n : ℕ) : ℕ :=
  Trace.countSteps (TrackedPeerHealth.step c) (fun _ e => e.fails peer) {} es m n

end RiftCluster
