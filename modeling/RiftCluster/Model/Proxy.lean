import RiftCluster.Model.Flow

/-!
# The clustered recording store

`stores/proxy.rs`: the owner's side of `proxyOnce`. A claim is a row of the owner's own
memory; a recording is an entry of the log; a completion cache bridges the time from the
entry's commit to its local apply.

None of the four calls is atomic. `owner_claim` passes its gate, reads the applied row,
looks into the completion cache, and takes a claim, under three different locks.
`owner_complete` checks its token, submits, learns the outcome, frees the slot, and fills
the cache. Each of these is a move of its own, so a run is any interleaving of them with
each other, with the node's apply loop and with the passage of time.

The nodes share the log. An op id is drawn at random for each submission, so it is one no
other request has: a submission under a used id does not happen (`ProxyFleet.step`).
-/

namespace RiftCluster

open KV

/-! ## Requests and replies -/

/-- What is claimed: a port's signature hash. -/
abbrev ClaimSlot := Port × String

structure ClaimReq where
  port : Port
  sigHash : String
  mIdx : ℕ
  deriving DecidableEq, Repr

inductive ClaimReply where
  | claimed (token : UInt64)
  | inFlight
  | alreadyRecorded
  | fenced (ownerMIdx : ℕ)
  | notOwner (owner : ℕ)
  | error (reason : String)
  deriving DecidableEq, Repr

structure ReleaseReq where
  port : Port
  sigHash : String
  token : UInt64
  mIdx : ℕ
  deriving DecidableEq, Repr

structure CompleteReq where
  port : Port
  sigHash : String
  token : UInt64
  mIdx : ℕ
  resp : RecordedResponse
  stub : Option RecordedStub
  deriving DecidableEq, Repr

inductive SettleReply where
  | done
  /-- The token is stale or the claim has expired: the recording is dropped. -/
  | stale
  | fenced (ownerMIdx : ℕ)
  | notOwner (owner : ℕ)
  | unavailable (reason : String)
  deriving DecidableEq, Repr

structure LookupReq where
  port : Port
  sigHash : String
  deriving DecidableEq, Repr

inductive OwnerRefusal where
  | fenced (ownerMIdx : ℕ)
  | notOwner (owner : ℕ)
  | error (reason : String)
  deriving DecidableEq, Repr

def OwnerRefusal.intoClaim : OwnerRefusal → ClaimReply
  | .fenced ownerMIdx => .fenced ownerMIdx
  | .notOwner owner => .notOwner owner
  | .error reason => .error reason

def OwnerRefusal.intoSettle : OwnerRefusal → SettleReply
  | .fenced ownerMIdx => .fenced ownerMIdx
  | .notOwner owner => .notOwner owner
  | .error reason => .unavailable reason

def ClaimReq.slot (req : ClaimReq) : ClaimSlot := (req.port, req.sigHash)
def ReleaseReq.slot (req : ReleaseReq) : ClaimSlot := (req.port, req.sigHash)
def CompleteReq.slot (req : CompleteReq) : ClaimSlot := (req.port, req.sigHash)
def LookupReq.slot (req : LookupReq) : ClaimSlot := (req.port, req.sigHash)

/-- The ring key of a slot. -/
def OwnedKey.proxySig (slot : ClaimSlot) : OwnedKey := ⟨.proxy, toString slot.1 ++ ":" ++ slot.2⟩

/-- The log entry a completion submits. -/
def CompleteReq.request (req : CompleteReq) (opId : String) (issuedAtSecs : ℕ) : ControlRequest :=
  { opId, issuedAtSecs, op := .proxyRecorded req.port req.sigHash req.resp req.stub }

/-- How long the owner remembers a completed recording, in nanoseconds. -/
def completeCacheTtl : ℕ := 120 * 10 ^ 9

/-- The bit of a token that does not gate. -/
def ungated : UInt64 := (1 : UInt64) <<< 63

/-! ## The owner's memory -/

structure PendingClaim where
  token : UInt64
  deadline : ℕ
  deriving DecidableEq, Repr

structure CachedRecording where
  respJson : String
  /-- When the recording was cached. -/
  since : ℕ
  /-- The log index of the entry. -/
  revision : ℕ
  deriving DecidableEq, Repr

/-- A claim that was granted. -/
structure Grant where
  slot : ClaimSlot
  token : UInt64
  deadline : ℕ
  deriving DecidableEq, Repr

/-- How far a call of `owner_claim` is. -/
inductive ClaimStage where
  | gated
  /-- The applied row was read, and was not there. -/
  | unrecorded
  /-- The completion cache had nothing either. -/
  | uncached
  deriving DecidableEq, Repr

structure ClaimCall where
  req : ClaimReq
  stage : ClaimStage
  deriving DecidableEq, Repr

/-- How far a call of `owner_complete` is. -/
inductive SettleStage where
  | gated
  /-- The token was the slot's, and its claim had not expired. -/
  | checked
  | submitted (request : ControlRequest)
  /-- The submission was answered `Applied`. -/
  | answered (revision : ℕ)
  /-- The slot is free, and the cache is to be filled. -/
  | freed (revision : ℕ)
  /-- The submission did not work, and the slot is to be freed. -/
  | failed (reason : String)
  deriving DecidableEq, Repr

structure SettleCall where
  req : CompleteReq
  stage : SettleStage
  deriving DecidableEq, Repr

structure LookupCall where
  req : LookupReq
  /-- The row was read, and the completion cache is next. -/
  unrecorded : Bool := false
  deriving DecidableEq, Repr

/-- What a call of `owner_complete` learns of its submission. -/
inductive SubmitOutcome where
  | timedOut
  | error (reason : String)
  /-- The answer of the entry at a position of the log. -/
  | reply (position : ℕ)
  deriving DecidableEq, Repr

structure ProxyNode where
  id : ℕ
  slot : NodeSlot := .unbound
  ring : Ring := ⟨[], 0⟩
  isolated : Bool := false
  claimTtl : ℕ
  now : ℕ := 0
  /-- The durable state the node has applied. -/
  replica : State := {}
  /-- The applied index the node's metrics show, which follows the replica's. -/
  lastApplied : Option ℕ := none
  pending : Table ClaimSlot PendingClaim := ∅
  completed : Table ClaimSlot CachedRecording := ∅
  nextToken : UInt64
  claims : List ClaimCall := []
  settles : List SettleCall := []
  lookups : List LookupCall := []
  /-- The claims granted and the answers given, in order. -/
  grants : List Grant := []
  claimAnswers : List (ClaimReq × ClaimReply) := []
  settleAnswers : List (CompleteReq × SettleReply) := []
  lookupAnswers : List (LookupReq × Option RecordedResponse) := []

inductive ProxyMove where
  | view (slot : NodeSlot) (ring : Ring)
  | isolation (isolated : Bool)
  /-- Time passes. -/
  | tick (duration : ℕ)
  /-- The node's apply loop: a dedup sweep, the next entry, and the metrics after it. -/
  | sweep
  | apply (degraded : Bool)
  | publish (index : ℕ)
  | claim (req : ClaimReq)
  /-- The read of the applied row, or the failure it meets. -/
  | claimRow (call : ℕ) (failure : Option String)
  | claimCache (call : ℕ)
  | claimGrant (call : ℕ)
  | release (req : ReleaseReq)
  | complete (req : CompleteReq)
  | check (call : ℕ)
  | submit (call : ℕ) (opId : String) (issuedAtSecs : ℕ)
  | answer (call : ℕ) (outcome : SubmitOutcome)
  | free (call : ℕ)
  | cache (call : ℕ)
  /-- The caller's deadline drops a call that awaits its submission. -/
  | abandon (call : ℕ)
  | lookup (req : LookupReq)
  | lookupRow (call : ℕ) (failure : Option String)
  | lookupCache (call : ℕ)
  /-- The two halves of `clear_local`. -/
  | clearPending (port : Port)
  | clearCompleted (port : Port)
  deriving DecidableEq, Repr

/-! ## The log -/

variable (U : Upstream)

/-- The state the first `n` entries of a log lead to. -/
def logState (log : List Entry) (n : ℕ) : State := sAt U {} (log.map (.entry false)) n

/-- The answer to the entry at a position. -/
def logReply (log : List Entry) (n : ℕ) : Option ControlResponse :=
  log[n]?.map fun e => (applyOne U false (logState U log n) e).reply

/-- The marker of a slot after the first `n` entries of a log. -/
def markerAt (log : List Entry) (slot : ClaimSlot) (n : ℕ) : Option String :=
  (logState U log n).tables.proxyRecorded[slot]?

/-- How many entries of the log a replica has applied. -/
def State.position (s : State) : ℕ := s.applied.lastAppliedLog.elim 0 (·.index + 1)

namespace ProxyNode

variable (score : ℕ → OwnedKey → ℕ) (n : ProxyNode)

/-! ## Gates -/

def view : Except String Ring :=
  match n.slot with
  | .unbound => .error "proxy store: cluster is still starting"
  | .gone => .error "proxy store: cluster node has shut down"
  | .bound => if n.ring.isEmpty then .error "proxy store: no applied membership yet" else .ok n.ring

/-- Fence and ownership, as every owner-side call but a release checks them. -/
def ownerGate (ring : Ring) (mIdx : ℕ) (slot : ClaimSlot) : Option OwnerRefusal :=
  if mIdx ≠ ring.mIdx then some (.fenced ring.mIdx)
  else
    match ring.owner score (.proxySig slot) with
    | none => some (.error "proxy store: ring has no members")
    | some owner => if owner ≠ n.id then some (.notOwner owner) else none

/-- What refuses a claim before anything is read. -/
def claimRefusal (req : ClaimReq) : Option ClaimReply :=
  match n.view with
  | .error reason => some (.error reason)
  | .ok ring =>
    match n.ownerGate score ring req.mIdx req.slot with
    | some refusal => some refusal.intoClaim
    | none => if n.isolated then some (.error "proxy store: owner is isolated from the cluster") else none

/-- What refuses a completion before its token is checked. An isolated owner may try. -/
def settleRefusal (req : CompleteReq) : Option SettleReply :=
  match n.view with
  | .error reason => some (.unavailable reason)
  | .ok ring => (n.ownerGate score ring req.mIdx req.slot).map (·.intoSettle)

/-! ## Steps of the calls -/

def mintToken : UInt64 := n.nextToken &&& ~~~ungated

/-- The claim of a slot that has not expired. -/
def live (slot : ClaimSlot) : Option PendingClaim := n.pending[slot]?.filter fun claim => n.now < claim.deadline

/-- A hit of the completion cache, and what the lookup leaves of it. -/
def completedLookup (slot : ClaimSlot) : Option String × Table ClaimSlot CachedRecording :=
  match n.completed[slot]? with
  | none => (none, n.completed)
  | some cached =>
    if completeCacheTtl ≤ n.now - cached.since then (none, n.completed.erase slot)
    else if n.lastApplied.any (cached.revision ≤ ·) then (none, n.completed.erase slot)
    else (some cached.respJson, n.completed)

def answerClaim (call : ℕ) (req : ClaimReq) (reply : ClaimReply) : ProxyNode :=
  { n with claims := n.claims.eraseIdx call, claimAnswers := n.claimAnswers ++ [(req, reply)] }

def moveClaim (call : ℕ) (req : ClaimReq) (stage : ClaimStage) : ProxyNode :=
  { n with claims := n.claims.set call ⟨req, stage⟩ }

def answerSettle (call : ℕ) (req : CompleteReq) (reply : SettleReply) : ProxyNode :=
  { n with settles := n.settles.eraseIdx call, settleAnswers := n.settleAnswers ++ [(req, reply)] }

def moveSettle (call : ℕ) (req : CompleteReq) (stage : SettleStage) : ProxyNode :=
  { n with settles := n.settles.set call ⟨req, stage⟩ }

/-- The reply to a lookup; a row that will not decode is none. -/
def answerLookup (call : ℕ) (req : LookupReq) (row : Option String) : ProxyNode :=
  { n with
    lookups := n.lookups.eraseIdx call
    lookupAnswers := n.lookupAnswers ++ [(req, row.bind fun json => (U.recorded.read json).toOption)] }

/-- The applied row of a slot. -/
def proxyRecorded (slot : ClaimSlot) : Option String := n.replica.tables.proxyRecorded[slot]?

def claimRow (call : ℕ) (req : ClaimReq) : Option String → ProxyNode
  | some e => n.answerClaim call req (.error ("proxy store: " ++ e))
  | none =>
    match n.proxyRecorded req.slot with
    | some _ => n.answerClaim call req .alreadyRecorded
    | none => n.moveClaim call req .unrecorded

def claimCache (call : ℕ) (req : ClaimReq) : ProxyNode :=
  let found := n.completedLookup req.slot
  let n := { n with completed := found.2 }
  if found.1.isSome then n.answerClaim call req .alreadyRecorded else n.moveClaim call req .uncached

def claimGrant (call : ℕ) (req : ClaimReq) : ProxyNode :=
  if (n.live req.slot).isSome then n.answerClaim call req .inFlight
  else
    { n.answerClaim call req (.claimed n.mintToken) with
      nextToken := n.nextToken + 1
      pending := n.pending.insert req.slot ⟨n.mintToken, n.now + n.claimTtl⟩
      grants := n.grants ++ [⟨req.slot, n.mintToken, n.now + n.claimTtl⟩] }

/-- `owner_release`, which neither the fence nor the ring refuses. -/
def release (req : ReleaseReq) : ProxyNode :=
  if n.pending[req.slot]?.any (·.token == req.token) then { n with pending := n.pending.erase req.slot } else n

def check (call : ℕ) (req : CompleteReq) : ProxyNode :=
  if (n.live req.slot).any (·.token == req.token) then n.moveSettle call req .checked
  else n.answerSettle call req .stale

def answer (log : List Entry) (call : ℕ) (req : CompleteReq) (request : ControlRequest) : SubmitOutcome → ProxyNode
  | .timedOut => n.moveSettle call req (.failed "proxy store: publication timed out")
  | .error e => n.moveSettle call req (.failed ("proxy store: publication failed: " ++ e))
  | .reply position =>
    if log[position]?.any (·.payload = .normal request) then
      match logReply U log position with
      | some ⟨revision, .applied⟩ => n.moveSettle call req (.answered revision)
      | some ⟨_, .failed reason⟩ => n.moveSettle call req (.failed reason)
      | none => n
    else n

/-- The slot is freed, whoever holds it by now. -/
def free (call : ℕ) (req : CompleteReq) : SettleStage → ProxyNode
  | .answered revision => { n.moveSettle call req (.freed revision) with pending := n.pending.erase req.slot }
  | .failed reason => { n.answerSettle call req (.unavailable reason) with pending := n.pending.erase req.slot }
  | _ => n

def cache (call : ℕ) (req : CompleteReq) (revision : ℕ) : ProxyNode :=
  { n.answerSettle call req .done with
    completed := n.completed.insert req.slot ⟨U.recorded.write req.resp, n.now, revision⟩ }

def lookupRow (call : ℕ) (req : LookupReq) (failure : Option String) : ProxyNode :=
  -- a read that fails degrades to the completion cache
  match (if failure.isSome then none else n.proxyRecorded req.slot) with
  | some row => n.answerLookup U call req (some row)
  | none => { n with lookups := n.lookups.set call ⟨req, true⟩ }

def lookupCache (call : ℕ) (req : LookupReq) : ProxyNode :=
  let found := n.completedLookup req.slot
  { n with completed := found.2 }.answerLookup U call req found.1

/-! ## One step -/

def step (log : List Entry) (n : ProxyNode) : ProxyMove → ProxyNode
  | .view slot ring => { n with slot, ring }
  | .isolation isolated => { n with isolated }
  | .tick duration => { n with now := n.now + duration }
  | .sweep => { n with replica := n.replica.sweep U }
  | .apply degraded =>
    match log[n.replica.position]? with
    | none => n
    | some e => { n with replica := n.replica.step U (.entry degraded e) }
  | .publish index =>
    if n.lastApplied.all (· ≤ index) ∧ index < n.replica.position then { n with lastApplied := some index } else n
  | .claim req =>
    match n.claimRefusal score req with
    | some reply => { n with claimAnswers := n.claimAnswers ++ [(req, reply)] }
    | none => { n with claims := n.claims ++ [⟨req, .gated⟩] }
  | .claimRow call failure =>
    match n.claims[call]? with
    | some ⟨req, .gated⟩ => n.claimRow call req failure
    | _ => n
  | .claimCache call =>
    match n.claims[call]? with
    | some ⟨req, .unrecorded⟩ => n.claimCache call req
    | _ => n
  | .claimGrant call =>
    match n.claims[call]? with
    | some ⟨req, .uncached⟩ => n.claimGrant call req
    | _ => n
  | .release req => n.release req
  | .complete req =>
    match n.settleRefusal score req with
    | some reply => { n with settleAnswers := n.settleAnswers ++ [(req, reply)] }
    | none => { n with settles := n.settles ++ [⟨req, .gated⟩] }
  | .check call =>
    match n.settles[call]? with
    | some ⟨req, .gated⟩ => n.check call req
    | _ => n
  | .submit call opId issuedAtSecs =>
    match n.settles[call]? with
    | some ⟨req, .checked⟩ => n.moveSettle call req (.submitted (req.request opId issuedAtSecs))
    | _ => n
  | .answer call outcome =>
    match n.settles[call]? with
    | some ⟨req, .submitted request⟩ => n.answer U log call req request outcome
    | _ => n
  | .free call =>
    match n.settles[call]? with
    | some ⟨req, stage⟩ => n.free call req stage
    | none => n
  | .cache call =>
    match n.settles[call]? with
    | some ⟨req, .freed revision⟩ => n.cache U call req revision
    | _ => n
  | .abandon call =>
    match n.settles[call]? with
    | some ⟨_, .submitted _⟩ => { n with settles := n.settles.eraseIdx call }
    | _ => n
  | .lookup req =>
    match n.view with
    | .error _ => { n with lookupAnswers := n.lookupAnswers ++ [(req, none)] }
    | .ok _ => { n with lookups := n.lookups ++ [⟨req, false⟩] }
  | .lookupRow call failure =>
    match n.lookups[call]? with
    | some ⟨req, false⟩ => n.lookupRow U call req failure
    | _ => n
  | .lookupCache call =>
    match n.lookups[call]? with
    | some ⟨req, true⟩ => n.lookupCache U call req
    | _ => n
  | .clearPending port => { n with pending := n.pending.retain fun slot _ => slot.1 != port }
  | .clearCompleted port => { n with completed := n.completed.retain fun slot _ => slot.1 != port }

/-- The request a move submits. -/
def issues : ProxyMove → Option ControlRequest
  | .submit call opId issuedAtSecs =>
    match n.settles[call]? with
    | some ⟨req, .checked⟩ => some (req.request opId issuedAtSecs)
    | _ => none
  | _ => none

end ProxyNode

/-! ## The nodes and the log -/

structure ProxyFleet where
  /-- The committed entries; the entry at position `n` has log index `n`. -/
  log : List Entry := []
  /-- The requests submitted by completions. -/
  issued : List ControlRequest := []
  nodes : ℕ → ProxyNode

inductive ProxyFleetMove where
  /-- An entry is committed: a submitted request, or anyone else's. -/
  | commit (term leader : ℕ) (payload : EntryPayload)
  | node (i : ℕ) (move : ProxyMove)
  deriving DecidableEq, Repr

def EntryPayload.opId? : EntryPayload → Option String
  | .normal request => some request.opId
  | _ => none

namespace ProxyFleet

/-- Nodes with nothing applied, each with its claim deadline and its first token. -/
def start (claimTtl : ℕ → ℕ) (seed : ℕ → UInt64) : ProxyFleet where
  nodes i := { id := i, claimTtl := claimTtl i, nextToken := seed i }

variable (f : ProxyFleet)

/-- Whether a payload is free to be committed: it does not bear a submission's op id, or it
is that submission. -/
def committable : EntryPayload → Bool
  | .normal request => request ∈ f.issued || f.issued.all (·.opId != request.opId)
  | _ => true

/-- Whether an op id was drawn before. -/
def used (opId : String) : Bool := f.issued.any (·.opId == opId) || f.log.any (·.payload.opId? == some opId)

variable (score : ℕ → OwnedKey → ℕ)

def step (f : ProxyFleet) : ProxyFleetMove → ProxyFleet
  | .commit term leader payload =>
    if h : f.log.length < 2 ^ 64 then
      if f.committable payload then { f with log := f.log ++ [⟨⟨term, leader, f.log.length, h⟩, payload⟩] } else f
    else f
  | .node i move =>
    let next := { f with nodes := Function.update f.nodes i ((f.nodes i).step U score f.log move) }
    match (f.nodes i).issues move with
    | none => next
    | some request => if f.used request.opId then f else { next with issued := request :: f.issued }

end ProxyFleet

/-- The fleet after the first `k` moves. -/
def proxyAt (score : ℕ → OwnedKey → ℕ) (f : ProxyFleet) (moves : List ProxyFleetMove) (k : ℕ) : ProxyFleet :=
  Trace.stateAt (ProxyFleet.step U score) f moves k

end RiftCluster
