import RiftCluster.Model.AdminFront
import RiftCluster.Proof.Auth

/-!
# What the admin front does for a request without a credential

* `authenticate_ok_iff`: with an api key configured, the gate lets a request through exactly if
  it carries the key or a live session.
* `NoAdminEffect`: what may be done for a request that is not let through. It holds of a refusal at
  the gate (`NoAdminEffect.gated`), of a login (`NoAdminEffect.login`) and of a logout.
* `no_effect_without_credential`: so it holds of whatever `handle` does without a credential.
-/

namespace RiftCluster.Front

open KV

open Auth (utf8 utf8_inj)

open Spec (strip?)

open Session

variable {C : SessionCodec} {U : Upstream} {R : Readers} {front : FrontState} {req : AdminRequest} {key : String}

/-! ## Credentials -/

/-- The key is in `Authorization` or, if there is none, in `x-api-key`. -/
def CarriesKey (req : AdminRequest) (key : String) : Prop :=
  (req.headers.get "authorization").or (req.headers.get "x-api-key") = some (utf8 key)

/-- With neither header, there is a session cookie that is accepted under the node's key record,
and a request that changes state has the CSRF header. -/
structure CarriesSession (C : SessionCodec) (U : Upstream) (front : FrontState) (req : AdminRequest) (key : String) :
    Prop where
  no_key : (req.headers.get "authorization").or (req.headers.get "x-api-key") = none
  accepted : ∃ node token record signing, front.node .gate = some node ∧ sessionCookie req = some token ∧
    sessionRecord U node.tables = .ok (some record) ∧ derive C record key = .ok signing ∧
    verify C signing token (front.now .gate) = .ok ()
  csrf : isSafe req.method = true ∨ (req.headers.get csrfHeader).isSome = true

theorem utf8_of_toStr {value : List UInt8} {text : String} (h : toStr value = some text) : utf8 text = value := by
  unfold toStr String.fromUTF8? at h
  split at h
  · split at h
    · cases h
      rfl
    · cases h
  · cases h

theorem toStr_utf8 {text : String} (h : (utf8 text).all isVisibleAscii = true) : toStr (utf8 text) = some text := by
  unfold toStr String.fromUTF8?
  rw [if_pos h]
  exact dif_pos text.isValidUTF8

theorem apiKeyMatches_iff {provided expected : String} :
    apiKeyMatches provided expected = true ↔ provided = expected ∧ Auth.trim expected.toList ≠ [] := by
  unfold apiKeyMatches
  by_cases hblank : Auth.trim expected.toList = []
  · simp [hblank]
  · rw [if_neg (by simpa using hblank)]
    exact ⟨fun h => ⟨utf8_inj (of_decide_eq_true h), hblank⟩, fun h => by rw [h.1]; exact decide_eq_true rfl⟩

theorem bearerVerdict_accepted : bearerVerdict req.headers key = .accepted ↔
    CarriesKey req key ∧ Auth.trim key.toList ≠ [] ∧ (utf8 key).all isVisibleAscii = true := by
  unfold bearerVerdict CarriesKey
  cases (req.headers.get "authorization").or (req.headers.get "x-api-key") with
  | none => simp
  | some presented =>
    simp only [Option.some.injEq]
    constructor
    · intro h
      cases hread : toStr presented with
      | none => rw [hread] at h; cases h
      | some provided =>
        rw [hread] at h
        by_cases hmatch : apiKeyMatches provided key = true
        · obtain ⟨rfl, hblank⟩ := apiKeyMatches_iff.1 hmatch
          refine ⟨(utf8_of_toStr hread).symm, hblank, ?_⟩
          rw [utf8_of_toStr hread]
          unfold toStr at hread
          split at hread
          · assumption
          · cases hread
        · simp only [if_neg hmatch] at h
          cases h
    · rintro ⟨rfl, hblank, hvisible⟩
      simp only [toStr_utf8 hvisible, if_pos (apiKeyMatches_iff.2 ⟨rfl, hblank⟩)]

theorem bearerVerdict_absent : bearerVerdict req.headers key = .absent ↔
    (req.headers.get "authorization").or (req.headers.get "x-api-key") = none := by
  unfold bearerVerdict
  cases (req.headers.get "authorization").or (req.headers.get "x-api-key") with
  | none => simp
  | some presented =>
    simp only [reduceCtorEq, iff_false]
    split
    · split <;> simp
    · simp

theorem csrfGate_ok : csrfGate req = .ok () ↔ isSafe req.method = true ∨ (req.headers.get csrfHeader).isSome = true := by
  unfold csrfGate
  by_cases hsafe : isSafe req.method = true <;> by_cases hheader : (req.headers.get csrfHeader).isSome = true <;>
    simp [hsafe, hheader]

theorem resolveCookie_true {t : Tables} {token : Option String} {now : ℕ} :
    resolveCookie C U t key token now = .ok true ↔ ∃ text record signing, token = some text ∧
      sessionRecord U t = .ok (some record) ∧ derive C record key = .ok signing ∧ verify C signing text now = .ok () := by
  unfold resolveCookie
  cases token with
  | none => simp
  | some text =>
    cases hrecord : sessionRecord U t with
    | error e => simp
    | ok record =>
      cases record with
      | none => simp
      | some record =>
        cases hderive : derive C record key with
        | error e => simp [hderive]
        | ok signing =>
          cases hverify : verify C signing text now with
          | error e => simp [hderive, hverify, Except.isOk, Except.toBool]
          | ok _ => simp [hderive, hverify, Except.isOk, Except.toBool]

/-- **Who is let through.** A key that is blank or that no header can hold as readable text lets
nobody in by itself. -/
theorem authenticate_ok_iff (hkey : front.apiKey = some key) : authenticate C U front req = .ok () ↔
    (front.node .gate).isSome = true ∧
      (CarriesKey req key ∧ Auth.trim key.toList ≠ [] ∧ (utf8 key).all isVisibleAscii = true ∨
        CarriesSession C U front req key) := by
  unfold authenticate
  simp only [hkey]
  cases hnode : front.node .gate with
  | none => simp
  | some node =>
    simp only [Option.isSome_some, true_and]
    cases hverdict : bearerVerdict req.headers key with
    | accepted => exact ⟨fun _ => .inl (bearerVerdict_accepted.1 hverdict), fun _ => rfl⟩
    | refused =>
      have hkey : ¬ bearerVerdict req.headers key = .accepted := by rw [hverdict]; decide
      have habsent : ¬ bearerVerdict req.headers key = .absent := by rw [hverdict]; decide
      rw [bearerVerdict_accepted] at hkey
      rw [bearerVerdict_absent] at habsent
      simp only [hkey, false_or, reduceCtorEq, false_iff]
      exact fun h => habsent h.no_key
    | absent =>
      have hnone := bearerVerdict_absent.1 hverdict
      have hcarries : ¬ CarriesKey req key := by simp [CarriesKey, hnone]
      simp only [hcarries, false_and, false_or]
      constructor
      · intro h
        cases hcookie : resolveCookie C U node.tables key (sessionCookie req) (front.now .gate) with
        | error e => rw [hcookie] at h; cases h
        | ok live =>
          cases live with
          | false => rw [hcookie] at h; cases h
          | true =>
            rw [hcookie] at h
            obtain ⟨token, record, signing, htoken, haccepted⟩ := resolveCookie_true.1 hcookie
            exact ⟨hnone, ⟨node, token, record, signing, hnode, htoken, haccepted⟩, csrfGate_ok.1 h⟩
      · rintro ⟨-, ⟨node', token, record, signing, hnode', htoken, haccepted⟩, hcsrf⟩
        rw [hnode] at hnode'
        cases hnode'
        rw [resolveCookie_true.2 ⟨token, record, signing, htoken, haccepted⟩]
        exact csrfGate_ok.2 hcsrf

/-! ## Without a credential -/

/-- A login: `POST /session` with the key in its body. -/
structure LogsIn (R : Readers) (req : AdminRequest) (key : String) : Prop where
  method : req.method = .post
  path : req.path = "/session"
  body : ∃ bytes, req.body = .ok bytes ∧ R.login bytes = .ok key

def Reply.isAdmin : Reply → Bool
  | .own _ _ _ | .imposter | .listener .gateway => false
  | .fleet _ | .routes | .contract | .terminated _ | .listener .admin => true

def Reply.cookie? : Reply → Option SetCookie
  | .own _ _ cookie => cookie
  | _ => none

/-- A gateway request is handed to the engine, or to the listener on the gateway leg. -/
def Effect.isGateway : Effect → Bool
  | .dispatch _ _ | .forward .gateway _ => true
  | _ => false

def Effect.isSigningKey (front : FrontState) : Effect → Bool
  | .park request | .submit request => match request.op with
    | .sessionKeyPut _ => request.opId = front.freshId
    | _ => false
  | .unpark opId => opId = front.freshId
  | _ => false

/-- **No admin effect.** A request under `/__rift/` may be dispatched, a login may commit a signing
key and set its cookie, and a logout clears the cookie. Nothing else is done, and nothing of the
admin surface is shown. -/
structure NoAdminEffect (R : Readers) (front : FrontState) (req : AdminRequest) (key : String) (h : Handled) : Prop where
  effects : ∀ effect ∈ h.effects, (strip? "/__rift/" req.path).isSome = true ∧ effect.isGateway = true ∨
    LogsIn R req key ∧ effect.isSigningKey front = true
  reply : h.reply.isAdmin = false
  session : ∀ token maxAge, h.reply.cookie? = some (.session token maxAge) → LogsIn R req key
  cleared : h.reply.cookie? = some .cleared → req.method = .delete ∧ req.path = "/session"

theorem NoAdminEffect.own (status : ℕ) (body : Body) : NoAdminEffect R front req key { reply := .own status body none } where
  effects := fun _ hmem => nomatch hmem
  reply := rfl
  session := fun _ _ h => nomatch h
  cleared := fun h => nomatch h

theorem refusalResponse_own (reason : String) : ∃ status body, refusalResponse reason = .own status body none := by
  unfold refusalResponse
  split
  · exact ⟨_, _, rfl⟩
  · split <;> exact ⟨_, _, rfl⟩

theorem csrfGate_error {reply : Reply} (h : csrfGate req = .error reply) : ∃ status body, reply = .own status body none := by
  unfold csrfGate at h
  split at h
  · cases h
  · split at h
    · cases h
    · cases h; exact ⟨_, _, rfl⟩

theorem authenticate_error {reply : Reply} (h : authenticate C U front req = .error reply) :
    ∃ status body, reply = .own status body none := by
  unfold authenticate at h
  split at h
  · cases h
  · split at h
    · cases h; exact ⟨_, _, rfl⟩
    · split at h
      · cases h
      · cases h; exact ⟨_, _, rfl⟩
      · split at h
        · exact csrfGate_error h
        · cases h; exact ⟨_, _, rfl⟩
        · cases h; exact ⟨_, _, rfl⟩

theorem NoAdminEffect.gated {route : Handled} (h : authenticate C U front req ≠ .ok ()) :
    NoAdminEffect R front req key (gated C U front req route) := by
  unfold Front.gated
  cases hgate : authenticate C U front req with
  | ok _ => exact absurd hgate h
  | error reply =>
    obtain ⟨status, body, rfl⟩ := authenticate_error hgate
    exact NoAdminEffect.own status body

theorem commitNewSessionKey_effects (U : Upstream) (front : FrontState) :
    ∀ effect ∈ (commitNewSessionKey U front).1, effect.isSigningKey front = true := by
  unfold commitNewSessionKey
  dsimp only
  split
  · simp
  · split
    · simp [Effect.isSigningKey, mintRequest]
    · split <;> simp [Effect.isSigningKey, mintRequest]

theorem commitNewSessionKey_error {reply : Reply} (h : (commitNewSessionKey U front).2 = .error reply) :
    ∃ status body, reply = .own status body none := by
  unfold commitNewSessionKey at h
  dsimp only at h
  split at h
  · cases h; exact refusalResponse_own _
  · split at h
    · cases h; exact ⟨_, _, rfl⟩
    · split at h
      · cases h; exact ⟨_, _, rfl⟩
      · cases h; exact ⟨_, _, rfl⟩
      · cases h; exact ⟨_, _, rfl⟩
      · dsimp only at h
        split at h
        · cases h; exact refusalResponse_own _
        · cases h

theorem ensureSessionKey_spec (U : Upstream) (front : FrontState) (node : LocalNode) :
    (∀ effect ∈ (ensureSessionKey U front node).1, effect.isSigningKey front = true) ∧
      ∀ reply, (ensureSessionKey U front node).2 = .error reply → ∃ status body, reply = .own status body none := by
  unfold ensureSessionKey
  split
  · exact ⟨fun _ hmem => (nomatch hmem), fun _ h => by cases h; exact ⟨_, _, rfl⟩⟩
  · exact ⟨fun _ hmem => (nomatch hmem), fun _ h => (nomatch h)⟩
  · have heffects := commitNewSessionKey_effects U front
    have herror : ∀ reply, (commitNewSessionKey U front).2 = .error reply → ∃ status body, reply = .own status body none :=
      fun _ h => commitNewSessionKey_error h
    cases hcommit : commitNewSessionKey U front with
    | mk effects result =>
      rw [hcommit] at heffects herror
      cases result with
      | error reply => exact ⟨heffects, fun _ h => by cases h; exact herror reply rfl⟩
      | ok _ =>
        refine ⟨heffects, fun reply h => ?_⟩
        dsimp only at h
        split at h
        · cases h; exact ⟨_, _, rfl⟩
        · cases h
        · cases h; exact ⟨_, _, rfl⟩

/-- **A login** commits a key or sets a cookie only for the right key. -/
theorem NoAdminEffect.login (hkey : front.apiKey = some key) (hmethod : req.method = .post) (hpath : req.path = "/session") :
    NoAdminEffect R front req key (sessionLogin C U R front req) := by
  unfold sessionLogin
  split
  · exact NoAdminEffect.own _ _
  · rename_i node hnode
    split
    · exact NoAdminEffect.own _ _
    · rename_i bytes hbody
      split
      · exact NoAdminEffect.own _ _
      · rename_i apiKey hlogin
        simp only [hkey]
        by_cases hmatch : apiKeyMatches apiKey key = true
        · obtain ⟨rfl, -⟩ := apiKeyMatches_iff.1 hmatch
          have hlogs : LogsIn R req apiKey := ⟨hmethod, hpath, bytes, hbody, hlogin⟩
          obtain ⟨heffects, herror⟩ := ensureSessionKey_spec U front node
          rw [if_neg (by simp [hmatch])]
          cases hensure : ensureSessionKey U front node with
          | mk effects result =>
            rw [hensure] at heffects herror
            have heffects' : ∀ effect ∈ effects, (strip? "/__rift/" req.path).isSome = true ∧ effect.isGateway = true ∨
                LogsIn R req apiKey ∧ effect.isSigningKey front = true :=
              fun effect hmem => .inr ⟨hlogs, heffects effect hmem⟩
            cases result with
            | error reply =>
              obtain ⟨status, body, rfl⟩ := herror reply rfl
              exact ⟨heffects', rfl, fun _ _ h => (nomatch h), fun h => (nomatch h)⟩
            | ok record =>
              dsimp only
              split
              · exact ⟨heffects', rfl, fun _ _ h => (nomatch h), fun h => (nomatch h)⟩
              · exact ⟨heffects', rfl, fun _ _ _ => hlogs, fun h => (nomatch h)⟩
        · rw [if_pos (by simp [hmatch])]
          exact NoAdminEffect.own _ _

theorem NoAdminEffect.logout (hmethod : req.method = .delete) (hpath : req.path = "/session") :
    NoAdminEffect R front req key (sessionLogout req) := by
  unfold sessionLogout
  cases hcsrf : csrfGate req with
  | error reply =>
    obtain ⟨status, body, rfl⟩ := csrfGate_error hcsrf
    exact NoAdminEffect.own status body
  | ok _ => exact ⟨fun _ hmem => (nomatch hmem), rfl, fun _ _ h => (nomatch h), fun _ => ⟨hmethod, hpath⟩⟩

theorem consoleServe_own (req : AdminRequest) (assets : List String) : ∃ status body, consoleServe req assets = .own status body none := by
  unfold consoleServe
  split
  · exact ⟨_, _, rfl⟩
  · dsimp only
    repeat' split
    all_goals exact ⟨_, _, rfl⟩

/-- **No admin effect without a credential.** Let a front with an api key handle any request. If
the request carries neither the key nor a live session, then nothing is submitted, no route is
run, nothing is forwarded on the admin leg and nothing of the admin surface is answered, except
that a login with the right key may commit a signing key and get a cookie. -/
theorem no_effect_without_credential (C : SessionCodec) (U : Upstream) (R : Readers) (front : FrontState)
    (req : AdminRequest) (key : String) (hkey : front.apiKey = some key) (hcarries : ¬ CarriesKey req key)
    (hsession : ¬ CarriesSession C U front req key) : NoAdminEffect R front req key (handle C U R front req) := by
  have hgate : authenticate C U front req ≠ .ok () := by
    intro hok
    rcases ((authenticate_ok_iff hkey).1 hok).2 with ⟨h, -⟩ | h
    · exact hcarries h
    · exact hsession h
  unfold handle
  split
  · rename_i rest hrest
    have hsome : (strip? "/__rift/" req.path).isSome = true := by rw [hrest]; rfl
    unfold gateway
    split
    all_goals
      refine ⟨fun effect hmem => .inl ⟨hsome, ?_⟩, rfl, fun _ _ h => (nomatch h), fun h => (nomatch h)⟩
      cases List.mem_singleton.1 hmem
      rfl
  · split
    · rename_i assets _
      obtain ⟨status, body, hreply⟩ := consoleServe_own req assets
      rw [hreply]
      exact NoAdminEffect.own status body
    · by_cases hpath : req.path = "/session"
      · rw [if_pos hpath]
        split
        · rename_i hmethod
          exact NoAdminEffect.login hkey hmethod hpath
        · rename_i hmethod
          exact NoAdminEffect.logout hmethod hpath
        · exact NoAdminEffect.own _ _
      · rw [if_neg hpath]
        split
        · split
          · unfold sessionRotate
            rw [if_neg (by simp [hkey])]
            exact NoAdminEffect.gated hgate
          · exact NoAdminEffect.own _ _
        · -- every other path is behind the gate, whatever its route
          split
          · exact NoAdminEffect.gated hgate
          · split
            · exact NoAdminEffect.gated hgate
            · split
              · exact NoAdminEffect.gated hgate
              · split <;> exact NoAdminEffect.gated hgate

def keyedFront : FrontState where
  apiKey := some "secret"
  console := none
  node := fun _ => some { hasEngine := true, tables := {}, awaited := {} }
  now := fun _ => 0
  freshKey := []
  freshId := "op-1"
  park := .ok ()
  submit := .timedOut

def noReaders : Readers := { login := fun _ => .error "EOF", uuid := fun _ => none }

/-- A replace of all imposters with a wrong key, and the right one in the other header. -/
def guessedPut : AdminRequest :=
  { method := .put, path := "/imposters", headers := [("authorization", utf8 "guess"), ("x-api-key", utf8 "secret")] }

/-- It would be a terminated route, and is not run. -/
theorem guessedPut_has_no_effect : classify guessedPut.method guessedPut.path = some .replaceAllImposters ∧
    NoAdminEffect noReaders keyedFront guessedPut "secret"
      (handle letterCodec jsonUpstream noReaders keyedFront guessedPut) := by
  refine ⟨by decide +kernel, no_effect_without_credential letterCodec jsonUpstream noReaders keyedFront guessedPut "secret"
    rfl ?_ fun h => ?_⟩
  · unfold CarriesKey
    decide +kernel
  · have hnone := h.no_key
    revert hnone
    decide +kernel

end RiftCluster.Front
