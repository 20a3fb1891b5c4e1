import RiftCluster.Model.Auth
import RiftCluster.Model.Wire

/-!
# Session tokens

`session.rs`: a token is `v2.<payload>.<signature>`, both in base64url. The signature is an
HMAC of the text before it. Its key is derived from the replicated key record and the node's
`--api-key`, again by an HMAC. `resolveCookie` reads the record from the applied state for
every request.

HMAC-SHA256, base64url and the JSON of a payload are `SessionCodec`: a keyed hash without
collisions, a bijection onto its texts, and an encoding that is read back.
-/

namespace RiftCluster.Session

open KV

open Auth (utf8)

/-- The claims inside a token. -/
structure Payload where
  pid : String
  iat : ℕ
  exp : ℕ
  kr : ℕ
  deriving DecidableEq, Repr

structure SessionCodec where
  /-- Of a key and a message. -/
  hmac : List UInt8 → List UInt8 → List UInt8
  base64 : List UInt8 → List Char
  unbase64 : List Char → Option (List UInt8)
  toJson : Payload → List UInt8
  fromJson : List UInt8 → Option Payload
  hmac_inj : ∀ {k m k' m'}, hmac k m = hmac k' m' → k = k' ∧ m = m'
  unbase64_base64 : ∀ bytes, unbase64 (base64 bytes) = some bytes
  eq_base64 : ∀ {text bytes}, unbase64 text = some bytes → text = base64 bytes
  /-- The dot is no letter of base64url. -/
  dot_not_mem : ∀ bytes, '.' ∉ base64 bytes
  fromJson_toJson : ∀ p, fromJson (toJson p) = some p

inductive SessionError where
  | malformed
  | badSignature
  | expired
  | wrongRevision
  | unusableSigningKey
  deriving DecidableEq, Repr

def SessionError.text : SessionError → String
  | .malformed => "session token is malformed"
  | .badSignature => "session token signature does not verify"
  | .expired => "session token has expired"
  | .wrongRevision => "session token was minted under a since-rotated signing key"
  | .unusableSigningKey => s!"the fleet's stored session-signing key is not {sessionKeyBytes} bytes of hex; " ++
      "no session can be minted or verified on this node"

variable (C : SessionCodec)

def formatTag : List Char := ['v', '2']

/-- `SUBJECT`. -/
def subject : String := "admin"

def apiKeyBindingDomain : List UInt8 := utf8 "rift-session/api-key-binding" ++ [0]

structure SigningKey where
  macKey : List UInt8
  /-- Of the record it is derived from. -/
  revision : ℕ
  deriving DecidableEq

/-- The key material of a record: its hex, of the length of a key. -/
def keyBytes (record : SessionKey) : Option (List UInt8) :=
  ((hexDecode record.key).filter fun bytes => bytes.length = sessionKeyBytes).map (List.map UInt8.ofNat)

/-- `SigningKey::derive`. -/
def derive (record : SessionKey) (apiKey : String) : Except SessionError SigningKey :=
  match keyBytes record with
  | some bytes => .ok { macKey := C.hmac bytes (apiKeyBindingDomain ++ utf8 apiKey), revision := record.revision }
  | none => .error .unusableSigningKey

/-- The text that is signed: the format tag is part of it. -/
def signedSpan (key : SigningKey) (now ttl : ℕ) : List Char :=
  formatTag ++ '.' :: C.base64 (C.toJson { pid := subject, iat := now, exp := saturatingAdd now ttl, kr := key.revision })

def signature (macKey : List UInt8) (span : List Char) : List UInt8 := C.hmac macKey (utf8 (String.ofList span))

/-- `mint`. -/
def mint (key : SigningKey) (now ttl : ℕ) : String :=
  String.ofList (signedSpan C key now ttl ++ '.' :: C.base64 (signature C key.macKey (signedSpan C key now ttl)))

/-- The claims, once the signature is accepted. -/
def checkClaims (key : SigningKey) (now : ℕ) (payload : Payload) : Except SessionError Unit :=
  if payload.pid ≠ subject then .error .malformed
  else if payload.kr ≠ key.revision then .error .wrongRevision
  else if payload.exp < now then .error .expired
  else .ok ()

/-- `verify`. -/
def verify (key : SigningKey) (token : String) (now : ℕ) : Except SessionError Unit :=
  match token.toList.splitOn '.' with
  | [tag, payload, sig] =>
    if tag ≠ formatTag then .error .malformed
    else match C.unbase64 sig with
      | none => .error .malformed
      | some provided =>
        if provided ≠ signature C key.macKey (tag ++ '.' :: payload) then .error .badSignature
        -- nothing of the claims is read before the signature is accepted
        else match (C.unbase64 payload).bind C.fromJson with
          | none => .error .malformed
          | some claims => checkClaims key now claims
  | _ => .error .malformed

variable (U : Upstream)

/-- `session_key` of a node: the record of its applied state. -/
def sessionRecord (t : Tables) : Except String (Option SessionKey) :=
  match t.sessionKey[sessionKeyRow]? with
  | none => .ok none
  | some row => (U.sessionKey.read row).map some

/-- `resolve_cookie`, of the token a request carries. -/
def resolveCookie (t : Tables) (apiKey : String) (token : Option String) (now : ℕ) : Except String Bool :=
  match token with
  | none => .ok false
  | some token =>
    match sessionRecord U t with
    | .error e => .error e
    | .ok none => .ok false
    | .ok (some record) =>
      match derive C record apiKey with
      | .error _ => .ok false
      | .ok key => .ok (verify C key token now).isOk

/-! ## Who holds a token -/

/-- A call of `mint`, with what its key is derived from. -/
structure MintCall where
  record : SessionKey
  apiKey : String
  now : ℕ
  ttl : ℕ
  deriving DecidableEq

def MintCall.token? (call : MintCall) : Option String :=
  (derive C call.record call.apiKey).toOption.map fun key => mint C key call.now call.ttl

/-- **No signature is forged**: if the signature a token carries is the MAC of some text under
some key, then a `mint` has signed the text with the key. -/
def Unforged (minted : Set MintCall) (token : String) : Prop :=
  ∀ sig macKey span, (token.toList.splitOn '.')[2]? = some sig → C.unbase64 sig = some (signature C macKey span) →
    ∃ call ∈ minted, ∃ key, derive C call.record call.apiKey = .ok key ∧ key.macKey = macKey ∧
      signedSpan C key call.now call.ttl = span

/-! ## A codec -/

instance : JsonText.Wire Payload where
  encode := fun p => .object [("pid", .str p.pid), ("iat", .num p.iat), ("exp", .num p.exp), ("kr", .num p.kr)]
  decode := fun j => do
    return ⟨← j.field String "pid", ← j.field ℕ "iat", ← j.field ℕ "exp", ← j.field ℕ "kr"⟩
  decode_encode := fun p => by simp [JsonText.Json.field]

/-- A keyed hash that hides nothing: the key, marked byte by byte, and the message. -/
def openHash (key message : List UInt8) : List UInt8 := key.flatMap (fun byte => [1, byte]) ++ 0 :: message

theorem openHash_inj {k m k' m' : List UInt8} (h : openHash k m = openHash k' m') : k = k' ∧ m = m' := by
  induction k generalizing k' with
  | nil => cases k' <;> simp_all [openHash]
  | cons byte rest ih =>
    cases k' with
    | nil => simp_all [openHash]
    | cons byte' rest' =>
      simp only [openHash, List.flatMap_cons, List.cons_append, List.nil_append, List.cons.injEq, true_and] at h ih
      obtain ⟨rfl, rfl⟩ := ih h.2
      exact ⟨by rw [h.1], rfl⟩

/-- A letter for every byte. -/
def letterOf (byte : UInt8) : Char := Char.ofNat (byte.toNat + 256)

def byteOf? (c : Char) : Option UInt8 :=
  if 256 ≤ c.toNat ∧ c.toNat < 512 then some (UInt8.ofNat (c.toNat - 256)) else none

theorem toNat_letterOf (byte : UInt8) : (letterOf byte).toNat = byte.toNat + 256 := by
  have hlt := byte.toNat_lt
  rw [letterOf, Char.toNat_ofNat, if_pos (Or.inl (by omega))]

theorem byteOf_letterOf (byte : UInt8) : byteOf? (letterOf byte) = some byte := by
  have hlt := byte.toNat_lt
  rw [byteOf?, toNat_letterOf, if_pos (by omega), Nat.add_sub_cancel, UInt8.ofNat_toNat]

theorem eq_letterOf {c : Char} {byte : UInt8} (h : byteOf? c = some byte) : c = letterOf byte := by
  unfold byteOf? at h
  split at h
  · rename_i hrange
    rw [← Option.some.inj h]
    have hbyte : (UInt8.ofNat (c.toNat - 256)).toNat = c.toNat - 256 := UInt8.toNat_ofNat_of_lt' (show _ < 256 by omega)
    have hnat : (letterOf (UInt8.ofNat (c.toNat - 256))).toNat = c.toNat := by
      rw [toNat_letterOf, hbyte]
      omega
    exact (Char.toNat_inj.1 hnat).symm
  · cases h

def unletters : List Char → Option (List UInt8)
  | [] => some []
  | c :: rest => (byteOf? c).bind fun byte => (unletters rest).map (byte :: ·)

theorem unletters_letters (bytes : List UInt8) : unletters (bytes.map letterOf) = some bytes := by
  induction bytes with
  | nil => rfl
  | cons byte rest ih => simp [unletters, byteOf_letterOf, ih]

theorem eq_letters {text : List Char} {bytes : List UInt8} (h : unletters text = some bytes) :
    text = bytes.map letterOf := by
  induction text generalizing bytes with
  | nil => cases h; rfl
  | cons c rest ih =>
    obtain ⟨byte, hbyte, hrest⟩ := Option.bind_eq_some_iff.1 h
    obtain ⟨bytes', hbytes, rfl⟩ := Option.map_eq_some_iff.1 hrest
    rw [List.map_cons, ← eq_letterOf hbyte, ← ih hbytes]

def letterCodec : SessionCodec where
  hmac := openHash
  base64 := List.map letterOf
  unbase64 := unletters
  toJson := fun p => (JsonText.writeText p).toByteArray.data.toList
  fromJson := fun bytes => (String.fromUTF8? ⟨bytes.toArray⟩).bind (JsonText.readText Payload)
  hmac_inj := openHash_inj
  unbase64_base64 := unletters_letters
  eq_base64 := eq_letters
  dot_not_mem := fun bytes hmem => by
    obtain ⟨byte, -, hbyte⟩ := List.mem_map.1 hmem
    have hnat := toNat_letterOf byte
    rw [hbyte] at hnat
    simp at hnat
  fromJson_toJson := fun p => by
    have h : String.fromUTF8? (JsonText.writeText p).toByteArray = some (JsonText.writeText p) := by
      unfold String.fromUTF8?
      exact dif_pos (JsonText.writeText p).isValidUTF8
    simp only [Array.toArray_toList, h, Option.bind_some, JsonText.readText_writeText]

end RiftCluster.Session
