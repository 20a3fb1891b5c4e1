import RiftCluster.Lib.Json
import RiftCluster.Model.Snapshot

/-!
# The records as JSON

The stored records in the JSON that `serde_json` gives them, and `jsonUpstream`,
the outside of the crate built on it: every law `Upstream` asks for holds of these
encodings. Documents are read in the compact form the encoders write.

What a record keeps as `rest` is one member of its object here. The engine's
admission check is the one of its checks a closed run needs: a predicate whose
parentheses do not balance is a pattern that will not compile.
-/

namespace RiftCluster

open KV JsonText

/-! ## Records -/

instance : Wire UInt8 where
  encode := fun b => Wire.encode b.toNat
  decode := fun j => (Wire.decode (α := ℕ) j).bind fun n => if n < 256 then some (UInt8.ofNat n) else none
  decode_encode := fun b => by
    have : b.toNat < 256 := b.toNat_lt
    simp [this]

instance : Wire StubResponse where
  encode
    | .is time rest =>
      .object [("is", .object (optionalMember "_proxyResponseTime" time ++ optionalMember "rest" (unlessDefault "" rest)))]
    | .proxy target key rest =>
      .object [("proxy", .object (("to", .str target) ::
        (optionalMember "key" key ++ optionalMember "rest" (unlessDefault "" rest))))]
    | .other rest => .object [("other", .str rest)]
  decode := fun j =>
    match j.member "is", j.member "proxy" with
    | some x, _ => do return .is (← x.optional ℕ "_proxyResponseTime") ((← x.optional String "rest").getD "")
    | none, some x => do
      return .proxy (← x.field String "to") (← x.optional String "key") ((← x.optional String "rest").getD "")
    | none, none => do return .other (← j.field String "other")
  decode_encode := fun r => by
    cases r with
    | is time rest => simp
    | proxy target key rest => simp [Json.field]
    | other rest => simp [Json.field]

instance : Wire Stub where
  encode := fun s => .object (optionalMember "id" s.id ++ optionalMember "space" s.space ++
    optionalMember "recordedFrom" s.recordedFrom ++ optionalMember "predicates" (unlessDefault [] s.predicates) ++
    optionalMember "rest" (unlessDefault "" s.rest) ++ [("responses", Wire.encode s.responses)])
  decode := fun j => do
    return {
      id := ← j.optional String "id"
      space := ← j.optional String "space"
      recordedFrom := ← j.optional String "recordedFrom"
      predicates := (← j.optional (List String) "predicates").getD []
      responses := ← j.field (List StubResponse) "responses"
      rest := (← j.optional String "rest").getD "" }
  decode_encode := fun s => by
    simp [Json.field]

instance : Wire JsonValue where
  encode := fun v => .object (optionalMember "string" v.asStr ++ [("text", .str v.text)])
  decode := fun j => do return ⟨← j.optional String "string", ← j.field String "text"⟩
  decode_encode := fun v => by
    simp [Json.field]

instance : Wire FlowState where
  encode := fun f => .object [("ttlSeconds", .num f.ttlSeconds), ("extra", Wire.encode f.extra)]
  decode := fun j => do return ⟨← j.field ℤ "ttlSeconds", ← j.field (List (String × JsonValue)) "extra"⟩
  decode_encode := fun f => by
    simp [Json.field]

/-- The `sequencing` block: its mode, if it names one. -/
instance : Wire (Option String) where
  encode := fun mode => .object (optionalMember "mode" mode)
  decode := fun j => j.optional String "mode"
  decode_encode := fun mode => by
    simp

instance : Wire ImposterConfig where
  encode := fun c => .object (optionalMember "port" c.port ++ optionalMember "flowState" c.flowState ++
    optionalMember "sequencing" c.sequencing ++ optionalMember "enabled" (unlessDefault true c.enabled) ++
    optionalMember "rest" (unlessDefault "" c.rest) ++ optionalMember "stubs" (unlessDefault [] c.stubs) ++
    [("protocol", .str c.protocol)])
  decode := fun j => do
    return {
      port := ← j.optional ℕ "port"
      flowState := ← j.optional FlowState "flowState"
      sequencing := ← j.optional (Option String) "sequencing"
      protocol := ← j.field String "protocol"
      enabled := (← j.optional Bool "enabled").getD true
      stubs := (← j.optional (List Stub) "stubs").getD []
      rest := (← j.optional String "rest").getD "" }
  decode_encode := fun c => by
    simp [Json.field]

instance : Wire Route where
  encode := fun r => .object [("id", .str r.id), ("rest", .str r.rest)]
  decode := fun j => do return ⟨← j.field String "id", ← j.field String "rest"⟩
  decode_encode := fun r => by
    simp [Json.field]

instance : Wire ControlOutcome where
  encode
    | .applied => .str "applied"
    | .failed reason => .object [("failed", .object [("reason", .str reason)])]
  decode
    | .str "applied" => some .applied
    | j => do return .failed (← (← j.member "failed").field String "reason")
  decode_encode := fun o => by
    cases o with
    | applied => rfl
    | failed reason => simp [Json.object, Fields.ofList, Json.member, Fields.get, Json.field]

instance : Wire ControlResponse where
  encode := fun r => .object [("revision", .num r.revision), ("outcome", Wire.encode r.outcome)]
  decode := fun j => do return ⟨← j.field ℕ "revision", ← j.field ControlOutcome "outcome"⟩
  decode_encode := fun r => by
    simp [Json.field]

instance : Wire DedupEntry where
  encode := fun d => .object [("response", Wire.encode d.response), ("expires_at_secs", .num d.expiresAtSecs)]
  decode := fun j => do return ⟨← j.field ControlResponse "response", ← j.field ℕ "expires_at_secs"⟩
  decode_encode := fun d => by
    simp [Json.field]

/-- The body in the shape of an array of bytes, which the decoder takes as well as base64. -/
instance : Wire RecordedResponse where
  encode := fun r => .object (optionalMember "latency_ms" r.latencyMs ++
    [("status", .num r.status), ("headers", Wire.encode r.headers), ("body", Wire.encode r.body),
      ("timestamp_secs", .num r.timestampSecs)])
  decode := fun j => do
    return {
      status := ← j.field ℕ "status"
      headers := ← j.field (List (String × String)) "headers"
      body := ← j.field (List UInt8) "body"
      latencyMs := ← j.optional ℕ "latency_ms"
      timestampSecs := ← j.field ℕ "timestamp_secs" }
  decode_encode := fun r => by
    simp [Json.field]

instance : Wire SessionKey where
  encode := fun k => .object [("key", .str k.key), ("revision", .num k.revision)]
  decode := fun j => do return ⟨← j.field String "key", ← j.field ℕ "revision"⟩
  decode_encode := fun k => by
    simp [Json.field]

/-! ## The outside of the crate -/

/-- The codec of an encoding. -/
def jsonCodec (α : Type) [Wire α] : Codec α where
  write := writeText
  read := fun t => match readText α t with
    | some a => .ok a
    | none => .error "not the expected document"

/-- A compact document is raw JSON as it stands. -/
def rawDocument (t : String) : Option String :=
  match Json.read t with
  | some j => if j.write = t then some t else none
  | none => none

/-- The row of a config: its JSON stands in it as written. -/
def writeStoredImposter (r : StoredImposter) : String :=
  String.ofList ('\x7b' :: (writeString "config" ++ ':' :: (textChars r.config ++ ',' :: (writeString "enabled" ++ ':' ::
    ((Json.bool r.enabled).chars ++ ',' :: (writeString "revision" ++ ':' :: ((Json.num r.revision).chars ++ ['\x7d'])))))))

def readStoredImposter (t : String) : Except String StoredImposter :=
  match (Json.read t).bind fun j => do
      return { config := (← j.member "config").write, enabled := ← j.field Bool "enabled",
               revision := ← j.field ℕ "revision" } with
  | some r => .ok r
  | none => .error "not a stored imposter"

/-- A predicate holds a pattern that will not compile. -/
def badPattern (predicate : String) : Bool := predicate.toList.count '(' != predicate.toList.count ')'

def admitsPatterns (config : ImposterConfig) : Except String Unit :=
  if config.stubs.any fun s => s.predicates.any badPattern then .error "invalid pattern in a predicate" else .ok ()

theorem rawDocument_write (j : Json) : rawDocument j.write = some j.write := by
  simp [rawDocument]

theorem rawDocument_eq {t : String} (h : rawDocument t = some t) : ∃ j : Json, t = j.write := by
  unfold rawDocument at h
  split at h
  · split at h
    · exact ⟨_, (‹_ = t›).symm⟩
    · cases h
  · cases h

theorem object_isObject (fs : List (String × Json)) : IsObject rawDocument (Json.object fs).write := by
  refine ⟨rawDocument_write _, ?_⟩
  cases fs with
  | nil => rfl
  | cons f fs => simp [Json.write, Json.object, Fields.ofList, Json.chars]

theorem writeStoredImposter_eq {r : StoredImposter} {j : Json} (h : r.config = j.write) :
    writeStoredImposter r =
      (Json.object [("config", j), ("enabled", .bool r.enabled), ("revision", .num r.revision)]).write := by
  simp [writeStoredImposter, h, Json.write, Json.object, Fields.ofList, Json.chars, Fields.chars]

def imposterCodec : Codec StoredImposter := ⟨writeStoredImposter, readStoredImposter⟩

theorem imposterCodec_isObject (r : StoredImposter) (h : IsObject rawDocument r.config) :
    IsObject rawDocument (imposterCodec.write r) := by
  obtain ⟨j, hj⟩ := rawDocument_eq h.1
  simp only [imposterCodec, writeStoredImposter_eq hj]
  exact object_isObject _

theorem imposterCodec_read (r : StoredImposter) (h : IsObject rawDocument r.config) :
    imposterCodec.read (imposterCodec.write r) = .ok r := by
  obtain ⟨j, hj⟩ := rawDocument_eq h.1
  simp only [imposterCodec, writeStoredImposter_eq hj]
  simp [readStoredImposter, Json.field, ← hj]

def unquoteText (t : String) : Except String String :=
  match readText String t with
  | some s => .ok s
  | none => .error "not a string"

theorem unquoteText_write (t : String) : unquoteText (Json.str t).write = .ok t := by
  have h : readText String (Json.str t).write = some t := readText_writeText t
  simp only [unquoteText, h]

theorem writeStr_head (t : String) : (Json.str t).write.toList.head? = some '"' := by
  rw [Json.write, String.toList_ofList]
  rfl

theorem jsonCodec_isObject {α : Type} [Wire α] {a : α} {fs : List (String × Json)} (h : Wire.encode a = Json.object fs) :
    IsObject rawDocument ((jsonCodec α).write a) := by
  show IsObject rawDocument (Wire.encode a).write
  rw [h]
  exact object_isObject fs

theorem jsonCodec_read {α : Type} [Wire α] (a : α) : (jsonCodec α).read ((jsonCodec α).write a) = .ok a := by
  simp [jsonCodec]

/-- The outside of the crate, over JSON. -/
def jsonUpstream : Upstream where
  imposter := imposterCodec
  config := jsonCodec ImposterConfig
  route := jsonCodec Route
  dedup := jsonCodec DedupEntry
  recorded := jsonCodec RecordedResponse
  sessionKey := jsonCodec SessionKey
  raw := rawDocument
  quote := fun t => (Json.str t).write
  unquote := unquoteText
  stubValue := writeText
  admissionCheck := admitsPatterns
  validateRoutes := fun table =>
    if (table.routes.map Route.id).Nodup then .ok () else .error "duplicate route id"
  printable := fun c => !isControl c
  config_object := fun _ => jsonCodec_isObject rfl
  config_read := jsonCodec_read
  imposter_object := imposterCodec_isObject
  imposter_read := imposterCodec_read
  route_object := fun _ => jsonCodec_isObject rfl
  route_read := jsonCodec_read
  dedup_object := fun _ => jsonCodec_isObject rfl
  dedup_read := jsonCodec_read
  recorded_object := fun _ => jsonCodec_isObject rfl
  recorded_read := jsonCodec_read
  sessionKey_read := jsonCodec_read
  quote_head := writeStr_head
  unquote_quote := unquoteText_write

/-! ## Snapshots -/

instance : Wire LogId where
  encode := fun l => .object [("term", .num l.term), ("node_id", .num l.nodeId), ("index", .num l.index)]
  decode := fun j => do
    let term ← j.field ℕ "term"
    let nodeId ← j.field ℕ "node_id"
    let index ← j.field ℕ "index"
    if h : index < 2 ^ 64 then some ⟨term, nodeId, index, h⟩ else none
  decode_encode := fun l => by
    simp only [Json.field, member_object_cons, if_true, Option.bind_some, decode_nat, Option.bind_eq_bind,
      String.reduceEq, if_false, dif_pos l.index_lt]

instance : Wire Membership where
  encode := fun m => .object [("configs", Wire.encode m.configs), ("nodes", Wire.encode m.nodes)]
  decode := fun j => do return ⟨← j.field (List (List ℕ)) "configs", ← j.field (List (ℕ × String)) "nodes"⟩
  decode_encode := fun m => by simp [Json.field]

instance : Wire StoredMembership where
  encode := fun m => .object (optionalMember "log_id" m.logId ++ [("membership", Wire.encode m.membership)])
  decode := fun j => do return ⟨← j.optional LogId "log_id", ← j.field Membership "membership"⟩
  decode_encode := fun m => by
    simp [Json.field]

instance : Wire SnapshotPayload where
  encode := fun p => .object (optionalMember "routes_revision" p.routesRevision ++
    optionalMember "session_key" p.sessionKey ++ optionalMember "fleet_name" p.fleetName ++
    optionalMember "last_applied_log" p.lastAppliedLog ++
    [("format", .num p.format), ("configs", Wire.encode p.configs), ("routes", Wire.encode p.routes),
      ("proxy_recorded", Wire.encode p.proxyRecorded), ("dedup", Wire.encode p.dedup),
      ("last_membership", Wire.encode p.lastMembership), ("logical_clock_secs", .num p.logicalClockSecs)])
  decode := fun j => do
    return {
      format := ← j.field ℕ "format"
      configs := ← j.field (List (ℕ × String)) "configs"
      routes := ← j.field (List (String × String)) "routes"
      routesRevision := ← j.optional ℕ "routes_revision"
      sessionKey := ← j.optional String "session_key"
      fleetName := ← j.optional String "fleet_name"
      proxyRecorded := ← j.field (List (ℕ × String × String)) "proxy_recorded"
      dedup := ← j.field (List (String × String)) "dedup"
      lastAppliedLog := ← j.optional LogId "last_applied_log"
      lastMembership := ← j.field StoredMembership "last_membership"
      logicalClockSecs := ← j.field ℕ "logical_clock_secs" }
  decode_encode := fun p => by
    simp [Json.field]

/-- The JSON bytes of a payload, and a frame that is zstd's magic number and the bytes as
they are: a compressor that finds nothing to shorten. -/
def jsonSnapshot : SnapshotCodec where
  toJson := fun p => (writeText p).toByteArray.data.toList
  fromJson := fun bytes =>
    match (String.fromUTF8? ⟨bytes.toArray⟩).bind (readText SnapshotPayload) with
    | some p => .ok p
    | none => .error "not a snapshot"
  compress := fun bytes => zstdMagic ++ bytes
  decompress := fun bytes => .ok (bytes.drop zstdMagic.length)
  fromJson_toJson := fun p => by
    have h : String.fromUTF8? (writeText p).toByteArray = some (writeText p) := by
      unfold String.fromUTF8?
      exact dif_pos (writeText p).isValidUTF8
    simp only [Array.toArray_toList, h, Option.bind_some, readText_writeText]
  decompress_compress := fun bytes => by simp
  compress_magic := fun bytes => by simp

/-! ## Entries of a closed run -/

/-- A request that node 1 committed in term 1, at an index of 64 bits. -/
def requestAt (index : ℕ) (request : ControlRequest) : Entry :=
  ⟨⟨1, 1, index % 2 ^ 64, Nat.mod_lt _ (by decide)⟩, .normal request⟩

def httpImposter (stubs : List Stub) : ImposterConfig := { port := some 4545, protocol := "http", stubs }

/-- The put of an imposter without stubs, as the first request of a log. -/
def firstPut : ControlRequest := { opId := "op-1", op := .putImposter (httpImposter []) none }

end RiftCluster
