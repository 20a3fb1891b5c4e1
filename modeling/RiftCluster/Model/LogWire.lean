import RiftCluster.Model.LogStore
import RiftCluster.Model.Wire

/-!
# The rows of the log as JSON

Log entries in the JSON `serde_json` gives them: a case of an enumeration is an object of
one member under the case's name. `jsonLog` is the codec of the log store built on it.
-/

namespace RiftCluster

open JsonText

/-- A case of an enumeration, under its name. -/
def tagged (tag : String) (body : List (String × Json)) : Json := .object [(tag, .object body)]

/-- Reads a case by its name. -/
def untag {α : Type} (j : Json) (tag : String) (read : Json → Option α) : Option α := (j.member tag).bind read

/-- Reads a case without fields: its name alone. -/
def bare {α : Type} (j : Json) (tag : String) (a : α) : Option α :=
  match j with
  | .str s => if s = tag then some a else none
  | _ => none

section

variable {α : Type} (tag tag' : String) (read : Json → Option α)

@[simp] theorem untag_object (x : Json) :
    untag (.object [(tag, x)]) tag' read = if tag = tag' then read x else none := by
  rw [untag, member_object_cons]
  split
  · rfl
  · rfl

@[simp] theorem untag_tagged (body : List (String × Json)) :
    untag (tagged tag body) tag' read = if tag = tag' then read (.object body) else none := untag_object tag tag' read _

@[simp] theorem untag_str : untag (.str tag) tag' read = none := rfl

@[simp] theorem bare_str (a : α) : bare (.str tag) tag' a = if tag = tag' then some a else none := rfl

end

instance : Wire Restart where
  encode
    | .stubAt index => .object [("kind", .str "stubAt"), ("index", .num index)]
    | .allStubs => .object [("kind", .str "allStubs")]
    | .imposter => .object [("kind", .str "imposter")]
    | .unknown => .object [("kind", .str "unknown")]
  decode := fun j => do
    let kind ← j.field String "kind"
    if kind = "stubAt" then return .stubAt (← j.field ℕ "index")
    else if kind = "allStubs" then return .allStubs
    else if kind = "imposter" then return .imposter
    else return .unknown
  decode_encode := fun r => by
    cases r <;> simp [Json.field]

instance : Wire StubEdit where
  encode
    | .add stub index => tagged "Add" (optionalMember "index" index ++ [("stub", Wire.encode stub)])
    | .replaceById id stub => tagged "ReplaceById" [("id", .str id), ("stub", Wire.encode stub)]
    | .deleteById id => tagged "DeleteById" [("id", .str id)]
    | .deleteBySpace space => tagged "DeleteBySpace" [("space", .str space)]
    | .move src dst => tagged "Move" [("from", .num src), ("to", .num dst)]
  decode := fun j =>
    (untag j "Add" fun x => do return .add (← x.field Stub "stub") (← x.optional ℕ "index")) <|>
    (untag j "ReplaceById" fun x => do return .replaceById (← x.field String "id") (← x.field Stub "stub")) <|>
    (untag j "DeleteById" fun x => do return .deleteById (← x.field String "id")) <|>
    (untag j "DeleteBySpace" fun x => do return .deleteBySpace (← x.field String "space")) <|>
    (untag j "Move" fun x => do return .move (← x.field ℕ "from") (← x.field ℕ "to"))
  decode_encode := fun e => by
    cases e <;> simp [Json.field]

instance : Wire RecordedStubPlacement where
  encode
    | .beforeProxy => .str "beforeProxy"
    | .afterProxyMerging => .str "afterProxyMerging"
  decode
    | .str "beforeProxy" => some .beforeProxy
    | .str "afterProxyMerging" => some .afterProxyMerging
    | _ => none
  decode_encode := fun p => by cases p <;> rfl

instance : Wire RecordedStub where
  encode := fun r => .object (optionalMember "anchor_index" r.anchorIndex ++
    [("stub", Wire.encode r.stub), ("placement", Wire.encode r.placement), ("proxy_to", .str r.proxyTo)])
  decode := fun j => do
    return {
      stub := ← j.field Stub "stub"
      placement := ← j.field RecordedStubPlacement "placement"
      proxyTo := ← j.field String "proxy_to"
      anchorIndex := ← j.optional ℕ "anchor_index" }
  decode_encode := fun r => by simp [Json.field]

instance : Wire RouteTable where
  encode := fun t => .object [("routes", Wire.encode t.routes)]
  decode := fun j => do return ⟨← j.field (List Route) "routes"⟩
  decode_encode := fun t => by simp [Json.field]

instance : Wire ControlOp where
  encode
    | .putImposter config restart =>
      tagged "PutImposter" (optionalMember "restart" restart ++ [("config", Wire.encode config)])
    | .patchStubs port edit =>
      tagged "PatchStubs" [("port", .num port), ("edit", Wire.encode (α := List StubEdit) edit)]
    | .deleteImposter port => tagged "DeleteImposter" [("port", .num port)]
    | .deleteAll => .str "DeleteAll"
    | .setEnabled port enabled => tagged "SetEnabled" [("port", .num port), ("enabled", .bool enabled)]
    | .putRoutes table => tagged "PutRoutes" [("table", Wire.encode table)]
    | .deleteRoute id => tagged "DeleteRoute" [("id", .str id)]
    | .sessionKeyPut key => tagged "SessionKeyPut" [("key", .str key)]
    | .fleetNamePut name => tagged "FleetNamePut" [("name", .str name)]
    | .proxyRecorded port sigHash resp stub =>
      tagged "ProxyRecorded" (optionalMember "stub" stub ++
        [("port", .num port), ("sig_hash", .str sigHash), ("resp", Wire.encode resp)])
    | .proxyRecordedClear port => tagged "ProxyRecordedClear" [("port", .num port)]
  decode := fun j =>
    (untag j "PutImposter" fun x => do
      return .putImposter (← x.field ImposterConfig "config") (← x.optional Restart "restart")) <|>
    (untag j "PatchStubs" fun x => do return .patchStubs (← x.field ℕ "port") (← x.field (List StubEdit) "edit")) <|>
    (untag j "DeleteImposter" fun x => do return .deleteImposter (← x.field ℕ "port")) <|>
    (untag j "SetEnabled" fun x => do return .setEnabled (← x.field ℕ "port") (← x.field Bool "enabled")) <|>
    (untag j "PutRoutes" fun x => do return .putRoutes (← x.field RouteTable "table")) <|>
    (untag j "DeleteRoute" fun x => do return .deleteRoute (← x.field String "id")) <|>
    (untag j "SessionKeyPut" fun x => do return .sessionKeyPut (← x.field String "key")) <|>
    (untag j "FleetNamePut" fun x => do return .fleetNamePut (← x.field String "name")) <|>
    (untag j "ProxyRecorded" fun x => do
      return .proxyRecorded (← x.field ℕ "port") (← x.field String "sig_hash") (← x.field RecordedResponse "resp")
        (← x.optional RecordedStub "stub")) <|>
    (untag j "ProxyRecordedClear" fun x => do return .proxyRecordedClear (← x.field ℕ "port")) <|>
    bare j "DeleteAll" .deleteAll
  decode_encode := fun op => by
    cases op <;> simp [Json.field]

instance : Wire ControlRequest where
  encode := fun r => .object (optionalMember "principal" r.principal ++
    optionalMember "expected_revision" r.expectedRevision ++
    optionalMember "expect_absent" (unlessDefault false r.expectAbsent) ++
    [("op_id", .str r.opId), ("issued_at_secs", .num r.issuedAtSecs), ("op", Wire.encode r.op)])
  decode := fun j => do
    return {
      opId := ← j.field String "op_id"
      principal := ← j.optional String "principal"
      issuedAtSecs := ← j.field ℕ "issued_at_secs"
      expectedRevision := ← j.optional ℕ "expected_revision"
      expectAbsent := (← j.optional Bool "expect_absent").getD false
      op := ← j.field ControlOp "op" }
  decode_encode := fun r => by simp [Json.field]

instance : Wire Entry where
  encode := fun e => .object [("log_id", Wire.encode e.logId), ("payload", match e.payload with
    | .blank => .str "Blank"
    | .normal request => .object [("Normal", Wire.encode request)]
    | .membership membership => .object [("Membership", Wire.encode membership)])]
  decode := fun j => do
    let logId ← j.field LogId "log_id"
    let payload ← j.member "payload"
    (untag payload "Normal" fun x => do return ⟨logId, .normal (← Wire.decode x)⟩) <|>
    (untag payload "Membership" fun x => do return ⟨logId, .membership (← Wire.decode x)⟩) <|>
    bare payload "Blank" ⟨logId, .blank⟩
  decode_encode := fun e => by
    obtain ⟨logId, payload⟩ := e
    cases payload <;> simp [Json.field]

/-- The rows of the log: entries, and the purge point as the one member of `LogMeta`. -/
def jsonLog : LogCodec where
  entry := jsonCodec Entry
  logMeta :=
    { write := fun m => (Json.object (optionalMember "last_purged_log_id" m)).write
      read := fun t => match (Json.read t).bind fun j => j.optional LogId "last_purged_log_id" with
        | some m => .ok m
        | none => .error "not a purge point" }
  entry_read := jsonCodec_read
  meta_read := fun m => by simp

end RiftCluster
