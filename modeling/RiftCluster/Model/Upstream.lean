import RiftCluster.Model.Types

/-!
# What the crate takes from outside

The JSON encodings (`serde_json`), the engine's own checks (`rift-mock-core`, a
submodule) and one Unicode table are not part of this repository. `Upstream`
collects them, each with the documented behaviour the crate relies on:

* what an encoder writes, its decoder reads back;
* a struct is written as a JSON object, so its text starts with `{` and is taken
  as it stands where raw JSON is expected;
* a string is written in quotes and read back as it was.

Nothing is assumed of the engine's admission check, of the route table's own
validation or of the value a stub serializes to.
-/

namespace RiftCluster

/-- An encoder and the decoder that goes with it. -/
structure Codec (α : Type) where
  write : α → String
  read : String → Except String α

/-- The text is a JSON object, with nothing around it: raw JSON as it stands. -/
def IsObject (raw : String → Option String) (t : String) : Prop :=
  raw t = some t ∧ t.toList.head? = some '{'

structure Upstream where
  imposter : Codec StoredImposter
  /-- `to_raw_value` of a config, and `decode_committed_config`. -/
  config : Codec ImposterConfig
  route : Codec Route
  dedup : Codec DedupEntry
  /-- `recorded_response_wire`. -/
  recorded : Codec RecordedResponse
  sessionKey : Codec SessionKey
  /-- `RawValue::from_string`: the JSON document a text holds, if it holds one. -/
  raw : String → Option String
  /-- A string as a JSON string, and back. -/
  quote : String → String
  unquote : String → Except String String
  /-- `serde_json::to_value` of a stub. -/
  stubValue : Stub → String
  /-- `admission_check`. -/
  admissionCheck : ImposterConfig → Except String Unit
  /-- `RouteTable::validate`. -/
  validateRoutes : RouteTable → Except String Unit
  /-- Which characters `Debug` prints as they are. -/
  printable : Char → Bool
  config_object : ∀ c, IsObject raw (config.write c)
  config_read : ∀ c, config.read (config.write c) = .ok c
  imposter_object : ∀ r, IsObject raw r.config → IsObject raw (imposter.write r)
  imposter_read : ∀ r, IsObject raw r.config → imposter.read (imposter.write r) = .ok r
  route_object : ∀ r, IsObject raw (route.write r)
  route_read : ∀ r, route.read (route.write r) = .ok r
  dedup_object : ∀ d, IsObject raw (dedup.write d)
  dedup_read : ∀ d, dedup.read (dedup.write d) = .ok d
  recorded_object : ∀ r, IsObject raw (recorded.write r)
  recorded_read : ∀ r, recorded.read (recorded.write r) = .ok r
  sessionKey_read : ∀ k, sessionKey.read (sessionKey.write k) = .ok k
  quote_head : ∀ t, (quote t).toList.head? = some '"'
  unquote_quote : ∀ t, unquote (quote t) = .ok t

variable (U : Upstream)

/-- The engine's verdict on a config. The source caches it by content; the
verdict is the check's. -/
def Upstream.admissionVerdict (config : ImposterConfig) : Except String Unit :=
  U.admissionCheck config

/-- Whether the engine admits the config. -/
def Upstream.admits (config : ImposterConfig) : Bool := (U.admissionVerdict config).isOk

/-- A character as `Debug` writes it inside a string. -/
def Upstream.debugChar (c : Char) : List Char :=
  if c = '"' then ['\\', '"']
  else if c = '\\' then ['\\', '\\']
  else if c = '\n' then ['\\', 'n']
  else if c = '\r' then ['\\', 'r']
  else if c = '\t' then ['\\', 't']
  else if c.toNat = 0 then ['\\', '0']
  else if U.printable c then [c]
  else ['\\', 'u', '\x7b'] ++ Nat.toDigits 16 c.toNat ++ ['\x7d']

/-- A string as `Debug` writes it. -/
def Upstream.debugStr (s : String) : String :=
  String.ofList ('"' :: s.toList.flatMap U.debugChar ++ ['"'])

/-- The row `sm_configs` holds for a config written at a revision. -/
def Upstream.imposterRow (config : ImposterConfig) (enabled : Bool) (revision : ℕ) : String :=
  U.imposter.write { config := U.config.write config, enabled, revision }

/-- Decode a stored row down to its config. -/
def Upstream.readRow (row : String) : Except String ImposterConfig :=
  match U.imposter.read row with
  | .error e => .error e
  | .ok record => U.config.read record.config

@[simp] theorem Upstream.read_imposterRow (c : ImposterConfig) (e : Bool) (r : ℕ) :
    U.imposter.read (U.imposterRow c e r) = .ok { config := U.config.write c, enabled := e, revision := r } :=
  U.imposter_read _ (U.config_object c)

@[simp] theorem Upstream.config_read_write (c : ImposterConfig) : U.config.read (U.config.write c) = .ok c :=
  U.config_read c

@[simp] theorem Upstream.readRow_imposterRow (c : ImposterConfig) (e : Bool) (r : ℕ) :
    U.readRow (U.imposterRow c e r) = .ok c := by
  simp [Upstream.readRow]

@[simp] theorem Upstream.dedup_read_write (d : DedupEntry) : U.dedup.read (U.dedup.write d) = .ok d :=
  U.dedup_read d

@[simp] theorem Upstream.route_read_write (r : Route) : U.route.read (U.route.write r) = .ok r :=
  U.route_read r

theorem Upstream.imposterRow_object (c : ImposterConfig) (e : Bool) (r : ℕ) :
    IsObject U.raw (U.imposterRow c e r) :=
  U.imposter_object _ (U.config_object c)

end RiftCluster
