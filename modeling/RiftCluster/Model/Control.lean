import RiftCluster.Model.Upstream

/-!
# The control plane's pure logic

`control.rs` and the admission half of `stores/flow_config.rs`: validation of an
operation, the record a precondition addresses, stub edit scripts, and the filter
that clearing saved proxy responses runs. Everything here depends on the
operation and the data it is given, never on a node.
-/

namespace RiftCluster

/-! ## Flow-state knobs -/

inductive ReadConsistency where
  | strong
  | ofLocal
  deriving DecidableEq, Repr

inductive Durability where
  | none
  | async
  | sync
  deriving DecidableEq, Repr

inductive ContextScope where
  | imposter
  | fleet
  deriving DecidableEq, Repr

structure FlowConfig where
  readConsistency : ReadConsistency := .strong
  durability : Durability := .async
  ttlSeconds : Option ℤ := some 300
  scope : ContextScope := .imposter
  deriving DecidableEq, Repr

/-- A knob: absent it is the default, a known word is its value, anything else is
refused with the key, the accepted words and the value. -/
def flowKnob {α : Type} (extra : List (String × JsonValue)) (key accepted : String) (dflt : α)
    (word : String → Option (Except String α)) : Except String α :=
  match extra.lookup key with
  | .none => .ok dflt
  | some value =>
    match value.asStr.bind word with
    | some verdict => verdict
    | .none => .error ("flowState." ++ key ++ " must be " ++ accepted ++ ", got " ++ value.text)

def FlowConfig.fromImposter (config : ImposterConfig) : Except String FlowConfig := do
  match config.flowState with
  | none => return {}
  | some flowState =>
    let readConsistency ← flowKnob flowState.extra "readConsistency" "\"strong\" or \"local\"" ReadConsistency.strong
      fun
      | "strong" => some (.ok .strong)
      | "local" => some (.ok .ofLocal)
      | _ => none
    let durability ← flowKnob flowState.extra "durability" "\"none\", \"async\" or \"sync\"" Durability.async
      fun
      | "none" => some (.ok .none)
      | "async" => some (.ok .async)
      | "sync" => some (.ok .sync)
      | _ => none
    let scope ← flowKnob flowState.extra "contextScope" "\"imposter\" or \"fleet\"" ContextScope.imposter
      fun
      | "imposter" => some (.ok .imposter)
      | "fleet" => some (.ok .fleet)
      -- a retired word is refused by name, never read as one of the others
      | "tenant" => some (.error ("flowState.contextScope: \"tenant\" no longer exists — the fleet has no tenants " ++
          "since #550. Use \"imposter\" (per-imposter namespace) or \"fleet\" (one namespace for the whole fleet)."))
      | _ => none
    let ttlSeconds := if flowState.ttlSeconds > 0 then some flowState.ttlSeconds else none
    return { readConsistency, durability, ttlSeconds, scope }

def FlowConfig.validate (config : ImposterConfig) : Except String Unit :=
  (FlowConfig.fromImposter config).map fun _ => ()

/-! ## Validation -/

def sessionKeyBytes : ℕ := 32

def maxLogPayloadBytes : ℕ := 10 * 1024 * 1024

def maxFleetNameChars : ℕ := 128

def hexValue (c : Char) : Option ℕ :=
  if '0' ≤ c ∧ c ≤ '9' then some (c.toNat - '0'.toNat)
  else if 'a' ≤ c ∧ c ≤ 'f' then some (c.toNat - 'a'.toNat + 10)
  else if 'A' ≤ c ∧ c ≤ 'F' then some (c.toNat - 'A'.toNat + 10)
  else none

/-- The bytes of a list of hex digits of even length. -/
def hexPairs : List Char → Option (List ℕ)
  | [] => some []
  | [_] => none
  | c :: d :: cs => do
    let hi ← hexValue c
    let lo ← hexValue d
    let tl ← hexPairs cs
    return (16 * hi + lo) :: tl

def hexDecode (s : String) : Option (List ℕ) := hexPairs s.toList

/-- The Unicode `White_Space` property. -/
def isWhitespace (c : Char) : Bool :=
  let n := c.toNat
  (9 ≤ n && n ≤ 13) || n == 32 || n == 0x85 || n == 0xA0 || n == 0x1680 || (0x2000 ≤ n && n ≤ 0x200A) ||
    n == 0x2028 || n == 0x2029 || n == 0x202F || n == 0x205F || n == 0x3000

/-- The Unicode general category `Cc`. -/
def isControl (c : Char) : Bool :=
  let n := c.toNat
  n < 32 || (127 ≤ n && n < 160)

variable (U : Upstream)

/-- The first stub id that occurs twice, in list order. -/
def duplicateStubId : List Stub → List String → Option String
  | [], _ => none
  | stub :: stubs, ids =>
    match stub.id with
    | none => duplicateStubId stubs ids
    | some id => if ids.contains id then some id else duplicateStubId stubs (id :: ids)

def validateReplicableConfig (config : ImposterConfig) : Except String Unit :=
  -- port 0 asks for an assigned port as surely as an absent one does
  if config.port.all (fun port => port == 0) then
    .error "config must carry an explicit port: an auto-assigned port cannot replicate"
  else if config.protocol ≠ "http" ∧ config.protocol ≠ "https" then
    .error ("unsupported protocol " ++ U.debugStr config.protocol)
  else
    match duplicateStubId config.stubs [] with
    | some id => .error ("duplicate stub id " ++ U.debugStr id)
    | none => FlowConfig.validate config

def validate : ControlOp → Except String Unit
  | .putImposter config _ => validateReplicableConfig U config
  | .patchStubs _ _ | .deleteImposter _ | .deleteAll | .setEnabled _ _ | .deleteRoute _ => .ok ()
  | .putRoutes table => U.validateRoutes table
  | .sessionKeyPut key =>
    match hexDecode key with
    | none => .error "session key must be hex-encoded"
    | some decoded =>
      if decoded.length ≠ sessionKeyBytes then
        .error (s!"session key must be exactly {sessionKeyBytes} bytes, got " ++ toString decoded.length)
      else .ok ()
  | .fleetNamePut name =>
    if name.toList.all isWhitespace then
      .error ("fleet name must not be empty or whitespace-only: a name a human cannot " ++
        "read is the same confusion as no name at all")
    else if name.toList.length > maxFleetNameChars then
      .error ("fleet name is " ++ toString name.toList.length ++
        s!" characters, over the {maxFleetNameChars} character cap")
    else if name.toList.any isControl then
      .error ("fleet name must not contain control characters: one could corrupt a log " ++
        "line, a terminal, or the console's own chrome")
    else .ok ()
  | .proxyRecorded port sigHash resp stub =>
    if port = 0 then .error "port must be non-zero: 0 addresses no imposter"
    else if sigHash = "" ∨ hexDecode sigHash = none then .error "sigHash must be a non-empty hex string"
    else if resp.body.length > maxLogPayloadBytes then
      .error s!"recorded response body exceeds the {maxLogPayloadBytes}-byte log entry bound"
    else if stub.any (fun recorded => recorded.proxyTo == "") then
      .error ("proxyTo must not be empty: placement is resolved against the proxy " ++
        "stub it names")
    else .ok ()
  | .proxyRecordedClear port =>
    if port = 0 then .error "port must be non-zero: 0 addresses no imposter to clear" else .ok ()

/-! ## Preconditions -/

/-- The stored record a precondition holds against. -/
inductive PreconditionTarget where
  | imposter (port : Port)
  | routeTable
  deriving DecidableEq, Repr

def preconditionTarget : ControlOp → Option PreconditionTarget
  | .putImposter config _ => config.port.map .imposter
  | .patchStubs port _ | .deleteImposter port | .setEnabled port _ => some (.imposter port)
  | .putRoutes _ | .deleteRoute _ => some .routeTable
  | .deleteAll | .sessionKeyPut _ | .fleetNamePut _ | .proxyRecorded _ _ _ _ | .proxyRecordedClear _ => none

/-! ## Stub edits -/

/-- Whether a step puts new stub content in the config. -/
def StubEdit.addsContent : StubEdit → Bool
  | .add _ _ | .replaceById _ _ => true
  | .deleteById _ | .deleteBySpace _ | .move _ _ => false

/-- The slot of the stub with an explicit id. -/
def position (stubs : List Stub) (id : String) : Option ℕ := stubs.findIdx? fun s => s.id == some id

/-- One step of `apply_edit`, on the scratch copy. -/
def applyStep (next : List Stub) : StubEdit → Except String (List Stub)
  | .add stub index =>
    match stub.id.filter fun id => next.any fun s => s.id == some id with
    | some id => .error ("add: duplicate stub id " ++ U.debugStr id)
    | none => .ok (next.insertIdx (min (index.getD next.length) next.length) stub)
  | .replaceById id stub =>
    match position next id with
    | none => .error ("replace: no stub with id " ++ U.debugStr id)
    | some i => .ok (next.set i { stub with id := some id })
  | .deleteById id =>
    match position next id with
    | none => .error ("delete: no stub with id " ++ U.debugStr id)
    | some i => .ok (next.eraseIdx i)
  | .deleteBySpace space => .ok (next.filter fun s => s.space != some space)
  | .move src dst =>
    match next[src]? with
    | none => .error (s!"move: index {src} out of bounds (len " ++ toString next.length ++ ")")
    | some stub =>
      if dst < next.length then .ok ((next.eraseIdx src).insertIdx dst stub)
      else .error (s!"move: index {dst} out of bounds (len " ++ toString next.length ++ ")")

/-- Apply a script; any failing step fails it whole. -/
def applyEdit (stubs : List Stub) (script : StubEditScript) : Except String (List Stub) :=
  script.foldlM (applyStep U) stubs

/-! ## Clearing recorded responses -/

/-- A stub without its recorded responses, if anything of it remains. A stub with
none, that still names where it was recorded from, is dropped whole. -/
def stripStub (stub : Stub) : Option Stub :=
  if stub.responses.any StubResponse.isRecorded then
    let responses := stub.responses.filter fun r => !r.isRecorded
    if responses.isEmpty then none else some { stub with responses }
  else if stub.recordedFrom.isNone then some stub else none

/-- The stripped list, and whether anything was removed. -/
def stripProxyResponses (stubs : List Stub) : List Stub × Bool :=
  let kept := stubs.filterMap stripStub
  (kept, stubs.any (fun s => s.responses.any StubResponse.isRecorded) || kept.length != stubs.length)

end RiftCluster
