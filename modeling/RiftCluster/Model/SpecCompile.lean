import RiftCluster.Model.Recording
import RiftCluster.Model.SpecBody

/-!
# Compiling a spec

`lib.rs` and `path.rs` of `rift-cluster-spec`. The document is parsed twice: as a JSON value,
over which the gates run (version, references, status keys), and as an `OpenApi`. Then the
operations are planned, which normalises the schema of every response, put in order, and
emitted, which renders a body for every response and checks it against its schema.
-/

namespace RiftCluster.Spec

variable {F : Type}

inductive CompileError where
  | unsupportedVersion (found : String)
  | tooLarge (max : ℕ)
  | externalRef (reference : String)
  | parse (detail : String)
  | selfCheck (operation status detail : String)
  deriving DecidableEq, Repr

/-! ## The gates -/

/-- `Value::get` of a name. -/
def Value.get? : Value F → String → Option (Value F)
  | .object members, name => members.lookup name
  | _, _ => none

def Value.asStr? : Value F → Option String
  | .string s => some s
  | _ => none

def Value.asObject? : Value F → Option (List (String × Value F))
  | .object members => some members
  | _ => none

/-- `require_supported_version`. -/
def requireSupportedVersion (document : Value F) : Except CompileError Unit :=
  match (document.get? "openapi").bind Value.asStr? with
  | some version =>
    if "3.0.".toList.isPrefixOf version.toList ∨ version = "3.0" then .ok ()
    else .error (.unsupportedVersion version)
  | none => .error (.unsupportedVersion (match (document.get? "swagger").bind Value.asStr? with
    | some version => "swagger " ++ version
    | none => "unknown (no `openapi` or `swagger` field)"))

/-- `parse::<usize>`, and of a smaller type where the value is compared afterwards. -/
def parseUsize (s : List Char) : Option ℕ :=
  let digits := match s with
    | '+' :: rest => rest
    | _ => s
  if !digits.isEmpty && digits.all isAsciiDigit then parseU64 digits else none

/-- Replace the escape `~c`. -/
def unescapeTilde (c by_ : Char) : List Char → List Char
  | '~' :: x :: rest => if x = c then by_ :: unescapeTilde c by_ rest else '~' :: unescapeTilde c by_ (x :: rest)
  | x :: rest => x :: unescapeTilde c by_ rest
  | [] => []

/-- A token of a JSON pointer. -/
def unescapeToken (raw : List Char) : String := String.ofList (unescapeTilde '0' '~' (unescapeTilde '1' '/' raw))

/-- One step of `resolve_pointer`. -/
def Value.child? (value : Value F) (token : String) : Option (Value F) :=
  match value with
  | .object members => members.lookup token
  | .array items => (parseUsize token.toList).bind fun index => items[index]?
  | _ => none

/-- `resolve_pointer`. -/
def resolvePointer (root : Value F) (reference : String) : Option (Value F) :=
  match reference.toList with
  | ['#'] => some root
  | '#' :: '/' :: pointer => (pointer.splitOn '/').foldlM (fun current raw => current.child? (unescapeToken raw)) root
  | _ => none

/-- The component tables that are read. -/
def resolvableComponents : List String := ["schemas", "parameters", "responses"]

/-- The check of one object that has a `$ref`. -/
def checkRef (U : SpecUpstream F) (root : Value F) : Value F → Except CompileError Unit
  | .string reference =>
    if reference.toList.head? ≠ some '#' then .error (.externalRef reference)
    else if (resolvePointer root reference).isNone then
      .error (.parse ("$ref " ++ U.debug reference ++ " does not resolve within the document"))
    else if !resolvableComponents.any fun kind =>
        ("#/components/" ++ kind ++ "/").toList.isPrefixOf reference.toList then
      .error (.parse ("$ref " ++ U.debug reference ++ " points outside components.\x7b" ++
        ",".intercalate resolvableComponents ++ "\x7d, which is all this compiler resolves"))
    else .ok ()
  | value => .error (.parse ("$ref must be a string, found " ++ U.display value))

mutual

/-- `walk` of `validate_refs`. -/
def walk (U : SpecUpstream F) (root : Value F) : Value F → Except CompileError Unit
  | .object members => do
    match members.lookup "$ref" with
    | some reference => checkRef U root reference
    | none => pure ()
    walkMembers U root members
  | .array items => walkItems U root items
  | _ => .ok ()

def walkMembers (U : SpecUpstream F) (root : Value F) : List (String × Value F) → Except CompileError Unit
  | [] => .ok ()
  | (_, value) :: rest => do
    walk U root value
    walkMembers U root rest

def walkItems (U : SpecUpstream F) (root : Value F) : List (Value F) → Except CompileError Unit
  | [] => .ok ()
  | item :: rest => do
    walk U root item
    walkItems U root rest

end

/-- `validate_refs`. -/
def validateRefs (U : SpecUpstream F) (document : Value F) : Except CompileError Unit := walk U document document

/-- A response key that `openapiv3` reads. -/
def recognised (key : String) : Bool :=
  if key.toList.drop (key.toList.length - 2) = ['X', 'X'] then
    (parseUsize (key.toList.take (key.toList.length - 2))).any fun leading => 1 ≤ leading && leading ≤ 5
  else (parseUsize key.toList).any fun code => 100 ≤ code && code ≤ 599

/-- `validate_status_keys`. -/
def validateStatusKeys (U : SpecUpstream F) (document : Value F) : Except CompileError Unit :=
  (((document.get? "paths").bind Value.asObject?).getD []).forM fun path =>
    (path.2.asObject?.getD []).forM fun operation =>
      (((operation.2.get? "responses").bind Value.asObject?).getD []).forM fun response =>
        if response.1 = "default" ∨ recognised response.1 then .ok ()
        else .error (.parse (operation.1 ++ " " ++ path.1 ++ ": response key " ++ U.debug response.1 ++
          " is not `default`, an HTTP status 100-599, or a 1XX-5XX range"))

/-! ## The parsed document -/

structure Example (F : Type) where
  value : Option (Value F)

structure MediaType (F : Type) where
  schema : Option (ReferenceOr (Schema F))
  exampleValue : Option (Value F) := none
  examples : List (String × ReferenceOr (Example F)) := []

structure Response (F : Type) where
  /-- By media type, in the order of the document. -/
  content : List (String × MediaType F) := []

inductive ParameterKind where
  | query
  | header
  | path
  | cookie
  deriving DecidableEq, Repr

structure Parameter where
  kind : ParameterKind
  name : String
  required : Bool
  deriving DecidableEq, Repr

/-- `openapiv3::StatusCode`. -/
inductive StatusCode where
  | code (code : ℕ)
  | range (leading : ℕ)
  deriving DecidableEq, Repr

/-- `StatusKey`. -/
inductive StatusKey where
  | default
  | code (code : ℕ)
  | range (leading : ℕ)
  deriving DecidableEq, Repr

namespace StatusKey

def label : StatusKey → String
  | .default => "default"
  | .code n => toString n
  | .range leading => toString leading ++ "XX"

/-- `http_status`, saturating in a `u16`. -/
def httpStatus : StatusKey → ℕ
  | .default => 200
  | .code n => n
  | .range leading => min (leading * 100) 65535

def isSuccess : StatusKey → Bool
  | .default => false
  | .code n => 200 ≤ n && n < 300
  | .range leading => leading = 2

def ofCode : StatusCode → StatusKey
  | .code n => .code n
  | .range leading => .range leading

end StatusKey

structure Operation (F : Type) where
  operationId : Option String := none
  parameters : List (ReferenceOr Parameter) := []
  responses : List (StatusCode × ReferenceOr (Response F)) := []
  defaultResponse : Option (ReferenceOr (Response F)) := none

/-- `METHODS`, in their order. -/
inductive Method where
  | get
  | put
  | post
  | delete
  | options
  | head
  | patch
  | trace
  deriving DecidableEq, Repr

def Method.all : List Method := [.get, .put, .post, .delete, .options, .head, .patch, .trace]

def Method.text : Method → String
  | .get => "GET"
  | .put => "PUT"
  | .post => "POST"
  | .delete => "DELETE"
  | .options => "OPTIONS"
  | .head => "HEAD"
  | .patch => "PATCH"
  | .trace => "TRACE"

structure PathItem (F : Type) where
  parameters : List (ReferenceOr Parameter) := []
  /-- `method_operation`. -/
  operation : Method → Option (Operation F)

structure Components (F : Type) where
  schemas : SchemaTable F := []
  parameters : List (String × ReferenceOr Parameter) := []
  responses : List (String × ReferenceOr (Response F)) := []

/-- The operations of a path item, in the order of `METHODS`. -/
def operationsOf (item : PathItem F) : List (Method × Operation F) :=
  Method.all.filterMap fun method => (item.operation method).map fun operation => (method, operation)

/-- The responses of an operation: the codes in the order of the document, and then `default`. -/
def declaredResponses (operation : Operation F) : List (StatusKey × ReferenceOr (Response F)) :=
  operation.responses.map (fun response => (StatusKey.ofCode response.1, response.2)) ++
    (operation.defaultResponse.map fun response => (StatusKey.default, response)).toList

/-- No object in a response names a property twice. -/
def responseApart : ReferenceOr (Response F) → Bool
  | .reference _ => true
  | .item response => response.content.all fun media => media.2.schema.all refApart

def pathApart : ReferenceOr (PathItem F) → Bool
  | .reference _ => true
  | .item item => (operationsOf item).all fun operation =>
      (declaredResponses operation.2).all fun response => responseApart response.2

structure OpenApi (F : Type) where
  paths : List (String × ReferenceOr (PathItem F)) := []
  /-- Empty tables where the document has no components. -/
  components : Components F := {}
  schemasApart : components.schemas.all (fun entry => refApart entry.2) = true
  responsesApart : components.responses.all (fun entry => responseApart entry.2) = true
  pathsApart : paths.all (fun entry => pathApart entry.2) = true

/-- How a spec's bytes are read. -/
structure SpecReader (F : Type) where
  /-- As a JSON value. -/
  document : List UInt8 → Except String (Value F)
  /-- As an OpenAPI document. -/
  api : List UInt8 → Except String (OpenApi F)

/-! ## Paths -/

structure CompiledPath where
  regex : String
  routePattern : Option String
  literalSegments : ℕ
  totalSegments : ℕ
  deriving DecidableEq, Repr

/-- `whole_segment_placeholder`. -/
def wholeSegmentPlaceholder (segment : List Char) : Option (List Char) :=
  match segment with
  | '{' :: rest =>
    if rest.getLast? = some '}' then
      let inner := rest.dropLast
      if !inner.isEmpty && !inner.contains '{' && !inner.contains '}' then some inner else none
    else none
  | _ => none

/-- `partial_segment_regex`. A round of its loop takes a placeholder off, so there are no more
rounds than characters. -/
def partialSegmentRegex (U : SpecUpstream F) : ℕ → List Char → String × Bool
  | 0, rest => (U.regexEscape (String.ofList rest), false)
  | fuel + 1, rest =>
    match (splitOnce ['{'] rest).bind fun opened => (splitOnce ['}'] opened.2).map fun closed => (opened.1, closed.2) with
    | some (before, after) =>
      (U.regexEscape (String.ofList before) ++ "[^/]+" ++ (partialSegmentRegex U fuel after).1, true)
    | none => (U.regexEscape (String.ofList rest), false)

/-- What the loop of `compile_path` has gathered. -/
structure PathParts where
  regex : String
  route : String
  literalSegments : ℕ := 0
  totalSegments : ℕ := 0
  routeExpressible : Bool := true

/-- A segment after the first. -/
def PathParts.add (U : SpecUpstream F) (parts : PathParts) (segment : List Char) : PathParts :=
  match wholeSegmentPlaceholder segment with
  | some name =>
    { parts with
      regex := parts.regex ++ "/" ++ "[^/]+"
      route := parts.route ++ "/" ++ ":" ++ String.ofList name
      totalSegments := parts.totalSegments + 1 }
  | none =>
    let (rendered, hasPlaceholder) := partialSegmentRegex U segment.length segment
    { regex := parts.regex ++ "/" ++ rendered
      route := parts.route ++ "/" ++ String.ofList segment
      literalSegments := if hasPlaceholder then parts.literalSegments else parts.literalSegments + 1
      totalSegments := parts.totalSegments + 1
      routeExpressible := parts.routeExpressible && !hasPlaceholder }

/-- `compile_path`. -/
def compilePath (U : SpecUpstream F) (template : String) : CompiledPath :=
  let segments := template.toList.splitOn '/'
  let first := segments.headD []
  let parts := segments.tail.foldl (PathParts.add U)
    { regex := "^" ++ U.regexEscape (String.ofList first), route := String.ofList first }
  { regex := parts.regex ++ "$"
    routePattern :=
      if parts.literalSegments < parts.totalSegments ∧ parts.routeExpressible then some parts.route else none
    literalSegments := parts.literalSegments
    totalSegments := parts.totalSegments }

/-! ## Planning -/

structure PlannedResponse (F : Type) where
  status : StatusKey
  contentType : Option String
  schema : SchemaNode F
  exampleValue : Option (Value F)

structure Plan (F : Type) where
  id : String
  method : Method
  template : String
  path : CompiledPath
  requiredQuery : List String
  requiredHeaders : List String
  responses : List (PlannedResponse F)

/-- A planning that may refuse the document. -/
abbrev Planning := ExceptT CompileError Walk

/-- `resolve_component`. -/
def resolveComponent {α : Type} (U : SpecUpstream F) (reference kind : String) (table : List (String × ReferenceOr α)) :
    Except CompileError α :=
  match (strip? ("#/components/" ++ kind ++ "/") reference).bind fun name => table.lookup name with
  | some (.item item) => .ok item
  | some (.reference _) =>
    .error (.parse ("$ref " ++ U.debug reference ++ " points at another $ref, which this compiler does not follow"))
  | none => .error (.parse ("$ref " ++ U.debug reference ++ " does not name an entry in components." ++ kind))

/-- `resolve_parameter` and `resolve_response`. -/
def resolveItem {α : Type} (U : SpecUpstream F) (kind : String) (table : List (String × ReferenceOr α)) :
    ReferenceOr α → Except CompileError α
  | .item item => .ok item
  | .reference reference => resolveComponent U reference kind table

/-- `declared_example`. -/
def declaredExample (media : MediaType F) : Option (Value F) :=
  media.exampleValue.or (media.examples.findSome? fun example_ => match example_.2 with
    | .item item => item.value
    | .reference _ => none)

/-- `plan_response`. -/
def planResponse (schemas : SchemaTable F) (fuel : ℕ) (status : StatusKey) (response : Response F) :
    Walk (PlannedResponse F) :=
  match response.content with
  | [] => pure { status, contentType := none, schema := .unconstrained, exampleValue := none }
  | (contentType, media) :: _ => do
    let schema ← match media.schema with
      | some schema => normalize schemas fuel schema
      | none => pure .unconstrained
    return { status, contentType := some contentType, schema, exampleValue := declaredExample media }

/-- The first success, moved to the front. -/
def moveSuccessFirst (responses : List (PlannedResponse F)) : List (PlannedResponse F) :=
  match responses.findIdx? fun planned => planned.status.isSuccess with
  | some index => responses[index]?.toList ++ responses.eraseIdx index
  | none => responses

/-- A response of an operation, resolved and planned. -/
def planOne (U : SpecUpstream F) (components : Components F) (fuel : ℕ)
    (declared : StatusKey × ReferenceOr (Response F)) : Planning (PlannedResponse F) := do
  let response ← resolveItem U "responses" components.responses declared.2
  liftM (planResponse components.schemas fuel declared.1 response)

/-- `plan_responses`. -/
def planResponses (U : SpecUpstream F) (components : Components F) (fuel : ℕ) (operation : Operation F) :
    Planning (List (PlannedResponse F)) := do
  let planned ← (declaredResponses operation).mapM (planOne U components fuel)
  return moveSuccessFirst planned

/-- `synthesize_operation_id`: runs of letters and digits, each after a `_`. -/
def operationIdChars : Bool → List Char → List Char
  | _, [] => []
  | lastWasSeparator, c :: rest =>
    if c.isAlphanum then (if lastWasSeparator then ['_', c] else [c]) ++ operationIdChars false rest
    else operationIdChars true rest

def hexOf (bytes : List UInt8) : List Char := bytes.flatMap fun byte => (hexPadded 2 byte.toNat).toList

def synthesizeOperationId (U : SpecUpstream F) (method : Method) (template : String) : String :=
  method.text.toLower ++ String.ofList (operationIdChars true template.toList) ++ "_" ++
    String.ofList ((hexOf (U.sha256 (method.text ++ " " ++ template).toUTF8.toList)).take 8)

/-- The names of the required parameters of a kind. -/
def requiredNames (kind : ParameterKind) (parameters : List Parameter) : List String :=
  (parameters.filter fun parameter => parameter.kind = kind ∧ parameter.required).map Parameter.name

/-- One operation of `plan_operations`. -/
def planOperation (U : SpecUpstream F) (components : Components F) (fuel : ℕ) (template : String) (item : PathItem F)
    (method : Method) (operation : Operation F) : Planning (Plan F) := do
  let parameters ← liftM ((item.parameters ++ operation.parameters).mapM
    (resolveItem U "parameters" components.parameters))
  let responses ← planResponses U components fuel operation
  return {
    id := operation.operationId.getD (synthesizeOperationId U method template)
    method, template
    path := compilePath U template
    requiredQuery := requiredNames .query parameters
    requiredHeaders := requiredNames .header parameters
    responses }

/-- One path of `plan_operations`. -/
def planPath (U : SpecUpstream F) (components : Components F) (fuel : ℕ) (path : String × ReferenceOr (PathItem F)) :
    Planning (List (Plan F)) :=
  match path.2 with
  | .reference _ =>
    throw (.parse ("path " ++ U.debug path.1 ++ " is declared as a $ref, which this compiler does not resolve"))
  | .item item => (operationsOf item).mapM fun operation =>
      planOperation U components fuel path.1 item operation.1 operation.2

/-- `plan_operations`. -/
def planOperations (U : SpecUpstream F) (api : OpenApi F) (fuel : ℕ) : Planning (List (Plan F)) := do
  let plans ← api.paths.mapM (planPath U api.components fuel)
  return plans.flatten

/-- The order of the plans: `order_key`, from the most specific. -/
def Plan.before (a b : Plan F) : Bool :=
  if a.path.literalSegments ≠ b.path.literalSegments then b.path.literalSegments < a.path.literalSegments
  else if a.path.totalSegments ≠ b.path.totalSegments then b.path.totalSegments < a.path.totalSegments
  else if a.template.utf8ByteSize ≠ b.template.utf8ByteSize then b.template.utf8ByteSize < a.template.utf8ByteSize
  else if a.template ≠ b.template then a.template < b.template
  else decide (a.method.text ≤ b.method.text)

/-- `reject_duplicate_ids`, with the ids that are seen. -/
def rejectDuplicateIds (U : SpecUpstream F) : List String → List (Plan F) → Except CompileError Unit
  | _, [] => .ok ()
  | seen, plan :: rest =>
    if plan.id.toList.contains ':' then
      .error (.parse ("operationId " ++ U.debug plan.id ++
        " contains ':', which would break the spec:<id>:<status> stub-id grammar"))
    else if plan.id ∈ seen then
      .error (.parse ("duplicate operation id " ++ U.debug plan.id ++ ": stub ids would collide"))
    else rejectDuplicateIds U (plan.id :: seen) rest

/-! ## Emitting -/

/-- `Rng::seeded`: the first eight bytes of a digest, the lowest first. -/
def seeded (U : SpecUpstream F) (digest : List UInt8) (operation status : String) : UInt64 :=
  ((U.sha256 (digest ++ operation.toUTF8.toList ++ status.toUTF8.toList)).take 8).foldr
    (fun byte seed => seed * 256 + UInt64.ofNat byte.toNat) 0

/-- `predicates`. -/
def predicates (plan : Plan F) (status : StatusKey) (unconditional : Bool) : List (Value F) :=
  [.object [("equals", .object [("method", .string plan.method.text)])],
    .object [("matches", .object [("path", .string plan.path.regex)]), ("caseSensitive", .bool true)]] ++
  plan.requiredQuery.map (fun name => .object [("exists", .object [("query", .object [(name, .bool true)])])]) ++
  plan.requiredHeaders.map (fun name => .object [("exists", .object [("headers", .object [(name, .bool true)])])]) ++
  if unconditional then [] else
    [.object [("equals", .object [("headers", .object [("X-Rift-Spec-Status", .string status.label)])])]]

/-- The body of a response: its example, or one that is rendered where it has a schema. -/
def bodyOf (U : SpecUpstream F) (plan : Plan F) (digest : List UInt8) (planned : PlannedResponse F) (budget : ℕ) :
    Option (Value F) × ℕ :=
  match planned.exampleValue with
  | some example_ => (some example_, budget)
  | none =>
    if planned.contentType.isSome && !planned.schema.isUnconstrained then
      let (body, budget) := synthesize U.toFloats nextU64 planned.schema
        (seeded U digest plan.id planned.status.label) budget
      (some body, budget)
    else (none, budget)

def stubId (plan : Plan F) (planned : PlannedResponse F) : String :=
  "spec:" ++ plan.id ++ ":" ++ planned.status.label

/-- The stub of a response with a body. -/
def stubOf (plan : Plan F) (planned : PlannedResponse F) (unconditional : Bool) (body : Option (Value F)) : Value F :=
  .object ([("id", .string (stubId plan planned)),
      ("predicates", .array (predicates plan planned.status unconditional))] ++
    (plan.path.routePattern.map fun route => ("routePattern", .string route)).toList ++
    [("responses", .array [.object [("is", .object ([("statusCode", .int planned.status.httpStatus)] ++
      (planned.contentType.map fun contentType =>
        ("headers", Value.object [("Content-Type", .string contentType)])).toList ++
      (body.map fun body => ("body", body)).toList))]])])

/-- The responses of an operation from an index on, with their stubs. -/
def emitFrom (U : SpecUpstream F) (plan : Plan F) (digest : List UInt8) :
    ℕ → List (PlannedResponse F) → ℕ → Except CompileError (List (Value F) × ℕ)
  | _, [], budget => .ok ([], budget)
  | index, planned :: rest, budget =>
    let (body, budget) := bodyOf U plan digest planned budget
    match body.bind fun body => (checkBody U planned.schema body).head? with
    | some violation => .error (.selfCheck plan.id planned.status.label violation.show)
    | none =>
      match emitFrom U plan digest (index + 1) rest budget with
      | .error e => .error e
      | .ok (stubs, budget) => .ok (stubOf plan planned (index = 0) body :: stubs, budget)

structure CompiledOperation (F : Type) where
  id : String
  method : String
  pathTemplate : String
  stubIds : List String
  /-- The status, stub id, media type and schema of each response. -/
  responses : List (StatusKey × String × Option String × SchemaNode F)

/-- The first of a list, put last. -/
def firstLast {α : Type} : List α → List α
  | [] => []
  | first :: rest => rest ++ [first]

/-- `emit`. The unconditional stub is the first of the responses, and the last of the stubs. -/
def emit (U : SpecUpstream F) (digest : List UInt8) (plan : Plan F) (budget : ℕ) :
    Except CompileError ((List (Value F) × CompiledOperation F) × ℕ) :=
  match emitFrom U plan digest 0 plan.responses budget with
  | .error e => .error e
  | .ok (stubs, budget) => .ok ((firstLast stubs,
      { id := plan.id
        method := plan.method.text
        pathTemplate := plan.template
        stubIds := firstLast (plan.responses.map (stubId plan))
        responses := plan.responses.map fun planned =>
          (planned.status, stubId plan planned, planned.contentType, planned.schema) }), budget)

/-- The plans one after another, with what is left of the body budget. -/
def emitAll (U : SpecUpstream F) (digest : List UInt8) :
    List (Plan F) → ℕ → Except CompileError (List (List (Value F) × CompiledOperation F))
  | [], _ => .ok []
  | plan :: rest, budget =>
    match emit U digest plan budget with
    | .error e => .error e
    | .ok (emitted, budget) => (emitAll U digest rest budget).map (emitted :: ·)

mutual

/-- `canonicalize`: the members of every object in the order of their names. -/
def canonicalize : Value F → Value F
  | .object members => .object ((canonicalMembers members).mergeSort fun a b => decide (a.1 ≤ b.1))
  | .array items => .array (canonicalItems items)
  | value => value

def canonicalMembers : List (String × Value F) → List (String × Value F)
  | [] => []
  | (name, value) :: rest => (name, canonicalize value) :: canonicalMembers rest

def canonicalItems : List (Value F) → List (Value F)
  | [] => []
  | item :: rest => canonicalize item :: canonicalItems rest

end

structure CompileOptions where
  port : Option ℕ := none
  name : Option String := none
  maxBytes : ℕ := 4 * 1024 * 1024

structure CompiledSpec (F : Type) where
  imposter : Value F
  operations : List (CompiledOperation F)
  digest : List UInt8

/-- What `compile` does before it plans anything. -/
def readSpec (U : SpecUpstream F) (R : SpecReader F) (options : CompileOptions) (bytes : List UInt8) :
    Except CompileError (OpenApi F) :=
  if options.maxBytes < bytes.length then .error (.tooLarge options.maxBytes)
  else do
    let document ← (R.document bytes).mapError .parse
    requireSupportedVersion document
    validateRefs U document
    validateStatusKeys U document
    (R.api bytes).mapError .parse

/-- What `compile` makes of the plans. -/
def emitSpec (U : SpecUpstream F) (options : CompileOptions) (digest : List UInt8) (plans : List (Plan F)) :
    Except CompileError (CompiledSpec F) := do
  let planned := plans.mergeSort Plan.before
  rejectDuplicateIds U [] planned
  let emitted ← emitAll U digest planned maxBodyNodes
  return {
    imposter := canonicalize (.object (
      (options.port.map fun port => ("port", Value.int port)).toList ++ [("protocol", .string "http")] ++
      (options.name.map fun name => ("name", Value.string name)).toList ++
      [("stubs", .array (emitted.flatMap Prod.fst))]))
    operations := emitted.map Prod.snd
    digest := digest }

/-- `compile`, where it comes back. -/
def compile (U : SpecUpstream F) (R : SpecReader F) (options : CompileOptions) (bytes : List UInt8) (fuel : ℕ) :
    Option (Except CompileError (CompiledSpec F)) :=
  match readSpec U R options bytes with
  | .error e => some (.error e)
  | .ok api => (planOperations U api fuel maxSchemaNodes).map fun planned =>
      planned.1.bind (emitSpec U options (U.sha256 bytes))

/-! ## Closed documents -/

/-- Whole numbers, and one value for all that is not finite. -/
def wholeFloats : Floats (Option ℤ) where
  ofInt := some
  add a b := a.bind fun a => b.map fun b => a + b
  sub a b := a.bind fun a => b.map fun b => a - b
  mul a b := a.bind fun a => b.map fun b => a * b
  div a b := a.bind fun a => b.map fun b => a / b
  max a b := a.bind fun a => b.map fun b => Max.max a b
  round := id
  isFinite := Option.isSome
  eq a b := a.isSome && a = b
  finite_zero := rfl
  eq_self x hx := by simp_all

def wholeUpstream : SpecUpstream (Option ℤ) where
  toFloats := wholeFloats
  display := typeName
  debug := id
  regexEscape := id
  sha256 bytes := bytes

/-- A reader that has read one document. -/
def readerOf (document : Value F) (api : OpenApi F) : SpecReader F where
  document _ := .ok document
  api _ := .ok api

/-- The JSON of a document with one path, whose one response has one schema. -/
def oneResponseJson (schema : Value F) (schemas : List (String × Value F)) : Value F :=
  .object [("components", .object [("schemas", .object schemas)]), ("openapi", .string "3.0.0"),
    ("paths", .object [("/pets", .object [("get", .object [("responses", .object [("200", .object
      [("content", .object [("application/json", .object [("schema", schema)])])])])])])])]

/-- The document that is read from it. -/
def oneResponse (schema : ReferenceOr (Schema F)) (schemas : SchemaTable F) (hschema : refApart schema = true)
    (hschemas : schemas.all (fun entry => refApart entry.2) = true) : OpenApi F where
  paths := [("/pets", .item
    { operation := fun method => if method = .get then
        some { responses := [(.code 200, .item { content := [("application/json", { schema := some schema })] })] }
      else none })]
  components := { schemas }
  schemasApart := hschemas
  responsesApart := rfl
  pathsApart := by simp [pathApart, operationsOf, Method.all, declaredResponses, responseApart, hschema]

end RiftCluster.Spec
