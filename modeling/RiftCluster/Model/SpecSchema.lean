import Mathlib

/-!
# The response schemas of a compiled spec

`schema.rs` of `rift-cluster-spec`: a schema of an OpenAPI document is resolved and flattened
into a `SchemaNode`, which synthesis and validation both read. A schema refers to others
through `components.schemas`. `normalizeSchema` bounds the depth and the number of nodes;
`follow` only follows. So that the three functions are total here, each call takes a unit of
fuel, and `none` is a walk that did not come back.

The numbers of a schema are in a type `F`, the `f64` of the source. The maps of a document
are lists of members with distinct names; `Schema.apart` says so of the properties.
-/

namespace RiftCluster.Spec

variable {F : Type}

/-! ## The document's side -/

/-- An `i64`. -/
abbrev I64 := { n : ℤ // -2 ^ 63 ≤ n ∧ n < 2 ^ 63 }

/-- `openapiv3::ReferenceOr`. -/
inductive ReferenceOr (α : Type) where
  | reference (reference : String)
  | item (item : α)

/-- The `format` of a string type, as `openapiv3` reads it. -/
inductive StringFormat where
  | empty
  | date
  | dateTime
  | password
  | byte
  | binary
  | unknown (name : String)
  deriving DecidableEq, Repr

mutual

/-- `openapiv3::Schema`, with what the compiler reads of it. -/
inductive Schema (F : Type) where
  | mk (nullable : Bool) (kind : SchemaKind F)

inductive SchemaKind (F : Type) where
  | boolean
  | integer (minimum maximum : Option I64) (enumeration : List (Option I64))
  | number (minimum maximum : Option F) (enumeration : List (Option F))
  | string (format : StringFormat) (enumeration : List (Option String))
  | array (items : Option (ReferenceOr (Schema F))) (minItems : Option ℕ)
  | object (properties : List (String × ReferenceOr (Schema F))) (required : List String)
  | allOf (branches : List (ReferenceOr (Schema F)))
  | oneOf (branches : List (ReferenceOr (Schema F)))
  | anyOf (branches : List (ReferenceOr (Schema F)))
  | not
  | any

end

mutual

/-- No object names a property twice. -/
def Schema.apart : Schema F → Bool
  | .mk _ kind => kind.apart

def SchemaKind.apart : SchemaKind F → Bool
  | .array (some items) _ => refApart items
  | .object properties _ => decide (properties.map Prod.fst).Nodup && propertiesApart properties
  | .allOf branches | .oneOf branches | .anyOf branches => branchesApart branches
  | _ => true

def refApart : ReferenceOr (Schema F) → Bool
  | .reference _ => true
  | .item item => item.apart

def branchesApart : List (ReferenceOr (Schema F)) → Bool
  | [] => true
  | branch :: rest => refApart branch && branchesApart rest

def propertiesApart : List (String × ReferenceOr (Schema F)) → Bool
  | [] => true
  | (_, schema) :: rest => refApart schema && propertiesApart rest

end

/-- `components.schemas`, in the order of the document. -/
abbrev SchemaTable (F : Type) := List (String × ReferenceOr (Schema F))

/-! ## The compiler's side -/

inductive TextFormat where
  | plain
  | date
  | dateTime
  | uuid
  | email
  | byte
  deriving DecidableEq, Repr

mutual

/-- A response schema reduced to what synthesis and validation need. -/
inductive SchemaNode (F : Type) where
  | mk (nullable : Bool) (shape : SchemaShape F)

inductive SchemaShape (F : Type) where
  /-- No schema, an unresolvable reference, or the depth or budget floor. -/
  | unconstrained
  | boolean
  | integer (minimum maximum : Option I64) (enumeration : List I64)
  | number (minimum maximum : Option F) (enumeration : List F)
  | text (format : TextFormat) (enumeration : List String)
  | array (items : SchemaNode F) (minItems : ℕ)
  /-- In the order of their declaration. -/
  | object (properties : List (String × SchemaNode F)) (required : List String)

end

namespace SchemaNode

def nullable : SchemaNode F → Bool
  | .mk nullable _ => nullable

def shape : SchemaNode F → SchemaShape F
  | .mk _ shape => shape

/-- `SchemaNode::unconstrained`. -/
def unconstrained : SchemaNode F := .mk false .unconstrained

def isUnconstrained : SchemaNode F → Bool
  | .mk _ .unconstrained => true
  | _ => false

/-- `node.nullable |= nullable`. -/
def orNullable (node : SchemaNode F) (nullable : Bool) : SchemaNode F := .mk (node.nullable || nullable) node.shape

end SchemaNode

/-- The recursion floor. -/
def maxDepth : ℕ := 8

/-- `MAX_SCHEMA_NODES`: what the normalised schemas of a document may have in all. -/
def maxSchemaNodes : ℕ := 200000

/-- `text_format`. -/
def textFormat : StringFormat → TextFormat
  | .date => .date
  | .dateTime => .dateTime
  | .byte => .byte
  | .unknown name =>
    if name = "uuid" then .uuid
    else if name = "email" then .email
    else if name = "date" then .date
    else if name = "date-time" then .dateTime
    else .plain
  | _ => .plain

/-! ## Normalising -/

/-- A walk over schemas: it lowers the node budget, and may not come back. -/
abbrev Walk := StateT ℕ Option

/-- `strip_prefix`. -/
def strip? (head text : String) : Option String :=
  if head.toList.isPrefixOf text.toList then some (String.ofList (text.toList.drop head.toList.length)) else none

def schemaRoot : String := "#/components/schemas/"

/-- The entry that `follow` reads for a reference. -/
def lookup (schemas : SchemaTable F) (reference : String) : Option (ReferenceOr (Schema F)) :=
  (strip? schemaRoot reference).bind fun name => schemas.lookup name

/-- The children of a node, one after another. -/
def visitAll {α β : Type} (visit : α → Walk β) : List α → Walk (List β)
  | [] => pure []
  | child :: rest => do
    let node ← visit child
    let nodes ← visitAll visit rest
    return node :: nodes

/-- `first_branch`. -/
def firstBranch (visit : ReferenceOr (Schema F) → Walk (SchemaNode F)) (branches : List (ReferenceOr (Schema F)))
    (nullable : Bool) : Walk (SchemaNode F) :=
  match branches with
  | [] => pure .unconstrained
  | branch :: _ => do
    let node ← visit branch
    return node.orNullable nullable

/-- What `merge_all_of` has gathered. -/
structure Merged (F : Type) where
  properties : List (String × SchemaNode F) := []
  required : List String := []
  sawObject : Bool := false
  fallback : SchemaNode F := .unconstrained

/-- A property that is declared again takes the new value, in the old place. -/
def putProperty (properties : List (String × SchemaNode F)) (property : String × SchemaNode F) :
    List (String × SchemaNode F) :=
  if property.1 ∈ properties.map Prod.fst then
    properties.map fun old => if old.1 = property.1 then property else old
  else properties ++ [property]

def putRequired (required : List String) (name : String) : List String :=
  if name ∈ required then required else required ++ [name]

/-- One branch of an `allOf`. -/
def Merged.add (merged : Merged F) (node : SchemaNode F) : Merged F :=
  match node.shape with
  | .object properties required =>
    { merged with
      sawObject := true
      properties := properties.foldl putProperty merged.properties
      required := required.foldl putRequired merged.required }
  | _ => if merged.fallback.isUnconstrained then { merged with fallback := node } else merged

def Merged.node (merged : Merged F) (nullable : Bool) : SchemaNode F :=
  if merged.sawObject then .mk nullable (.object merged.properties merged.required)
  else merged.fallback.orNullable nullable

/-- `merge_all_of`. -/
def mergeAllOf (visit : ReferenceOr (Schema F) → Walk (SchemaNode F)) (branches : List (ReferenceOr (Schema F)))
    (nullable : Bool) : Walk (SchemaNode F) := do
  let nodes ← visitAll visit branches
  return (nodes.foldl Merged.add {}).node nullable

/-- The schema of a node whose depth and budget are checked. `resolve` is called at a depth. -/
def normalizeKind (resolve : ℕ → ReferenceOr (Schema F) → Walk (SchemaNode F)) (depth : ℕ) (nullable : Bool) :
    SchemaKind F → Walk (SchemaNode F)
  | .boolean => pure (.mk nullable .boolean)
  | .integer minimum maximum enumeration =>
    pure (.mk nullable (.integer minimum maximum (enumeration.filterMap id)))
  | .number minimum maximum enumeration =>
    pure (.mk nullable (.number minimum maximum (enumeration.filterMap id)))
  | .string format enumeration => pure (.mk nullable (.text (textFormat format) (enumeration.filterMap id)))
  | .array items minItems => do
    let node ← match items with
      | some items => resolve (depth + 1) items
      | none => pure .unconstrained
    return .mk nullable (.array node (minItems.getD 1))
  | .object properties required => do
    let nodes ← visitAll (fun property => do return (property.1, ← resolve (depth + 1) property.2)) properties
    return .mk nullable (.object nodes required)
  -- a composed schema is no deeper than the one that composes it
  | .allOf branches => mergeAllOf (resolve depth) branches nullable
  | .oneOf branches | .anyOf branches => firstBranch (resolve depth) branches nullable
  | .not | .any => pure (.mk nullable .unconstrained)

mutual

/-- `resolve`. -/
def resolve (schemas : SchemaTable F) : ℕ → ℕ → ReferenceOr (Schema F) → Walk (SchemaNode F)
  | 0, _, _ => fun _ => none
  | fuel + 1, depth, .reference reference => follow schemas fuel depth reference
  | fuel + 1, depth, .item item => normalizeSchema schemas fuel depth item

/-- `follow`. -/
def follow (schemas : SchemaTable F) : ℕ → ℕ → String → Walk (SchemaNode F)
  | 0, _, _ => fun _ => none
  | fuel + 1, depth, reference =>
    match lookup schemas reference with
    | none => pure .unconstrained
    | some target => resolve schemas fuel depth target

/-- `normalize_schema`. -/
def normalizeSchema (schemas : SchemaTable F) : ℕ → ℕ → Schema F → Walk (SchemaNode F)
  | 0, _, _ => fun _ => none
  | fuel + 1, depth, .mk nullable kind => fun budget =>
    if maxDepth ≤ depth ∨ budget = 0 then some (.unconstrained, budget)
    else normalizeKind (resolve schemas fuel) depth nullable kind (budget - 1)

end

/-- `normalize`, with `components.schemas` empty where the document has no components. -/
def normalize (schemas : SchemaTable F) (fuel : ℕ) (schema : ReferenceOr (Schema F)) : Walk (SchemaNode F) :=
  resolve schemas fuel 0 schema

end RiftCluster.Spec
