import RiftCluster.Proof.SelfCheck

/-!
# The references that the gate lets through

`validate_refs` resolves the JSON pointer of every `$ref` over the raw document. `follow` looks a
flat name up in `components.schemas`. The two agree on a plain reference: one name under
`#/components/schemas/`, without an escape.

* `RefIn`, `validateRefs_ref`: what the gate has checked of every `$ref` in the document.
* `plain_pointer`, `plain_followed`: a plain reference is looked up where its pointer leads.
* `Meets`, `meets_refIn`: every reference that normalising meets is a `$ref` of the document.
* `resolveAt`, `resolve_eq_resolveAt`: normalising by another way to find a schema, without a
  fallback, is the same where both find the same schemas.
-/

namespace RiftCluster.Spec

variable {F : Type}

/-! ## The gate -/

/-- Some object in the value has the reference as its `$ref`. -/
inductive RefIn (reference : String) : Value F → Prop
  | here {members : List (String × Value F)} (h : members.lookup "$ref" = some (.string reference)) :
      RefIn reference (.object members)
  | member {members : List (String × Value F)} {name : String} {value : Value F} (h : (name, value) ∈ members)
      (hin : RefIn reference value) : RefIn reference (.object members)
  | item {items : List (Value F)} {value : Value F} (h : value ∈ items) (hin : RefIn reference value) :
      RefIn reference (.array items)

variable {U : SpecUpstream F} {root : Value F}

theorem walk_object {members : List (String × Value F)} (h : walk U root (.object members) = .ok ()) :
    (∀ value, members.lookup "$ref" = some value → checkRef U root value = .ok ()) ∧
      walkMembers U root members = .ok () := by
  unfold walk at h
  cases hlookup : members.lookup "$ref" with
  | none =>
    rw [hlookup] at h
    exact ⟨fun value hvalue => (by cases hvalue), h⟩
  | some value =>
    rw [hlookup] at h
    cases hcheck : checkRef U root value with
    | error e =>
      simp only [hcheck] at h
      cases h
    | ok u =>
      simp only [hcheck] at h
      refine ⟨?_, h⟩
      intro value' hvalue'
      cases hvalue'
      exact hcheck

theorem walkMembers_ok {members : List (String × Value F)} (h : walkMembers U root members = .ok ()) :
    ∀ name value, (name, value) ∈ members → walk U root value = .ok () := by
  induction members with
  | nil => intro name value hmem; cases hmem
  | cons first rest ih =>
    obtain ⟨firstName, firstValue⟩ := first
    unfold walkMembers at h
    cases hfirst : walk U root firstValue with
    | error e =>
      simp only [hfirst] at h
      cases h
    | ok u =>
      simp only [hfirst] at h
      intro name value hmem
      rcases List.mem_cons.1 hmem with heq | hmem
      · cases heq
        exact hfirst
      · exact ih h name value hmem

theorem walkItems_ok {items : List (Value F)} (h : walkItems U root items = .ok ()) :
    ∀ value ∈ items, walk U root value = .ok () := by
  induction items with
  | nil => intro value hmem; cases hmem
  | cons first rest ih =>
    unfold walkItems at h
    cases hfirst : walk U root first with
    | error e =>
      simp only [hfirst] at h
      cases h
    | ok u =>
      simp only [hfirst] at h
      intro value hmem
      rcases List.mem_cons.1 hmem with heq | hmem
      · cases heq
        exact hfirst
      · exact ih h value hmem

theorem checkRef_string {reference : String} (h : checkRef U root (.string reference) = .ok ()) :
    (resolvePointer root reference).isSome = true := by
  unfold checkRef at h
  by_cases hhead : reference.toList.head? ≠ some '#'
  · simp only [if_pos hhead] at h
    cases h
  · simp only [if_neg hhead] at h
    cases hpointer : resolvePointer root reference with
    | some value => rfl
    | none =>
      simp only [hpointer, Option.isNone_none, if_true] at h
      cases h

/-- **What the gate has checked of every `$ref`**: its pointer leads to a value. -/
theorem walk_ref {reference : String} {value : Value F} (hin : RefIn reference value)
    (h : walk U root value = .ok ()) : (resolvePointer root reference).isSome = true := by
  induction hin with
  | here hlookup => exact checkRef_string ((walk_object h).1 _ hlookup)
  | member hmem _ ih => exact ih (walkMembers_ok (walk_object h).2 _ _ hmem)
  | item hmem _ ih =>
    unfold walk at h
    exact ih (walkItems_ok h _ hmem)

/-! ## Plain references -/

/-- One name under `#/components/schemas/` that reads as itself in a pointer. -/
def plainRef (reference : String) : Bool :=
  (strip? schemaRoot reference).any fun name => !name.toList.contains '/' && unescapeToken name.toList = name

/-- The entry of `components.schemas` in the raw document. -/
def rawSchema (document : Value F) (name : String) : Option (Value F) :=
  ((document.get? "components").bind fun components => components.get? "schemas").bind fun schemas => schemas.get? name

theorem child_eq_get {value : Value F} {token : String} (h : parseUsize token.toList = none) :
    value.child? token = value.get? token := by
  cases value <;> simp [Value.child?, Value.get?, h]

/-- **The pointer of a plain reference leads to the entry of its name.** -/
theorem plain_pointer {document : Value F} {reference name : String} (hstrip : strip? schemaRoot reference = some name)
    (hplain : plainRef reference = true)
    (hobject : ∀ value, ((document.get? "components").bind fun components => components.get? "schemas") = some value →
      ∃ members, value = .object members) :
    resolvePointer document reference = rawSchema document name := by
  have hname : '/' ∉ name.toList ∧ unescapeToken name.toList = name := by
    simpa [plainRef, hstrip] using hplain
  have hlist : reference.toList =
      '#' :: '/' :: ("components".toList ++ '/' :: ("schemas".toList ++ '/' :: name.toList)) := by
    rw [eq_of_strip hstrip]
    simp [schemaRoot]
  have hsplit : ("components".toList ++ '/' :: ("schemas".toList ++ '/' :: name.toList)).splitOn '/' =
      ["components".toList, "schemas".toList, name.toList] := by
    rw [List.splitOn_append_cons_self_of_not_mem (by decide), List.splitOn_append_cons_self_of_not_mem (by decide),
      List.splitOn_eq_singleton hname.1]
  have hcomponents : unescapeToken "components".toList = "components" := by decide +kernel
  have hschemas : unescapeToken "schemas".toList = "schemas" := by decide +kernel
  have hpointer : resolvePointer document reference =
      (document.child? "components").bind fun components => (components.child? "schemas").bind fun schemas =>
        schemas.child? name := by
    unfold resolvePointer
    rw [hlist]
    simp only [hsplit, List.foldlM_cons, List.foldlM_nil, hcomponents, hschemas, hname.2]
    change ((document.child? "components").bind fun components => (components.child? "schemas").bind fun schemas =>
      (schemas.child? name).bind some) = _
    simp
  rw [hpointer, child_eq_get (by decide +kernel)]
  unfold rawSchema
  rw [Option.bind_assoc]
  cases hcomp : document.get? "components" with
  | none => rfl
  | some components =>
    simp only [Option.bind_some]
    rw [child_eq_get (by decide +kernel)]
    cases htable : components.get? "schemas" with
    | none => rfl
    | some schemas =>
      obtain ⟨members, rfl⟩ := hobject schemas (by rw [hcomp]; exact htable)
      rfl

/-! ## The document as it is read -/

def SchemaKind.children : SchemaKind F → List (ReferenceOr (Schema F))
  | .array items _ => items.toList
  | .object properties _ => properties.map Prod.snd
  | .allOf branches | .oneOf branches | .anyOf branches => branches
  | .boolean | .integer _ _ _ | .number _ _ _ | .string _ _ | .not | .any => []

/-- A reference that a schema holds. -/
inductive HasRef : ReferenceOr (Schema F) → String → Prop
  | here (reference : String) : HasRef (.reference reference) reference
  | child {nullable : Bool} {kind : SchemaKind F} {child : ReferenceOr (Schema F)} {reference : String}
      (hchild : child ∈ kind.children) (h : HasRef child reference) : HasRef (.item (.mk nullable kind)) reference

/-- How `openapiv3` reads a schema: a reference that it holds is a `$ref` of what it is read from. -/
structure SchemaReading (F : Type) where
  read : Value F → Option (ReferenceOr (Schema F))
  refs : ∀ value schema reference, read value = some schema → HasRef schema reference → RefIn reference value

/-- `components.schemas` is an object, and the table has what is read under each name. -/
structure ReadsSchemas (R : SchemaReading F) (document : Value F) (schemas : SchemaTable F) : Prop where
  object : ∀ value, ((document.get? "components").bind fun components => components.get? "schemas") = some value →
    ∃ members, value = .object members
  entry : ∀ name, schemas.lookup name = (rawSchema document name).bind R.read
  readable : ∀ name value, rawSchema document name = some value → ∃ schema, R.read value = some schema

/-- A value inside another. -/
inductive Within (value : Value F) : Value F → Prop
  | here : Within value value
  | member {members : List (String × Value F)} {name : String} {inner : Value F} (h : (name, inner) ∈ members)
      (hin : Within value inner) : Within value (.object members)
  | item {items : List (Value F)} {inner : Value F} (h : inner ∈ items) (hin : Within value inner) :
      Within value (.array items)

theorem RefIn.within {reference : String} {value document : Value F} (h : RefIn reference value)
    (hin : Within value document) : RefIn reference document := by
  induction hin with
  | here => exact h
  | member hmem _ ih => exact .member hmem ih
  | item hmem _ ih => exact .item hmem ih

theorem within_get {value document : Value F} {name : String} (h : document.get? name = some value) :
    Within value document := by
  cases document with
  | object members => exact .member (mem_of_lookup h) .here
  | _ => cases h

theorem Within.trans {value inner document : Value F} (h : Within value inner) (hin : Within inner document) :
    Within value document := by
  induction hin with
  | here => exact h
  | member hmem _ ih => exact .member hmem ih
  | item hmem _ ih => exact .item hmem ih

theorem within_rawSchema {value document : Value F} {name : String} (h : rawSchema document name = some value) :
    Within value document := by
  obtain ⟨schemas, hschemas, hvalue⟩ := Option.bind_eq_some_iff.1 h
  obtain ⟨components, hcomponents, htable⟩ := Option.bind_eq_some_iff.1 hschemas
  exact ((within_get hvalue).trans (within_get htable)).trans (within_get hcomponents)

/-! ## What normalising meets -/

/-- A reference that is met on the way from a schema, through what it holds and what it refers to. -/
inductive Meets (schemas : SchemaTable F) : ReferenceOr (Schema F) → String → Prop
  | here (reference : String) : Meets schemas (.reference reference) reference
  | follow {reference met : String} {target : ReferenceOr (Schema F)} (hlookup : lookup schemas reference = some target)
      (h : Meets schemas target met) : Meets schemas (.reference reference) met
  | child {nullable : Bool} {kind : SchemaKind F} {child : ReferenceOr (Schema F)} {met : String}
      (hchild : child ∈ kind.children) (h : Meets schemas child met) : Meets schemas (.item (.mk nullable kind)) met

variable {R : SchemaReading F} {document : Value F} {schemas : SchemaTable F}

/-- **Every reference that is met is a `$ref` of the document.** -/
theorem meets_refIn (hreads : ReadsSchemas R document schemas) {schema : ReferenceOr (Schema F)} {reference : String}
    (hmeets : Meets schemas schema reference) (hrefs : ∀ r, HasRef schema r → RefIn r document) :
    RefIn reference document := by
  induction hmeets with
  | here reference => exact hrefs reference (.here reference)
  | follow hlookup _ ih =>
    apply ih
    obtain ⟨name, -, hentry⟩ := Option.bind_eq_some_iff.1 hlookup
    rw [hreads.entry] at hentry
    obtain ⟨value, hvalue, hread⟩ := Option.bind_eq_some_iff.1 hentry
    intro r hr
    exact (R.refs value _ r hread hr).within (within_rawSchema hvalue)
  | child hchild _ ih => exact ih fun r hr => hrefs r (.child hchild hr)

/-- The schema that the pointer of a reference leads to. -/
def byPointer (R : SchemaReading F) (document : Value F) (reference : String) : Option (ReferenceOr (Schema F)) :=
  (resolvePointer document reference).bind R.read

/-- **A plain `$ref` that the gate let through is looked up where its pointer leads.** -/
theorem plain_followed (hvalid : validateRefs U document = .ok ()) (hreads : ReadsSchemas R document schemas)
    {reference : String} (hin : RefIn reference document) (hplain : plainRef reference = true) :
    ∃ target, lookup schemas reference = some target ∧ byPointer R document reference = some target := by
  cases hstrip : strip? schemaRoot reference with
  | none => simp [plainRef, hstrip] at hplain
  | some name =>
    have hpointer := plain_pointer hstrip hplain hreads.object
    have hsome := walk_ref hin hvalid
    rw [hpointer, Option.isSome_iff_exists] at hsome
    obtain ⟨value, hvalue⟩ := hsome
    obtain ⟨target, htarget⟩ := hreads.readable name value hvalue
    refine ⟨target, ?_, ?_⟩
    · rw [lookup, hstrip, Option.bind_some, hreads.entry, hvalue]
      exact htarget
    · rw [byPointer, hpointer, hvalue]
      exact htarget

theorem unescapeTilde_plain (c by_ : Char) (text : List Char) (h : '~' ∉ text) : unescapeTilde c by_ text = text := by
  induction text with
  | nil => rfl
  | cons x rest ih =>
    rw [List.mem_cons, not_or] at h
    unfold unescapeTilde
    split
    · rename_i heq
      cases heq
      exact absurd rfl h.1
    · rename_i heq
      cases heq
      rw [ih h.2]
    · rename_i heq
      cases heq

/-- Where no component schema has a slash or a tilde in its name, no other reference is found. -/
theorem lookup_other (hnames : ∀ entry ∈ schemas, '/' ∉ entry.1.toList ∧ '~' ∉ entry.1.toList) {reference : String}
    (hplain : plainRef reference = false) : lookup schemas reference = none := by
  cases hlookup : lookup schemas reference with
  | none => rfl
  | some target =>
    obtain ⟨name, hstrip, hentry⟩ := Option.bind_eq_some_iff.1 hlookup
    obtain ⟨hslash, htilde⟩ := hnames _ (mem_of_lookup hentry)
    have hname : unescapeToken name.toList = name := by
      rw [unescapeToken, unescapeTilde_plain _ _ _ htilde, unescapeTilde_plain _ _ _ htilde, String.ofList_toList]
    simp [plainRef, hstrip, hslash, hname] at hplain

/-! ## Normalising by the pointers -/

mutual

/-- `resolve` with another way to find what a reference is for. -/
def resolveAt (find : String → Option (ReferenceOr (Schema F))) : ℕ → ℕ → ReferenceOr (Schema F) → Walk (SchemaNode F)
  | 0, _, _ => fun _ => none
  | fuel + 1, depth, .reference reference => followAt find fuel depth reference
  | fuel + 1, depth, .item item => normalizeAt find fuel depth item

/-- `follow` without its fallback: a reference that is not found ends the walk. -/
def followAt (find : String → Option (ReferenceOr (Schema F))) : ℕ → ℕ → String → Walk (SchemaNode F)
  | 0, _, _ => fun _ => none
  | fuel + 1, depth, reference =>
    match find reference with
    | none => fun _ => none
    | some target => resolveAt find fuel depth target

def normalizeAt (find : String → Option (ReferenceOr (Schema F))) : ℕ → ℕ → Schema F → Walk (SchemaNode F)
  | 0, _, _ => fun _ => none
  | fuel + 1, depth, .mk nullable kind => fun budget =>
    if maxDepth ≤ depth ∨ budget = 0 then some (.unconstrained, budget)
    else normalizeKind (resolveAt find fuel) depth nullable kind (budget - 1)

end

theorem visitAll_congr {α β : Type} {visit visit' : α → Walk β} {children : List α}
    (h : ∀ child ∈ children, visit child = visit' child) : visitAll visit children = visitAll visit' children := by
  induction children with
  | nil => rfl
  | cons child rest ih =>
    unfold visitAll
    rw [h child List.mem_cons_self, ih fun c hc => h c (List.mem_cons_of_mem _ hc)]

theorem normalizeKind_congr (resolve resolve' : ℕ → ReferenceOr (Schema F) → Walk (SchemaNode F)) (kind : SchemaKind F)
    (h : ∀ child ∈ kind.children, ∀ depth, resolve depth child = resolve' depth child) (depth : ℕ) (nullable : Bool) :
    normalizeKind resolve depth nullable kind = normalizeKind resolve' depth nullable kind := by
  cases kind with
  | array items minItems =>
    cases items with
    | none => rfl
    | some items =>
      simp only [normalizeKind, h items (by simp [SchemaKind.children]) (depth + 1)]
  | object properties required =>
    have hvisit : visitAll (fun property : String × ReferenceOr (Schema F) => do
          return (property.1, ← resolve (depth + 1) property.2)) properties =
        visitAll (fun property => do return (property.1, ← resolve' (depth + 1) property.2)) properties := by
      refine visitAll_congr fun property hproperty => ?_
      rw [h property.2 (List.mem_map_of_mem hproperty) (depth + 1)]
    simp only [normalizeKind, hvisit]
  | allOf branches =>
    have hvisit := visitAll_congr fun branch hbranch => h branch hbranch depth
    simp only [SchemaKind.children] at hvisit
    simp only [normalizeKind, mergeAllOf, hvisit]
  | oneOf branches =>
    cases branches with
    | nil => rfl
    | cons branch rest => simp only [normalizeKind, firstBranch, h branch List.mem_cons_self depth]
  | anyOf branches =>
    cases branches with
    | nil => rfl
    | cons branch rest => simp only [normalizeKind, firstBranch, h branch List.mem_cons_self depth]
  | boolean => rfl
  | integer minimum maximum enumeration => rfl
  | number minimum maximum enumeration => rfl
  | string format enumeration => rfl
  | not => rfl
  | any => rfl

/-- **Two ways to find schemas that agree on every reference that is met normalise alike**, and the
fallback of `follow` is not used. The induction is on the fuel. -/
theorem resolve_eq_resolveAt {find : String → Option (ReferenceOr (Schema F))} (fuel : ℕ) :
    ∀ depth schema, (∀ r, Meets schemas schema r → ∃ target, lookup schemas r = some target ∧ find r = some target) →
      resolve schemas fuel depth schema = resolveAt find fuel depth schema := by
  induction fuel using Nat.strong_induction_on with
  | _ fuel ih =>
    intro depth schema hagree
    match fuel, schema with
    | 0, schema => simp only [resolve, resolveAt]
    | 1, .reference reference => simp only [resolve, resolveAt, follow, followAt]
    | 1, .item item => simp only [resolve, resolveAt, normalizeSchema, normalizeAt]
    | fuel + 2, .reference reference =>
      obtain ⟨target, hlookup, hfind⟩ := hagree reference (.here reference)
      simp only [resolve, resolveAt, follow, followAt, hlookup, hfind]
      exact ih fuel (by omega) depth target fun r hr => hagree r (.follow hlookup hr)
    | fuel + 2, .item (.mk nullable kind) =>
      have hkind := normalizeKind_congr (resolve schemas fuel) (resolveAt find fuel) kind
        (fun child hchild depth => ih fuel (by omega) depth child fun r hr => hagree r (.child hchild hr))
      simp only [resolve, resolveAt, normalizeSchema, normalizeAt, hkind]

/-- Reads references and booleans, and takes any other value for a schema that constrains nothing. -/
def boolReading : SchemaReading (Option ℤ) where
  read value :=
    match value.get? "$ref" with
    | some (.string reference) => some (.reference reference)
    | some _ => none
    | none => some (.item (.mk false (if (value.get? "type").bind Value.asStr? = some "boolean" then .boolean else .any)))
  refs := by
    intro value schema reference hread href
    cases hvalue : value.get? "$ref" with
    | none =>
      simp only [hvalue] at hread
      cases hread
      cases href with
      | child hchild =>
        split at hchild <;> cases hchild
    | some inner =>
      simp only [hvalue] at hread
      cases inner with
      | string text =>
        cases hread
        cases href
        cases value with
        | object members => exact .here hvalue
        | _ => cases hvalue
      | _ => cases hread

theorem reads_single {name : String} {value : Value (Option ℤ)} {schema : ReferenceOr (Schema (Option ℤ))}
    (response : Value (Option ℤ)) (h : boolReading.read value = some schema) :
    ReadsSchemas boolReading (oneResponseJson response [(name, value)]) [(name, schema)] := by
  have hraw : ∀ wanted, rawSchema (oneResponseJson response [(name, value)]) wanted = [(name, value)].lookup wanted :=
    fun wanted => rfl
  refine ⟨?_, ?_, ?_⟩
  · intro table htable
    cases htable
    exact ⟨_, rfl⟩
  · intro wanted
    rw [hraw]
    by_cases hname : wanted = name
    · simp [hname, h]
    · simp [List.lookup_cons, beq_false_of_ne hname]
  · intro wanted found hfound
    rw [hraw] at hfound
    have hmem := mem_of_lookup hfound
    rw [List.mem_singleton] at hmem
    cases hmem
    exact ⟨schema, h⟩

/-- A response whose schema is the one reference, and the one component schema. -/
def refDocument (reference name : String) (value : Value (Option ℤ)) : Value (Option ℤ) :=
  oneResponseJson (.object [("$ref", .string reference)]) [(name, value)]

theorem within_path {value : Value F} (path : List String) :
    ∀ {document : Value F}, path.foldlM (fun current name => current.get? name) document = some value →
      Within value document := by
  induction path with
  | nil =>
    intro document h
    cases h
    exact .here
  | cons name rest ih =>
    intro document h
    obtain ⟨inner, hinner, hrest⟩ := Option.bind_eq_some_iff.1 h
    exact (ih hrest).trans (within_get hinner)

theorem within_response (reference name : String) (value : Value (Option ℤ)) :
    Within (.object [("$ref", .string reference)]) (refDocument reference name value) :=
  within_path ["paths", "/pets", "get", "responses", "200", "content", "application/json", "schema"] rfl

def oneEntry (name : String) (kind : SchemaKind (Option ℤ)) : SchemaTable (Option ℤ) := [(name, .item (.mk false kind))]

def plainPet : Value (Option ℤ) :=
  refDocument "#/components/schemas/Pet" "Pet" (.object [("type", .string "boolean")])

/-- The schema's name has a slash, which its reference escapes. -/
def slashPet : Value (Option ℤ) :=
  refDocument "#/components/schemas/a~1b" "a/b" (.object [("type", .string "boolean")])

/-- The reference leads to the schema of an array's items. -/
def itemsPet : Value (Option ℤ) :=
  refDocument "#/components/schemas/Pets/items" "Pets"
    (.object [("items", .object [("type", .string "boolean")]), ("type", .string "array")])

end RiftCluster.Spec
