import RiftCluster.Proof.SpecBody
import RiftCluster.Proof.SpecWalk

/-!
# The compiler's self-check

A body is rendered for every response that has a schema, and checked against it; the bodies of
a document share one budget, in the order in which the operations are emitted.

* `resolve_apart`, `planOperations_apart`: the schemas that are planned name no property twice.
* `emitSpec_passes`: where every body fits what is left of the budget at its turn, no
  self-check fails.
* `self_check_passes_iff`: the bodies that pass with every stream are those that fit.
-/

namespace RiftCluster.Spec

variable {F : Type}

/-! ## Normalised schemas name no property twice -/

section Apart

variable {schemas : SchemaTable F}

theorem mem_of_lookup {α : Type} {table : List (String × α)} {name : String} {entry : α}
    (h : table.lookup name = some entry) : (name, entry) ∈ table := by
  obtain ⟨before, after, heq, -⟩ := List.lookup_eq_some_iff.1 h
  rw [heq]
  exact List.mem_append_right _ List.mem_cons_self

theorem nodesApart_iff {properties : List (String × SchemaNode F)} :
    nodesApart properties = true ↔ ∀ property ∈ properties, property.2.apart = true := by
  induction properties with
  | nil => simp [nodesApart]
  | cons property rest ih => simp [nodesApart, ih]

theorem propertiesApart_iff {properties : List (String × ReferenceOr (Schema F))} :
    propertiesApart properties = true ↔ ∀ property ∈ properties, refApart property.2 = true := by
  induction properties with
  | nil => simp [propertiesApart]
  | cons property rest ih => simp [propertiesApart, ih]

theorem branchesApart_iff {branches : List (ReferenceOr (Schema F))} :
    branchesApart branches = true ↔ ∀ branch ∈ branches, refApart branch = true := by
  induction branches with
  | nil => simp [branchesApart]
  | cons branch rest ih => simp [branchesApart, ih]

/-- What `merge_all_of` has gathered, with distinct names. -/
structure MergedOk (merged : Merged F) : Prop where
  names : (merged.properties.map Prod.fst).Nodup
  properties : ∀ property ∈ merged.properties, property.2.apart = true
  fallback : merged.fallback.apart = true

theorem putProperty_ok {properties : List (String × SchemaNode F)} {property : String × SchemaNode F}
    (hnodup : (properties.map Prod.fst).Nodup) (hall : ∀ old ∈ properties, old.2.apart = true)
    (hnew : property.2.apart = true) :
    ((putProperty properties property).map Prod.fst).Nodup ∧
      ∀ old ∈ putProperty properties property, old.2.apart = true := by
  unfold putProperty
  split
  · have hnames : (properties.map fun old => if old.1 = property.1 then property else old).map Prod.fst =
        properties.map Prod.fst := by
      rw [List.map_map]
      refine List.map_congr_left fun old _ => ?_
      simp only [Function.comp]
      split
      · rename_i heq; exact heq.symm
      · rfl
    rw [hnames]
    refine ⟨hnodup, fun old hmem => ?_⟩
    obtain ⟨old', hmem', rfl⟩ := List.mem_map.1 hmem
    split
    · exact hnew
    · exact hall old' hmem'
  · rename_i hname
    rw [List.map_append, List.map_singleton]
    refine ⟨hnodup.append (List.nodup_singleton _) ?_, fun old hmem => ?_⟩
    · intro name hold hsingle
      cases List.mem_singleton.1 hsingle
      exact hname hold
    · rcases List.mem_append.1 hmem with hmem | hmem
      · exact hall old hmem
      · cases List.mem_singleton.1 hmem; exact hnew

theorem foldl_putProperty_ok (added : List (String × SchemaNode F)) (hadded : ∀ new ∈ added, new.2.apart = true) :
    ∀ properties : List (String × SchemaNode F), (properties.map Prod.fst).Nodup →
      (∀ old ∈ properties, old.2.apart = true) →
      ((added.foldl putProperty properties).map Prod.fst).Nodup ∧
        ∀ old ∈ added.foldl putProperty properties, old.2.apart = true := by
  induction added with
  | nil => exact fun properties hnodup hall => ⟨hnodup, hall⟩
  | cons new rest ih =>
    intro properties hnodup hall
    obtain ⟨hnodup', hall'⟩ := putProperty_ok hnodup hall (hadded new List.mem_cons_self)
    exact ih (fun new hmem => hadded new (List.mem_cons_of_mem _ hmem)) _ hnodup' hall'

theorem MergedOk.add {merged : Merged F} (h : MergedOk merged) {node : SchemaNode F} (hnode : node.apart = true) :
    MergedOk (merged.add node) := by
  obtain ⟨nullable, shape⟩ := node
  cases shape with
  | object properties required =>
    simp only [SchemaNode.apart, SchemaShape.apart, Bool.and_eq_true] at hnode
    obtain ⟨hnodup, hall⟩ := foldl_putProperty_ok properties (nodesApart_iff.1 hnode.2) merged.properties h.names h.properties
    exact ⟨hnodup, hall, h.fallback⟩
  | _ =>
    simp only [Merged.add, SchemaNode.shape]
    split
    · exact ⟨h.names, h.properties, hnode⟩
    · exact h

theorem mergedOk_foldl (nodes : List (SchemaNode F)) (hnodes : ∀ node ∈ nodes, node.apart = true) :
    ∀ merged, MergedOk merged → MergedOk (nodes.foldl Merged.add merged) := by
  induction nodes with
  | nil => exact fun _ h => h
  | cons node rest ih =>
    intro merged h
    exact ih (fun node hmem => hnodes node (List.mem_cons_of_mem _ hmem)) _ (h.add (hnodes node List.mem_cons_self))

theorem apart_orNullable {node : SchemaNode F} (h : node.apart = true) (nullable : Bool) :
    (node.orNullable nullable).apart = true := by
  obtain ⟨_, shape⟩ := node
  exact h

theorem MergedOk.node {merged : Merged F} (h : MergedOk merged) (nullable : Bool) :
    (merged.node nullable).apart = true := by
  unfold Merged.node
  split
  · simp only [SchemaNode.apart, SchemaShape.apart, Bool.and_eq_true, decide_eq_true_eq]
    exact ⟨h.names, nodesApart_iff.2 h.properties⟩
  · exact apart_orNullable h.fallback nullable

theorem forall_of_forall₂ {α β : Type} {P : β → Prop} {l : List α} {l' : List β} (h : List.Forall₂ (fun _ b => P b) l l') :
    ∀ b ∈ l', P b := by
  induction h with
  | nil => exact fun _ hmem => nomatch hmem
  | cons hb _ ih => exact List.forall_mem_cons.2 ⟨hb, ih⟩

theorem normalizeKind_apart {resolve : ℕ → ReferenceOr (Schema F) → Walk (SchemaNode F)}
    (hresolve : ∀ depth schema, refApart schema = true → Yields (resolve depth schema) (·.apart = true)) (depth : ℕ)
    (nullable : Bool) (kind : SchemaKind F) (hkind : kind.apart = true) :
    Yields (normalizeKind resolve depth nullable kind) (·.apart = true) := by
  have hfirst : ∀ branches, branchesApart branches = true →
      Yields (firstBranch (resolve depth) branches nullable) (·.apart = true) := by
    intro branches hbranches
    cases branches with
    | nil => exact yields_pure rfl
    | cons branch rest =>
      refine (hresolve depth branch (branchesApart_iff.1 hbranches branch List.mem_cons_self)).bind fun node hnode => ?_
      exact yields_pure (apart_orNullable hnode nullable)
  cases kind with
  | boolean | integer _ _ _ | number _ _ _ | string _ _ | not | any => exact yields_pure rfl
  | array items minItems =>
    cases items with
    | none => exact yields_pure rfl
    | some items => exact (hresolve (depth + 1) items hkind).bind fun node hnode => yields_pure hnode
  | object properties required =>
    simp only [SchemaKind.apart, Bool.and_eq_true, decide_eq_true_eq] at hkind
    refine (yields_visitAll (R := fun property node => node.1 = property.1 ∧ node.2.apart = true) properties ?_).bind ?_
    · intro property hmem
      refine (hresolve (depth + 1) property.2 (propertiesApart_iff.1 hkind.2 property hmem)).bind fun node hnode => ?_
      exact yields_pure ⟨rfl, hnode⟩
    · intro nodes hnodes
      refine yields_pure ?_
      have hnames : nodes.map Prod.fst = properties.map Prod.fst := by
        have heq := hnodes.imp (fun property node h => h.1.symm)
        exact (List.forall₂_eq_eq_eq ▸ (List.forall₂_map_left_iff.2 (List.forall₂_map_right_iff.2 heq)) :
          properties.map Prod.fst = nodes.map Prod.fst).symm
      simp only [SchemaNode.apart, SchemaShape.apart, Bool.and_eq_true, decide_eq_true_eq, hnames]
      exact ⟨hkind.1, nodesApart_iff.2 (forall_of_forall₂ (hnodes.imp fun _ _ h => h.2))⟩
  | allOf branches =>
    refine (yields_visitAll (R := fun _ node => node.apart = true) branches fun branch hmem => ?_).bind ?_
    · exact hresolve depth branch (branchesApart_iff.1 hkind branch hmem)
    · intro nodes hnodes
      have hok : MergedOk ({} : Merged F) := ⟨List.nodup_nil, fun _ hmem => (nomatch hmem), rfl⟩
      exact yields_pure ((mergedOk_foldl nodes (forall_of_forall₂ hnodes) {} hok).node nullable)
  | oneOf branches | anyOf branches => exact hfirst branches hkind

/-- **A normalised schema names no property twice.** -/
theorem resolve_apart (hschemas : ∀ entry ∈ schemas, refApart entry.2 = true) (fuel : ℕ) : ∀ depth,
    (∀ schema, refApart schema = true → Yields (resolve schemas fuel depth schema) (·.apart = true)) ∧
      (∀ reference, Yields (follow schemas fuel depth reference) (·.apart = true)) ∧
      ∀ schema, schema.apart = true → Yields (normalizeSchema schemas fuel depth schema) (·.apart = true) := by
  induction fuel with
  | zero => exact fun depth => ⟨fun _ _ _ _ h => (nomatch h), fun _ _ _ h => (nomatch h), fun _ _ _ _ h => (nomatch h)⟩
  | succ fuel ih =>
    intro depth
    refine ⟨fun schema hschema => ?_, fun reference => ?_, fun schema hschema => ?_⟩
    · cases schema with
      | reference reference => exact (ih depth).2.1 reference
      | item item => exact (ih depth).2.2 item hschema
    · simp only [follow]
      cases hlookup : lookup schemas reference with
      | none => exact yields_pure rfl
      | some target =>
        obtain ⟨name, -, hentry⟩ := Option.bind_eq_some_iff.1 hlookup
        exact (ih depth).1 target (hschemas (name, target) (mem_of_lookup hentry))
    · obtain ⟨nullable, kind⟩ := schema
      intro budget result hresult
      simp only [normalizeSchema] at hresult
      split at hresult
      · cases hresult; rfl
      · exact normalizeKind_apart (fun depth => (ih depth).1) depth nullable kind hschema _ result hresult

end Apart

/-! ## Planned responses -/

section Planned

variable {U : SpecUpstream F}

theorem resolveItem_apart {components : Components F}
    (hcomponents : ∀ entry ∈ components.responses, responseApart entry.2 = true) {declared : ReferenceOr (Response F)}
    (hdeclared : responseApart declared = true) {response : Response F}
    (h : resolveItem U "responses" components.responses declared = .ok response) :
    responseApart (.item response) = true := by
  cases declared with
  | item item => cases h; exact hdeclared
  | reference reference =>
    simp only [resolveItem, resolveComponent] at h
    split at h
    · rename_i hlookup
      cases h
      obtain ⟨name, -, hentry⟩ := Option.bind_eq_some_iff.1 hlookup
      exact hcomponents _ (mem_of_lookup hentry)
    · cases h
    · cases h

theorem planResponse_apart {schemas : SchemaTable F} (hschemas : ∀ entry ∈ schemas, refApart entry.2 = true) (fuel : ℕ)
    (status : StatusKey) {response : Response F} (hresponse : responseApart (.item response) = true) :
    Yields (planResponse schemas fuel status response) (·.schema.apart = true) := by
  unfold planResponse
  cases hcontent : response.content with
  | nil => exact yields_pure rfl
  | cons first rest =>
    obtain ⟨contentType, media⟩ := first
    simp only [responseApart, hcontent, List.all_cons, Bool.and_eq_true] at hresponse
    cases hschema : media.schema with
    | none => simp only [hschema]; exact yields_pure rfl
    | some schema =>
      simp only [hschema]
      have hapart : refApart schema = true := by simpa [hschema] using hresponse.1
      exact ((resolve_apart hschemas fuel 0).1 schema hapart).bind fun node hnode => yields_pure hnode

theorem mem_of_mem_moveSuccessFirst {responses : List (PlannedResponse F)} {planned : PlannedResponse F}
    (h : planned ∈ moveSuccessFirst responses) : planned ∈ responses := by
  unfold moveSuccessFirst at h
  split at h
  · rcases List.mem_append.1 h with h | h
    · exact List.mem_of_getElem? (Option.mem_toList.1 h)
    · exact List.mem_of_mem_eraseIdx h
  · exact h

/-- **The schemas that are planned name no property twice.** -/
theorem planOperations_apart (api : OpenApi F) (fuel : ℕ) : PlanYields (planOperations U api fuel) fun plans =>
    ∀ plan ∈ plans, ∀ planned ∈ plan.responses, planned.schema.apart = true := by
  have hschemas := List.all_eq_true.1 api.schemasApart
  have hcomponents := List.all_eq_true.1 api.responsesApart
  have hone : ∀ declared : StatusKey × ReferenceOr (Response F), responseApart declared.2 = true →
      PlanYields (planOne U api.components fuel declared) (·.schema.apart = true) := by
    intro declared hdeclared
    refine (planYields_of_except fun response h => resolveItem_apart hcomponents hdeclared h).bind fun response h => ?_
    exact planYields_liftM (planResponse_apart hschemas fuel declared.1 h)
  have hoperation : ∀ template item method (operation : Operation F),
      (∀ declared ∈ declaredResponses operation, responseApart declared.2 = true) →
      PlanYields (planOperation U api.components fuel template item method operation) fun plan =>
        ∀ planned ∈ plan.responses, planned.schema.apart = true := by
    intro template item method operation hdeclared
    refine PlanYields.bind (P := fun _ => True) (planYields_of_except fun _ _ => trivial) fun parameters _ => ?_
    refine PlanYields.bind (P := fun responses => ∀ planned ∈ responses, planned.schema.apart = true) ?_ ?_
    · refine (planYields_mapM _ fun declared hmem => hone declared (hdeclared declared hmem)).bind fun responses h => ?_
      refine planYields_of_except fun _ heq => ?_
      cases heq
      exact fun planned hmem => h planned (mem_of_mem_moveSuccessFirst hmem)
    · intro responses h
      refine planYields_of_except fun _ heq => ?_
      cases heq
      exact h
  have hpath : ∀ path ∈ api.paths, PlanYields (planPath U api.components fuel path) fun plans =>
      ∀ plan ∈ plans, ∀ planned ∈ plan.responses, planned.schema.apart = true := by
    rintro ⟨template, item⟩ hmem
    have hapart := List.all_eq_true.1 api.pathsApart _ hmem
    cases item with
    | reference reference => exact planYields_of_except fun _ h => nomatch h
    | item item =>
      refine planYields_mapM (operationsOf item) fun operation hmem => ?_
      exact hoperation template item operation.1 operation.2
        (List.all_eq_true.1 (List.all_eq_true.1 hapart operation hmem))
  refine (planYields_mapM api.paths hpath).bind fun plans hplans => ?_
  refine planYields_of_except fun _ heq => ?_
  cases heq
  intro plan hmem
  obtain ⟨group, hgroup, hmem⟩ := List.mem_flatten.1 hmem
  exact hplans group hgroup plan hmem

end Planned

/-! ## Emitting -/

section Emitting

variable {U : SpecUpstream F}

/-- A body is rendered for the response. -/
def PlannedResponse.rendered (planned : PlannedResponse F) : Bool :=
  planned.contentType.isSome && !planned.schema.isUnconstrained

/-- The bodies of some responses fit, one after another, what is left of a budget. -/
def fitsResponses (L : Floats F) : List (PlannedResponse F) → ℕ → Bool
  | [], _ => true
  | planned :: rest, budget =>
    if planned.rendered then planned.schema.fits L budget && fitsResponses L rest (planned.schema.left budget)
    else fitsResponses L rest budget

/-- What they leave of it. -/
def leftResponses : List (PlannedResponse F) → ℕ → ℕ
  | [], budget => budget
  | planned :: rest, budget => leftResponses rest (if planned.rendered then planned.schema.left budget else budget)

theorem fitsResponses_append {L : Floats F} (responses responses' : List (PlannedResponse F)) :
    ∀ budget, fitsResponses L (responses ++ responses') budget =
      (fitsResponses L responses budget && fitsResponses L responses' (leftResponses responses budget)) := by
  induction responses with
  | nil => intro budget; simp [fitsResponses, leftResponses]
  | cons planned rest ih =>
    intro budget
    by_cases hrendered : planned.rendered = true
    · simp only [List.cons_append, fitsResponses, leftResponses, hrendered, if_true, ih, Bool.and_assoc]
    · simp only [List.cons_append, fitsResponses, leftResponses, if_neg hrendered, ih]

theorem synthesize_left (L : Floats F) {σ : Type} (next : σ → UInt64 × σ) (node : SchemaNode F) (rng : σ) (budget : ℕ) :
    (synthesize L next node rng budget).2 = node.left budget := render_left node { rng, budget }

/-- A plan whose bodies fit is emitted, and leaves what they leave. -/
theorem emitFrom_passes (plan : Plan F) (digest : List UInt8) (responses : List (PlannedResponse F))
    (hexamples : ∀ planned ∈ responses, planned.exampleValue = none)
    (hapart : ∀ planned ∈ responses, planned.schema.apart = true) :
    ∀ index budget, fitsResponses U.toFloats responses budget = true →
      ∃ stubs, emitFrom U plan digest index responses budget = .ok (stubs, leftResponses responses budget) := by
  induction responses with
  | nil => exact fun index budget _ => ⟨[], rfl⟩
  | cons planned rest ih =>
    intro index budget hfits
    have hrest := ih (fun planned hmem => hexamples planned (List.mem_cons_of_mem _ hmem))
      (fun planned hmem => hapart planned (List.mem_cons_of_mem _ hmem)) (index + 1)
    have hbody : bodyOf U plan digest planned budget = if planned.rendered then
        (some (synthesize U.toFloats nextU64 planned.schema (seeded U digest plan.id planned.status.label) budget).1,
          planned.schema.left budget) else (none, budget) := by
      simp only [bodyOf, hexamples planned List.mem_cons_self, PlannedResponse.rendered, synthesize_left]
      rfl
    by_cases hrendered : planned.rendered = true
    · simp only [fitsResponses, hrendered, if_true, Bool.and_eq_true] at hfits
      have hcheck : checkBody U planned.schema (synthesize U.toFloats nextU64 planned.schema
          (seeded U digest plan.id planned.status.label) budget).1 = [] :=
        fits_passes planned.schema _ (hapart planned List.mem_cons_self) hfits.1 ""
      obtain ⟨stubs, hstubs⟩ := hrest _ hfits.2
      rw [hrendered] at hbody
      exact ⟨_, by simp only [emitFrom, hbody, if_true, Option.bind_some, hcheck, List.head?_nil, hstubs, leftResponses,
        hrendered]; rfl⟩
    · simp only [fitsResponses, if_neg hrendered] at hfits
      obtain ⟨stubs, hstubs⟩ := hrest _ hfits
      rw [if_neg hrendered] at hbody
      exact ⟨_, by simp only [emitFrom, hbody, Option.bind_none, hstubs, leftResponses, if_neg hrendered]; rfl⟩

theorem emitAll_passes (digest : List UInt8) (plans : List (Plan F))
    (hexamples : ∀ plan ∈ plans, ∀ planned ∈ plan.responses, planned.exampleValue = none)
    (hapart : ∀ plan ∈ plans, ∀ planned ∈ plan.responses, planned.schema.apart = true) :
    ∀ budget, fitsResponses U.toFloats (plans.flatMap Plan.responses) budget = true →
      ∃ emitted, emitAll U digest plans budget = .ok emitted := by
  induction plans with
  | nil => exact fun _ _ => ⟨[], rfl⟩
  | cons plan rest ih =>
    intro budget hfits
    rw [List.flatMap_cons, fitsResponses_append, Bool.and_eq_true] at hfits
    obtain ⟨stubs, hstubs⟩ := emitFrom_passes plan digest plan.responses (hexamples plan List.mem_cons_self)
      (hapart plan List.mem_cons_self) 0 budget hfits.1
    obtain ⟨emitted, hemitted⟩ := ih (fun plan hmem => hexamples plan (List.mem_cons_of_mem _ hmem))
      (fun plan hmem => hapart plan (List.mem_cons_of_mem _ hmem)) _ hfits.2
    exact ⟨_, by simp only [emitAll, emit, hstubs, hemitted]; rfl⟩

def CompileError.isSelfCheck : CompileError → Bool
  | .selfCheck _ _ _ => true
  | _ => false

theorem rejectDuplicateIds_error {seen : List String} {plans : List (Plan F)} {e : CompileError}
    (h : rejectDuplicateIds U seen plans = .error e) : e.isSelfCheck = false := by
  induction plans generalizing seen with
  | nil => cases h
  | cons plan rest ih =>
    simp only [rejectDuplicateIds] at h
    split at h
    · cases h; rfl
    · split at h
      · cases h; rfl
      · exact ih h

/-- The responses of a document, in the order in which their bodies are rendered. -/
def emittedResponses (plans : List (Plan F)) : List (PlannedResponse F) :=
  (plans.mergeSort Plan.before).flatMap Plan.responses

theorem emitSpec_passes {options : CompileOptions} {digest : List UInt8} {plans : List (Plan F)}
    (hexamples : ∀ plan ∈ plans, ∀ planned ∈ plan.responses, planned.exampleValue = none)
    (hapart : ∀ plan ∈ plans, ∀ planned ∈ plan.responses, planned.schema.apart = true)
    (hfits : fitsResponses U.toFloats (emittedResponses plans) maxBodyNodes = true) {e : CompileError}
    (h : emitSpec U options digest plans = .error e) : e.isSelfCheck = false := by
  obtain ⟨emitted, hemitted⟩ := emitAll_passes digest (plans.mergeSort Plan.before)
    (fun plan hmem => hexamples plan (List.mem_mergeSort.1 hmem)) (fun plan hmem => hapart plan (List.mem_mergeSort.1 hmem))
    maxBodyNodes hfits
  unfold emitSpec at h
  cases hids : rejectDuplicateIds U [] (plans.mergeSort Plan.before) with
  | error e' =>
    simp only [hids, bind, Except.bind] at h
    cases h
    exact rejectDuplicateIds_error hids
  | ok _ =>
    simp only [hids, hemitted, bind, Except.bind] at h
    cases h

end Emitting

/-- **A rendered body passes its own check exactly if it fits.** Take a document that passes the
gates and is planned. For every response of it and every budget, the body that is rendered
passes with every random stream if and only if the schema fits the budget. So if the document
declares no examples, and at its turn every body fits what is left of the document's budget,
`compile` does not fail with a self-check. -/
theorem self_check_passes_iff (U : SpecUpstream F) (R : SpecReader F) (options : CompileOptions) (bytes : List UInt8)
    (api : OpenApi F) (hread : readSpec U R options bytes = .ok api) (fuel left : ℕ) (plans : List (Plan F))
    (hplans : planOperations U api fuel maxSchemaNodes = some (.ok plans, left)) :
    (∀ plan ∈ plans, ∀ planned ∈ plan.responses, ∀ budget,
        (∀ (σ : Type) (next : σ → UInt64 × σ) (rng : σ),
          checkBody U planned.schema (synthesize U.toFloats next planned.schema rng budget).1 = []) ↔
        planned.schema.fits U.toFloats budget = true) ∧
      ((∀ plan ∈ plans, ∀ planned ∈ plan.responses, planned.exampleValue = none) →
        fitsResponses U.toFloats (emittedResponses plans) maxBodyNodes = true →
        ∀ e, compile U R options bytes fuel = some (.error e) → e.isSelfCheck = false) := by
  have hapart := planOperations_apart (U := U) api fuel maxSchemaNodes _ hplans plans rfl
  refine ⟨fun plan hplan planned hplanned budget => ⟨fun hall => ?_, fun hfits σ next rng => ?_⟩, ?_⟩
  · by_contra hnot
    obtain ⟨v, hv⟩ := not_fits_violates (U := U) planned.schema budget (hapart plan hplan planned hplanned)
      (Bool.eq_false_iff.2 hnot)
    exact hv "" (hall Unit (constantly v) ())
  · exact fits_passes planned.schema { rng, budget } (hapart plan hplan planned hplanned) hfits ""
  · intro hexamples hfits e hcompile
    simp only [compile, hread, hplans, Option.map_some, Option.some.injEq] at hcompile
    exact emitSpec_passes hexamples hapart hfits hcompile

/-- Why a compilation failed. -/
def failure? {α : Type} : Option (Except CompileError α) → Option CompileError
  | some (.error e) => some e
  | _ => none

/-- A response that is an object with a required `id`, of some properties. -/
def objectWithId (properties : List (String × Value (Option ℤ)))
    (declared : List (String × ReferenceOr (Schema (Option ℤ))))
    (hdeclared : refApart (.item (.mk false (.object declared ["id"]))) = true) : SpecReader (Option ℤ) :=
  readerOf (oneResponseJson (.object [("properties", .object properties), ("required", .array [.string "id"]),
      ("type", .string "object")]) [])
    (oneResponse (.item (.mk false (.object declared ["id"]))) [] hdeclared rfl)

/-- The `id` is declared. -/
def declaredId : SpecReader (Option ℤ) :=
  objectWithId [("id", .object [("type", .string "integer")])]
    [("id", .item (.mk false (.integer none none [])))] rfl

/-- Its schema, and the plan of its document. -/
def declaredIdNode : SchemaNode (Option ℤ) := .mk false (.object [("id", .mk false (.integer none none []))] ["id"])

def declaredIdPlan : Plan (Option ℤ) where
  id := synthesizeOperationId wholeUpstream .get "/pets"
  method := .get
  template := "/pets"
  path := compilePath wholeUpstream "/pets"
  requiredQuery := []
  requiredHeaders := []
  responses := [{ status := .code 200, contentType := some "application/json", schema := declaredIdNode, exampleValue := none }]

/-- The object has what it requires, with every stream. -/
theorem declaredId_passes : declaredIdNode.fits wholeFloats maxBodyNodes = true ∧
    ∀ (σ : Type) (next : σ → UInt64 × σ) (rng : σ),
      checkBody wholeUpstream declaredIdNode (synthesize wholeFloats next declaredIdNode rng maxBodyNodes).1 = [] := by
  have hfits : declaredIdNode.fits wholeFloats maxBodyNodes = true := by decide +kernel
  have hread : readSpec wholeUpstream declaredId {} [] = .ok _ := readSpec_readerOf (by decide +kernel)
  have hplans : planOperations wholeUpstream (oneResponse (.item (.mk false (.object [("id", .item
      (.mk false (.integer none none [])))] ["id"]))) [] rfl rfl) 9 maxSchemaNodes = some (.ok [declaredIdPlan], 199998) := rfl
  refine ⟨hfits, ?_⟩
  exact ((self_check_passes_iff wholeUpstream declaredId {} [] _ hread 9 199998 [declaredIdPlan] hplans).1 declaredIdPlan
    List.mem_cons_self _ List.mem_cons_self maxBodyNodes).2 hfits

/-- It is not. -/
def undeclaredId : SpecReader (Option ℤ) := objectWithId [] [] rfl

/-- **A required property that no schema declares fails the compiler's own check.** -/
theorem undeclaredId_fails_self_check : failure? (compile wholeUpstream undeclaredId {} [] 9) =
    some (.selfCheck "get_pets_47455420" "200" "(body): required property id is absent") := by
  decide +kernel

end RiftCluster.Spec
