import RiftCluster.Lib.Chain
import RiftCluster.Model.SpecCompile

/-!
# Whether normalising a schema comes back

Every call of `normalize_schema` that goes on takes a node from the budget. A call of `follow`
takes nothing: it may call itself through an entry of `components.schemas` that is itself a
reference.

* `Settles`: with fuel enough a walk comes back, with one result, and the budget has not grown.
* `resolve_settles`: where no chain of such entries comes back to its start, every walk settles.
* `follow_never`: from an entry on a chain that does not end, no walk comes back.
-/

namespace RiftCluster.Spec

variable {F : Type} {α β : Type}

/-! ## Walks that come back -/

/-- All fuels from some on give one result, with no more budget than before. -/
def Settles (walk : ℕ → Walk α) (budget : ℕ) : Prop :=
  ∃ result : α × ℕ, result.2 ≤ budget ∧ ∃ n, ∀ fuel, n ≤ fuel → walk fuel budget = some result

theorem settles_pure (a : α) (budget : ℕ) : Settles (fun _ => pure a) budget :=
  ⟨(a, budget), le_rfl, 0, fun _ _ => rfl⟩

theorem Settles.bind {walk : ℕ → Walk α} {cont : ℕ → α → Walk β} {budget : ℕ} (hwalk : Settles walk budget)
    (hcont : ∀ a left, left ≤ budget → Settles (cont · a) left) :
    Settles (fun fuel => walk fuel >>= cont fuel) budget := by
  obtain ⟨⟨a, left⟩, hleft, n, hn⟩ := hwalk
  obtain ⟨result, hresult, m, hm⟩ := hcont a left hleft
  refine ⟨result, hresult.trans hleft, max n m, fun fuel hfuel => ?_⟩
  change (walk fuel budget).bind (fun p => cont fuel p.1 p.2) = some result
  rw [hn fuel (le_of_max_le_left hfuel)]
  exact hm fuel (le_of_max_le_right hfuel)

theorem Settles.map {walk : ℕ → Walk α} {f : α → β} {budget : ℕ} (hwalk : Settles walk budget) :
    Settles (fun fuel => walk fuel >>= fun a => pure (f a)) budget :=
  hwalk.bind fun a left _ => settles_pure (f a) left

/-- A call that takes a unit of fuel and goes on as another walk. -/
theorem Settles.call {walk walk' : ℕ → Walk α} {budget : ℕ} (h : Settles walk' budget)
    (hcall : ∀ fuel, walk (fuel + 1) budget = walk' fuel budget) : Settles walk budget := by
  obtain ⟨result, hresult, n, hn⟩ := h
  refine ⟨result, hresult, n + 1, fun fuel hfuel => ?_⟩
  obtain ⟨m, rfl⟩ := Nat.exists_eq_add_of_le' (Nat.le_of_add_left_le hfuel)
  rw [hcall m]
  exact hn m (by omega)

theorem settles_visitAll {visit : ℕ → α → Walk β} {budget : ℕ}
    (hvisit : ∀ a left, left ≤ budget → Settles (visit · a) left) (children : List α) :
    ∀ left ≤ budget, Settles (fun fuel => visitAll (visit fuel) children) left := by
  induction children with
  | nil => exact fun left _ => settles_pure [] left
  | cons child rest ih =>
    intro left hleft
    refine (hvisit child left hleft).bind fun node left' hleft' => ?_
    exact (ih left' (hleft'.trans hleft)).map

/-! ## What a walk yields -/

/-- Every result of a walk has a property. -/
def Yields (walk : Walk α) (P : α → Prop) : Prop := ∀ budget result, walk budget = some result → P result.1

theorem yields_pure {P : α → Prop} {a : α} (h : P a) : Yields (pure a) P := by
  rintro budget result hresult
  cases hresult
  exact h

theorem Yields.bind {walk : Walk α} {cont : α → Walk β} {P : α → Prop} {Q : β → Prop} (hwalk : Yields walk P)
    (hcont : ∀ a, P a → Yields (cont a) Q) : Yields (walk >>= cont) Q := by
  intro budget result hresult
  obtain ⟨⟨a, left⟩, ha, hrest⟩ := Option.bind_eq_some_iff.1 hresult
  exact hcont a (hwalk budget _ ha) left result hrest

theorem yields_visitAll {visit : α → Walk β} {R : α → β → Prop} (children : List α)
    (hvisit : ∀ child ∈ children, Yields (visit child) (R child)) :
    Yields (visitAll visit children) (List.Forall₂ R children) := by
  induction children with
  | nil => exact yields_pure .nil
  | cons child rest ih =>
    refine (hvisit child List.mem_cons_self).bind fun node hnode => ?_
    refine (ih fun child hmem => hvisit child (List.mem_cons_of_mem _ hmem)).bind fun nodes hnodes => ?_
    exact yields_pure (.cons hnode hnodes)

/-- Every result of a planning that does not refuse has a property. -/
def PlanYields (plan : Planning α) (P : α → Prop) : Prop := Yields plan fun result => ∀ a, result = .ok a → P a

theorem PlanYields.bind {plan : Planning α} {cont : α → Planning β} {P : α → Prop} {Q : β → Prop}
    (hplan : PlanYields plan P) (hcont : ∀ a, P a → PlanYields (cont a) Q) : PlanYields (plan >>= cont) Q := by
  refine Yields.bind hplan fun result hresult => ?_
  cases result with
  | error e => exact yields_pure fun _ h => nomatch h
  | ok a => exact hcont a (hresult a rfl)

theorem planYields_of_except {result : Except CompileError α} {P : α → Prop} (h : ∀ a, result = .ok a → P a) :
    PlanYields (liftM result) P := yields_pure h

theorem planYields_liftM {walk : Walk α} {P : α → Prop} (h : Yields walk P) : PlanYields (liftM walk) P :=
  h.bind fun _ ha => yields_pure fun _ heq => by cases heq; exact ha

theorem planYields_mapM {plan : α → Planning β} {P : β → Prop} (items : List α)
    (hplan : ∀ item ∈ items, PlanYields (plan item) P) : PlanYields (items.mapM plan) fun bs => ∀ b ∈ bs, P b := by
  induction items with
  | nil => exact planYields_of_except fun _ h => by cases h; exact fun _ hmem => nomatch hmem
  | cons item rest ih =>
    rw [List.mapM_cons]
    refine (hplan item List.mem_cons_self).bind fun b hb => ?_
    refine (ih fun item hmem => hplan item (List.mem_cons_of_mem _ hmem)).bind fun bs hbs => ?_
    refine planYields_of_except fun _ h => ?_
    cases h
    exact List.forall_mem_cons.2 ⟨hb, hbs⟩

/-! ## A planning that settles -/

theorem settles_except {walk : ℕ → Planning α} {cont : ℕ → α → Planning β} {budget : ℕ} (hwalk : Settles walk budget)
    (hcont : ∀ a left, left ≤ budget → Settles (cont · a) left) :
    Settles (fun fuel => (walk fuel >>= cont fuel : Planning β)) budget := by
  have hresult : ∀ result left, left ≤ budget → Settles (fun fuel => ExceptT.bindCont (cont fuel) result) left := by
    intro result left hleft
    cases result with
    | error e => exact settles_pure (Except.error e) left
    | ok a => exact hcont a left hleft
  exact Settles.bind hwalk hresult

theorem settles_of_except (result : Except CompileError α) (budget : ℕ) :
    Settles (fun _ => (liftM result : Planning α)) budget := ⟨(result, budget), le_rfl, 0, fun _ _ => rfl⟩

theorem settles_liftM {walk : ℕ → Walk α} {budget : ℕ} (hwalk : Settles walk budget) :
    Settles (fun fuel => (liftM (walk fuel) : Planning α)) budget := hwalk.map (f := Except.ok)

theorem settles_mapM {plan : ℕ → α → Planning β} {budget : ℕ}
    (hplan : ∀ a left, left ≤ budget → Settles (plan · a) left) (items : List α) :
    ∀ left ≤ budget, Settles (fun fuel => (items.mapM (plan fuel) : Planning (List β))) left := by
  induction items with
  | nil => exact fun left _ => settles_of_except (.ok []) left
  | cons item rest ih =>
    intro left hleft
    simp only [List.mapM_cons]
    refine settles_except (hplan item left hleft) fun b left' hleft' => ?_
    exact settles_except (ih left' (hleft'.trans hleft)) fun bs left'' _ => settles_of_except (.ok (b :: bs)) left''

/-! ## References -/

variable {schemas : SchemaTable F}

/-- Where an entry of the table that is itself a reference points to. -/
def nextRef (schemas : SchemaTable F) (reference : String) : Option String :=
  match lookup schemas reference with
  | some (.reference next) => some next
  | _ => none

/-- No chain of references through `components.schemas` comes back to its start. -/
def NoRefCycle (schemas : SchemaTable F) : Prop := Chain.Acyclic (nextRef schemas)

theorem eq_of_strip {head text rest : String} (h : strip? head text = some rest) : text = head ++ rest := by
  unfold strip? at h
  split at h
  · rename_i hprefix
    cases h
    obtain ⟨tail, htail⟩ := List.isPrefixOf_iff_prefix.1 hprefix
    rw [← htail, List.drop_left, ← String.toList_inj, String.toList_append, String.toList_ofList, htail]
  · cases h

/-- Only the names of the table are followed. -/
theorem mem_of_nextRef {reference next : String} (h : nextRef schemas reference = some next) :
    reference ∈ (schemas.map fun entry => schemaRoot ++ entry.1).toFinset := by
  unfold nextRef at h
  split at h
  · rename_i target hlookup
    obtain ⟨name, hname, hentry⟩ := Option.bind_eq_some_iff.1 hlookup
    obtain ⟨before, after, heq, -⟩ := List.lookup_eq_some_iff.1 hentry
    rw [List.mem_toFinset, List.mem_map]
    exact ⟨_, by rw [heq]; exact List.mem_append_right _ List.mem_cons_self, (eq_of_strip hname).symm⟩
  · cases h

theorem all_refs_end_iff : (∀ reference, Chain.Ends (nextRef schemas) reference) ↔ NoRefCycle schemas :=
  Chain.all_end_iff _ fun _ _ => mem_of_nextRef

/-! ## The walk -/

/-- What goes on inside a node settles, where the calls it makes do. -/
theorem normalizeKind_settles {resolve : ℕ → ℕ → ReferenceOr (Schema F) → Walk (SchemaNode F)} {budget : ℕ}
    (hresolve : ∀ depth schema left, left ≤ budget → Settles (resolve · depth schema) left) (depth : ℕ)
    (nullable : Bool) (kind : SchemaKind F) :
    Settles (fun fuel => normalizeKind (resolve fuel) depth nullable kind) budget := by
  have hfirst : ∀ branches, Settles (fun fuel => firstBranch (resolve fuel depth) branches nullable) budget := by
    intro branches
    cases branches with
    | nil => exact settles_pure _ budget
    | cons branch rest => exact (hresolve depth branch budget le_rfl).map
  cases kind with
  | boolean | integer _ _ _ | number _ _ _ | string _ _ | not | any => exact settles_pure _ budget
  | array items minItems =>
    cases items with
    | none => exact settles_pure _ budget
    | some items => exact (hresolve (depth + 1) items budget le_rfl).map
  | object properties required =>
    refine (settles_visitAll ?_ properties budget (le_refl budget)).map
    exact fun property left hleft => (hresolve (depth + 1) property.2 left hleft).map
  | allOf branches =>
    exact (settles_visitAll (fun branch left hleft => hresolve depth branch left hleft) branches budget le_rfl).map
  | oneOf branches | anyOf branches => exact hfirst branches

/-- A call of `normalize_schema` settles, where every walk with less budget does. -/
theorem normalizeSchema_settles {budget : ℕ}
    (hless : ∀ left < budget, ∀ depth schema, Settles (resolve schemas · depth schema) left) (depth : ℕ)
    (schema : Schema F) : Settles (normalizeSchema schemas · depth schema) budget := by
  obtain ⟨nullable, kind⟩ := schema
  by_cases hfloor : maxDepth ≤ depth ∨ budget = 0
  · refine ⟨(.unconstrained, budget), le_rfl, 1, fun fuel hfuel => ?_⟩
    obtain ⟨n, rfl⟩ := Nat.exists_eq_add_of_le' hfuel
    simp only [normalizeSchema, if_pos hfloor]
  · rw [not_or] at hfloor
    -- the node is taken from the budget before anything is called
    have hkind : Settles (fun fuel => normalizeKind (resolve schemas fuel) depth nullable kind) (budget - 1) :=
      normalizeKind_settles (fun depth schema left hleft => hless left (by omega) depth schema) depth nullable kind
    obtain ⟨result, hresult, n, hn⟩ := hkind
    refine ⟨result, hresult.trans (Nat.sub_le budget 1), n + 1, fun fuel hfuel => ?_⟩
    obtain ⟨m, rfl⟩ := Nat.exists_eq_add_of_le' (Nat.le_of_add_left_le hfuel)
    simp only [normalizeSchema, if_neg (not_or.2 hfloor)]
    exact hn m (by omega)

/-- **Where every chain of references ends, every walk settles.** The induction is on the
budget, and for one budget along the chain of references. -/
theorem resolve_settles (hends : ∀ reference, Chain.Ends (nextRef schemas) reference) (budget : ℕ) :
    ∀ depth schema, Settles (resolve schemas · depth schema) budget := by
  induction budget using Nat.strong_induction_on with
  | _ budget ih =>
    have hitem : ∀ depth schema, Settles (resolve schemas · depth (.item schema)) budget := fun depth schema =>
      (normalizeSchema_settles ih depth schema).call fun _ => rfl
    have hfollow : ∀ depth reference, Settles (follow schemas · depth reference) budget := by
      intro depth reference
      refine (hends reference).rec_on (P := fun reference => Settles (follow schemas · depth reference) budget) ?_ ?_
      · intro reference hstop
        cases hlookup : lookup schemas reference with
        | none => exact (settles_pure SchemaNode.unconstrained budget).call fun _ => by simp only [follow, hlookup]
        | some target =>
          cases target with
          | reference next => simp [nextRef, hlookup] at hstop
          | item schema => exact (hitem depth schema).call fun _ => by simp only [follow, hlookup]
      · intro reference next hnext hsettles
        have hlookup : lookup schemas reference = some (.reference next) := by
          unfold nextRef at hnext
          split at hnext
          · rename_i hlookup
            cases hnext
            exact hlookup
          · cases hnext
        have hresolve : Settles (resolve schemas · depth (.reference next)) budget := hsettles.call fun _ => rfl
        exact hresolve.call fun _ => by simp only [follow, hlookup]
    intro depth schema
    cases schema with
    | reference reference => exact (hfollow depth reference).call fun _ => rfl
    | item schema => exact hitem depth schema

/-- **From a chain that does not end no walk comes back**, whatever its fuel. -/
theorem follow_never (fuel depth budget : ℕ) : ∀ reference, ¬ Chain.Ends (nextRef schemas) reference →
    follow schemas fuel depth reference budget = none ∧
      resolve schemas fuel depth (.reference reference) budget = none := by
  induction fuel using Nat.strong_induction_on with
  | _ fuel ih =>
    intro reference hnot
    match fuel with
    | 0 => exact ⟨rfl, rfl⟩
    | fuel + 1 =>
      refine ⟨?_, (ih fuel (by omega) reference hnot).1⟩
      obtain ⟨next, hnext, hnot'⟩ := Chain.exists_next_of_not_ends hnot
      unfold nextRef at hnext
      split at hnext
      · rename_i hlookup
        cases hnext
        simp only [follow, hlookup]
        exact (ih fuel (by omega) next hnot').2
      · cases hnext

/-! ## Planning a document -/

theorem planResponse_settles (hends : ∀ reference, Chain.Ends (nextRef schemas) reference) (status : StatusKey)
    (response : Response F) (budget : ℕ) : Settles (planResponse schemas · status response) budget := by
  unfold planResponse
  cases response.content with
  | nil => exact settles_pure _ budget
  | cons first rest =>
    obtain ⟨contentType, media⟩ := first
    cases hschema : media.schema with
    | none => simp only [hschema]; exact settles_pure _ budget
    | some schema => simp only [hschema]; exact (resolve_settles hends budget 0 schema).map

variable {U : SpecUpstream F}

theorem planOperations_settles {api : OpenApi F}
    (hends : ∀ reference, Chain.Ends (nextRef api.components.schemas) reference) (budget : ℕ) :
    Settles (planOperations U api) budget := by
  have hone : ∀ declared left, Settles (fun fuel => planOne U api.components fuel declared) left := fun declared left =>
    settles_except (settles_of_except _ left) fun response left _ =>
      settles_liftM (planResponse_settles hends declared.1 response left)
  have hresponses : ∀ operation left, Settles (fun fuel => planResponses U api.components fuel operation) left := by
    intro operation left
    refine settles_except (settles_mapM (fun declared left _ => hone declared left) _ left le_rfl) ?_
    exact fun planned left _ => settles_of_except (.ok (moveSuccessFirst planned)) left
  have hoperation : ∀ template item method operation left,
      Settles (fun fuel => planOperation U api.components fuel template item method operation) left := by
    intro template item method operation left
    refine settles_except (settles_of_except _ left) fun parameters left _ => ?_
    exact settles_except (hresponses operation left) fun responses left _ => settles_of_except (.ok _) left
  have hpath : ∀ path left, Settles (fun fuel => planPath U api.components fuel path) left := by
    rintro ⟨template, item⟩ left
    cases item with
    | reference reference => exact settles_of_except (.error _) left
    | item item =>
      exact settles_mapM (α := Method × Operation F) (fun operation left _ => hoperation template item _ _ left) _ left le_rfl
  refine settles_except (settles_mapM (fun path left _ => hpath path left) _ budget le_rfl) ?_
  exact fun plans left _ => settles_of_except (.ok plans.flatten) left

/-- A document whose response has the schema `Pet`. -/
def petJson (pet : Value (Option ℤ)) : Value (Option ℤ) :=
  oneResponseJson (.object [("$ref", .string "#/components/schemas/Pet")]) [("Pet", pet)]

def pet (schema : ReferenceOr (Schema (Option ℤ))) (hschema : refApart schema = true) : OpenApi (Option ℤ) :=
  oneResponse (.reference "#/components/schemas/Pet") [("Pet", schema)] rfl (by simp [hschema])

/-- `Pet` is an array of pets. -/
def nestedPet : SpecReader (Option ℤ) :=
  readerOf (petJson (.object [("items", .object [("$ref", .string "#/components/schemas/Pet")]), ("type", .string "array")]))
    (pet (.item (.mk false (.array (some (.reference "#/components/schemas/Pet")) none))) rfl)

/-- `Pet` is `Pet`. -/
def selfPet : SpecReader (Option ℤ) :=
  readerOf (petJson (.object [("$ref", .string "#/components/schemas/Pet")])) (pet (.reference "#/components/schemas/Pet") rfl)

theorem readSpec_readerOf {document : Value F} {api : OpenApi F} {options : CompileOptions} {bytes : List UInt8}
    (h : (readSpec U (readerOf document api) options bytes).isOk = true) :
    readSpec U (readerOf document api) options bytes = .ok api := by
  unfold readSpec at h ⊢
  split at h
  · cases h
  · rename_i hsize
    rw [if_neg hsize]
    simp only [readerOf, Except.mapError, bind, Except.bind] at h ⊢
    cases hversion : requireSupportedVersion document with
    | error e => rw [hversion] at h; cases h
    | ok _ =>
      cases hrefs : validateRefs U document with
      | error e => rw [hversion, hrefs] at h; cases h
      | ok _ =>
        cases hkeys : validateStatusKeys U document with
        | error e => rw [hversion, hrefs, hkeys] at h; cases h
        | ok _ => rfl

/-- A planning whose first step does not come back does not come back. -/
theorem bind_none {plan : Planning α} {cont : α → Planning β} {budget : ℕ} (h : plan budget = none) :
    (plan >>= cont : Planning β) budget = none := by
  change (plan budget).bind _ = none
  rw [h]
  rfl

theorem mapM_none {plan : α → Planning β} (item : α) (rest : List α) {budget : ℕ} (h : plan item budget = none) :
    ((item :: rest).mapM plan : Planning (List β)) budget = none := by
  rw [List.mapM_cons]
  exact bind_none h

theorem planOperations_none {schema : ReferenceOr (Schema F)} {fuel budget : ℕ} (hschema : refApart schema = true)
    (hschemas : schemas.all (fun entry => refApart entry.2) = true) (h : normalize schemas fuel schema budget = none) :
    planOperations U (oneResponse schema schemas hschema hschemas) fuel budget = none := by
  refine bind_none (mapM_none _ _ ?_)
  refine mapM_none (α := Method × Operation F) (.get, _) [] ?_
  change (planResponses U _ fuel _ >>= _ : Planning (Plan F)) budget = none
  refine bind_none (bind_none (mapM_none _ _ ?_))
  change (Option.bind (Option.bind (normalize schemas fuel schema budget) _) _) = none
  rw [h]
  rfl

theorem readSpec_nestedPet : readSpec wholeUpstream nestedPet {} [] =
    .ok (pet (.item (.mk false (.array (some (.reference "#/components/schemas/Pet")) none))) rfl) :=
  readSpec_readerOf (by decide +kernel)

theorem readSpec_selfPet : readSpec wholeUpstream selfPet {} [] = .ok (pet (.reference "#/components/schemas/Pet") rfl) :=
  readSpec_readerOf (by decide +kernel)

end RiftCluster.Spec
