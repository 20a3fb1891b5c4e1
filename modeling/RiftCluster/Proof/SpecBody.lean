import RiftCluster.Model.SpecBody

/-!
# Whether a rendered body passes its own check

A rendering draws on a random stream and on a budget. What it takes of the budget does not
depend on the stream (`render_left`), and neither does which properties it reaches.

* `SchemaNode.fits`: the condition on a node and a budget.
* `fits_passes`: where it holds, the body passes with every stream.
* `not_fits_violates`: where it fails, some stream gives a body with a violation.
-/

namespace RiftCluster.Spec

variable {F σ : Type}

/-! ## What a rendering leaves of a budget -/

def leftMany (left : ℕ → ℕ) : ℕ → ℕ → ℕ
  | 0, budget => budget
  | count + 1, budget => if budget = 0 then 0 else leftMany left count (left budget)

mutual

def SchemaNode.left : SchemaNode F → ℕ → ℕ
  | .mk _ shape, budget => if budget = 0 then 0 else shape.left (budget - 1)

def SchemaShape.left : SchemaShape F → ℕ → ℕ
  | .array items minItems, budget => leftMany items.left (min minItems maxArrayItems) budget
  | .object properties _, budget => leftProperties properties budget
  | _, budget => budget

def leftProperties : List (String × SchemaNode F) → ℕ → ℕ
  | [], budget => budget
  | (_, node) :: rest, budget => if budget = 0 then 0 else leftProperties rest (node.left budget)

end

section Left

variable {L : Floats F} {next : σ → UInt64 × σ}

theorem renderMany_left {render : Draw σ → Value F × Draw σ} {left : ℕ → ℕ}
    (hleft : ∀ draw, (render draw).2.budget = left draw.budget) (count : ℕ) :
    ∀ draw, (renderMany render count draw).2.budget = leftMany left count draw.budget := by
  induction count with
  | zero => exact fun _ => rfl
  | succ count ih =>
    intro draw
    by_cases hzero : draw.budget = 0
    · simp only [renderMany, leftMany, hzero, if_true]
    · simp only [renderMany, leftMany, if_neg hzero, ih, hleft]

mutual

/-- **What a rendering takes does not depend on the stream.** -/
theorem render_left : ∀ (node : SchemaNode F) (draw : Draw σ),
    (render L next node draw).2.budget = node.left draw.budget
  | .mk nullable shape, draw => by
    by_cases hzero : draw.budget = 0
    · simp only [render, SchemaNode.left, hzero, if_true]
    · simp only [render, SchemaNode.left, if_neg hzero]
      exact renderShape_left shape _

theorem renderShape_left : ∀ (shape : SchemaShape F) (draw : Draw σ),
    (renderShape L next shape draw).2.budget = shape.left draw.budget
  | .unconstrained, _ => rfl
  | .boolean, _ => rfl
  | .integer _ _ [], _ => rfl
  | .integer _ _ (_ :: _), _ => rfl
  | .number _ _ [], _ => rfl
  | .number _ _ (_ :: _), _ => rfl
  | .text _ [], _ => rfl
  | .text _ (_ :: _), _ => rfl
  | .array items _, draw => renderMany_left (render_left items) _ draw
  | .object properties _, draw => renderProperties_left properties [] draw

theorem renderProperties_left : ∀ (properties : List (String × SchemaNode F)) (members : List (String × Value F))
    (draw : Draw σ), (renderProperties L next properties members draw).2.budget = leftProperties properties draw.budget
  | [], _, _ => rfl
  | (name, node) :: rest, members, draw => by
    by_cases hzero : draw.budget = 0
    · simp only [renderProperties, leftProperties, hzero, if_true]
    · simp only [renderProperties, leftProperties, if_neg hzero]
      rw [renderProperties_left rest, render_left node]

end

end Left

/-! ## The condition -/

/-- The properties that are rendered before the budget is used up. -/
def reached : List (String × SchemaNode F) → ℕ → List String
  | [], _ => []
  | (name, node) :: rest, budget => if budget = 0 then [] else name :: reached rest (node.left budget)

def fitsMany (fits : ℕ → Bool) (left : ℕ → ℕ) : ℕ → ℕ → Bool
  | 0, _ => true
  | count + 1, budget => if budget = 0 then true else fits budget && fitsMany fits left count (left budget)

mutual

/-- **When a body passes**: the budget is not used up before its root, unless the root may be
`null`; every property that an object requires is declared and reached; and no number that may
not be `null` has a value in its enumeration that is not finite. -/
def SchemaNode.fits (L : Floats F) : SchemaNode F → ℕ → Bool
  | .mk nullable shape, budget =>
    if budget = 0 then nullable || (SchemaNode.mk nullable shape).isUnconstrained
    else shape.fits L nullable (budget - 1)

def SchemaShape.fits (L : Floats F) (nullable : Bool) : SchemaShape F → ℕ → Bool
  -- no index past a `u64` is drawn
  | .number _ _ enumeration, _ => nullable || (enumeration.take (2 ^ 64)).all L.isFinite
  | .array items minItems, budget => fitsMany (items.fits L) items.left (min minItems maxArrayItems) budget
  | .object properties required, budget =>
    required.all (fun name => name ∈ reached properties budget) && fitsProperties L properties budget
  | _, _ => true

def fitsProperties (L : Floats F) : List (String × SchemaNode F) → ℕ → Bool
  | [], _ => true
  | (_, node) :: rest, budget =>
    if budget = 0 then true else node.fits L budget && fitsProperties L rest (node.left budget)

end

mutual

def SchemaNode.apart : SchemaNode F → Bool
  | .mk _ shape => shape.apart

def SchemaShape.apart : SchemaShape F → Bool
  | .array items _ => items.apart
  | .object properties _ => decide (properties.map Prod.fst).Nodup && nodesApart properties
  | _ => true

def nodesApart : List (String × SchemaNode F) → Bool
  | [] => true
  | (_, node) :: rest => node.apart && nodesApart rest

end

/-! ## Values -/

section Values

variable {U : SpecUpstream F} {L : Floats F} {next : σ → UInt64 × σ}

theorem numberIn_finite (minimum maximum : Option F) (rng : σ) :
    L.isFinite (numberIn L next minimum maximum rng).1 = true := by
  simp only [numberIn]
  split
  · assumption
  · split
    · assumption
    · exact L.finite_zero

theorem choose_get (next : σ → UInt64 × σ) {α : Type} (first : α) (rest : List α) (draw : Draw σ) :
    (first :: rest)[(next draw.rng).1.toNat % (first :: rest).length]? = some (choose next first rest draw).1 := by
  have hlt : (next draw.rng).1.toNat % (first :: rest).length < (first :: rest).length := Nat.mod_lt _ (by simp)
  simp only [choose, below, List.length_cons, Nat.succ_ne_zero, if_false, List.getD_eq_getElem?_getD] at hlt ⊢
  rw [List.getElem?_eq_getElem hlt, Option.getD_some]

theorem choose_mem (next : σ → UInt64 × σ) {α : Type} (first : α) (rest : List α) (draw : Draw σ) :
    (choose next first rest draw).1 ∈ (first :: rest).take (2 ^ 64) := by
  have hget := choose_get next first rest draw
  refine List.mem_of_getElem? (i := (next draw.rng).1.toNat % (first :: rest).length) ?_
  rw [List.getElem?_take_of_lt, hget]
  exact (Nat.mod_le _ _).trans_lt (next draw.rng).1.toNat_lt

theorem check_ofFloat {minimum maximum : Option F} {enumeration : List F} {x : F}
    (hmem : enumeration = [] ∨ x ∈ enumeration) (hfinite : U.isFinite x = true) (pointer : String) :
    checkShape U (.number minimum maximum enumeration) (ofFloat U.toFloats x) pointer = [] := by
  simp only [ofFloat, hfinite, if_true, checkShape, asF64?]
  rcases hmem with rfl | hmem
  · rfl
  · have hany : enumeration.any (U.eq · x) = true := List.any_eq_true.2 ⟨x, hmem, U.eq_self x hfinite⟩
    simp [hany]

theorem asI64_int (n : I64) : asI64? (.int n.1 : Value F) = some n := dif_pos n.2

end Values

/-! ## The members of an object -/

section Members

variable {U : SpecUpstream F} {L : Floats F} {next : σ → UInt64 × σ}

theorem putMember_of_not_mem {members : List (String × Value F)} {name : String} (h : name ∉ members.map Prod.fst)
    (value : Value F) : putMember members name value = members ++ [(name, value)] := if_neg h

theorem lookup_eq_none {members : List (String × Value F)} {name : String} (h : name ∉ members.map Prod.fst) :
    members.lookup name = none := by
  rw [List.lookup_eq_none_iff]
  intro entry hmem
  rw [bne_iff_ne]
  rintro rfl
  exact h (List.mem_map_of_mem hmem)

theorem renderProperties_members (L : Floats F) (next : σ → UInt64 × σ) (properties : List (String × SchemaNode F)) :
    ∀ (members : List (String × Value F)) (draw : Draw σ),
      (members.map Prod.fst ++ properties.map Prod.fst).Nodup →
      ∃ added, (renderProperties L next properties members draw).1 = members ++ added ∧
        added.map Prod.fst = reached properties draw.budget := by
  induction properties with
  | nil => exact fun members _ _ => ⟨[], by simp [renderProperties], rfl⟩
  | cons property rest ih =>
    obtain ⟨name, node⟩ := property
    intro members draw hnodup
    by_cases hzero : draw.budget = 0
    · exact ⟨[], by simp [renderProperties, hzero], by simp [reached, hzero]⟩
    · have hname : name ∉ members.map Prod.fst := by
        intro hmem
        exact (List.nodup_append.1 hnodup).2.2 name hmem name (by simp) rfl
      obtain ⟨added, hadded, hreached⟩ := ih (members ++ [(name, (render L next node draw).1)]) (render L next node draw).2
        (by simpa using hnodup)
      refine ⟨(name, (render L next node draw).1) :: added, ?_, ?_⟩
      · simp only [renderProperties, if_neg hzero, putMember_of_not_mem hname, hadded, List.append_assoc, List.singleton_append]
      · simp only [List.map_cons, hreached, reached, if_neg hzero, render_left]

theorem renderProperties_lookup {properties : List (String × SchemaNode F)} {members : List (String × Value F)}
    {draw : Draw σ} (hnodup : (members.map Prod.fst ++ properties.map Prod.fst).Nodup) {name : String} {value : Value F}
    (h : members.lookup name = some value) :
    (renderProperties L next properties members draw).1.lookup name = some value := by
  obtain ⟨added, hadded, -⟩ := renderProperties_members L next properties members draw hnodup
  rw [hadded, List.lookup_append, h]
  rfl

theorem checkProperties_none {properties : List (String × SchemaNode F)} {members : List (String × Value F)}
    (h : ∀ property ∈ properties, property.1 ∉ members.map Prod.fst) (pointer : String) :
    checkProperties U properties members pointer = [] := by
  induction properties with
  | nil => rfl
  | cons property rest ih =>
    simp only [checkProperties, lookup_eq_none (h property List.mem_cons_self), List.nil_append]
    exact ih fun property hmem => h property (List.mem_cons_of_mem _ hmem)

end Members

/-! ## Bodies that pass -/

section Passes

variable {U : SpecUpstream F} {next : σ → UInt64 × σ}

theorem renderMany_forall {P : Value F → Prop} {render : Draw σ → Value F × Draw σ} {fits : ℕ → Bool} {left : ℕ → ℕ}
    (hleft : ∀ draw, (render draw).2.budget = left draw.budget)
    (hfits : ∀ draw, fits draw.budget = true → P (render draw).1) (count : ℕ) :
    ∀ draw, fitsMany fits left count draw.budget = true → ∀ value ∈ (renderMany render count draw).1, P value := by
  induction count with
  | zero => intro draw _ value hmem; cases hmem
  | succ count ih =>
    intro draw hmany value hmem
    by_cases hzero : draw.budget = 0
    · simp only [renderMany, hzero, if_true] at hmem
      cases hmem
    · simp only [fitsMany, if_neg hzero, Bool.and_eq_true] at hmany
      simp only [renderMany, if_neg hzero] at hmem
      rcases List.mem_cons.1 hmem with rfl | hmem
      · exact hfits draw hmany.1
      · exact ih _ (by rw [hleft]; exact hmany.2) value hmem

mutual

/-- **A body that fits passes its own check**, with every stream. -/
theorem fits_passes : ∀ (node : SchemaNode F) (draw : Draw σ), node.apart = true →
    node.fits U.toFloats draw.budget = true → ∀ pointer, check U node (render U.toFloats next node draw).1 pointer = []
  | .mk nullable shape, draw => by
    intro hapart hfits pointer
    by_cases hzero : draw.budget = 0
    · simp only [SchemaNode.fits, hzero, if_true, Bool.or_eq_true] at hfits
      simp only [render, hzero, if_true]
      rcases hfits with rfl | hfree
      · rfl
      · cases shape with
        | unconstrained => cases nullable <;> rfl
        | _ => cases hfree
    · simp only [SchemaNode.fits, if_neg hzero] at hfits
      simp only [render, if_neg hzero]
      rcases fitsShape_passes shape { draw with budget := draw.budget - 1 } nullable hapart hfits pointer with
        ⟨rfl, hnull⟩ | hpasses
      · rw [hnull]; rfl
      · unfold check
        split
        · rfl
        · exact hpasses

theorem fitsShape_passes : ∀ (shape : SchemaShape F) (draw : Draw σ) (nullable : Bool), shape.apart = true →
    shape.fits U.toFloats nullable draw.budget = true → ∀ pointer,
      (nullable = true ∧ (renderShape U.toFloats next shape draw).1 = .null) ∨
        checkShape U shape (renderShape U.toFloats next shape draw).1 pointer = []
  | .unconstrained, _, _ => fun _ _ _ => .inr rfl
  | .boolean, _, _ => fun _ _ _ => .inr rfl
  | .integer _ _ [], _, _ => fun _ _ _ => .inr rfl
  | .integer _ _ (first :: rest), draw, _ => by
    intro _ _ pointer
    have hmem := List.mem_of_mem_take (choose_mem next first rest draw)
    right
    simp only [renderShape, checkShape, asI64_int, Option.any_some, hmem, decide_true, Bool.not_true, Bool.and_false,
      Bool.false_eq_true, if_false]
  | .number minimum maximum [], draw, _ => fun _ _ pointer =>
    .inr (check_ofFloat (.inl rfl) (numberIn_finite minimum maximum draw.rng) pointer)
  | .number _ _ (first :: rest), draw, nullable => by
    intro _ hfits pointer
    have hmem := choose_mem next first rest draw
    by_cases hfinite : U.isFinite (choose next first rest draw).1 = true
    · exact .inr (check_ofFloat (.inr (List.mem_of_mem_take hmem)) hfinite pointer)
    · simp only [SchemaShape.fits, Bool.or_eq_true] at hfits
      refine .inl ⟨hfits.resolve_right fun hall => hfinite (List.all_eq_true.1 hall _ hmem), ?_⟩
      simp only [renderShape, ofFloat, if_neg hfinite]
  | .text _ [], _, _ => fun _ _ _ => .inr rfl
  | .text _ (first :: rest), draw, _ => by
    intro _ _ pointer
    have hmem := List.mem_of_mem_take (choose_mem next first rest draw)
    right
    simp only [renderShape, checkShape, hmem, decide_true, Bool.not_true, Bool.and_false, Bool.false_eq_true, if_false]
  | .array items minItems, draw, _ => by
    intro hapart hfits pointer
    refine .inr (List.flatMap_eq_nil_iff.2 fun element hmem => ?_)
    have hall := renderMany_forall (P := fun value => ∀ pointer, check U items value pointer = [])
      (render_left items) (fun draw hfits => fits_passes items draw hapart hfits) (min minItems maxArrayItems) draw hfits
    exact hall element.1 (List.fst_mem_of_mem_zipIdx hmem) _
  | .object properties required, draw, _ => by
    intro hapart hfits pointer
    simp only [SchemaShape.apart, Bool.and_eq_true, decide_eq_true_eq] at hapart
    simp only [SchemaShape.fits, Bool.and_eq_true] at hfits
    right
    obtain ⟨added, hadded, hreached⟩ := renderProperties_members U.toFloats next properties [] draw
      (by simpa using hapart.1)
    have hrequired : required.filter (· ∉ (renderProperties U.toFloats next properties [] draw).1.map Prod.fst) = [] := by
      rw [List.filter_eq_nil_iff]
      intro name hname
      rw [hadded, List.nil_append, hreached]
      simpa using List.all_eq_true.1 hfits.1 name hname
    simp only [renderShape, checkShape, hrequired, List.map_nil, List.nil_append]
    exact fitsProperties_passes properties [] draw hapart.2 (by simpa using hapart.1) hfits.2 pointer

theorem fitsProperties_passes : ∀ (properties : List (String × SchemaNode F)) (members : List (String × Value F))
    (draw : Draw σ), nodesApart properties = true → (members.map Prod.fst ++ properties.map Prod.fst).Nodup →
    fitsProperties U.toFloats properties draw.budget = true → ∀ pointer,
      checkProperties U properties (renderProperties U.toFloats next properties members draw).1 pointer = []
  | [], _, _ => fun _ _ _ _ => rfl
  | (name, node) :: rest, members, draw => by
    intro hapart hnodup hfits pointer
    have hdisjoint : ∀ property ∈ (name, node) :: rest, property.1 ∉ members.map Prod.fst := by
      intro property hproperty hmem
      exact (List.nodup_append.1 hnodup).2.2 _ hmem _ (List.mem_map_of_mem hproperty) rfl
    by_cases hzero : draw.budget = 0
    · simp only [renderProperties, hzero, if_true]
      exact checkProperties_none hdisjoint pointer
    · simp only [nodesApart, Bool.and_eq_true] at hapart
      simp only [fitsProperties, if_neg hzero, Bool.and_eq_true] at hfits
      have hname : name ∉ members.map Prod.fst := hdisjoint (name, node) List.mem_cons_self
      simp only [renderProperties, if_neg hzero, putMember_of_not_mem hname]
      have hnodup' : ((members ++ [(name, (render U.toFloats next node draw).1)]).map Prod.fst ++
          rest.map Prod.fst).Nodup := by
        simpa using hnodup
      have hfound : (members ++ [(name, (render U.toFloats next node draw).1)]).lookup name =
          some (render U.toFloats next node draw).1 := by
        rw [List.lookup_append, lookup_eq_none hname]
        simp
      have hrest := fitsProperties_passes rest (members ++ [(name, (render U.toFloats next node draw).1)])
        (render U.toFloats next node draw).2 hapart.2 hnodup' (by rw [render_left]; exact hfits.2) pointer
      simp only [checkProperties, renderProperties_lookup hnodup' hfound, hrest, List.append_nil]
      exact fits_passes node draw hapart.1 hfits.1 _

end

end Passes

/-! ## Bodies that do not -/

section Violates

variable {U : SpecUpstream F}

def constantly (v : UInt64) : Unit → UInt64 × Unit := fun _ => (v, ())

theorem fitsMany_false {fits : ℕ → Bool} {left : ℕ → ℕ} (count : ℕ) : ∀ budget, fitsMany fits left count budget = false →
    ∃ b, fits b = false ∧ ∀ render : Draw Unit → Value F × Draw Unit,
      (∀ draw, (render draw).2.budget = left draw.budget) →
      (render ⟨(), b⟩).1 ∈ (renderMany render count ⟨(), budget⟩).1 := by
  induction count with
  | zero => intro budget h; cases h
  | succ count ih =>
    intro budget h
    by_cases hzero : budget = 0
    · simp only [fitsMany, hzero, if_true] at h
      cases h
    · simp only [fitsMany, if_neg hzero] at h
      by_cases hfits : fits budget = true
      · rw [hfits, Bool.true_and] at h
        obtain ⟨b, hb, hmem⟩ := ih (left budget) h
        refine ⟨b, hb, fun render hleft => ?_⟩
        have hdraw : (render ⟨(), budget⟩).2 = ⟨(), left budget⟩ := by
          rw [← hleft ⟨(), budget⟩]
        simp only [renderMany, if_neg hzero, hdraw]
        exact List.mem_cons_of_mem _ (hmem render hleft)
      · refine ⟨budget, by simpa using hfits, fun render hleft => ?_⟩
        simp only [renderMany, if_neg hzero]
        exact List.mem_cons_self

theorem exists_choose {α : Type} {first x : α} {rest : List α} (h : x ∈ (first :: rest).take (2 ^ 64)) :
    ∃ v, ∀ draw : Draw Unit, (choose (constantly v) first rest draw).1 = x := by
  obtain ⟨i, hi⟩ := List.mem_iff_getElem?.1 h
  have hlt : i < 2 ^ 64 := by
    have := (List.getElem?_eq_some_iff.1 hi).1
    rw [List.length_take] at this
    omega
  rw [List.getElem?_take_of_lt hlt] at hi
  refine ⟨UInt64.ofNat i, fun draw => ?_⟩
  have hget := choose_get (constantly (UInt64.ofNat i)) first rest draw
  have hindex : (constantly (UInt64.ofNat i) draw.rng).1.toNat % (first :: rest).length = i := by
    change (UInt64.ofNat i).toNat % _ = i
    rw [UInt64.toNat_ofNat_of_lt' hlt, Nat.mod_eq_of_lt (List.getElem?_eq_some_iff.1 hi).1]
  rw [hindex, hi] at hget
  exact (Option.some.inj hget).symm

theorem check_ne_nil {nullable : Bool} {shape : SchemaShape F} {value : Value F} {pointer : String}
    (hnull : nullable = false ∨ value ≠ .null) (h : checkShape U shape value pointer ≠ []) :
    check U (.mk nullable shape) value pointer ≠ [] := by
  unfold check
  split
  · exact absurd rfl (hnull.resolve_left (by decide))
  · exact h

mutual

/-- **A body that does not fit violates its schema**, with some stream. -/
theorem not_fits_violates : ∀ (node : SchemaNode F) (budget : ℕ), node.apart = true →
    node.fits U.toFloats budget = false → ∃ v, ∀ pointer,
      check U node (render U.toFloats (constantly v) node ⟨(), budget⟩).1 pointer ≠ []
  | .mk nullable shape, budget => by
    intro hapart hfits
    by_cases hzero : budget = 0
    · simp only [SchemaNode.fits, hzero, if_true, Bool.or_eq_false_iff] at hfits
      obtain ⟨rfl, hshape⟩ := hfits
      refine ⟨0, fun pointer => check_ne_nil (.inl rfl) ?_⟩
      simp only [render, hzero, if_true]
      cases shape with
      | unconstrained => cases hshape
      | _ => simp [checkShape, asF64?]
    · simp only [SchemaNode.fits, if_neg hzero] at hfits
      obtain ⟨v, hv⟩ := not_fitsShape_violates shape (budget - 1) nullable hapart hfits
      refine ⟨v, fun pointer => ?_⟩
      simp only [render, if_neg hzero]
      exact check_ne_nil (hv pointer).1 (hv pointer).2

theorem not_fitsShape_violates : ∀ (shape : SchemaShape F) (budget : ℕ) (nullable : Bool), shape.apart = true →
    shape.fits U.toFloats nullable budget = false → ∃ v, ∀ pointer,
      (nullable = false ∨ (renderShape U.toFloats (constantly v) shape ⟨(), budget⟩).1 ≠ .null) ∧
        checkShape U shape (renderShape U.toFloats (constantly v) shape ⟨(), budget⟩).1 pointer ≠ []
  | .unconstrained, _, _ => fun _ h => nomatch h
  | .boolean, _, _ => fun _ h => nomatch h
  | .integer _ _ _, _, _ => fun _ h => nomatch h
  | .text _ _, _, _ => fun _ h => nomatch h
  | .number _ _ [], _, nullable => fun _ h => by simp [SchemaShape.fits] at h
  | .number _ _ (first :: rest), budget, nullable => by
    intro _ hfits
    simp only [SchemaShape.fits, Bool.or_eq_false_iff] at hfits
    obtain ⟨rfl, hall⟩ := hfits
    obtain ⟨x, hmem, hinfinite⟩ := List.all_eq_false.1 hall
    obtain ⟨v, hv⟩ := exists_choose hmem
    refine ⟨v, fun pointer => ⟨.inl rfl, ?_⟩⟩
    simp [renderShape, hv, ofFloat, hinfinite, checkShape, asF64?]
  | .array items minItems, budget, nullable => by
    intro hapart hfits
    obtain ⟨b, hb, hmem⟩ := fitsMany_false (F := F) _ _ hfits
    obtain ⟨v, hv⟩ := not_fits_violates items b hapart hb
    refine ⟨v, fun pointer => ⟨.inr (by simp [renderShape]), fun hnil => ?_⟩⟩
    obtain ⟨i, hi⟩ := List.mem_iff_getElem?.1 (hmem (render U.toFloats (constantly v) items) (render_left items))
    have helement : ((render U.toFloats (constantly v) items ⟨(), b⟩).1, i) ∈
        (renderMany (render U.toFloats (constantly v) items) (min minItems maxArrayItems) ⟨(), budget⟩).1.zipIdx :=
      List.mem_zipIdx_iff_getElem?.2 hi
    exact hv _ (List.flatMap_eq_nil_iff.1 hnil _ helement)
  | .object properties required, budget, nullable => by
    intro hapart hfits
    simp only [SchemaShape.apart, Bool.and_eq_true, decide_eq_true_eq] at hapart
    simp only [SchemaShape.fits] at hfits
    by_cases hrequired : required.all (fun name => name ∈ reached properties budget) = true
    · rw [hrequired, Bool.true_and] at hfits
      obtain ⟨v, hv⟩ := not_fitsProperties_violates properties budget hapart.2 hfits
      refine ⟨v, fun pointer => ⟨.inr (by simp [renderShape]), fun hnil => ?_⟩⟩
      exact hv [] (by simpa using hapart.1) pointer (List.append_eq_nil_iff.1 hnil).2
    · obtain ⟨name, hname, hmissing⟩ := List.all_eq_false.1 (Bool.eq_false_iff.2 hrequired)
      refine ⟨0, fun pointer => ⟨.inr (by simp [renderShape]), fun hnil => ?_⟩⟩
      have hnone := List.map_eq_nil_iff.1 (List.append_eq_nil_iff.1 hnil).1
      obtain ⟨added, hadded, hreached⟩ := renderProperties_members U.toFloats (constantly 0) properties []
        ⟨(), budget⟩ (by simpa using hapart.1)
      have hmem := List.filter_eq_nil_iff.1 hnone name hname
      rw [hadded, List.nil_append, hreached] at hmem
      simp_all

theorem not_fitsProperties_violates : ∀ (properties : List (String × SchemaNode F)) (budget : ℕ),
    nodesApart properties = true → fitsProperties U.toFloats properties budget = false → ∃ v,
      ∀ members : List (String × Value F), (members.map Prod.fst ++ properties.map Prod.fst).Nodup → ∀ pointer,
        checkProperties U properties (renderProperties U.toFloats (constantly v) properties members ⟨(), budget⟩).1
          pointer ≠ []
  | [], _ => fun _ h => nomatch h
  | (name, node) :: rest, budget => by
    intro hapart hfits
    by_cases hzero : budget = 0
    · simp only [fitsProperties, hzero, if_true] at hfits
      cases hfits
    · simp only [nodesApart, Bool.and_eq_true] at hapart
      simp only [fitsProperties, if_neg hzero] at hfits
      have hname : ∀ members : List (String × Value F),
          (members.map Prod.fst ++ ((name, node) :: rest).map Prod.fst).Nodup → name ∉ members.map Prod.fst :=
        fun members hnodup hmem => (List.nodup_append.1 hnodup).2.2 name hmem name (by simp) rfl
      by_cases hnode : node.fits U.toFloats budget = true
      · rw [hnode, Bool.true_and] at hfits
        obtain ⟨v, hv⟩ := not_fitsProperties_violates rest (node.left budget) hapart.2 hfits
        refine ⟨v, fun members hnodup pointer hnil => ?_⟩
        have hdraw : (render U.toFloats (constantly v) node ⟨(), budget⟩).2 = ⟨(), node.left budget⟩ := by
          have hleft : (render U.toFloats (constantly v) node ⟨(), budget⟩).2.budget = node.left budget := render_left node _
          rw [← hleft]
        simp only [renderProperties, if_neg hzero, putMember_of_not_mem (hname members hnodup), hdraw] at hnil
        exact hv _ (by simpa using hnodup) pointer (List.append_eq_nil_iff.1 hnil).2
      · obtain ⟨v, hv⟩ := not_fits_violates node budget hapart.1 (Bool.eq_false_iff.2 hnode)
        refine ⟨v, fun members hnodup pointer hnil => ?_⟩
        set value := (render U.toFloats (constantly v) node ⟨(), budget⟩).1
        have hfound : (members ++ [(name, value)]).lookup name = some value := by
          rw [List.lookup_append, lookup_eq_none (hname members hnodup)]
          simp
        have hnodup' : ((members ++ [(name, value)]).map Prod.fst ++ rest.map Prod.fst).Nodup := by
          simpa using hnodup
        simp only [renderProperties, if_neg hzero, putMember_of_not_mem (hname members hnodup), checkProperties] at hnil
        rw [renderProperties_lookup hnodup' hfound] at hnil
        exact hv _ (List.append_eq_nil_iff.1 hnil).1

end

end Violates

end RiftCluster.Spec
