import RiftCluster.Model.SpecSchema

/-!
# The bodies of a compiled spec

`synth.rs` renders a body from a `SchemaNode` and a stream of random numbers, within a budget
of values that the whole document shares. `validate.rs` checks a body against the node. The
compiler runs the check over each body it has rendered.
-/

namespace RiftCluster.Spec

variable {F : Type}

/-- `serde_json::Value`. The members of an object are looked up by name only. -/
inductive Value (F : Type) where
  | null
  | bool (b : Bool)
  | int (n : ℤ)
  | float (x : F)
  | string (s : String)
  | array (items : List (Value F))
  | object (members : List (String × Value F))

/-- The arithmetic of `f64`. -/
structure Floats (F : Type) where
  ofInt : ℤ → F
  add : F → F → F
  sub : F → F → F
  mul : F → F → F
  div : F → F → F
  max : F → F → F
  round : F → F
  isFinite : F → Bool
  /-- `==`. -/
  eq : F → F → Bool
  finite_zero : isFinite (ofInt 0) = true
  eq_self : ∀ x, isFinite x = true → eq x x = true

/-- What the compiler takes from its libraries. -/
structure SpecUpstream (F : Type) extends Floats F where
  /-- `Display` of a `serde_json::Value`. -/
  display : Value F → String
  /-- `Debug` of a text. -/
  debug : String → String
  /-- `regex::escape`. -/
  regexEscape : String → String
  sha256 : List UInt8 → List UInt8

/-! ## The random stream -/

/-- What a rendering draws on. -/
structure Draw (σ : Type) where
  rng : σ
  budget : ℕ

/-- `Rng::next_u64`. -/
def nextU64 (state : UInt64) : UInt64 × UInt64 :=
  let state := state + 0x9E3779B97F4A7C15
  let z := (state ^^^ (state >>> 30)) * 0xBF58476D1CE4E5B9
  let z := (z ^^^ (z >>> 27)) * 0x94D049BB133111EB
  (z ^^^ (z >>> 31), state)

variable {σ : Type}

/-- `Rng::below`. -/
def below (next : σ → UInt64 × σ) (n : ℕ) (rng : σ) : ℕ × σ :=
  if n = 0 then (0, rng) else ((next rng).1.toNat % n, (next rng).2)

/-- One of an enumeration that is not empty. -/
def choose {α : Type} (next : σ → UInt64 × σ) (first : α) (rest : List α) (draw : Draw σ) : α × Draw σ :=
  let (index, rng) := below next (first :: rest).length draw.rng
  ((first :: rest).getD index first, { draw with rng })

/-! ## Synthesis -/

def maxArrayItems : ℕ := 100

/-- `MAX_BODY_NODES`: the values the bodies of a document may have in all. -/
def maxBodyNodes : ℕ := 200000

/-- The `i64` next to a number. -/
def I64.saturate (n : ℤ) : I64 :=
  ⟨Max.max (-2 ^ 63) (Min.min (2 ^ 63 - 1) n), le_max_left _ _, max_lt (by norm_num) (min_lt_of_left_lt (by norm_num))⟩

/-- `integer_in`. -/
def integerIn (next : σ → UInt64 × σ) (minimum maximum : Option I64) (rng : σ) : I64 × σ :=
  let low := minimum.getD (.saturate 0)
  let high := maximum.getD (.saturate (low + 999))
  if high.1 ≤ low.1 then (low, rng)
  else
    let span := Min.min ((high.1 - low.1).natAbs + 1) (2 ^ 64 - 1)
    let (n, rng) := next rng
    -- an offset past `i64::MAX` is none
    let offset := if n.toNat % span < 2 ^ 63 then n.toNat % span else 0
    (.saturate (low + offset), rng)

/-- The number of a schema without an enumeration. -/
def numberIn (L : Floats F) (next : σ → UInt64 × σ) (minimum maximum : Option F) (rng : σ) : F × σ :=
  let low := minimum.getD (L.ofInt 0)
  let high := maximum.getD (L.add low (L.ofInt 1000))
  let span := L.max (L.sub high low) (L.ofInt 0)
  let (n, rng) := next rng
  let offset := L.div (L.ofInt (n.toNat % 100000 : ℕ)) (L.ofInt 100000)
  let scaled := L.div (L.round (L.mul (L.add low (L.mul span offset)) (L.ofInt 100))) (L.ofInt 100)
  (if L.isFinite scaled then scaled else if L.isFinite low then low else L.ofInt 0, rng)

/-- A number in hex, of at least a width. -/
def hexPadded (width n : ℕ) : String :=
  let digits := Nat.toDigits 16 n
  String.ofList (List.replicate (width - digits.length) '0' ++ digits)

def base64Alphabet : List Char := "ABCDEFGHIJKLMNOPQRSTUVWXYZabcdefghijklmnopqrstuvwxyz0123456789+/".toList

/-- `base64_of`, of a list of bytes. -/
def base64Of : List ℕ → List Char
  | [] => []
  | [b0] =>
    let triple := b0 * 65536
    [base64Alphabet.getD (triple / 262144 % 64) 'A', base64Alphabet.getD (triple / 4096 % 64) 'A', '=', '=']
  | [b0, b1] =>
    let triple := b0 * 65536 + b1 * 256
    [base64Alphabet.getD (triple / 262144 % 64) 'A', base64Alphabet.getD (triple / 4096 % 64) 'A',
      base64Alphabet.getD (triple / 64 % 64) 'A', '=']
  | b0 :: b1 :: b2 :: rest =>
    let triple := b0 * 65536 + b1 * 256 + b2
    base64Alphabet.getD (triple / 262144 % 64) 'A' :: base64Alphabet.getD (triple / 4096 % 64) 'A' ::
      base64Alphabet.getD (triple / 64 % 64) 'A' :: base64Alphabet.getD (triple % 64) 'A' :: base64Of rest

/-- `text`: a number is drawn for a fixed text too. -/
def textOf (next : σ → UInt64 × σ) (format : TextFormat) (rng : σ) : String × σ :=
  let (u, rng) := next rng
  let n := u.toNat
  (match format with
    | .date => "2024-01-01"
    | .dateTime => "2024-01-01T00:00:00Z"
    | .uuid => hexPadded 8 (n % 2 ^ 32) ++ "-" ++ hexPadded 4 (n / 2 ^ 8 % 2 ^ 16) ++ "-4" ++
        hexPadded 3 (n / 2 ^ 16 % 2 ^ 12) ++ "-a" ++ hexPadded 3 (n / 2 ^ 28 % 2 ^ 12) ++ "-" ++
        hexPadded 12 (n % 2 ^ 48)
    | .email => "user" ++ hexPadded 4 (n % 2 ^ 16) ++ "@example.com"
    | .byte => String.ofList (base64Of (("bytes-" ++ hexPadded 4 (n % 2 ^ 16)).toUTF8.toList.map UInt8.toNat))
    | .plain => "string-" ++ hexPadded 4 (n % 2 ^ 16), rng)

/-- `Value::from` of an `f64`. -/
def ofFloat (L : Floats F) (x : F) : Value F := if L.isFinite x then .float x else .null

/-- `Map::insert`. -/
def putMember (members : List (String × Value F)) (name : String) (value : Value F) : List (String × Value F) :=
  if name ∈ members.map Prod.fst then
    members.map fun old => if old.1 = name then (name, value) else old
  else members ++ [(name, value)]

/-- As many values as are asked for, while the budget lasts. -/
def renderMany (render : Draw σ → Value F × Draw σ) : ℕ → Draw σ → List (Value F) × Draw σ
  | 0, draw => ([], draw)
  | count + 1, draw =>
    if draw.budget = 0 then ([], draw)
    else
      let (value, draw) := render draw
      let (values, draw) := renderMany render count draw
      (value :: values, draw)

mutual

/-- `render`. -/
def render (L : Floats F) (next : σ → UInt64 × σ) : SchemaNode F → Draw σ → Value F × Draw σ
  | .mk _ shape, draw =>
    if draw.budget = 0 then (.null, draw)
    else renderShape L next shape { draw with budget := draw.budget - 1 }

def renderShape (L : Floats F) (next : σ → UInt64 × σ) : SchemaShape F → Draw σ → Value F × Draw σ
  | .unconstrained, draw => (.null, draw)
  | .boolean, draw =>
    let (n, rng) := next draw.rng
    (.bool (n.toNat % 2 = 1), { draw with rng })
  | .integer minimum maximum [], draw =>
    let (n, rng) := integerIn next minimum maximum draw.rng
    (.int n, { draw with rng })
  | .integer _ _ (first :: rest), draw =>
    let (n, draw) := choose next first rest draw
    (.int n, draw)
  | .number minimum maximum [], draw =>
    let (x, rng) := numberIn L next minimum maximum draw.rng
    (ofFloat L x, { draw with rng })
  | .number _ _ (first :: rest), draw =>
    let (x, draw) := choose next first rest draw
    (ofFloat L x, draw)
  | .text format [], draw =>
    let (s, rng) := textOf next format draw.rng
    (.string s, { draw with rng })
  | .text _ (first :: rest), draw =>
    let (s, draw) := choose next first rest draw
    (.string s, draw)
  | .array items minItems, draw =>
    let (values, draw) := renderMany (render L next items) (Min.min minItems maxArrayItems) draw
    (.array values, draw)
  | .object properties _, draw =>
    let (members, draw) := renderProperties L next properties [] draw
    (.object members, draw)

/-- The properties of an object, while the budget lasts. -/
def renderProperties (L : Floats F) (next : σ → UInt64 × σ) :
    List (String × SchemaNode F) → List (String × Value F) → Draw σ → List (String × Value F) × Draw σ
  | [], members, draw => (members, draw)
  | (name, node) :: rest, members, draw =>
    if draw.budget = 0 then (members, draw)
    else
      let (value, draw) := render L next node draw
      renderProperties L next rest (putMember members name value) draw

end

/-- `synthesize`. -/
def synthesize (L : Floats F) (next : σ → UInt64 × σ) (node : SchemaNode F) (rng : σ) (budget : ℕ) : Value F × ℕ :=
  let (value, draw) := render L next node { rng, budget }
  (value, draw.budget)

/-! ## Validation -/

inductive ViolationKind where
  | unknownStatus
  | missingRequired
  | typeMismatch
  | notInEnum
  deriving DecidableEq, Repr

structure Violation where
  /-- A JSON pointer to the value; empty for the whole body. -/
  pointer : String
  kind : ViolationKind
  detail : String
  deriving DecidableEq, Repr

/-- `Display` of a violation. -/
def Violation.show (violation : Violation) : String :=
  (if violation.pointer = "" then "(body)" else violation.pointer) ++ ": " ++ violation.detail

/-- `type_name`. -/
def typeName : Value F → String
  | .null => "null"
  | .bool _ => "boolean"
  | .float _ => "number"
  | .int _ => "integer"
  | .string _ => "string"
  | .array _ => "array"
  | .object _ => "object"

def mismatch (pointer expected : String) (actual : Value F) : Violation where
  pointer := pointer
  kind := .typeMismatch
  detail := "expected " ++ expected ++ ", found " ++ typeName actual

def notInEnum (U : SpecUpstream F) (pointer : String) (actual : Value F) : Violation where
  pointer := pointer
  kind := .notInEnum
  detail := U.display actual ++ " is not one of the declared enum values"

def missing (U : SpecUpstream F) (pointer name : String) : Violation where
  pointer := pointer
  kind := .missingRequired
  detail := "required property " ++ U.debug name ++ " is absent"

/-- `escape_pointer_token`. -/
def escapePointerToken (token : String) : String :=
  String.ofList (token.toList.flatMap fun c => if c = '~' then ['~', '0'] else if c = '/' then ['~', '1'] else [c])

/-- `as_i64`. -/
def asI64? : Value F → Option I64
  | .int n => if h : -2 ^ 63 ≤ n ∧ n < 2 ^ 63 then some ⟨n, h⟩ else none
  | _ => none

/-- `as_f64`. -/
def asF64? (L : Floats F) : Value F → Option F
  | .int n => some (L.ofInt n)
  | .float x => some x
  | _ => none

mutual

/-- `check`. -/
def check (U : SpecUpstream F) : SchemaNode F → Value F → String → List Violation
  | .mk nullable shape, value, pointer =>
    match nullable, value with
    | true, .null => []
    | _, value => checkShape U shape value pointer

def checkShape (U : SpecUpstream F) : SchemaShape F → Value F → String → List Violation
  | .unconstrained, _, _ => []
  | .boolean, value, pointer => match value with
    | .bool _ => []
    | value => [mismatch pointer "boolean" value]
  | .integer _ _ enumeration, value, pointer => match value with
    | .int n =>
      if !enumeration.isEmpty && !(asI64? (.int n : Value F)).any (· ∈ enumeration) then [notInEnum U pointer (.int n)]
      else []
    | value => [mismatch pointer "integer" value]
  | .number _ _ enumeration, value, pointer => match asF64? U.toFloats value with
    | some x =>
      if !enumeration.isEmpty && !enumeration.any (U.eq · x) then [notInEnum U pointer value] else []
    | none => [mismatch pointer "number" value]
  | .text _ enumeration, value, pointer => match value with
    | .string s => if !enumeration.isEmpty && !decide (s ∈ enumeration) then [notInEnum U pointer (.string s)] else []
    | value => [mismatch pointer "string" value]
  | .array items _, value, pointer => match value with
    | .array elements =>
      elements.zipIdx.flatMap fun element => check U items element.1 (pointer ++ "/" ++ toString element.2)
    | value => [mismatch pointer "array" value]
  | .object properties required, value, pointer => match value with
    | .object members =>
      (required.filter (· ∉ members.map Prod.fst)).map (missing U pointer) ++
        checkProperties U properties members pointer
    | value => [mismatch pointer "object" value]

/-- The properties that an object has are checked; others are open. -/
def checkProperties (U : SpecUpstream F) :
    List (String × SchemaNode F) → List (String × Value F) → String → List Violation
  | [], _, _ => []
  | (name, node) :: rest, members, pointer =>
    (match members.lookup name with
      | some present => check U node present (pointer ++ "/" ++ escapePointerToken name)
      | none => []) ++ checkProperties U rest members pointer

end

/-- `check_body`. -/
def checkBody (U : SpecUpstream F) (node : SchemaNode F) (body : Value F) : List Violation := check U node body ""

end RiftCluster.Spec
