import Mathlib

/-!
# JSON texts

JSON documents, their compact text and a reader for it. The reader takes what the
writer writes: no blanks between tokens and integers only.

* `Json.read_write`: reading the text of a document gives the document back.
* `Wire`: a type with an encoding into documents and a decoder that goes with it;
  `field` reads one member of an object.
-/

namespace JsonText

mutual

/-- A document. -/
inductive Json where
  | null
  | bool (b : Bool)
  | num (n : ℤ)
  | str (s : String)
  | arr (xs : Elems)
  | obj (fs : Fields)

/-- The elements of an array. -/
inductive Elems where
  | nil
  | cons (x : Json) (xs : Elems)

/-- The members of an object, in the order they are written. -/
inductive Fields where
  | nil
  | cons (k : String) (x : Json) (fs : Fields)

end

/-! ## Strings -/

/-- The letter that escapes a character, of those that have one. -/
def letterOf : Char → Option Char
  | '"' => some '"'
  | '\\' => some '\\'
  | '\x08' => some 'b'
  | '\x0c' => some 'f'
  | '\n' => some 'n'
  | '\r' => some 'r'
  | '\t' => some 't'
  | _ => none

def ofLetter : Char → Option Char
  | '"' => some '"'
  | '\\' => some '\\'
  | '/' => some '/'
  | 'b' => some '\x08'
  | 'f' => some '\x0c'
  | 'n' => some '\n'
  | 'r' => some '\r'
  | 't' => some '\t'
  | _ => none

def escape (c : Char) : List Char :=
  match letterOf c with
  | some e => ['\\', e]
  | none =>
    if c.toNat < 32 then ['\\', 'u', '0', '0', Nat.digitChar (c.toNat / 16), Nat.digitChar (c.toNat % 16)]
    else [c]

def hexVal (c : Char) : Option ℕ := (List.range 16).find? fun d => Nat.digitChar d == c

/-- The rest of a string after its opening quote, and what follows it. -/
def readString : List Char → Option (List Char × List Char)
  | [] => none
  | '"' :: cs => some ([], cs)
  | '\\' :: 'u' :: a :: b :: c :: d :: cs => do
    let x := 4096 * (← hexVal a) + 256 * (← hexVal b) + 16 * (← hexVal c) + (← hexVal d)
    let (s, rest) ← readString cs
    return (Char.ofNat x :: s, rest)
  | '\\' :: e :: cs => do
    let c ← ofLetter e
    let (s, rest) ← readString cs
    return (c :: s, rest)
  | c :: cs => do
    if c.toNat < 32 then none
    let (s, rest) ← readString cs
    return (c :: s, rest)

theorem ofLetter_of_letterOf {c e : Char} (h : letterOf c = some e) : ofLetter e = some c ∧ e ≠ 'u' := by
  unfold letterOf at h
  split at h <;> cases h <;> exact ⟨rfl, by decide⟩

theorem hexVal_digitChar (d : ℕ) (h : d < 16) : hexVal (Nat.digitChar d) = some d := by
  have : ∀ d : Fin 16, hexVal (Nat.digitChar d) = some d.1 := by decide
  exact this ⟨d, h⟩

theorem readString_escape (c : Char) (cs : List Char) :
    readString (escape c ++ cs) = (readString cs).map fun r => (c :: r.1, r.2) := by
  unfold escape
  cases hl : letterOf c with
  | some e =>
    obtain ⟨he, hu⟩ := ofLetter_of_letterOf hl
    show readString ('\\' :: e :: cs) = _
    rw [readString]
    · rw [he]
      cases readString cs <;> rfl
    · rintro _ _ _ _ _ rfl; exact absurd rfl hu
  | none =>
    dsimp only
    split_ifs with hc
    · have hhi : hexVal (Nat.digitChar (c.toNat / 16)) = some (c.toNat / 16) := hexVal_digitChar _ (by omega)
      have hlo : hexVal (Nat.digitChar (c.toNat % 16)) = some (c.toNat % 16) := hexVal_digitChar _ (by omega)
      have h0 : hexVal '0' = some 0 := by decide
      have hval : Char.ofNat (16 * (c.toNat / 16) + c.toNat % 16) = c := by
        rw [Nat.div_add_mod, Char.ofNat_toNat]
      simp only [List.cons_append, List.nil_append, readString, h0, hhi, hlo, Option.bind_eq_bind, Option.bind_some,
        Nat.mul_zero, Nat.zero_add, hval]
      cases readString cs <;> rfl
    · have hquote : c ≠ '"' := by rintro rfl; cases hl
      have hslash : c ≠ '\\' := by rintro rfl; cases hl
      rw [List.singleton_append, readString]
      · simp only [if_neg hc]
        cases readString cs <;> rfl
      · exact hquote
      · exact fun _ _ _ _ _ h => absurd h hslash
      · exact fun _ _ h => absurd h hslash

theorem readString_flatMap (s rest : List Char) : readString (s.flatMap escape ++ '"' :: rest) = some (s, rest) := by
  induction s with
  | nil => rfl
  | cons c s ih => rw [List.flatMap_cons, List.append_assoc, readString_escape, ih]; rfl

/-! ## Numbers -/

def readNat (cs : List Char) : Option (ℕ × List Char) :=
  match cs.takeWhile Char.isDigit with
  | [] => none
  | d :: ds => some (Nat.ofDigitChars 10 (d :: ds) 0, cs.dropWhile Char.isDigit)

def Ends (rest : List Char) : Prop := ∀ c ∈ rest.head?, Char.isDigit c = false

theorem readNat_toDigits (n : ℕ) {rest : List Char} (hr : Ends rest) :
    readNat (Nat.toDigits 10 n ++ rest) = some (n, rest) := by
  have hall : ∀ c ∈ Nat.toDigits 10 n, c.isDigit = true := fun c =>
    Nat.isDigit_of_mem_toDigits (by decide) (by decide)
  have htake : (Nat.toDigits 10 n ++ rest).takeWhile Char.isDigit = Nat.toDigits 10 n := by
    rw [List.takeWhile_append_of_pos hall]
    cases rest with
    | nil => simp
    | cons c rest => simp [hr c rfl]
  have hdrop : (Nat.toDigits 10 n ++ rest).dropWhile Char.isDigit = rest := by
    rw [List.dropWhile_append_of_pos hall]
    cases rest with
    | nil => rfl
    | cons c rest => simp [hr c rfl]
  unfold readNat
  rw [htake, hdrop]
  cases hd : Nat.toDigits 10 n with
  | nil => exact absurd hd Nat.toDigits_ne_nil
  | cons d ds => simp only [← hd, Nat.ofDigitChars_toDigits (by decide : 1 < 10) (by decide)]

/-! ## Texts -/

/-- The characters of UTF-8 bytes, by recursion on the bytes: `String.toList` does not
reduce well on a long text. -/
def decodeUtf8 : List UInt8 → List Char
  | [] => []
  | b :: bs =>
    if b.toNat < 128 then Char.ofNat b.toNat :: decodeUtf8 bs
    else if b.toNat < 224 then
      match bs with
      | b₁ :: bs => Char.ofNat ((b.toNat - 192) * 64 + (b₁.toNat - 128)) :: decodeUtf8 bs
      | [] => []
    else if b.toNat < 240 then
      match bs with
      | b₁ :: b₂ :: bs => Char.ofNat ((b.toNat - 224) * 4096 + (b₁.toNat - 128) * 64 + (b₂.toNat - 128)) :: decodeUtf8 bs
      | _ => []
    else
      match bs with
      | b₁ :: b₂ :: b₃ :: bs =>
        Char.ofNat ((b.toNat - 240) * 262144 + (b₁.toNat - 128) * 4096 + (b₂.toNat - 128) * 64 + (b₃.toNat - 128)) ::
          decodeUtf8 bs
      | _ => []

theorem decodeUtf8_char (c : Char) (bs : List UInt8) :
    decodeUtf8 (String.utf8EncodeChar c ++ bs) = c :: decodeUtf8 bs := by
  have hc : ∀ n, n = c.val.toNat → Char.ofNat n = c := by
    rintro _ rfl
    exact Char.ofNat_toNat c
  have hmax : c.val.toNat < 1114112 := by
    rcases c.valid with h | h
    · exact lt_trans h (by decide)
    · exact h.2
  unfold String.utf8EncodeChar
  dsimp only
  split
  · rw [List.singleton_append, decodeUtf8.eq_def]
    simp only [UInt8.toNat_ofNat']
    rw [if_pos (by omega), hc _ (by omega)]
  · split
    · simp only [List.cons_append, List.nil_append, decodeUtf8, UInt8.toNat_ofNat']
      rw [if_neg (by omega), if_pos (by omega), hc _ (by omega)]
    · split
      · simp only [List.cons_append, List.nil_append, decodeUtf8, UInt8.toNat_ofNat']
        rw [if_neg (by omega), if_neg (by omega), if_pos (by omega), hc _ (by omega)]
      · simp only [List.cons_append, List.nil_append, decodeUtf8, UInt8.toNat_ofNat']
        rw [if_neg (by omega), if_neg (by omega), if_neg (by omega), hc _ (by omega)]

theorem decodeUtf8_encode (cs : List Char) : decodeUtf8 (cs.flatMap String.utf8EncodeChar) = cs := by
  induction cs with
  | nil => rfl
  | cons c cs ih => rw [List.flatMap_cons, decodeUtf8_char, ih]

def textChars (t : String) : List Char := decodeUtf8 t.toByteArray.data.toList

@[simp] theorem textChars_ofList (cs : List Char) : textChars (String.ofList cs) = cs := by
  have : (String.ofList cs).toByteArray.data.toList = cs.flatMap String.utf8EncodeChar := by
    simp [String.ofList, List.utf8Encode]
  rw [textChars, this, decodeUtf8_encode]

@[simp] theorem ofList_textChars (t : String) : String.ofList (textChars t) = t := by
  rw [← String.ofList_toList (s := t), textChars_ofList]

/-! ## Documents -/

def writeString (s : String) : List Char := '"' :: ((textChars s).flatMap escape ++ ['"'])

def writeInt : ℤ → List Char
  | .ofNat n => Nat.toDigits 10 n
  | .negSucc n => '-' :: Nat.toDigits 10 (n + 1)

mutual

def Json.chars : Json → List Char
  | .null => ['n', 'u', 'l', 'l']
  | .bool true => ['t', 'r', 'u', 'e']
  | .bool false => ['f', 'a', 'l', 's', 'e']
  | .num n => writeInt n
  | .str s => writeString s
  | .arr .nil => ['[', ']']
  | .arr (.cons x xs) => '[' :: (x.chars ++ xs.chars)
  | .obj .nil => ['\x7b', '\x7d']
  | .obj (.cons k x fs) => '\x7b' :: (writeString k ++ ':' :: (x.chars ++ fs.chars))

/-- The elements after the first, and the closing bracket. -/
def Elems.chars : Elems → List Char
  | .nil => [']']
  | .cons x xs => ',' :: (x.chars ++ xs.chars)

def Fields.chars : Fields → List Char
  | .nil => ['\x7d']
  | .cons k x fs => ',' :: (writeString k ++ ':' :: (x.chars ++ fs.chars))

end

def Json.write (j : Json) : String := String.ofList j.chars

def expect (word : List Char) (j : Json) (cs : List Char) : Option (Json × List Char) :=
  if word.isPrefixOf cs then some (j, cs.drop word.length) else none

mutual

/-- A document at the head of a text; every nesting takes one of `fuel`. -/
def readValue : ℕ → List Char → Option (Json × List Char)
  | 0, _ | _, [] => none
  | fuel + 1, c :: cs =>
    if c = 'n' then expect ['u', 'l', 'l'] .null cs
    else if c = 't' then expect ['r', 'u', 'e'] (.bool true) cs
    else if c = 'f' then expect ['a', 'l', 's', 'e'] (.bool false) cs
    else if c = '"' then (readString cs).map fun r => (.str (String.ofList r.1), r.2)
    else if c = '-' then (readNat cs).map fun r => (.num (-r.1), r.2)
    else if c = '[' then
      if cs.head? = some ']' then some (.arr .nil, cs.tail)
      else do
        let (x, cs) ← readValue fuel cs
        let (xs, cs) ← readElems fuel cs
        return (.arr (.cons x xs), cs)
    else if c = '\x7b' then
      if cs.head? = some '\x7d' then some (.obj .nil, cs.tail)
      else do
        let ((k, x), cs) ← readField fuel cs
        let (fs, cs) ← readFields fuel cs
        return (.obj (.cons k x fs), cs)
    else (readNat (c :: cs)).map fun r => (.num r.1, r.2)

def readElems : ℕ → List Char → Option (Elems × List Char)
  | 0, _ | _, [] => none
  | fuel + 1, c :: cs =>
    if c = ']' then some (.nil, cs)
    else if c = ',' then do
      let (x, cs) ← readValue fuel cs
      let (xs, cs) ← readElems fuel cs
      return (.cons x xs, cs)
    else none

def readField : ℕ → List Char → Option ((String × Json) × List Char)
  | 0, _ => none
  | fuel + 1, cs => do
    if cs.head? ≠ some '"' then none
    let (k, cs) ← readString cs.tail
    if cs.head? ≠ some ':' then none
    let (x, cs) ← readValue fuel cs.tail
    return ((String.ofList k, x), cs)

def readFields : ℕ → List Char → Option (Fields × List Char)
  | 0, _ | _, [] => none
  | fuel + 1, c :: cs =>
    if c = '\x7d' then some (.nil, cs)
    else if c = ',' then do
      let ((k, x), cs) ← readField fuel cs
      let (fs, cs) ← readFields fuel cs
      return (.cons k x fs, cs)
    else none

end

/-! ## Reading what was written -/

theorem readString_writeString (s : String) (rest : List Char) :
    readString ((textChars s).flatMap escape ++ ['"'] ++ rest) = some (textChars s, rest) := by
  rw [List.append_assoc]
  exact readString_flatMap _ _

theorem ends_cons {c : Char} (h : c.isDigit = false) (rest : List Char) : Ends (c :: rest) := by
  intro c' hc'
  cases hc'
  exact h

theorem ends_nil : Ends [] := by
  intro c hc
  cases hc

theorem Elems.ends (xs : Elems) (rest : List Char) : Ends (xs.chars ++ rest) := by
  cases xs <;> exact ends_cons (by decide) _

theorem Fields.ends (fs : Fields) (rest : List Char) : Ends (fs.chars ++ rest) := by
  cases fs <;> exact ends_cons (by decide) _

theorem readValue_digit {fuel : ℕ} {cs : List Char} {c : Char} (hc : c.isDigit = true) :
    readValue (fuel + 1) (c :: cs) = (readNat (c :: cs)).map fun r => (.num r.1, r.2) := by
  have hne : ∀ d : Char, d.isDigit = false → c ≠ d := by
    rintro d hd rfl
    rw [hc] at hd
    cases hd
  rw [readValue, if_neg (hne _ (by decide)), if_neg (hne _ (by decide)), if_neg (hne _ (by decide)),
    if_neg (hne _ (by decide)), if_neg (hne _ (by decide)), if_neg (hne _ (by decide)), if_neg (hne _ (by decide))]

theorem Json.head_ne (j : Json) (rest : List Char) : (j.chars ++ rest).head? ≠ some ']' := by
  cases j with
  | null => simp [Json.chars]
  | bool b => cases b <;> simp [Json.chars]
  | num n =>
    cases n with
    | ofNat n =>
      intro h
      cases hd : Nat.toDigits 10 n with
      | nil => exact absurd hd Nat.toDigits_ne_nil
      | cons d ds =>
        have hmem : d ∈ Nat.toDigits 10 n := by rw [hd]; exact List.mem_cons_self
        have hdigit := Nat.isDigit_of_mem_toDigits (by decide) (by decide) hmem
        simp only [Json.chars, writeInt, hd, List.cons_append, List.head?_cons, Option.some.injEq] at h
        subst h
        cases hdigit
    | negSucc n => simp [Json.chars, writeInt]
  | str s => simp [Json.chars, writeString]
  | arr xs => cases xs <;> simp [Json.chars]
  | obj fs => cases fs <;> simp [Json.chars]

theorem readValue_num (n : ℤ) {fuel : ℕ} {rest : List Char} (hr : Ends rest) :
    readValue (fuel + 1) (writeInt n ++ rest) = some (.num n, rest) := by
  cases n with
  | ofNat n =>
    have h := readNat_toDigits n hr
    simp only [writeInt]
    cases hd : Nat.toDigits 10 n with
    | nil => exact absurd hd Nat.toDigits_ne_nil
    | cons d ds =>
      have hmem : d ∈ Nat.toDigits 10 n := by rw [hd]; exact List.mem_cons_self
      rw [hd] at h
      rw [List.cons_append, readValue_digit (Nat.isDigit_of_mem_toDigits (by decide) (by decide) hmem)]
      rw [List.cons_append] at h
      rw [h]
      rfl
  | negSucc n =>
    simp only [writeInt, List.cons_append, readValue]
    rw [if_neg (by decide), if_neg (by decide), if_neg (by decide), if_neg (by decide), if_pos trivial,
      readNat_toDigits _ hr]
    rfl

theorem readField_chars {k : String} {x : Json} {fuel : ℕ} {rest : List Char}
    (hx : readValue fuel (x.chars ++ rest) = some (x, rest)) :
    readField (fuel + 1) (writeString k ++ ':' :: (x.chars ++ rest)) = some ((k, x), rest) := by
  have hs := readString_writeString k (':' :: (x.chars ++ rest))
  simp only [readField, writeString, List.cons_append, List.head?_cons, ne_eq, not_true_eq_false, if_false,
    List.tail_cons, hs, Option.bind_eq_bind, Option.bind_some, hx, ofList_textChars]
  rfl

mutual

theorem readValue_chars : ∀ (j : Json) (fuel : ℕ) (rest : List Char), j.chars.length ≤ fuel → Ends rest →
    readValue fuel (j.chars ++ rest) = some (j, rest)
  | .null, fuel, rest, hf, _ => by
    obtain ⟨fuel, rfl⟩ : ∃ k, fuel = k + 1 := ⟨fuel - 1, by simp [Json.chars] at hf; omega⟩
    rfl
  | .bool true, fuel, rest, hf, _ => by
    obtain ⟨fuel, rfl⟩ : ∃ k, fuel = k + 1 := ⟨fuel - 1, by simp [Json.chars] at hf; omega⟩
    rfl
  | .bool false, fuel, rest, hf, _ => by
    obtain ⟨fuel, rfl⟩ : ∃ k, fuel = k + 1 := ⟨fuel - 1, by simp [Json.chars] at hf; omega⟩
    rfl
  | .num n, fuel, rest, hf, hr => by
    have hpos : 0 < (writeInt n).length := by
      cases n with
      | ofNat n => exact List.length_pos_iff.2 Nat.toDigits_ne_nil
      | negSucc n => simp [writeInt]
    obtain ⟨fuel, rfl⟩ : ∃ k, fuel = k + 1 := ⟨fuel - 1, by simp only [Json.chars] at hf; omega⟩
    exact readValue_num n hr
  | .str s, fuel, rest, hf, _ => by
    obtain ⟨fuel, rfl⟩ : ∃ k, fuel = k + 1 := ⟨fuel - 1, by simp [Json.chars, writeString] at hf; omega⟩
    simp only [Json.chars, writeString, List.cons_append, readValue]
    rw [if_neg (by decide), if_neg (by decide), if_neg (by decide), if_pos trivial, readString_writeString]
    simp
  | .arr .nil, fuel, rest, hf, _ => by
    obtain ⟨fuel, rfl⟩ : ∃ k, fuel = k + 1 := ⟨fuel - 1, by simp [Json.chars] at hf; omega⟩
    rfl
  | .arr (.cons x xs), fuel, rest, hf, hr => by
    simp only [Json.chars, List.length_cons, List.length_append] at hf
    obtain ⟨fuel, rfl⟩ : ∃ k, fuel = k + 1 := ⟨fuel - 1, by omega⟩
    have hx := readValue_chars x fuel (xs.chars ++ rest) (by omega) (xs.ends rest)
    have hxs := readElems_chars xs fuel rest (by omega) hr
    have hhead := x.head_ne (xs.chars ++ rest)
    simp only [Json.chars, List.cons_append, List.append_assoc, readValue]
    rw [if_neg (by decide), if_neg (by decide), if_neg (by decide), if_neg (by decide), if_neg (by decide),
      if_pos trivial, if_neg hhead, hx]
    simp only [Option.bind_eq_bind, Option.bind_some, hxs]
    rfl
  | .obj .nil, fuel, rest, hf, _ => by
    obtain ⟨fuel, rfl⟩ : ∃ k, fuel = k + 1 := ⟨fuel - 1, by simp [Json.chars] at hf; omega⟩
    rfl
  | .obj (.cons k x fs), fuel, rest, hf, hr => by
    simp only [Json.chars, List.length_cons, List.length_append] at hf
    obtain ⟨fuel, rfl⟩ : ∃ k, fuel = k + 1 + 1 := ⟨fuel - 2, by omega⟩
    have hx := readField_chars (k := k) (readValue_chars x fuel (fs.chars ++ rest) (by omega) (fs.ends rest))
    have hfs := readFields_chars fs (fuel + 1) rest (by omega) hr
    simp only [Json.chars, List.cons_append, List.append_assoc, readValue]
    rw [if_neg (by decide), if_neg (by decide), if_neg (by decide), if_neg (by decide), if_neg (by decide),
      if_neg (by decide), if_pos trivial, if_neg (by simp [writeString]), hx]
    simp only [Option.bind_eq_bind, Option.bind_some, hfs]
    rfl

theorem readElems_chars : ∀ (xs : Elems) (fuel : ℕ) (rest : List Char), xs.chars.length ≤ fuel → Ends rest →
    readElems fuel (xs.chars ++ rest) = some (xs, rest)
  | .nil, fuel, rest, hf, _ => by
    obtain ⟨fuel, rfl⟩ : ∃ k, fuel = k + 1 := ⟨fuel - 1, by simp [Elems.chars] at hf; omega⟩
    rfl
  | .cons x xs, fuel, rest, hf, hr => by
    simp only [Elems.chars, List.length_cons, List.length_append] at hf
    obtain ⟨fuel, rfl⟩ : ∃ k, fuel = k + 1 := ⟨fuel - 1, by omega⟩
    have hx := readValue_chars x fuel (xs.chars ++ rest) (by omega) (xs.ends rest)
    have hxs := readElems_chars xs fuel rest (by omega) hr
    simp only [Elems.chars, List.cons_append, List.append_assoc, readElems]
    rw [if_neg (by decide), if_pos trivial, hx]
    simp only [Option.bind_eq_bind, Option.bind_some, hxs]
    rfl

theorem readFields_chars : ∀ (fs : Fields) (fuel : ℕ) (rest : List Char), fs.chars.length ≤ fuel → Ends rest →
    readFields fuel (fs.chars ++ rest) = some (fs, rest)
  | .nil, fuel, rest, hf, _ => by
    obtain ⟨fuel, rfl⟩ : ∃ k, fuel = k + 1 := ⟨fuel - 1, by simp [Fields.chars] at hf; omega⟩
    rfl
  | .cons k x fs, fuel, rest, hf, hr => by
    simp only [Fields.chars, List.length_cons, List.length_append] at hf
    obtain ⟨fuel, rfl⟩ : ∃ k, fuel = k + 1 + 1 := ⟨fuel - 2, by omega⟩
    have hx := readField_chars (k := k) (readValue_chars x fuel (fs.chars ++ rest) (by omega) (fs.ends rest))
    have hfs := readFields_chars fs (fuel + 1) rest (by omega) hr
    simp only [Fields.chars, List.cons_append, List.append_assoc, readFields]
    rw [if_neg (by decide), if_pos trivial, hx]
    simp only [Option.bind_eq_bind, Option.bind_some, hfs]
    rfl

end

def Json.read (t : String) : Option Json :=
  match readValue (textChars t).length (textChars t) with
  | some (j, []) => some j
  | _ => none

/-- **Reading the text of a document gives the document back.** -/
@[simp] theorem Json.read_write (j : Json) : Json.read j.write = some j := by
  have h := readValue_chars j j.chars.length [] le_rfl ends_nil
  rw [List.append_nil] at h
  simp only [Json.read, Json.write, textChars_ofList, h]

/-! ## Encodings -/

def Fields.ofList : List (String × Json) → Fields
  | [] => .nil
  | (k, x) :: fs => .cons k x (ofList fs)

def Json.object (fs : List (String × Json)) : Json := .obj (.ofList fs)

def Fields.get : Fields → String → Option Json
  | .nil, _ => none
  | .cons k x fs, key => if k = key then some x else fs.get key

def Json.member (key : String) : Json → Option Json
  | .obj fs => fs.get key
  | _ => none

/-- A type with an encoding, and the decoder that goes with it. -/
class Wire (α : Type) where
  encode : α → Json
  decode : Json → Option α
  decode_encode : ∀ a, decode (encode a) = some a

attribute [simp] Wire.decode_encode

variable {α β : Type} [Wire α] [Wire β]

def Json.field (α : Type) [Wire α] (j : Json) (key : String) : Option α := (j.member key).bind Wire.decode

def Json.optional (α : Type) [Wire α] (j : Json) (key : String) : Option (Option α) :=
  match j.member key with
  | none => some none
  | some x => (Wire.decode x).map some

/-- The member of an optional value: left out if there is none. -/
def optionalMember (key : String) : Option α → List (String × Json)
  | none => []
  | some a => [(key, Wire.encode a)]

@[simp] theorem member_object_nil (key : String) : (Json.object []).member key = none := rfl

@[simp] theorem member_object_cons (k key : String) (x : Json) (fs : List (String × Json)) :
    (Json.object ((k, x) :: fs)).member key = if k = key then some x else (Json.object fs).member key := rfl

@[simp] theorem member_object_optional (k key : String) (o : Option α) (fs : List (String × Json)) :
    (Json.object (optionalMember k o ++ fs)).member key =
      if k = key then (o.map Wire.encode).or ((Json.object fs).member key) else (Json.object fs).member key := by
  cases o with
  | none => simp [optionalMember]
  | some a => simp [optionalMember]

@[simp] theorem member_object_single {k key : String} (hk : k ≠ key) (o : Option α) :
    (Json.object (optionalMember k o)).member key = none := by
  rw [← List.append_nil (optionalMember k o), member_object_optional, if_neg hk, member_object_nil]

@[simp] theorem optional_object_cons {k key : String} (hk : k ≠ key) (x : Json) (fs : List (String × Json)) :
    (Json.object ((k, x) :: fs)).optional α key = (Json.object fs).optional α key := by
  simp only [Json.optional, member_object_cons, if_neg hk]

@[simp] theorem optional_object_self {key : String} (o : Option α) {fs : List (String × Json)}
    (h : (Json.object fs).member key = none) :
    (Json.object (optionalMember key o ++ fs)).optional α key = some o := by
  rw [Json.optional, member_object_optional, if_pos rfl, h]
  cases o with
  | none => rfl
  | some a => simp

@[simp] theorem optional_object_other {k key : String} (hk : k ≠ key) (o : Option α) (fs : List (String × Json)) :
    (Json.object (optionalMember k o ++ fs)).optional β key = (Json.object fs).optional β key := by
  simp only [Json.optional, member_object_optional, if_neg hk]

@[simp] theorem optional_object_single (key : String) (o : Option α) :
    (Json.object (optionalMember key o)).optional α key = some o := by
  rw [← List.append_nil (optionalMember key o)]
  exact optional_object_self o rfl

def unlessDefault [DecidableEq α] (d a : α) : Option α := if a = d then none else some a

omit [Wire α] in
@[simp] theorem getD_unlessDefault [DecidableEq α] (d a : α) : (unlessDefault d a).getD d = a := by
  unfold unlessDefault
  split
  · exact (‹a = d›).symm
  · rfl

instance : Wire Bool where
  encode := .bool
  decode
    | .bool b => some b
    | _ => none
  decode_encode := fun _ => rfl

instance : Wire ℤ where
  encode := .num
  decode
    | .num n => some n
    | _ => none
  decode_encode := fun _ => rfl

instance : Wire ℕ where
  encode := fun n => .num n
  decode
    | .num (.ofNat n) => some n
    | _ => none
  decode_encode := fun _ => rfl

instance : Wire String where
  encode := .str
  decode
    | .str s => some s
    | _ => none
  decode_encode := fun _ => rfl

@[simp] theorem decode_bool (b : Bool) : (Wire.decode (.bool b) : Option Bool) = some b := rfl

@[simp] theorem decode_int (n : ℤ) : (Wire.decode (.num n) : Option ℤ) = some n := rfl

@[simp] theorem decode_nat (n : ℕ) : (Wire.decode (.num n) : Option ℕ) = some n := rfl

@[simp] theorem decode_str (s : String) : (Wire.decode (.str s) : Option String) = some s := rfl

def Elems.ofList (encode : α → Json) : List α → Elems
  | [] => .nil
  | a :: as => .cons (encode a) (ofList encode as)

def Elems.decode (decode : Json → Option α) : Elems → Option (List α)
  | .nil => some []
  | .cons x xs => do return (← decode x) :: (← xs.decode decode)

theorem Elems.decode_ofList (as : List α) : (Elems.ofList Wire.encode as).decode Wire.decode = some as := by
  induction as with
  | nil => rfl
  | cons a as ih => simp [Elems.ofList, Elems.decode, ih]

instance : Wire (List α) where
  encode := fun as => .arr (.ofList Wire.encode as)
  decode
    | .arr xs => xs.decode Wire.decode
    | _ => none
  decode_encode := Elems.decode_ofList

/-- A pair is an array of two. -/
instance : Wire (α × β) where
  encode := fun ab => .arr (.cons (Wire.encode ab.1) (.cons (Wire.encode ab.2) .nil))
  decode
    | .arr (.cons x (.cons y .nil)) => do return (← Wire.decode x, ← Wire.decode y)
    | _ => none
  decode_encode := fun ab => by simp

def writeText (a : α) : String := (Wire.encode a).write

def readText (α : Type) [Wire α] (t : String) : Option α := (Json.read t).bind Wire.decode

@[simp] theorem readText_writeText (a : α) : readText α (writeText a) = some a := by
  simp [readText, writeText]

end JsonText
