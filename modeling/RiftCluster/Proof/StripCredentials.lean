import RiftCluster.Proof.AdminGate
import RiftCluster.Proof.RecordedIds

/-!
# No admin credential reaches an imposter

What the gateway forwards of a request's headers. A header with the fleet's key goes whole,
and so does a cookie value that cannot be read. A cookie value with the session's pair is
written anew from its other pairs: they are trimmed and joined by `"; "`, and read back as the
same names (`splitOn_join`, `pairName_trim`). All else is passed on as it came
(`gateway_strips_credentials`).
-/

namespace RiftCluster.Front

open Auth (utf8)

/-! ## Headers -/

namespace Headers

variable (headers : Headers) {name name' : String}

theorem getAll_remove : (headers.remove name').getAll name = if name = name' then [] else headers.getAll name := by
  unfold remove getAll
  rw [List.filter_filter]
  split
  · rename_i heq
    rw [List.map_eq_nil_iff, List.filter_eq_nil_iff]
    intro header _
    simp [heq]
  · rename_i hne
    congr 1
    apply List.filter_congr
    intro header _
    by_cases h : header.1 = name
    · simp [h, hne]
    · simp [h]

theorem getAll_appendAll (values : List (List UInt8)) :
    (values.foldl (fun headers value => append headers name' value) headers).getAll name =
      headers.getAll name ++ if name = name' then values else [] := by
  induction values generalizing headers with
  | nil => simp
  | cons value values ih =>
    rw [List.foldl_cons, ih]
    by_cases h : name = name'
    · simp [getAll, append, h]
    · simp [getAll, append, h, Ne.symm h]

theorem get_eq_head : headers.get name = (headers.getAll name).head? := by
  induction headers with
  | nil => rfl
  | cons header headers ih =>
    obtain ⟨n, value⟩ := header
    unfold get getAll at ih ⊢
    by_cases h : n = name
    · simp [List.lookup, h]
    · have hbeq : (name == n) = false := by simpa using Ne.symm h
      rw [List.lookup, hbeq, List.filter_cons_of_neg (by simpa using h)]
      exact ih

end Headers

/-! ## The key -/

theorem getAll_stripAdminBearer (headers : Headers) (apiKey : Option String) (name : String) :
    (stripAdminBearer headers apiKey).getAll name =
      if (name = "authorization" ∨ name = "x-api-key") ∧
          ∃ key ∈ apiKey, Auth.trim key.toList ≠ [] ∧ utf8 key ∈ headers.getAll name then []
      else headers.getAll name := by
  unfold stripAdminBearer
  cases hkey : apiKey.filter fun key => !(Auth.trim key.toList).isEmpty with
  | none =>
    rw [if_neg]
    rintro ⟨-, key, hmem, hblank, -⟩
    rw [Option.mem_def.1 hmem, Option.filter_some, if_pos (by simpa using hblank)] at hkey
    cases hkey
  | some expected =>
    obtain ⟨hsome, hblank⟩ := Option.filter_eq_some_iff.1 hkey
    subst hsome
    have hone : ∀ (headers : Headers) (carrier : String),
        (if (headers.getAll carrier).any (· = utf8 expected) then headers.remove carrier else headers).getAll name =
          if name = carrier ∧ utf8 expected ∈ headers.getAll name then [] else headers.getAll name := by
      intro headers carrier
      by_cases hcarries : utf8 expected ∈ headers.getAll carrier
      · rw [if_pos (by simpa using hcarries), Headers.getAll_remove]
        by_cases h : name = carrier
        · rw [if_pos h, if_pos ⟨h, h ▸ hcarries⟩]
        · rw [if_neg h, if_neg fun hc => h hc.1]
      · rw [if_neg (by simpa using hcarries), if_neg]
        rintro ⟨rfl, hmem⟩
        exact hcarries hmem
    simp only [List.foldl_cons, List.foldl_nil, hone]
    have hblank' : Auth.trim expected.toList ≠ [] := by simpa using hblank
    by_cases h1 : name = "authorization"
    · subst h1
      simp [hblank']
    · by_cases h2 : name = "x-api-key"
      · subst h2
        simp [hblank']
      · simp [h1, h2]

/-! ## Cookie pairs -/

def pairName (pair : List Char) : Option String := (cookiePair pair).map Prod.fst

def sessionPair (raw : String) : Option String :=
  (raw.toList.splitOn ';').findSome? fun pair =>
    (cookiePair pair).bind fun (name, value) => if name = sessionCookieName then some value else none

theorem sessionPair_eq_none {raw : String} :
    sessionPair raw = none ↔ ∀ pair ∈ raw.toList.splitOn ';', pairName pair ≠ some sessionCookieName := by
  unfold sessionPair pairName
  rw [List.findSome?_eq_none_iff]
  refine forall₂_congr fun pair _ => ?_
  cases cookiePair pair with
  | none => simp
  | some parts => simp

theorem dropWhile_append_cons {p : Char → Bool} {c : Char} (hc : p c = false) (l tl : List Char) :
    (l ++ c :: tl).dropWhile p = l.dropWhile p ++ c :: tl := by
  induction l with
  | nil => rw [List.nil_append, List.dropWhile_cons_of_neg (by simp [hc])]; rfl
  | cons a l ih =>
    rw [List.cons_append, List.dropWhile_cons, List.dropWhile_cons]
    split
    · exact ih
    · rfl

theorem trim_append_cons {c : Char} (hc : isWhitespace c = false) (l tl : List Char) :
    Auth.trim (l ++ c :: tl) = l.dropWhile isWhitespace ++ c :: tl.rdropWhile isWhitespace := by
  unfold Auth.trim
  rw [dropWhile_append_cons hc, List.rdropWhile, List.rdropWhile, List.reverse_append, List.reverse_cons,
    List.append_assoc, List.singleton_append, dropWhile_append_cons hc]
  simp

theorem pairName_trim (pair : List Char) : pairName (Auth.trim pair) = pairName pair := by
  by_cases heq : '=' ∈ pair
  · obtain ⟨name, value, rfl, hname⟩ := List.eq_append_cons_of_mem heq
    have hne : ∀ c ∈ name, c ≠ '=' := fun c hc hceq => hname (hceq ▸ hc)
    have hne' : ∀ c ∈ name.dropWhile isWhitespace, c ≠ '=' := fun c hc => hne c ((List.dropWhile_suffix _).subset hc)
    have hsplit : splitOnce ['='] (name ++ '=' :: value) = some (name, value) := splitOnce_append hne value
    have hsplit' : splitOnce ['='] (name.dropWhile isWhitespace ++ '=' :: value.rdropWhile isWhitespace) =
        some (name.dropWhile isWhitespace, value.rdropWhile isWhitespace) := splitOnce_append hne' _
    have htrim : Auth.trim (name.dropWhile isWhitespace) = Auth.trim name := by
      rw [Auth.trim, List.dropWhile_idempotent]
      rfl
    rw [trim_append_cons (by decide), pairName, pairName, cookiePair, cookiePair, hsplit, hsplit']
    simp [htrim]
  · have hne : ∀ c ∈ pair, c ≠ '=' := fun c hc hceq => heq (hceq ▸ hc)
    have hne' : ∀ c ∈ Auth.trim pair, c ≠ '=' := fun c hc => hne c ((Auth.trim_sublist pair).subset hc)
    rw [pairName, pairName, cookiePair, cookiePair, splitOnce_none hne, splitOnce_none hne']

theorem pairName_blank (pair : List Char) : pairName (' ' :: pair) = pairName pair := by
  have htrim : Auth.trim (' ' :: pair) = Auth.trim pair := by
    rw [Auth.trim, List.dropWhile_cons_of_pos (by decide)]
    rfl
  rw [← pairName_trim (' ' :: pair), htrim, pairName_trim]

theorem notMem_of_mem_splitOn {c : Char} {l piece : List Char} (h : piece ∈ l.splitOn c) : c ∉ piece := by
  induction l generalizing piece with
  | nil =>
    rw [List.splitOn, List.splitOnP_nil, List.mem_singleton] at h
    rw [h]
    exact List.not_mem_nil
  | cons a l ih =>
    rw [List.splitOn, List.splitOnP_cons_eq_if_modifyHead] at h
    by_cases ha : a = c
    · rw [if_pos (by simpa using ha), List.mem_cons] at h
      rcases h with rfl | h
      · exact List.not_mem_nil
      · exact ih h
    · rw [if_neg (by simpa using ha)] at h
      cases hsplit : l.splitOnP (· == c) with
      | nil => rw [hsplit] at h; cases h
      | cons first rest =>
        rw [hsplit, List.modifyHead_cons, List.mem_cons] at h
        have hmem : ∀ p ∈ first :: rest, c ∉ p := fun p hp => ih (by rw [List.splitOn, hsplit]; exact hp)
        rcases h with rfl | h
        · rw [List.mem_cons, not_or]
          exact ⟨Ne.symm ha, hmem first List.mem_cons_self⟩
        · exact hmem piece (List.mem_cons_of_mem _ h)

theorem splitOn_join {piece : List Char} {pieces : List (List Char)} (h : ∀ p ∈ piece :: pieces, ';' ∉ p) :
    (List.intercalate [';', ' '] (piece :: pieces)).splitOn ';' = piece :: pieces.map (' ' :: ·) := by
  have hjoin : ∀ (p : List Char) (ps : List (List Char)),
      List.intercalate [';', ' '] (p :: ps) = List.intercalate [';'] (p :: ps.map (' ' :: ·)) := by
    intro p ps
    induction ps generalizing p with
    | nil => rfl
    | cons q ps ih =>
      have hq := ih q
      cases ps with
      | nil => simp [List.intercalate]
      | cons r ps =>
        simp only [List.intercalate, List.intersperse, List.map_cons, List.flatten_cons,
          List.cons_append] at hq ⊢
        rw [hq]
        simp
  rw [hjoin]
  refine List.splitOn_intercalate ';' ?_ (List.cons_ne_nil _ _)
  intro p hp
  rcases List.mem_cons.1 hp with rfl | hp
  · exact h p List.mem_cons_self
  · obtain ⟨q, hq, rfl⟩ := List.mem_map.1 hp
    rw [List.mem_cons, not_or]
    exact ⟨by decide, h q (List.mem_cons_of_mem _ hq)⟩

/-! ## Cookie values -/

theorem stripCookieValue_clean {value : List UInt8} {raw : String} (hread : toStr value = some raw)
    (hclean : sessionPair raw = none) : stripCookieValue value = some value := by
  have hnone : (((raw.toList.splitOn ';').map Auth.trim).any fun pair => pairName pair = some sessionCookieName) =
      false := by
    rw [List.any_eq_false]
    intro pair hpair
    obtain ⟨whole, hwhole, rfl⟩ := List.mem_map.1 hpair
    rw [pairName_trim, decide_eq_true_eq]
    exact sessionPair_eq_none.1 hclean whole hwhole
  unfold stripCookieValue
  rw [hread, Option.bind_some]
  exact if_pos (by rw [Bool.not_eq_true']; exact hnone)

def otherPairs (text : String) : List (List Char) :=
  ((text.toList.splitOn ';').map Auth.trim).filter fun pair => (pairName pair).any (· ≠ sessionCookieName)

theorem otherPairs_spec {text : String} {p : List Char} (hp : p ∈ otherPairs text) :
    ';' ∉ p ∧ pairName p ≠ some sessionCookieName := by
  obtain ⟨hmem, hother⟩ := List.mem_filter.1 hp
  obtain ⟨whole, hwhole, rfl⟩ := List.mem_map.1 hmem
  refine ⟨fun hsep => notMem_of_mem_splitOn hwhole ((Auth.trim_sublist whole).subset hsep), fun hname => ?_⟩
  rw [hname] at hother
  simp at hother

/-- **No value that is passed on has the pair.** -/
theorem stripCookieValue_none {value value' : List UInt8} {raw : String} (h : stripCookieValue value = some value')
    (hread : toStr value' = some raw) : sessionPair raw = none := by
  unfold stripCookieValue at h
  obtain ⟨text, htext, h⟩ := Option.bind_eq_some_iff.1 h
  dsimp only at h
  split at h
  · -- the pair was not there
    rename_i hnone
    cases h
    rw [hread] at htext
    cases htext
    rw [Bool.not_eq_true', List.any_eq_false] at hnone
    rw [sessionPair_eq_none]
    intro pair hpair hname
    rw [← pairName_trim] at hname
    exact hnone _ (List.mem_map_of_mem hpair) (by simpa [pairName] using hname)
  · split at h
    · cases h
    · rename_i hsome
      cases h
      have hraw : raw.toList = List.intercalate [';', ' '] (otherPairs text) := by
        rw [Auth.utf8_inj (utf8_of_toStr hread), String.toList_ofList]
        rfl
      have hpieces : ∀ p ∈ otherPairs text, ';' ∉ p ∧ pairName p ≠ some sessionCookieName := fun p => otherPairs_spec
      change ¬ (otherPairs text).isEmpty = true at hsome
      rw [sessionPair_eq_none, hraw]
      cases hpairs : otherPairs text with
      | nil => rw [hpairs] at hsome; exact absurd rfl hsome
      | cons piece pieces =>
        rw [hpairs] at hpieces
        rw [splitOn_join fun p hp => (hpieces p hp).1]
        intro p hp
        rcases List.mem_cons.1 hp with rfl | hp
        · exact (hpieces p List.mem_cons_self).2
        · obtain ⟨q, hq, rfl⟩ := List.mem_map.1 hp
          rw [pairName_blank]
          exact (hpieces q (List.mem_cons_of_mem _ hq)).2

theorem getAll_stripSessionCookie (headers : Headers) (name : String) :
    (stripSessionCookie headers).getAll name =
      if name = "cookie" then (headers.getAll "cookie").filterMap stripCookieValue else headers.getAll name := by
  rw [stripSessionCookie, Headers.getAll_appendAll, Headers.getAll_remove]
  split
  · rfl
  · exact List.append_nil _

/-! ## What is forwarded -/

/-- A cookie value that can be read and has no pair of the session. -/
def cleanCookie (value : List UInt8) : Bool := (toStr value).any fun raw => sessionPair raw = none

/-- **No admin credential reaches an imposter, and nothing else is touched.** -/
theorem gateway_strips_credentials (headers : Headers) (apiKey : Option String) :
    (∀ key ∈ apiKey, Auth.trim key.toList ≠ [] → ∀ carrier ∈ ["authorization", "x-api-key"],
        utf8 key ∉ (stripSessionCookie (stripAdminBearer headers apiKey)).getAll carrier) ∧
      (∀ key ∈ apiKey, bearerVerdict (stripSessionCookie (stripAdminBearer headers apiKey)) key ≠ .accepted) ∧
      (∀ value ∈ (stripSessionCookie (stripAdminBearer headers apiKey)).getAll "cookie",
        ∀ raw, toStr value = some raw → sessionPair raw = none) ∧
      (∀ name, name ∉ ["authorization", "x-api-key", "cookie"] →
        (stripSessionCookie (stripAdminBearer headers apiKey)).getAll name = headers.getAll name) ∧
      (∀ carrier ∈ ["authorization", "x-api-key"], (∀ key ∈ apiKey, utf8 key ∉ headers.getAll carrier) →
        (stripSessionCookie (stripAdminBearer headers apiKey)).getAll carrier = headers.getAll carrier) ∧
      ((headers.getAll "cookie").filter cleanCookie).Sublist
        ((stripSessionCookie (stripAdminBearer headers apiKey)).getAll "cookie") := by
  have hcarrier : ∀ carrier ∈ ["authorization", "x-api-key"],
      (stripSessionCookie (stripAdminBearer headers apiKey)).getAll carrier =
        (stripAdminBearer headers apiKey).getAll carrier := by
    intro carrier hmem
    rw [getAll_stripSessionCookie, if_neg]
    rintro rfl
    simp at hmem
  have hcookie : (stripSessionCookie (stripAdminBearer headers apiKey)).getAll "cookie" =
      (headers.getAll "cookie").filterMap stripCookieValue := by
    rw [getAll_stripSessionCookie, if_pos rfl, getAll_stripAdminBearer, if_neg (by simp)]
  have hkeyless : ∀ key ∈ apiKey, Auth.trim key.toList ≠ [] → ∀ carrier ∈ ["authorization", "x-api-key"],
      utf8 key ∉ (stripSessionCookie (stripAdminBearer headers apiKey)).getAll carrier := by
    intro key hkey hblank carrier hmem hin
    rw [hcarrier carrier hmem, getAll_stripAdminBearer] at hin
    split at hin
    · cases hin
    · rename_i hkept
      exact hkept ⟨by simpa using hmem, key, hkey, hblank, hin⟩
  refine ⟨hkeyless, ?_, ?_, ?_, ?_, ?_⟩
  · intro key hkey haccepted
    -- the verdict reads the first value of one of the two
    let req : AdminRequest :=
      { method := .get, path := "", headers := stripSessionCookie (stripAdminBearer headers apiKey) }
    have hreq : bearerVerdict req.headers key = .accepted := haccepted
    obtain ⟨hcarries, hblank, -⟩ := bearerVerdict_accepted.1 hreq
    rw [CarriesKey, Option.or_eq_some_iff, Headers.get_eq_head, Headers.get_eq_head] at hcarries
    rcases hcarries with hfirst | ⟨-, hfirst⟩
    · exact hkeyless key hkey hblank "authorization" (by simp) (List.mem_of_head? hfirst)
    · exact hkeyless key hkey hblank "x-api-key" (by simp) (List.mem_of_head? hfirst)
  · intro value hvalue raw hread
    rw [hcookie] at hvalue
    obtain ⟨before, -, hstrip⟩ := List.mem_filterMap.1 hvalue
    exact stripCookieValue_none hstrip hread
  · intro name hname
    simp only [List.mem_cons, List.not_mem_nil, or_false, not_or] at hname
    rw [getAll_stripSessionCookie, if_neg hname.2.2, getAll_stripAdminBearer, if_neg]
    rintro ⟨h | h, -⟩
    · exact hname.1 h
    · exact hname.2.1 h
  · intro carrier hmem hnone
    rw [hcarrier carrier hmem, getAll_stripAdminBearer, if_neg]
    rintro ⟨-, key, hkey, -, hin⟩
    exact hnone key hkey hin
  · rw [hcookie]
    induction headers.getAll "cookie" with
    | nil => exact List.Sublist.slnil
    | cons value values ih =>
      by_cases hclean : cleanCookie value = true
      · obtain ⟨raw, hread, hpair⟩ := (Option.any_eq_true _ _).1 hclean
        have hkept := stripCookieValue_clean hread (of_decide_eq_true hpair)
        rw [List.filter_cons_of_pos hclean, List.filterMap_cons_some hkept]
        exact ih.cons_cons value
      · rw [List.filter_cons_of_neg hclean]
        refine ih.trans ?_
        rw [List.filterMap_cons]
        split
        · exact List.Sublist.refl _
        · exact List.sublist_cons_self _ _

end RiftCluster.Front
