import RiftCluster.Proof.OpDrive

/-!
# Recordings in a stub list

* `placement_spec`: where `place_recorded_stub` puts a recording, relative to its anchor.
* `clear_idempotent_iff`: when a second clear of saved proxy responses changes nothing.

A clear looks at two marks. A stub with recorded responses loses them, and is kept for the
others; one without is kept unless it names `recordedFrom`. The first pass takes a stub
that has the second mark and both kinds of responses from the first case to the second
(`stripStub_again`), so the next clear drops it.
-/

namespace RiftCluster

open KV

variable {U : Upstream}

/-! ## Placing a recording -/

/-- The first index at or after `start` whose stub satisfies `p`. -/
def FirstFrom (stubs : List Stub) (p : Stub → Bool) (start i : ℕ) : Prop :=
  start ≤ i ∧ (∃ s, stubs[i]? = some s ∧ p s = true) ∧ ∀ j, start ≤ j → j < i → ∀ s, stubs[j]? = some s → p s = false

def NoneFrom (stubs : List Stub) (p : Stub → Bool) (start : ℕ) : Prop :=
  ∀ j, start ≤ j → ∀ s, stubs[j]? = some s → p s = false

/-- The anchor of a recording: the first stub at or after the anchor index that proxies to its
target, else the first such stub anywhere, else none. -/
inductive Anchor (stubs : List Stub) (proxyTo : String) (anchorIndex : Option ℕ) : Option ℕ → Prop
  | after {start i : ℕ} (hindex : anchorIndex = some start) (h : FirstFrom stubs (proxiesTo proxyTo) start i) :
    Anchor stubs proxyTo anchorIndex (some i)
  | anywhere {i : ℕ} (hindex : ∀ start, anchorIndex = some start → NoneFrom stubs (proxiesTo proxyTo) start)
    (h : FirstFrom stubs (proxiesTo proxyTo) 0 i) : Anchor stubs proxyTo anchorIndex (some i)
  | none (h : NoneFrom stubs (proxiesTo proxyTo) 0) : Anchor stubs proxyTo anchorIndex none

theorem findFrom_spec (stubs : List Stub) (start : ℕ) (p : Stub → Bool) :
    (∃ i, findFrom stubs start p = some i ∧ FirstFrom stubs p start i) ∨
      findFrom stubs start p = none ∧ NoneFrom stubs p start := by
  unfold findFrom
  cases h : (stubs.drop start).findIdx? p with
  | none =>
    refine .inr ⟨rfl, fun j hj s hs => ?_⟩
    have hmem : s ∈ stubs.drop start := by
      refine List.mem_of_getElem? (i := j - start) ?_
      rw [List.getElem?_drop, show start + (j - start) = j by omega]
      exact hs
    exact List.findIdx?_eq_none_iff.1 h s hmem
  | some k =>
    obtain ⟨hk, hp, hbefore⟩ := List.findIdx?_eq_some_iff_getElem.1 h
    refine .inl ⟨start + k, rfl, by omega, ⟨(stubs.drop start)[k], ?_, hp⟩, fun j hj hjk s hs => ?_⟩
    · rw [← List.getElem?_drop, List.getElem?_eq_getElem hk]
    · have hlt : j - start < k := by omega
      have hnot := hbefore (j - start) hlt
      have hget : (stubs.drop start)[j - start]? = some s := by
        rw [List.getElem?_drop, show start + (j - start) = j by omega]
        exact hs
      rw [List.getElem?_eq_getElem (by omega)] at hget
      rw [Option.some.inj hget] at hnot
      simpa using hnot

theorem findIdx?_eq_findFrom (stubs : List Stub) (p : Stub → Bool) : stubs.findIdx? p = findFrom stubs 0 p := by
  simp [findFrom]

theorem placementAnchor_spec (stubs : List Stub) (proxyTo : String) (anchorIndex : Option ℕ) :
    Anchor stubs proxyTo anchorIndex (placementAnchor stubs proxyTo anchorIndex) := by
  unfold placementAnchor
  rw [findIdx?_eq_findFrom]
  -- the search from the index, and the search from the start
  have hanywhere : ∀ _ : ∀ start, anchorIndex = some start → NoneFrom stubs (proxiesTo proxyTo) start,
      Anchor stubs proxyTo anchorIndex (findFrom stubs 0 (proxiesTo proxyTo)) := by
    intro hindex
    rcases findFrom_spec stubs 0 (proxiesTo proxyTo) with ⟨i, hi, hfirst⟩ | ⟨hi, hno⟩
    · rw [hi]; exact .anywhere hindex hfirst
    · rw [hi]; exact .none hno
  cases anchorIndex with
  | none => exact hanywhere fun _ h => nomatch h
  | some start =>
    rcases findFrom_spec stubs start (proxiesTo proxyTo) with ⟨i, hi, hfirst⟩ | ⟨hi, hno⟩
    · rw [Option.bind_some, hi]; exact .after rfl hfirst
    · rw [Option.bind_some, hi]
      exact hanywhere fun s hs => by cases hs; exact hno

theorem insertIdx_eq_append {α : Type} (a : α) {l : List α} {i : ℕ} (h : i ≤ l.length) :
    l.insertIdx i a = l.take i ++ a :: l.drop i := by
  induction i generalizing l with
  | zero => rfl
  | succ i ih =>
    cases l with
    | nil => simp at h
    | cons b l => simp [ih (show i ≤ l.length by simpa using h)]

/-- **Where a recording goes.** One stub is inserted, or the responses of one stub are extended;
the rest is as it was. Before the proxy: immediately before the anchor, or at the end. After
it: into the first later stub with the same predicates, or at the end, so never before the
anchor. -/
theorem placement_spec (stubs : List Stub) (stub : Stub) (proxyTo : String) (anchorIndex : Option ℕ) :
    ∃ anchor, Anchor stubs proxyTo anchorIndex anchor ∧
      (∃ i, i = anchor.getD stubs.length ∧ i ≤ stubs.length ∧
        placeRecordedStub stubs stub .beforeProxy proxyTo anchorIndex =
          (stubs.take i ++ stub :: stubs.drop i, .inserted i)) ∧
      (∃ result, placeRecordedStub stubs stub .afterProxyMerging proxyTo anchorIndex = result ∧
        ((∃ i target, FirstFrom stubs (fun s => s.predicates == stub.predicates) ((anchor.map (· + 1)).getD 0) i ∧
            stubs[i]? = some target ∧ (∀ a, anchor = some a → a < i) ∧
            result.1 = stubs.take i ++ { target with responses := target.responses ++ stub.responses } :: stubs.drop (i + 1)) ∨
          NoneFrom stubs (fun s => s.predicates == stub.predicates) ((anchor.map (· + 1)).getD 0) ∧
            (∀ a, anchor = some a → a < stubs.length) ∧ result = (stubs ++ [stub], .inserted stubs.length))) := by
  have hlt : ∀ a, placementAnchor stubs proxyTo anchorIndex = some a → a < stubs.length := fun _ => placementAnchor_lt
  refine ⟨placementAnchor stubs proxyTo anchorIndex, placementAnchor_spec _ _ _, ?_, _, rfl, ?_⟩
  · have hle : (placementAnchor stubs proxyTo anchorIndex).getD stubs.length ≤ stubs.length := by
      cases h : placementAnchor stubs proxyTo anchorIndex with
      | none => exact le_rfl
      | some i => exact (hlt i h).le
    refine ⟨_, rfl, hle, ?_⟩
    rw [← insertIdx_eq_append stub hle]
    rfl
  · have hsearch := findFrom_spec stubs (((placementAnchor stubs proxyTo anchorIndex).map (· + 1)).getD 0)
      fun s => s.predicates == stub.predicates
    rcases hsearch with ⟨i, hi, hfirst⟩ | ⟨hi, hno⟩
    · have hmerge : mergeTarget stubs stub proxyTo anchorIndex = some i := hi
      have hilt : i < stubs.length := findFrom_lt hi
      refine .inl ⟨i, stubs[i], hfirst, List.getElem?_eq_getElem hilt, fun a ha => ?_, ?_⟩
      · -- the search starts right after the anchor
        have hstart := hfirst.1
        rw [ha] at hstart
        exact hstart
      · simp only [placeRecordedStub, hmerge]
        exact List.modify_eq_take_cons_drop hilt
    · have hmerge : mergeTarget stubs stub proxyTo anchorIndex = none := hi
      refine .inr ⟨hno, hlt, ?_⟩
      simp only [placeRecordedStub, hmerge]

/-! ## Clearing twice -/

/-- A stub that names where it was recorded from, with both kinds of responses. -/
def Stub.mixed (s : Stub) : Bool :=
  s.recordedFrom.isSome && s.responses.any StubResponse.isRecorded && s.responses.any fun r => !r.isRecorded

theorem stripStub_unrecorded {s s' : Stub} (h : stripStub s = some s') :
    s'.responses.any StubResponse.isRecorded = false := by
  unfold stripStub at h
  split at h
  · dsimp only at h
    split at h
    · cases h
    · cases h
      simp [List.any_filter]
  · rename_i hany
    split at h
    · cases h
      simpa using hany
    · cases h

theorem stripStub_again {s s' : Stub} (h : stripStub s = some s') :
    stripStub s' = if s.mixed then none else some s' := by
  have hrec := stripStub_unrecorded h
  have hagain : stripStub s' = if s'.recordedFrom.isNone then some s' else none := by
    unfold stripStub
    rw [if_neg (by rw [hrec]; exact Bool.false_ne_true)]
  rw [hagain]
  unfold stripStub at h
  split at h
  · rename_i hany
    dsimp only at h
    split at h
    · cases h
    · rename_i hleft
      cases h
      -- an unrecorded response is left
      have hother : (s.responses.any fun r => !r.isRecorded) = true := by
        rw [Bool.not_eq_true, List.isEmpty_eq_false_iff_exists_mem] at hleft
        obtain ⟨r, hr⟩ := hleft
        rw [List.mem_filter] at hr
        exact List.any_eq_true.2 ⟨r, hr⟩
      cases hfrom : s.recordedFrom with
      | none => simp [Stub.mixed, hfrom]
      | some u => simp [Stub.mixed, hfrom, hany, hother]
  · rename_i hany
    split at h
    · rename_i hfrom
      cases h
      simp [Stub.mixed, hfrom, hany]
    · cases h

theorem stripStub_mixed {s : Stub} (h : s.mixed = true) : ∃ s', stripStub s = some s' := by
  simp only [Stub.mixed, Bool.and_eq_true] at h
  obtain ⟨⟨-, hany⟩, hother⟩ := h
  obtain ⟨r, hr, hrec⟩ := List.any_eq_true.1 hother
  have hleft : (s.responses.filter fun r => !r.isRecorded).isEmpty = false := by
    rw [List.isEmpty_eq_false_iff_exists_mem]
    exact ⟨r, List.mem_filter.2 ⟨hr, hrec⟩⟩
  refine ⟨{ s with responses := s.responses.filter fun r => !r.isRecorded }, ?_⟩
  simp only [stripStub, hany, if_true, hleft, Bool.false_eq_true, if_false]

theorem strip_unrecorded (stubs : List Stub) :
    (stubs.filterMap stripStub).any (fun s => s.responses.any StubResponse.isRecorded) = false := by
  rw [List.any_eq_false]
  intro s' hs'
  obtain ⟨s, -, hs⟩ := List.mem_filterMap.1 hs'
  rw [stripStub_unrecorded hs]
  exact Bool.false_ne_true

theorem strip_again_reports (stubs : List Stub) :
    (stripProxyResponses (stripProxyResponses stubs).1).2 = false ↔
      (stripProxyResponses (stripProxyResponses stubs).1).1 = (stripProxyResponses stubs).1 := by
  refine ⟨strip_of_not_removed, fun h => ?_⟩
  have hkept : (stubs.filterMap stripStub).filterMap stripStub = stubs.filterMap stripStub := h
  simp only [stripProxyResponses, hkept, strip_unrecorded, bne_self_eq_false, Bool.or_false]

/-- **A second pass over a list** changes nothing if and only if no stub is mixed. -/
theorem strip_again_iff (stubs : List Stub) :
    (stripProxyResponses (stripProxyResponses stubs).1).1 = (stripProxyResponses stubs).1 ↔
      ∀ s ∈ stubs, s.mixed = false := by
  constructor
  · intro h s hs
    have hkept : ((stubs.filterMap stripStub).filterMap stripStub).length = (stubs.filterMap stripStub).length :=
      congrArg List.length h
    by_contra hmixed
    rw [Bool.not_eq_false] at hmixed
    obtain ⟨s', hs'⟩ := stripStub_mixed hmixed
    have hsome := List.filterMap_length_eq_length.1 hkept s' (List.mem_filterMap.2 ⟨s, hs, hs'⟩)
    rw [stripStub_again hs', if_pos hmixed] at hsome
    cases hsome
  · intro h
    have hcongr : (stubs.filterMap stripStub).filterMap stripStub = (stubs.filterMap stripStub).filterMap some := by
      refine List.filterMap_congr fun s' hs' => ?_
      obtain ⟨s, hs, hstrip⟩ := List.mem_filterMap.1 hs'
      rw [stripStub_again hstrip, h s hs]
      rfl
    exact hcongr.trans List.filterMap_some

def Row.cleared (r : Row) (index : ℕ) : Row :=
  if (stripProxyResponses r.config.stubs).2 then { r with config := stripped r.config, revision := index } else r

theorem Row.cleared_stubs (r : Row) (index : ℕ) :
    (r.cleared index).config.stubs = (stripProxyResponses r.config.stubs).1 := by
  unfold Row.cleared
  split
  · rfl
  · rename_i h
    exact (strip_of_not_removed (Bool.not_eq_true _ ▸ h)).symm

theorem clear_row {t : Tables} {p : Port} {r : Row} (hrow : t.configs[p]? = some (r.text U)) (index : ℕ) (d : Bool) :
    (proxyRecordedClear U t p index d).1.configs[p]? = some ((r.cleared index).text U) := by
  rw [proxyRecordedClear_tables hrow, Row.cleared]
  split
  · rw [store_get, if_pos rfl]
    rfl
  · exact hrow

theorem Row.cleared_again_iff (r : Row) (i j : ℕ) :
    (r.cleared i).cleared j = r.cleared i ↔ ∀ s ∈ r.config.stubs, s.mixed = false := by
  rw [← strip_again_iff]
  have hstubs := r.cleared_stubs i
  constructor
  · intro h
    rw [← hstubs]
    have hagain : ((r.cleared i).cleared j).config.stubs = (r.cleared i).config.stubs := by rw [h]
    rw [Row.cleared_stubs] at hagain
    exact hagain
  · intro h
    have hreports : (stripProxyResponses (r.cleared i).config.stubs).2 = false := by
      rw [hstubs]
      exact (strip_again_reports _).2 h
    unfold Row.cleared at hreports ⊢
    rw [hreports]
    rfl

/-- **Clearing is idempotent where no stub is mixed.** On a stub list, and on the stored row of a
port in any reachable state: two clears leave the row, its stubs and its revision, as the first
did if and only if no stub of it names `recordedFrom` with both kinds of responses. -/
theorem clear_idempotent_iff (U : Upstream) :
    (∀ stubs : List Stub, stripProxyResponses (stripProxyResponses stubs).1 = ((stripProxyResponses stubs).1, false) ↔
      ∀ s ∈ stubs, s.mixed = false) ∧
    ∀ (es : List Event) (n : ℕ) (p : Port) (i j : ℕ) (d d' : Bool) (once twice : Tables),
      (mutateTables U (sAt U {} es n).tables (.proxyRecordedClear p) i d).1 = once →
      (mutateTables U once (.proxyRecordedClear p) j d').1 = twice →
      (twice.configs[p]? = once.configs[p]? ↔ ∀ r : Row, (sAt U {} es n).tables.configs[p]? = some (r.text U) →
        ∀ s ∈ r.config.stubs, s.mixed = false) := by
  constructor
  · intro stubs
    rw [← strip_again_iff, Prod.ext_iff]
    exact ⟨fun h => h.1, fun h => ⟨h, (strip_again_reports stubs).2 h⟩⟩
  · rintro es n p i j d d' once twice rfl rfl
    have hok : TablesOk U (sAt U {} es n).tables := (stateOk_run stateOk_empty es n).tables
    rcases storedImposter_cases hok p with ⟨hnone, -⟩ | ⟨r, hrow, -, -⟩
    · -- no row: a clear forgets markers only
      have hclear : ∀ {t : Tables} (index : ℕ) (d : Bool), t.configs[p]? = none →
          (proxyRecordedClear U t p index d).1 = t.forgetPort p := by
        intro t index d ht
        have hnone' : (t.forgetPort p).configs[p]? = none := ht
        simp only [proxyRecordedClear, storedImposter_none hnone']
      have hforgot : ((sAt U {} es n).tables.forgetPort p).configs[p]? = none := hnone
      simp only [mutateTables]
      rw [hclear _ _ hnone, hclear _ _ hforgot]
      refine iff_of_true rfl fun r hr => ?_
      rw [hnone] at hr
      cases hr
    · have honce := clear_row hrow i d
      have htwice := clear_row honce j d'
      simp only [mutateTables]
      rw [honce, htwice, Option.some.injEq]
      constructor
      · intro h r' hr'
        rw [hrow] at hr'
        rw [← Row.text_inj (Option.some.inj hr')]
        exact (r.cleared_again_iff i j).1 (Row.text_inj h)
      · intro h
        rw [(r.cleared_again_iff i j).2 (h r hrow)]

/-- A recorded and a plain response, with the mark of a recording from before the first mark. -/
def mixedStub : Stub :=
  { id := some "s", responses := [.is (some 3) "recorded", .is none "plain"], recordedFrom := some "up" }

def clearMixedTwice : List Event :=
  [.entry false (requestAt 1 { opId := "op-1", op := .putImposter (httpImposter [mixedStub]) none }),
    .entry false (requestAt 2 { opId := "op-2", op := .proxyRecordedClear 4545 }),
    .entry false (requestAt 3 { opId := "op-3", op := .proxyRecordedClear 4545 })]

/-- **A second clear drops a stub.** The first takes the recorded response of a mixed stub; then
the stub has none, and names `recordedFrom`. -/
theorem mixedStub_dropped_by_second_clear :
    stripProxyResponses [mixedStub] = ([{ mixedStub with responses := [.is none "plain"] }], true) ∧
      stripProxyResponses [{ mixedStub with responses := [.is none "plain"] }] = ([], true) ∧
      (sAt jsonUpstream {} clearMixedTwice 3).tables.configs[(4545 : Port)]? ≠
        (sAt jsonUpstream {} clearMixedTwice 2).tables.configs[(4545 : Port)]? := by
  refine ⟨by decide, by decide, by decide +kernel⟩

end RiftCluster
