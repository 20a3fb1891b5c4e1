import RiftCluster.Proof.Markers
import RiftCluster.Proof.Placement

/-!
# A marker follows its recorded stub

Along a run in which recorded ids come from recordings alone, no two stubs of a
port spell one key, and every rank is the index of an earlier entry
(`family_run`). The stub a recording places is then the newest of its family, and
stays so, unchanged, while its marker is there, unless a merging recording on the
port mints a newer stub of the family or appends to this one (`tracked_run`). An
edit removes the marker exactly when it leaves no stub of that id and value
(`marker_follows_stub`).
-/

namespace RiftCluster

open KV

variable {U : Upstream} {t : Tables} {es : List Event} {p : Port}

/-! ## What a run must satisfy -/

def storedStubs (U : Upstream) (t : Tables) (p : Port) : List Stub :=
  match storedImposter U t p with
  | .ok (_, config) => config.stubs
  | .error _ => []

def HasRecordedPrefix (id : String) : Prop := recordedStubIdPrefix.toList.isPrefixOf id.toList = true

/-- Client-written stubs of the port introduce no recorded id that is not stored. -/
def KeepsIds (U : Upstream) (t : Tables) (p : Port) : ControlOp → Prop
  | .putImposter config _ => config.port = some p →
    ∀ s ∈ config.stubs, ∀ id, s.id = some id → HasRecordedPrefix id → id ∈ ids (storedStubs U t p)
  | .patchStubs q edit => q = p →
    ∀ stub index id, .add stub index ∈ edit → stub.id = some id → HasRecordedPrefix id → id ∈ ids (storedStubs U t p)
  | _ => True

/-- Recordings on the port leave the id of their stub to the state machine. -/
def MintsId (p : Port) : ControlOp → Prop
  | .proxyRecorded q _ _ (some recorded) => q = p → recorded.stub.id = none
  | _ => True

/-- A merging recording on the port mints no stub of signature `h` and appends nothing to
the stub `sid`. -/
def Spares (U : Upstream) (t : Tables) (p : Port) (h sid : String) (index : ℕ) : ControlOp → Prop
  | .proxyRecorded q h' _ (some recorded) => q = p → recorded.placement = .afterProxyMerging →
    ∀ record before, storedImposter U t p = .ok (record, before) →
      match (placeRecordedStub before.stubs (recordedStubValue before.stubs recorded h' index) recorded.placement
        recorded.proxyTo recorded.anchorIndex).2 with
      | .inserted _ => h' ≠ h
      | .mergedInto _ id => id ≠ sid
      | .mergedAnonymous => True
  | _ => True

/-- Every request of a run satisfies a condition on the tables it meets. -/
def EveryRequest (U : Upstream) (es : List Event) (P : ℕ → Tables → ℕ → ControlOp → Prop) : Prop :=
  ∀ n d e request, es[n]? = some (.entry d e) → e.payload = .normal request →
    P n (sAt U {} es n).tables e.logId.index request.op

/-! ## Validated operations -/

theorem nodup_of_duplicateStubId {stubs : List Stub} : ∀ {seen : List String}, duplicateStubId stubs seen = none →
    (ids stubs).Nodup ∧ ∀ id ∈ ids stubs, id ∉ seen := by
  induction stubs with
  | nil => intro seen _; exact ⟨List.nodup_nil, fun id h => by cases h⟩
  | cons s stubs ih =>
    intro seen h
    cases hid : s.id with
    | none =>
      simp only [duplicateStubId, hid] at h
      have hc : ids (s :: stubs) = ids stubs := List.filterMap_cons_none hid
      rw [hc]
      exact ih h
    | some id =>
      simp only [duplicateStubId, hid] at h
      split at h
      · cases h
      · rename_i hseen
        have hc : ids (s :: stubs) = id :: ids stubs := List.filterMap_cons_some hid
        obtain ⟨h1, h2⟩ := ih h
        rw [hc]
        refine ⟨List.nodup_cons.2 ⟨fun hm => h2 id hm List.mem_cons_self, h1⟩, fun id' hm => ?_⟩
        rcases List.mem_cons.1 hm with rfl | hm
        · simpa using hseen
        · exact fun hs => h2 id' hm (List.mem_cons_of_mem _ hs)

theorem ids_nodup_of_validate {config : ImposterConfig} {restart : Option Restart}
    (h : validate U (.putImposter config restart) = .ok ()) : (ids config.stubs).Nodup := by
  simp only [validate, validateReplicableConfig] at h
  split at h
  · cases h
  · split at h
    · cases h
    · split at h
      · cases h
      · exact (nodup_of_duplicateStubId ‹_›).1

theorem hexPairs_ne_dash {l : List Char} : ∀ {bytes : List ℕ}, hexPairs l = some bytes → ∀ c ∈ l, c ≠ '-' := by
  have hv : ∀ {c : Char} {n : ℕ}, hexValue c = some n → c ≠ '-' := by
    rintro c n h rfl
    rw [show hexValue '-' = none by decide] at h; cases h
  induction l using hexPairs.induct with
  | case1 => intro _ _ c hc; cases hc
  | case2 c => intro _ h; cases h
  | case3 c d cs ih =>
    intro bytes h c' hc'
    rw [hexPairs] at h
    obtain ⟨hi, hhi, h⟩ := Option.bind_eq_some_iff.1 h
    obtain ⟨lo, hlo, h⟩ := Option.bind_eq_some_iff.1 h
    obtain ⟨tl, htl, -⟩ := Option.bind_eq_some_iff.1 h
    rcases List.mem_cons.1 hc' with rfl | hc'
    · exact hv hhi
    · rcases List.mem_cons.1 hc' with rfl | hc'
      · exact hv hlo
      · exact ih htl c' hc'

theorem sigHash_ne_dash {q : Port} {h : String} {resp : RecordedResponse} {stub : Option RecordedStub}
    (hv : validate U (.proxyRecorded q h resp stub) = .ok ()) : ∀ c ∈ h.toList, c ≠ '-' := by
  simp only [validate] at hv
  split at hv
  · cases hv
  · split at hv
    · cases hv
    · rename_i hne
      obtain ⟨-, hhex⟩ := not_or.1 hne
      obtain ⟨bytes, hb⟩ := Option.ne_none_iff_exists'.1 hhex
      exact hexPairs_ne_dash hb

/-! ## Families along a run -/

/-- Every entry from event `k` on has an index above `n`. -/
def Below (es : List Event) (k n : ℕ) : Prop := ∀ m, k ≤ m → ∀ d e, es[m]? = some (.entry d e) → n < e.logId.index

theorem Below.mono {k k' n : ℕ} (h : Below es k n) (hk : k ≤ k') : Below es k' n :=
  fun m hm => h m (hk.trans hm)

theorem Increasing.below (hlog : Increasing es) {k n : ℕ} {d : Bool} {e : Entry} (hk : es[k]? = some (.entry d e))
    (hn : n ≤ e.logId.index) : Below es (k + 1) n :=
  fun _ hm _ _ hem => hn.trans_lt (hlog.lt hm hk hem)

/-- The recorded stubs of a list before event `k`: distinct keys, ranks of earlier
entries. -/
structure FamilyOk (es : List Event) (k : ℕ) (stubs : List Stub) : Prop where
  distinct : (keys stubs).Nodup
  below : ∀ key ∈ keys stubs, Below es k key.2

theorem FamilyOk.mono {k k' : ℕ} {stubs : List Stub} (h : FamilyOk es k stubs) (hk : k ≤ k') : FamilyOk es k' stubs :=
  ⟨h.distinct, fun key hm => (h.below key hm).mono hk⟩

theorem NoNewRecorded.keys_subset {orig next : List Stub} (h : NoNewRecorded orig next) : ∀ k ∈ keys next, k ∈ keys orig := by
  intro k hk
  obtain ⟨x, hx, hkx⟩ := mem_keys.1 hk
  obtain ⟨id, hid, hrec⟩ := Option.bind_eq_some_iff.1 hkx
  obtain ⟨y, hy, hyid⟩ := mem_ids.1 (h x hx id k hid hrec)
  exact mem_keys.2 ⟨y, hy, by rw [stubKey, hyid]; exact hrec⟩

theorem FamilyOk.edit {k : ℕ} {orig next : List Stub} (h : FamilyOk es k orig) (hd : (keys next).Nodup)
    (hno : NoNewRecorded orig next) : FamilyOk es k next :=
  ⟨hd, fun key hk => h.below key (hno.keys_subset key hk)⟩

/-- **The key a recording mints**: its own signature, at a rank the family does not have. -/
theorem minted_lower (stubs : List Stub) {recorded : RecordedStub} {h : String} {index : ℕ} (hh : LowerHash h)
    (hid : recorded.stub.id = none) (hindex : index < 2 ^ 64) :
    (∀ n, (h, n) ∉ keys stubs) ∧ stubKey (recordedStubValue stubs recorded h index) = some (h, 0) ∨
      (∃ n, (h, n) ∈ keys stubs) ∧ stubKey (recordedStubValue stubs recorded h index) = some (h, index) := by
  simp only [recordedStubValue, hid, stubKey, Option.bind_some]
  cases htaken : stubs.any fun s => s.id.bind recordedSigHash == some h with
  | true => exact .inr ⟨taken_iff.1 htaken, recordedId_ranked hh hindex⟩
  | false =>
    refine .inl ⟨fun n hn => ?_, recordedId_base hh⟩
    rw [taken_iff.2 ⟨n, hn⟩] at htaken; cases htaken

theorem minted_other {stubs : List Stub} {recorded : RecordedStub} {h : String} {index : ℕ} (hh : ¬ LowerHash h)
    (hdash : ∀ c ∈ h.toList, c ≠ '-') (hid : recorded.stub.id = none) :
    stubKey (recordedStubValue stubs recorded h index) = none := by
  simp only [recordedStubValue, hid, stubKey, Option.bind_some]
  have htaken : (stubs.any fun s => s.id.bind recordedSigHash == some h) = false := by
    by_contra hn
    obtain ⟨n, hn⟩ := taken_iff.1 (by simpa using hn)
    obtain ⟨s, -, hk⟩ := mem_keys.1 hn
    obtain ⟨id, -, hrec⟩ := Option.bind_eq_some_iff.1 hk
    exact hh (recordedId_some hrec).2
  have hp : recordedStubIdPrefix.toList.isPrefixOf (recordedStubIdPrefix.toList ++ h.toList) = true :=
    List.isPrefixOf_iff_prefix.2 (List.prefix_append _ _)
  simp only [htaken, Bool.false_eq_true, if_false, recordedId, String.toList_append, hp, if_true, List.drop_left,
    splitOnce_none hdash, sigHashOf]
  split
  · rename_i hc
    simp only [Bool.and_eq_true, Bool.not_eq_true', List.isEmpty_eq_false_iff] at hc
    exact absurd ⟨hc.1, List.all_eq_true.1 hc.2⟩ hh
  · rfl

theorem minted_key (stubs : List Stub) {recorded : RecordedStub} {h : String} {index : ℕ} (hdash : ∀ c ∈ h.toList, c ≠ '-')
    (hid : recorded.stub.id = none) (hindex : index < 2 ^ 64) :
    stubKey (recordedStubValue stubs recorded h index) = none ∨
      (∀ n, (h, n) ∉ keys stubs) ∧ stubKey (recordedStubValue stubs recorded h index) = some (h, 0) ∨
      (∃ n, (h, n) ∈ keys stubs) ∧ stubKey (recordedStubValue stubs recorded h index) = some (h, index) := by
  by_cases hh : LowerHash h
  · exact .inr (minted_lower stubs hh hid hindex)
  · exact .inl (minted_other hh hdash hid)

theorem FamilyOk.record {k : ℕ} {stubs : List Stub} (hok : FamilyOk es k stubs) (hlog : Increasing es) {d : Bool}
    {e : Entry} (hk : es[k]? = some (.entry d e)) {recorded : RecordedStub} {h : String} (hdash : ∀ c ∈ h.toList, c ≠ '-')
    (hid : recorded.stub.id = none) :
    FamilyOk es (k + 1) (placeRecordedStub stubs (recordedStubValue stubs recorded h e.logId.index) recorded.placement
      recorded.proxyTo recorded.anchorIndex).1 := by
  have hok' := hok.mono (Nat.le_succ k)
  rcases placed_cases stubs (recordedStubValue stubs recorded h e.logId.index) recorded.placement recorded.proxyTo
    recorded.anchorIndex with ⟨i, hi, heq⟩ | ⟨i, target, -, hget, heq⟩
  · rw [heq]
    have hp := keys_perm (List.perm_insertIdx (recordedStubValue stubs recorded h e.logId.index) stubs hi)
    have hnew : ∀ n, stubKey (recordedStubValue stubs recorded h e.logId.index) = some (h, n) → (h, n) ∉ keys stubs →
        n ≤ e.logId.index → FamilyOk es (k + 1)
          (stubs.insertIdx i (recordedStubValue stubs recorded h e.logId.index)) := by
      intro n hkey hfresh hle
      have hc : keys (recordedStubValue stubs recorded h e.logId.index :: stubs) = (h, n) :: keys stubs := by
        simp [keys, hkey]
      rw [hc] at hp
      refine ⟨hp.nodup_iff.2 (List.nodup_cons.2 ⟨hfresh, hok.distinct⟩), fun key hm => ?_⟩
      rcases List.mem_cons.1 (hp.mem_iff.1 hm) with rfl | hm
      · exact hlog.below hk hle
      · exact hok'.below key hm
    rcases minted_key stubs hdash hid e.logId.index_lt with hkey | ⟨hnone, hkey⟩ | ⟨-, hkey⟩
    · have hc : keys (recordedStubValue stubs recorded h e.logId.index :: stubs) = keys stubs := by
        simp [keys, hkey]
      rw [hc] at hp
      exact ⟨hp.nodup_iff.2 hok.distinct, fun key hm => hok'.below key (hp.mem_iff.1 hm)⟩
    · exact hnew 0 hkey (hnone 0) (Nat.zero_le _)
    · refine hnew _ hkey (fun hm => ?_) le_rfl
      exact absurd (hok.below _ hm k le_rfl d e hk) (lt_irrefl _)
  · rw [heq]
    have hks := keys_append_responses hget (recordedStubValue stubs recorded h e.logId.index).responses
    exact ⟨by rw [hks]; exact hok.distinct, by rw [hks]; exact hok'.below⟩

/-- **Recorded ids come from recordings, so a port's keys are distinct**, at every point of
the run. -/
theorem family_run (hlog : Increasing es) (hkeep : EveryRequest U es fun _ t _ => KeepsIds U t p)
    (hmint : EveryRequest U es fun _ _ _ => MintsId p) {n : ℕ} (hn : n ≤ es.length) :
    ∀ r : Row, (sAt U {} es n).tables.configs[p]? = some (r.text U) → FamilyOk es n r.config.stubs := by
  suffices hall : ∀ q r, (sAt U {} es n).tables.configs[q]? = some (Row.text U r) → q = p → FamilyOk es n r.config.stubs from
    fun r h => hall p r h rfl
  refine rows_inv (P := fun n q r => q = p → FamilyOk es n r.config.stubs)
    (fun n q r h hq => (h hq).mono (Nat.le_succ n)) ?_ hn
  intro n d e request q r hk hp _ hv _ hi hw hq
  subst hq
  have hok := (stateOk_run (U := U) stateOk_empty es n).tables
  have hke := hkeep n d e request hk hp
  have hmi := hmint n d e request hk hp
  revert hw hv hke hmi
  generalize request.op = op
  intro hv hw hke hmi
  cases hw with
  | put hport =>
    rename_i config restart
    have hstored : FamilyOk es n (storedStubs U (sAt U {} es n).tables q) := by
      unfold storedStubs
      rcases storedImposter_cases hok q with ⟨-, hs⟩ | ⟨r0, hrow0, -, hs⟩
      · rw [hs]; exact ⟨List.Pairwise.nil, fun key hm => by cases hm⟩
      · rw [hs]; exact hi r0 hrow0 rfl
    have hno : NoNewRecorded (storedStubs U (sAt U {} es n).tables q) config.stubs := fun x hx id k hid hrec =>
      hke hport x hx id hid (recordedId_some hrec).1
    exact (hstored.edit (keys_nodup_of_ids hstored.distinct (ids_nodup_of_validate hv) hno) hno).mono
      (Nat.le_succ n)
  | patch hrow0 hedit =>
    rename_i r0 edit stubs
    have hadd : AddsNoRecorded r0.config.stubs edit := fun stub index id hm hid hpre => by
      have := hke rfl stub index id hm hid hpre
      rwa [storedStubs, storedImposter_text hrow0] at this
    have hfam := hi r0 hrow0 rfl
    obtain ⟨hd, hno⟩ := keys_applyEdit hfam.distinct edit hfam.distinct (NoNewRecorded.refl _) hadd hedit
    exact (hfam.edit hd hno).mono (Nat.le_succ n)
  | toggle hrow0 => exact (hi _ hrow0 rfl).mono (Nat.le_succ n)
  | record hrow0 hnew => exact (hi _ hrow0 rfl).record hlog hk (sigHash_ne_dash hv) (hmi rfl)
  | clear hrow0 hstrip =>
    rename_i r0
    have hs := keys_strip r0.config.stubs
    have hfam := hi r0 hrow0 rfl
    exact FamilyOk.mono ⟨hfam.distinct.sublist hs, fun key hm => hfam.below key (hs.subset hm)⟩ (Nat.le_succ n)

/-! ## What an edit does to a marker -/

section Edit

variable {h v : String} {r : Row} (hrow : t.configs[p]? = some (r.text U)) (hmark : t.proxyRecorded[(p, h)]? = some v)

include hrow hmark

theorem patch_marker {edit : StubEditScript} {stubs : List Stub} (hedit : applyEdit U r.config.stubs edit = .ok stubs)
    (index : ℕ) (d : Bool) :
    (mutateTables U t (.patchStubs p edit) index d).1.proxyRecorded[(p, h)]? = none ↔
      h ∈ orphanedRecordings U r.config.stubs stubs := by
  simp only [mutateTables, patchStubs, storedImposter_text hrow, hedit]
  rw [get_forget, store_proxyRecorded, hmark]
  simp

theorem forgetReplaced_marker (config : ImposterConfig) :
    (t.forgetReplaced U p config).proxyRecorded[(p, h)]? = none ↔
      h ∈ orphanedRecordings U r.config.stubs config.stubs := by
  have hhas : hasMarkers t p = true := (hasMarkers_iff p).2 ⟨h, v, hmark⟩
  have hread : t.configs[p]?.map U.readRow = some (.ok r.config) := by
    rw [hrow, Option.map_some, Row.text, Upstream.readRow_imposterRow]
  simp only [Tables.forgetReplaced, hhas, if_true, hread]
  rw [get_forget, hmark]
  simp

theorem put_marker {config : ImposterConfig} (hport : config.port = some p) (restart : Option Restart) (index : ℕ)
    (d : Bool) :
    (h ∈ orphanedRecordings U r.config.stubs config.stubs →
        (mutateTables U t (.putImposter config restart) index d).1.proxyRecorded[(p, h)]? = none) ∧
      (restart = none → ((mutateTables U t (.putImposter config restart) index d).1.proxyRecorded[(p, h)]? = none ↔
        h ∈ orphanedRecordings U r.config.stubs config.stubs)) := by
  have hf := forgetReplaced_marker hrow hmark config
  rw [mutateTables, putImposter_tables hport, store_proxyRecorded, putForgets]
  refine ⟨fun ho => ?_, fun hr => ?_⟩
  · split
    · rw [get_forget, hf.2 ho]; simp
    · exact hf.2 ho
  · subst hr
    simpa using hf

end Edit

/-! ## Tracking a recorded stub -/

/-- A port's row holds the stub `sid` with the value `v` was placed with, and no stub of
its family `h` has a higher rank. -/
def Tracked (U : Upstream) (t : Tables) (p : Port) (h sid : String) (rank : ℕ) (placed : Stub) : Prop :=
  ∃ r : Row, t.configs[p]? = some (r.text U) ∧
    (∃ x ∈ r.config.stubs, x.id = some sid ∧ U.stubValue x = U.stubValue placed) ∧
    ∀ m, (h, m) ∈ keys r.config.stubs → m ≤ rank

variable {h sid : String} {rank : ℕ} {placed : Stub}

theorem not_orphaned_keeps {before : List Stub} (after : List Stub) (hd : (keys before).Nodup) (hsid : recordedId sid = some (h, rank))
    (hx : ∃ x ∈ before, x.id = some sid ∧ U.stubValue x = U.stubValue placed)
    (hmax : ∀ m, (h, m) ∈ keys before → m ≤ rank) :
    h ∈ orphanedRecordings U before after ↔ ¬ ∃ y ∈ after, y.id = some sid ∧ U.stubValue y = U.stubValue placed := by
  obtain ⟨x, hx, hid, hval⟩ := hx
  have hk : stubKey x = some (h, rank) := by rw [stubKey, hid]; exact hsid
  rw [mem_orphaned_iff hd hx hk hmax, hid, hval]

/-- **A step that leaves the marker leaves the tracked stub the newest**, if a merging
recording spares it. -/
theorem tracked_mutate (hok : TablesOk U t) {k : ℕ} (hfam : ∀ r : Row, t.configs[p]? = some (r.text U) → FamilyOk es k r.config.stubs)
    (hsid : recordedId sid = some (h, rank)) {v : String} (hmark : t.proxyRecorded[(p, h)]? = some v) {op : ControlOp}
    {index : ℕ} {d : Bool} (hindex : index < 2 ^ 64) (hv : validate U op = .ok ()) (hkeep : KeepsIds U t p op)
    (hmint : MintsId p op) (hspare : Spares U t p h sid index op)
    (hstill : (mutateTables U t op index d).1.proxyRecorded[(p, h)]? ≠ none)
    (htr : Tracked U t p h sid rank placed) : Tracked U (mutateTables U t op index d).1 p h sid rank placed := by
  obtain ⟨r, hrow, hx, hmax⟩ := htr
  have hd := (hfam r hrow).distinct
  have hsame : ∀ r' : Row, t.configs[p]? = some (r'.text U) → r' = r := fun r' h' => by
    rw [hrow] at h'; exact (Row.text_inj (Option.some.inj h')).symm
  rcases mutate_row hok op index d p with hrow' | ⟨hrem, -⟩ | ⟨r', hw, hrow'⟩
  · exact ⟨r, by rw [hrow', hrow], hx, hmax⟩
  · exact absurd (removes_markers hrem index d h) hstill
  · cases hw with
    | put hport =>
      rename_i config restart
      have hno : NoNewRecorded r.config.stubs config.stubs := fun x hx id k hid hrec => by
        have := hkeep hport x hx id hid (recordedId_some hrec).1
        rwa [storedStubs, storedImposter_text hrow] at this
      have hkept := (not_orphaned_keeps config.stubs hd hsid hx hmax).not_left.1
        fun ho => hstill ((put_marker hrow hmark hport restart index d).1 ho)
      exact ⟨_, hrow', hkept, fun m hm => hmax m (hno.keys_subset _ hm)⟩
    | patch hrow0 hedit =>
      rename_i r0 edit stubs
      obtain rfl := hsame r0 hrow0
      have hadd : AddsNoRecorded r0.config.stubs edit := fun stub index id hm hid hpre => by
        have := hkeep rfl stub index id hm hid hpre
        rwa [storedStubs, storedImposter_text hrow0] at this
      obtain ⟨-, hno⟩ := keys_applyEdit hd edit hd (NoNewRecorded.refl _) hadd hedit
      have hkept := (not_orphaned_keeps stubs hd hsid hx hmax).not_left.1
        fun ho => hstill ((patch_marker hrow hmark hedit index d).2 ho)
      exact ⟨_, hrow', hkept, fun m hm => hmax m (hno.keys_subset _ hm)⟩
    | toggle hrow0 =>
      rename_i r0 enabled
      obtain rfl := hsame r0 hrow0
      exact ⟨_, hrow', hx, hmax⟩
    | record hrow0 hnew =>
      rename_i r0 h' resp recorded
      obtain rfl := hsame r0 hrow0
      refine ⟨_, hrow', ?_⟩
      obtain ⟨x, hxm, hxid, hxval⟩ := hx
      have hsp := fun hpl => hspare rfl hpl _ _ (storedImposter_text hrow0)
      rcases placed_cases r0.config.stubs (recordedStubValue r0.config.stubs recorded h' index) recorded.placement
        recorded.proxyTo recorded.anchorIndex with ⟨i, hi, heq⟩ | ⟨i, target, hpl, hget, heq⟩
      · -- a stub of another family comes in
        have hother : h' ≠ h := by
          cases hpl : recorded.placement with
          | afterProxyMerging =>
            have := hsp hpl
            rw [heq] at this
            exact this
          | beforeProxy =>
            rintro rfl
            rw [hmark] at hnew
            simp [merging, hpl] at hnew
        have hp := keys_perm (List.perm_insertIdx (recordedStubValue r0.config.stubs recorded h' index) r0.config.stubs hi)
        simp only [heq]
        refine ⟨⟨x, (List.mem_insertIdx hi).2 (.inr hxm), hxid, hxval⟩, fun m hm => hmax m ?_⟩
        have hm' := hp.mem_iff.1 hm
        rw [keys, List.filterMap_cons] at hm'
        rcases minted_key r0.config.stubs (sigHash_ne_dash hv) (hmint rfl) hindex with
          hk | ⟨-, hk⟩ | ⟨-, hk⟩ <;> simp only [hk] at hm'
        · exact hm'
        · exact (List.mem_cons.1 hm').resolve_left fun hc => hother (Prod.mk.inj hc).1.symm
        · exact (List.mem_cons.1 hm').resolve_left fun hc => hother (Prod.mk.inj hc).1.symm
      · -- another stub's responses grow
        have hne : x ≠ target := by
          rintro rfl
          have := hsp hpl
          rw [heq, hxid] at this
          exact this rfl
        simp only [heq]
        refine ⟨⟨x, mem_set_of_ne hget hxm hne, hxid, hxval⟩, fun m hm => hmax m ?_⟩
        rwa [keys_append_responses hget] at hm
    | clear hrow0 hstrip =>
      refine absurd ?_ hstill
      rw [mutateTables, proxyRecordedClear_tables hrow0, if_pos hstrip, store_proxyRecorded, get_forgetPort, if_pos rfl]

/-- **The stub a recording places is the newest of its family.** -/
theorem tracked_recording {k : ℕ} {r : Row} (hrow : t.configs[p]? = some (r.text U)) (hfam : FamilyOk es k r.config.stubs)
    {d : Bool} {e : Entry} (hk : es[k]? = some (.entry d e)) {resp : RecordedResponse} {recorded : RecordedStub}
    (hmerge : merging (some recorded) = false) (hnone : t.proxyRecorded[(p, h)]? = none) (hid : recorded.stub.id = none)
    (hh : LowerHash h) (hsid : (recordedStubValue r.config.stubs recorded h e.logId.index).id = some sid) :
    ∃ rank, recordedId sid = some (h, rank) ∧
      Tracked U (mutateTables U t (.proxyRecorded p h resp (some recorded)) e.logId.index d).1 p h sid rank
        (recordedStubValue r.config.stubs recorded h e.logId.index) := by
  set new := recordedStubValue r.config.stubs recorded h e.logId.index with hnew
  obtain ⟨rank, hkey, hrank⟩ : ∃ rank, stubKey new = some (h, rank) ∧ ∀ m, (h, m) ∈ keys r.config.stubs → m ≤ rank := by
    rcases minted_lower r.config.stubs hh hid e.logId.index_lt with ⟨hn, hkey⟩ | ⟨-, hkey⟩
    · exact ⟨0, hkey, fun m hm => absurd hm (hn m)⟩
    · exact ⟨e.logId.index, hkey, fun m hm => (hfam.below _ hm k le_rfl d e hk).le⟩
  refine ⟨rank, by rw [stubKey, hsid] at hkey; exact hkey, ?_⟩
  have hblocked : (t.proxyRecorded[(p, h)]?.isSome && !merging (some recorded)) = false := by rw [hnone]; rfl
  rcases placed_cases r.config.stubs new recorded.placement recorded.proxyTo recorded.anchorIndex with
    ⟨i, hi, heq⟩ | ⟨i, target, hpl, -⟩
  · refine ⟨⟨{ r.config with stubs := r.config.stubs.insertIdx i new }, r.enabled, e.logId.index⟩, ?_, ?_, ?_⟩
    · rw [mutateTables, proxyRecorded_tables hrow h resp recorded _ hblocked]
      simp only [hmerge, Bool.false_eq_true, if_false, mark_configs, ← hnew, heq]
      rw [store_get, if_pos rfl]
    · exact ⟨new, (List.mem_insertIdx hi).2 (.inl rfl), hsid, rfl⟩
    · intro m hm
      have hp := (keys_perm (List.perm_insertIdx new r.config.stubs hi)).mem_iff.1 hm
      rw [keys, List.filterMap_cons_some hkey] at hp
      rcases List.mem_cons.1 hp with hc | hp
      · exact (Prod.mk.inj hc).2.le
      · exact hrank m hp
  · simp [merging, hpl] at hmerge

/-- **A recorded marker lives as long as its recorded stub.** On a port whose recorded ids
all come from recordings, let the request at event `i` write the marker of `(p, h)` and
place a stub with id `sid`. While the marker stays, and merging recordings neither
mint a stub of `h` nor append to `sid`, a patch or a put without a restart at event
`j` removes the marker exactly when the config it leaves holds no stub with that id
and the value it was placed with. -/
theorem marker_follows_stub (es : List Event) (hlog : Increasing es) (p : Port) (h sid : String) (hh : LowerHash h)
    (hkeep : EveryRequest U es fun _ t _ => KeepsIds U t p) (hmint : EveryRequest U es fun _ _ _ => MintsId p)
    {i j : ℕ} (hij : i < j) {di dj : Bool} {ei ej : Entry} {ri rj : ControlRequest} {resp : RecordedResponse}
    {recorded : RecordedStub} {record : StoredImposter} {before : ImposterConfig}
    (hi : es[i]? = some (.entry di ei)) (hri : ei.payload = .normal ri)
    (hopi : ri.op = .proxyRecorded p h resp (some recorded)) (hmerge : merging (some recorded) = false)
    (hbefore : storedImposter U (sAt U {} es i).tables p = .ok (record, before))
    (hsid : (recordedStubValue before.stubs recorded h ei.logId.index).id = some sid)
    (habsent : (sAt U {} es i).tables.proxyRecorded[(p, h)]? = none)
    (hstays : ∀ k, i < k → k ≤ j → (sAt U {} es k).tables.proxyRecorded[(p, h)]? ≠ none)
    (hspare : EveryRequest U es fun n t index op => i < n → n < j → Spares U t p h sid index op)
    (hj : es[j]? = some (.entry dj ej)) (hrj : ej.payload = .normal rj)
    (hopj : (∃ edit, rj.op = .patchStubs p edit) ∨ ∃ config, rj.op = .putImposter config none ∧ config.port = some p) :
    ∃ record' after, storedImposter U (sAt U {} es (j + 1)).tables p = .ok (record', after) ∧
      ((sAt U {} es (j + 1)).tables.proxyRecorded[(p, h)]? = none ↔
        ¬ ∃ y ∈ after.stubs, y.id = some sid ∧
          U.stubValue y = U.stubValue (recordedStubValue before.stubs recorded h ei.logId.index)) := by
  have hok : ∀ n, TablesOk U (sAt U {} es n).tables := fun n => (stateOk_run stateOk_empty es n).tables
  obtain ⟨hilt, hiev⟩ := List.getElem?_eq_some_iff.1 hi
  obtain ⟨hjlt, hjev⟩ := List.getElem?_eq_some_iff.1 hj
  have hfam : ∀ n, n ≤ es.length → ∀ r : Row, (sAt U {} es n).tables.configs[p]? = some (r.text U) →
      FamilyOk es n r.config.stubs := fun n hn => family_run hlog hkeep hmint hn
  obtain ⟨hrow, -⟩ := storedImposter_eq (hok i) hbefore
  -- the recording tracks its stub
  obtain ⟨rank, hrec, htr⟩ : ∃ rank, recordedId sid = some (h, rank) ∧
      Tracked U (sAt U {} es (i + 1)).tables p h sid rank (recordedStubValue before.stubs recorded h ei.logId.index) := by
    have hpresent := hstays (i + 1) (by omega) (by omega)
    rw [sAt_succ hilt, hiev] at hpresent ⊢
    rcases step_tables (U := U) (sAt U {} es i) (.entry di ei) with h' | ⟨d', e', request', hev, hp, -, -, -, h', -⟩
    · rw [h'] at hpresent; exact absurd habsent hpresent
    · cases hev
      rw [hri] at hp
      cases hp
      rw [h', hopi]
      have hid : recorded.stub.id = none := by
        have := hmint i di ei ri hi hri
        rw [hopi] at this
        exact this rfl
      exact tracked_recording hrow (hfam i hilt.le _ hrow) hi hmerge habsent hid hh hsid
  -- and it stays tracked up to event `j`
  have htrj : Tracked U (sAt U {} es j).tables p h sid rank (recordedStubValue before.stubs recorded h ei.logId.index) := by
    refine Trace.stateAt_stretch (P := fun s : State => Tracked U s.tables p h sid rank _) (by omega : i + 1 ≤ j)
      hjlt.le htr ?_
    intro k hk hik hkj htrk
    change Tracked U (sAt U {} es k).tables p h sid rank _ at htrk
    change Tracked U ((sAt U {} es k).step U es[k]).tables p h sid rank _
    have hstill := hstays (k + 1) (by omega) (by omega)
    obtain ⟨v, hv⟩ := Option.ne_none_iff_exists'.1 (hstays k (by omega) (by omega))
    rw [sAt_succ hk] at hstill
    rcases step_tables (U := U) (sAt U {} es k) es[k] with h' | ⟨d', e', request', hev, hp, -, hval, -, h', -⟩
    · rw [h']; exact htrk
    · rw [h'] at hstill ⊢
      have hget : es[k]? = some (.entry d' e') := by rw [List.getElem?_eq_getElem hk, hev]
      exact tracked_mutate (hok k) (hfam k hk.le) hrec hv e'.logId.index_lt hval (hkeep k d' e' request' hget hp)
        (hmint k d' e' request' hget hp) (hspare k d' e' request' hget hp (by omega) hkj) hstill htrk
  obtain ⟨r, hrowj, hx, hmax⟩ := htrj
  have hd := (hfam j hjlt.le r hrowj).distinct
  obtain ⟨v, hv⟩ := Option.ne_none_iff_exists'.1 (hstays j hij le_rfl)
  -- an entry that leaves the tables leaves both the marker and the stub
  have hunchanged : ∀ t' : Tables, t' = (sAt U {} es j).tables → ∃ record' after,
      storedImposter U t' p = .ok (record', after) ∧ (t'.proxyRecorded[(p, h)]? = none ↔
        ¬ ∃ y ∈ after.stubs, y.id = some sid ∧
          U.stubValue y = U.stubValue (recordedStubValue before.stubs recorded h ei.logId.index)) := by
    rintro t' rfl
    exact ⟨_, _, storedImposter_text hrowj, by rw [hv]; simpa using hx⟩
  rw [sAt_succ hjlt, hjev]
  rcases step_tables (U := U) (sAt U {} es j) (.entry dj ej) with h' | ⟨d', e', request', hev, hp, -, -, -, h', -⟩
  · exact hunchanged _ h'
  · cases hev
    rw [hrj] at hp
    cases hp
    rw [h']
    rcases hopj with ⟨edit, hop⟩ | ⟨config, hop, hport⟩
    · rw [hop]
      cases hedit : applyEdit U r.config.stubs edit with
      | error reason =>
        exact hunchanged _ (by simp only [mutateTables, patchStubs, storedImposter_text hrowj, hedit])
      | ok stubs =>
        have hnew : (mutateTables U (sAt U {} es j).tables (.patchStubs p edit) ej.logId.index dj).1.configs[p]? =
            some (Row.text U ⟨{ r.config with stubs }, r.enabled, ej.logId.index⟩) := by
          simp only [mutateTables, patchStubs, storedImposter_text hrowj, hedit, forget_configs]
          rw [store_get, if_pos rfl]
        refine ⟨_, _, storedImposter_text hnew, ?_⟩
        rw [patch_marker hrowj hv hedit, not_orphaned_keeps _ hd hrec hx hmax]
    · rw [hop]
      have hnew : (mutateTables U (sAt U {} es j).tables (.putImposter config none) ej.logId.index dj).1.configs[p]? =
          some (Row.text U ⟨config, config.enabled, ej.logId.index⟩) := by
        rw [mutateTables, putImposter_tables hport, store_get, if_pos rfl]
      refine ⟨_, _, storedImposter_text hnew, ?_⟩
      rw [(put_marker hrowj hv hport none _ _).2 rfl, not_orphaned_keeps _ hd hrec hx hmax]

/-- A recording of signature `ab` behind the proxy stub of port 4545. -/
def recordStub (opId : String) (predicates : List String) (placement : RecordedStubPlacement) : ControlRequest :=
  { opId
    op := .proxyRecorded 4545 "ab" { status := 200, headers := [], body := [], latencyMs := none, timestampSecs := 0 }
      (some { stub := { id := none, predicates, responses := [.is none ""] }, placement, proxyTo := "u", anchorIndex := none }) }

def proxyImposter : ImposterConfig := httpImposter [{ id := none, responses := [.proxy "u" none ""] }]

/-- An imposter that proxies, a recording, and a patch that deletes the recorded stub. -/
def recordThenDelete : List Event :=
  [.sweep, .entry false (requestAt 1 { opId := "op-1", op := .putImposter proxyImposter none }),
    .entry false (requestAt 2 (recordStub "op-2" [] .beforeProxy)),
    .entry false (requestAt 3 { opId := "op-3", op := .patchStubs 4545 [.deleteById "proxy-recorded-ab"] })]

theorem recordThenDelete_keepsIds :
    EveryRequest jsonUpstream recordThenDelete fun _ t _ => KeepsIds jsonUpstream t 4545 := by
  intro n d e request hn hp
  match n with
  | 0 => cases hn
  | 1 => cases hn; cases hp; simp [KeepsIds, proxyImposter, httpImposter]
  | 2 => cases hn; cases hp; trivial
  | 3 => cases hn; cases hp; simp [KeepsIds]
  | n + 4 => cases hn

theorem recordThenDelete_mintsId : EveryRequest jsonUpstream recordThenDelete fun _ _ _ => MintsId 4545 := by
  intro n d e request hn hp
  match n with
  | 0 => cases hn
  | 1 => cases hn; cases hp; trivial
  | 2 => cases hn; cases hp; intro _; rfl
  | 3 => cases hn; cases hp; trivial
  | n + 4 => cases hn

theorem recordThenDelete_before : storedImposter jsonUpstream (sAt jsonUpstream {} recordThenDelete 2).tables 4545 =
    .ok (⟨jsonUpstream.config.write proxyImposter, true, 1⟩, proxyImposter) := by
  decide +kernel

theorem recordThenDelete_marker :
    ∃ record' after, storedImposter jsonUpstream (sAt jsonUpstream {} recordThenDelete 4).tables 4545 = .ok (record', after) ∧
      ((sAt jsonUpstream {} recordThenDelete 4).tables.proxyRecorded[((4545 : Port), "ab")]? = none ↔
        ¬ ∃ y ∈ after.stubs, y.id = some "proxy-recorded-ab" ∧ jsonUpstream.stubValue y =
          jsonUpstream.stubValue (recordedStubValue proxyImposter.stubs
            { stub := { id := none, responses := [.is none ""] }, placement := .beforeProxy, proxyTo := "u", anchorIndex := none }
            "ab" 2)) := by
  have h := marker_follows_stub recordThenDelete (by unfold Increasing; decide) 4545 "ab" "proxy-recorded-ab"
    (by simp [LowerHash, lowerHex, isAsciiDigit]) recordThenDelete_keepsIds recordThenDelete_mintsId (i := 2) (j := 3) (by decide)
    rfl rfl rfl rfl recordThenDelete_before (by decide +kernel) (by decide +kernel)
    (fun k h1 h2 => by obtain rfl : k = 3 := by omega
                       decide +kernel)
    (fun n _ _ _ _ _ h1 h2 => by omega) rfl rfl (.inl ⟨_, rfl⟩)
  exact h

/-- The same, with a merging recording of the signature before the patch. -/
def recordMergeThenDelete : List Event :=
  [.sweep, .entry false (requestAt 1 { opId := "op-1", op := .putImposter proxyImposter none }),
    .entry false (requestAt 2 (recordStub "op-2" [] .beforeProxy)),
    .entry false (requestAt 3 (recordStub "op-3" ["p"] .afterProxyMerging)),
    .entry false (requestAt 4 { opId := "op-4", op := .patchStubs 4545 [.deleteById "proxy-recorded-ab"] })]

/-- **The marker outlives its stub.** The merging recording mints the newer stub of the
family, and the patch that deletes the marker's own stub finds that one in place. -/
theorem recordMergeThenDelete_keeps_marker :
    (sAt jsonUpstream {} recordMergeThenDelete 2).tables.proxyRecorded[((4545 : Port), "ab")]? = none ∧
      (sAt jsonUpstream {} recordMergeThenDelete 3).tables.proxyRecorded[((4545 : Port), "ab")]?.isSome ∧
      (storedStubs jsonUpstream (sAt jsonUpstream {} recordMergeThenDelete 3).tables 4545).map Stub.id =
        [some "proxy-recorded-ab", none] ∧
      (sAt jsonUpstream {} recordMergeThenDelete 5).tables.proxyRecorded[((4545 : Port), "ab")]?.isSome ∧
      (storedStubs jsonUpstream (sAt jsonUpstream {} recordMergeThenDelete 5).tables 4545).map Stub.id =
        [none, some "proxy-recorded-ab-r3"] := by
  decide +kernel

end RiftCluster
