import RiftCluster.Proof.Rows

/-!
# A snapshot carries the whole replicated state

A row travels unchanged when it is raw JSON that does not start with a quote, or
no JSON at all (`storedRow_nestedRow`). Every row of a reachable state is a JSON
object, and the one-row tables hold no other row, so installing a snapshot of it
gives the state back, whatever the node held before (`install_build`).
-/

namespace RiftCluster

open KV

variable {U : Upstream} {C : SnapshotCodec}

/-! ## Rows -/

def Portable (U : Upstream) (row : String) : Prop :=
  U.raw row = none ∨ U.raw row = some row ∧ row.toList.head? ≠ some '"'

theorem storedRow_nestedRow {row : String} (h : Portable U row) : storedRow U (nestedRow U row) = .ok row := by
  rcases h with h | ⟨h, hq⟩
  · simp only [nestedRow, h, storedRow, U.quote_head, if_true, U.unquote_quote, Except.mapError]
  · simp only [nestedRow, h, storedRow, if_neg hq]

theorem IsObject.portable {row : String} (h : IsObject U.raw row) : Portable U row :=
  .inr ⟨h.1, by rw [h.2]; decide⟩

/-! ## Tables -/

section Tables

variable {K : Type} [Ord K] [Std.TransOrd K] [Std.LawfulEqOrd K]

/-- **A table of portable rows is installed as it was**, over whatever was there. -/
theorem installRows_nested (tab : Table K String) (hp : ∀ (k : K) row, tab[k]? = some row → Portable U row)
    (old : Table K String) :
    installRows U old (tab.toList.map fun kv => (kv.1, nestedRow U kv.2)) = .ok tab := by
  have hm : ∀ rows : List (K × String), (∀ kv ∈ rows, Portable U kv.2) →
      ((rows.map fun kv => (kv.1, nestedRow U kv.2)).mapM fun kv =>
        (storedRow U kv.2).map fun row => (kv.1, row)) = .ok rows := by
    intro rows
    induction rows with
    | nil => intro _; rfl
    | cons kv rows ih =>
      intro h
      rw [List.map_cons, List.mapM_cons, storedRow_nestedRow (h kv List.mem_cons_self),
        ih fun kv' hkv => h kv' (List.mem_cons_of_mem _ hkv)]
      rfl
  have hrows : ∀ kv ∈ tab.toList, Portable U kv.2 := fun kv hkv => hp kv.1 kv.2 (mem_toList.1 hkv)
  simp only [installRows, hm _ hrows, bind, Except.bind, retain_none, load_toList]
  rfl

theorem installRow_eq {V : Type} {tab : Table String V} {key : String} (hkey : ∀ (k : String) v, tab[k]? = some v → k = key)
    (old : Table String V) : installRow old key tab[key]? = tab := by
  apply ext_get
  intro k
  simp only [installRow, retain_none]
  cases hv : tab[key]? with
  | none =>
    have hk : tab[k]? = none := by
      cases h : tab[k]? with
      | none => rfl
      | some v => rw [hkey k v h, hv] at h; cases h
    rw [hk]; exact get_empty _
  | some v =>
    simp only [Option.map_some, Option.toList_some, Table.load, List.foldl_cons, List.foldl_nil]
    rw [get_insert]
    split
    · rename_i h; rw [← h, hv]
    · rename_i h
      rw [get_empty]
      cases hk : tab[k]? with
      | none => rfl
      | some w => exact absurd (hkey k w hk).symm h

end Tables

/-! ## States -/

theorem parseSnapshot_build (s : State) : parseSnapshot C (buildSnapshot U C s) = .ok (snapshotPayload U s) := by
  simp only [parseSnapshot, buildSnapshot, C.compress_magic, if_true, C.decompress_compress, C.fromJson_toJson,
    Except.mapError, bind, Except.bind]
  rfl

/-- **Installing a snapshot of a state whose rows have the written shape gives the state.** -/
theorem install_build {s : State} (hok : StateOk U s) (old : State) :
    ∃ actions, installSnapshot U C old (buildSnapshot U C s) = .ok (s, actions) := by
  have hc := installRows_nested (U := U) s.tables.configs
    (fun p row h => by
      obtain ⟨r, rfl, -⟩ := hok.tables.configs p row h
      exact (U.imposterRow_object _ _ _).portable) old.tables.configs
  have hr := installRows_nested (U := U) s.tables.routes
    (fun id row h => by
      obtain ⟨r, rfl⟩ := hok.tables.routes id row h
      exact IsObject.portable (U.route_object r)) old.tables.routes
  have hm := installRows_nested (U := U) s.tables.proxyRecorded
    (fun key row h => by
      obtain ⟨r, rfl⟩ := hok.tables.proxyRecorded key row h
      exact IsObject.portable (U.recorded_object r)) old.tables.proxyRecorded
  have hd := installRows_nested (U := U) s.dedup
    (fun k row h => by
      obtain ⟨d, rfl⟩ := hok.dedup k row h
      exact IsObject.portable (U.dedup_object d)) old.dedup
  have hm' : installRows U old.tables.proxyRecorded
      ((snapshotPayload U s).proxyRecorded.map fun r => ((r.1, r.2.1), r.2.2)) = .ok s.tables.proxyRecorded := by
    rw [← hm]; simp only [snapshotPayload, List.map_map]; rfl
  refine ⟨[⟨none, syncAction U s.tables.configs⟩, ⟨none, syncRoutesAction U s.tables.routes⟩], ?_⟩
  simp only [installSnapshot, parseSnapshot_build, bind, Except.bind, installSnapshotBlocking, hm']
  simp only [snapshotPayload, hc, hr, hd, installRow_eq hok.tables.routesRevision,
    installRow_eq hok.tables.sessionKey, installRow_eq hok.tables.fleetName]
  rfl

/-! ## The log after it -/

def Event.calm : Event → Event
  | .sweep => .sweep
  | .entry _ e => .entry false e

theorem runEvents_calm (es : List Event) : ∀ s : State,
    (runEvents U s es).state = (runEvents U s (es.map Event.calm)).state ∧
      (runEvents U s es).reply = (runEvents U s (es.map Event.calm)).reply := by
  induction es with
  | nil => intro s; exact ⟨rfl, rfl⟩
  | cons ev es ih =>
    intro s
    cases ev with
    | sweep => exact ih (s.sweep U)
    | entry d e =>
      obtain ⟨hreply, hstate⟩ := applyOne_degraded (U := U) s e d false
      obtain ⟨hs, hr⟩ := ih (applyOne U false s e).state
      simp only [runEvents, List.map_cons, List.foldl_cons, responses, Event.calm, State.step, hstate, hreply] at hs hr ⊢
      exact ⟨hs, by rw [hr]⟩

theorem eventsOf_calm (a : List (Bool × List Entry)) : (eventsOf a).map Event.calm =
    (a.map Prod.snd).flatMap fun entries => .sweep :: entries.map (.entry false) := by
  induction a with
  | nil => rfl
  | cons b a ih =>
    simp only [eventsOf, List.flatMap_cons, List.map_append, List.map_cons, List.map_map] at ih ⊢
    rw [ih]
    rfl

/-- **One batching, two nodes**: their failures may differ, the states do not. -/
theorem applyAll_degraded (s : State) (a b : List (Bool × List Entry)) (h : a.map Prod.snd = b.map Prod.snd) :
    ∃ x y, applyAll U s a = .ok x ∧ applyAll U s b = .ok y ∧ x.reply = y.reply ∧ x.state = y.state := by
  have hcalm : (eventsOf a).map Event.calm = (eventsOf b).map Event.calm := by
    rw [eventsOf_calm, eventsOf_calm, h]
  obtain ⟨ha, har⟩ := runEvents_calm (U := U) (eventsOf a) s
  obtain ⟨hb, hbr⟩ := runEvents_calm (U := U) (eventsOf b) s
  exact ⟨_, _, applyAll_eq a s, applyAll_eq b s, by rw [har, hbr, hcalm], by rw [ha, hb, hcalm]⟩

/-- **Snapshot transfer preserves the replicated state.** A snapshot of a state reached
by `apply` from the empty state, installed on a node that held any state, is that
state; and every later log, in the same batches, is answered alike and leaves the
same state on both nodes, whatever fails on either. -/
theorem snapshot_transfer (batches : List (Bool × List Entry)) (built : Applied (List ControlResponse))
    (hbuilt : applyAll U {} batches = .ok built) (old : State) :
    ∃ actions, installSnapshot U C old (buildSnapshot U C built.state) = .ok (built.state, actions) ∧
      ∀ (installed : State) (a b : List (Bool × List Entry)),
        installSnapshot U C old (buildSnapshot U C built.state) = .ok (installed, actions) →
        a.map Prod.snd = b.map Prod.snd →
        ∃ x y, applyAll U built.state a = .ok x ∧ applyAll U installed b = .ok y ∧
          x.reply = y.reply ∧ x.state = y.state := by
  have hok : StateOk U built.state := by
    rw [applyAll_eq] at hbuilt
    cases hbuilt
    exact stateOk_foldl stateOk_empty _
  obtain ⟨actions, hinst⟩ := install_build (C := C) hok old
  refine ⟨actions, hinst, fun installed a b hi hab => ?_⟩
  rw [hinst] at hi
  cases hi
  exact applyAll_degraded _ a b hab

/-- The snapshot of a node that applied one put, installed on an empty one. -/
theorem snapshot_of_put_transfers :
    let built := (runEvents jsonUpstream {} (eventsOf [(false, [requestAt 1 firstPut])])).state
    ∃ actions, installSnapshot jsonUpstream jsonSnapshot {} (buildSnapshot jsonUpstream jsonSnapshot built) =
        .ok (built, actions) ∧
      ∀ (installed : State) (a b : List (Bool × List Entry)),
        installSnapshot jsonUpstream jsonSnapshot {} (buildSnapshot jsonUpstream jsonSnapshot built) =
          .ok (installed, actions) →
        a.map Prod.snd = b.map Prod.snd →
        ∃ x y, applyAll jsonUpstream built a = .ok x ∧ applyAll jsonUpstream installed b = .ok y ∧
          x.reply = y.reply ∧ x.state = y.state :=
  snapshot_transfer [(false, [requestAt 1 firstPut])] _ (applyAll_eq _ _) {}

end RiftCluster
