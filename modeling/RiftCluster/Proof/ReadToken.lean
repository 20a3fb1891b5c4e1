import RiftCluster.Model.Reads
import RiftCluster.Proof.EngineAgrees
import RiftCluster.Proof.Revisions

/-!
# A read's token and its body

The token of a read is of the applied tables, its body of the engine. Between a batch's
commit and the end of its drive the two differ: the token is the new revision, and the
body the old config. A later write that is conditional on the token is applied, and what
the batch wrote is lost.

* `read_token_names_body`: when the body is read with no batch between its commit and its
  drive, on a node that records no failure, and a later write conditional on the token is
  applied, then the body is what is stored at the token's revision. The row cannot have
  changed in between, since its revision would have.
* `readBeforeDrive_loses_update`: the same read, before the drive.
-/

namespace RiftCluster

open KV

variable {U : Upstream} {F : Calls}

/-! ## The tables along the run -/

theorem row_between {es : List Event} (hlog : Increasing es) {i j m : ℕ} (hij : i ≤ j) (hjm : j ≤ m) (hm : m ≤ es.length)
    {p : Port} {a b : String} (ha : (sAt U {} es i).tables.configs[p]? = some a)
    (hb : (sAt U {} es m).tables.configs[p]? = some b) (hrev : rowRevision U a = rowRevision U b) :
    (sAt U {} es j).tables.configs[p]? = some a := by
  obtain ⟨k, hk, ⟨d, e, hek, hra⟩, hja⟩ := row_written (by omega) ha
  obtain ⟨l, hl, ⟨d', e', hel, hrb⟩, hjb⟩ := row_written hm hb
  have hindex : e.logId.index = e'.logId.index := Option.some.inj (by rw [← hra, hrev, hrb])
  obtain rfl : k = l := hlog.eq hek hel hindex
  have hsame : a = b := row_unique hlog (by omega) hm ha hb hrev
  rw [hjb j (by omega) hjm, hsame]

/-- What every moment of a run keeps: the tables are those of the events; and there is a node in
step with this one, whose engine is where the drive under way will end. -/
structure InStep (U : Upstream) (F : Calls) (n : ReadNode) : Prop where
  tables : n.sm = n.events.foldl (State.step U) {}
  ahead : ∃ s : Node, NodeOk U s ∧ s.sm = n.sm ∧ s.engine = n.engine.drive U F n.pending

/-- Every entry of a batch keeps away from the cases of `OpSafe`, and finds stub ids unique. -/
def BatchSafe (U : Upstream) (F : Calls) (n : ReadNode) (entries : List Entry) : Prop :=
  ∀ k (hk : k < (NodeEvent.begin :: entries.map NodeEvent.entry).length),
    StepSafe U (nAt U F ⟨n.sm, n.engine, false⟩ (.begin :: entries.map .entry) k)
      (NodeEvent.begin :: entries.map NodeEvent.entry)[k]

theorem commit_eq {n : ReadNode} (h : n.pending = []) (entries : List Entry) :
    n.step U F (.commit entries) =
      { n with
        sm := (Event.sweep :: entries.map (.entry n.engine.isDegraded)).foldl (State.step U) n.sm
        pending := (actions U n.sm (.sweep :: entries.map (.entry n.engine.isDegraded))).map AttributedAction.action
        events := n.events ++ .sweep :: entries.map (.entry n.engine.isDegraded) } := by
  simp only [ReadNode.step, h, List.isEmpty_nil, if_true, apply_eq]
  rfl

theorem inStep_step {n : ReadNode} (hok : InStep U F n) (move : ReadMove)
    (hsafe : ∀ entries, move = .commit entries → n.pending = [] → BatchSafe U F n entries) :
    InStep U F (n.step U F move) := by
  obtain ⟨s, hs, hsm, hengine⟩ := hok.ahead
  cases move with
  | drive =>
    cases hp : n.pending with
    | nil => simp only [ReadNode.step, hp]; exact hok
    | cons action rest =>
      simp only [ReadNode.step, hp]
      rw [hp] at hengine
      exact ⟨hok.tables, s, hs, hsm, hengine⟩
  | commit entries =>
    by_cases hp : n.pending = []
    · rw [commit_eq hp]
      rw [hp] at hengine
      have hstart : NodeOk U ⟨n.sm, n.engine, false⟩ := by
        obtain ⟨htables, hzero, htracks⟩ := hs
        rw [hsm] at htables hzero htracks
        rw [hengine] at htracks
        exact ⟨htables, hzero, htracks⟩
      refine ⟨?_, nAt U F ⟨n.sm, n.engine, false⟩ (.begin :: entries.map .entry)
        (NodeEvent.begin :: entries.map NodeEvent.entry).length, ?_, ?_, ?_⟩
      · dsimp only
        rw [List.foldl_append, ← hok.tables]
      · -- every entry of the batch keeps the node's invariant
        refine Trace.stateAt_stretch (Nat.zero_le _) le_rfl ?_ fun k hk _ _ h => (node_step h (hsafe entries rfl hp k hk)).1
        rw [Trace.stateAt_zero]
        exact hstart
      · rw [nAt, Trace.stateAt_length, List.foldl_cons, entries_run]
        rfl
      · rw [nAt, Trace.stateAt_length, List.foldl_cons, entries_run]
        rfl
    · have hne : n.pending.isEmpty = false := by
        cases hl : n.pending with
        | nil => exact absurd hl hp
        | cons => rfl
      simp only [ReadNode.step, hne]
      exact hok

theorem inStep_start : InStep U F {} where
  tables := rfl
  ahead := ⟨{}, ⟨tablesOk_empty, get_empty 0, .inr fun p => .inr ((agreeAt_none (get_empty p)).2 (get_empty p))⟩, rfl, rfl⟩

theorem events_step (n : ReadNode) (move : ReadMove) : n.events <+: (n.step U F move).events := by
  cases move with
  | drive =>
    simp only [ReadNode.step]
    split <;> exact List.prefix_refl _
  | commit entries =>
    simp only [ReadNode.step]
    split
    · rw [apply_eq]
      exact List.prefix_append _ _
    · exact List.prefix_refl _

theorem events_mono {moves : List ReadMove} {j k : ℕ} (hjk : j ≤ k) (hk : k ≤ moves.length) :
    (readAt U F {} moves j).events <+: (readAt U F {} moves k).events := by
  refine Trace.stateAt_stretch (P := fun n : ReadNode => (readAt U F {} moves j).events <+: n.events) hjk hk
    (List.prefix_refl _) ?_
  intro m _ _ _ ih
  exact ih.trans (events_step _ _)

theorem readRow_of_admitRow {row : String} {config : ImposterConfig} (h : admitRow U row = .ok config) :
    U.readRow row = .ok config := by
  unfold admitRow at h
  unfold Upstream.readRow
  cases hread : U.imposter.read row with
  | error e => rw [hread] at h; cases h
  | ok record =>
    rw [hread] at h
    dsimp only at h ⊢
    cases hconfig : U.config.read record.config with
    | error e => rw [hconfig] at h; cases h
    | ok config' =>
      rw [hconfig] at h
      dsimp only at h
      cases hverdict : U.admissionVerdict config' with
      | error reason => rw [hverdict] at h; cases h
      | ok _ => rw [hverdict] at h; exact h

/-- **A token and the body that came with it are of one revision, when no batch is between its
commit and its drive.** Take any run of batches on one node, whatever engine calls fail, in
which stub ids are unique and no operation reaches past the engine's checks. Let a read
have its token at moment `i` and its body at moment `j`, when no batch is between its commit
and the end of its drive, the node records no failure and the engine admits the row. If a later
write that is conditional on the token is applied, then the body is the config
that is stored at the token's revision. -/
theorem read_token_names_body (U : Upstream) (F : Calls) (moves : List ReadMove)
    (hlog : Increasing (readAt U F {} moves moves.length).events)
    (hsafe : ∀ k entries, moves[k]? = some (.commit entries) → (readAt U F {} moves k).pending = [] →
      BatchSafe U F (readAt U F {} moves k) entries)
    (i j : ℕ) (hij : i ≤ j) (hj : j ≤ moves.length) (p : Port) (r : ℕ)
    (htoken : imposterRevision U (readAt U F {} moves i).sm.tables p = some r)
    (hdriven : (readAt U F {} moves j).pending = [])
    (hclean : (readAt U F {} moves j).engine.isDegraded = false)
    (hserves : ∀ row, (readAt U F {} moves j).sm.tables.configs[p]? = some row → ∃ config, admitRow U row = .ok config)
    (m : ℕ) (d : Bool) (e : Entry) (request : ControlRequest) (hm : (readAt U F {} moves j).events.length ≤ m)
    (he : (readAt U F {} moves moves.length).events[m]? = some (.entry d e)) (hp : e.payload = .normal request)
    (hexp : request.expectedRevision = some r) (htarget : preconditionTarget request.op = some (.imposter p))
    (hfresh : replayOf U ((sAt U {} (readAt U F {} moves moves.length).events m).receive e) request = none)
    (happlied : (applyOne U d (sAt U {} (readAt U F {} moves moves.length).events m) e).reply.outcome = .applied) :
    ∃ config, (readAt U F {} moves j).engine.served[p]? = some config ∧
      storedConfig U (readAt U F {} moves i).sm.tables p = some config := by
  set es := (readAt U F {} moves moves.length).events with hes
  have hrun : ∀ k, k ≤ moves.length → InStep U F (readAt U F {} moves k) := by
    intro k hk
    refine Trace.stateAt_stretch (Nat.zero_le k) hk ?_ ?_
    · rw [Trace.stateAt_zero]; exact inStep_start
    · intro k' hk' _ _ ih
      exact inStep_step ih _ fun entries hmove => hsafe k' entries (by rw [List.getElem?_eq_getElem (by omega), hmove])
  -- the tables of a moment are those of as many events of the whole log
  have hstate : ∀ k, k ≤ moves.length →
      (readAt U F {} moves k).sm = sAt U {} es (readAt U F {} moves k).events.length := by
    intro k hk
    have hmono : (readAt U F {} moves k).events <+: es := events_mono hk le_rfl
    obtain ⟨rest, hrest⟩ := hmono
    rw [(hrun k hk).tables, sAt, Trace.stateAt, ← hrest, List.take_left']
    rfl
  have hlen : ∀ {k k'}, k ≤ k' → k' ≤ moves.length →
      (readAt U F {} moves k).events.length ≤ (readAt U F {} moves k').events.length :=
    fun h h' => (events_mono h h').length_le
  have hmlen : m < es.length := (List.getElem?_eq_some_iff.1 he).1
  -- the row of the token, and the row the later write found
  obtain ⟨row, hrow, hrev⟩ := Option.bind_eq_some_iff.1 htoken
  have hrev : rowRevision U row = some r := hrev
  rw [hstate i (by omega)] at hrow
  obtain ⟨hcheck, -, -⟩ := applied_runs hp hfresh happlied
  have hok : StateOk U (sAt U {} es m) := stateOk_run stateOk_empty es m
  obtain ⟨row', hrow', hrev'⟩ := expected_row hok.tables hexp htarget hcheck
  have hbody : (readAt U F {} moves j).sm.tables.configs[p]? = some row := by
    rw [hstate j hj]
    exact row_between hlog (hlen hij hj) hm (by omega) hrow hrow' (hrev.trans hrev'.symm)
  -- the engine is where the drive has ended, and agrees with that row
  obtain ⟨config, hconfig⟩ := hserves row hbody
  obtain ⟨s, hs, hsm, hengine⟩ := (hrun j hj).ahead
  rw [hdriven] at hengine
  have htracks : Tracks U (readAt U F {} moves j).sm.tables (readAt U F {} moves j).engine := by
    have h := hs.tracks
    rw [hsm, hengine] at h
    exact h
  have hagree := htracks.agrees hclean p
  unfold AgreeAt at hagree
  rw [hbody] at hagree
  refine ⟨config, hagree config hconfig, ?_⟩
  rw [storedConfig, hstate i (by omega), hrow, Option.bind_some, readRow_of_admitRow hconfig]
  rfl

/-- A put of an imposter with some stubs, if its row is at a revision. -/
def putIf (expected : Option ℕ) (opId : String) (stubs : List Stub) : ControlRequest :=
  { opId, expectedRevision := expected, op := .putImposter (httpImposter stubs) none }

/-- A put, its drive, and a put that is conditional on the first. -/
def readAfterDrive : List ReadMove :=
  [.commit [requestAt 1 (putIf none "op-1" [])], .drive, .commit [requestAt 2 (putIf (some 1) "op-2" [])]]

/-- A read after the drive has the config that its token is of. -/
theorem readAfterDrive_names_body :
    imposterRevision jsonUpstream (readAt jsonUpstream .faultless {} readAfterDrive 2).sm.tables 4545 = some 1 ∧
      ∃ config, (readAt jsonUpstream .faultless {} readAfterDrive 2).engine.served[(4545 : Port)]? = some config ∧
        storedConfig jsonUpstream (readAt jsonUpstream .faultless {} readAfterDrive 2).sm.tables 4545 = some config := by
  have hevents : (readAt jsonUpstream .faultless {} readAfterDrive 3).events =
      [.sweep, .entry false (requestAt 1 (putIf none "op-1" [])), .sweep,
        .entry false (requestAt 2 (putIf (some 1) "op-2" []))] := by
    decide +kernel
  have htoken : imposterRevision jsonUpstream (readAt jsonUpstream .faultless {} readAfterDrive 2).sm.tables 4545 =
      some 1 := by
    decide +kernel
  refine ⟨htoken, ?_⟩
  refine read_token_names_body jsonUpstream .faultless readAfterDrive ?_ ?_ 2 2 le_rfl (by decide) 4545 1 htoken
    (by decide +kernel) (by decide +kernel) ?_ 3 false _ _ (by decide +kernel) (by rw [show readAfterDrive.length = 3 from rfl, hevents]; rfl) rfl rfl rfl
    (by decide +kernel) (by decide +kernel)
  · show Increasing (readAt jsonUpstream .faultless {} readAfterDrive 3).events
    rw [hevents]
    simp [Increasing, requestAt]
  · intro k entries hmove _
    rcases k with _ | _ | _ | k
    · cases hmove
      intro k hk
      rcases k with _ | _ | k
      · trivial
      · refine ⟨uniqueIds_empty rfl, fun request hp => ?_⟩
        cases hp
        exact fun hd => by cases hd
      · exact absurd hk (by simp)
    · cases hmove
    · cases hmove
      intro k hk
      rcases k with _ | _ | k
      · trivial
      · have hclean : (readAt jsonUpstream .faultless {} readAfterDrive 2).engine.isDegraded = false := by decide +kernel
        -- the first put is the only row
        have hall : ∀ kv ∈ (readAt jsonUpstream .faultless {} readAfterDrive 2).sm.tables.configs.toList,
            (jsonUpstream.readRow kv.2).toOption = some (httpImposter []) := by
          decide +kernel
        refine ⟨fun p r hrow => ?_, fun request hp => ?_⟩
        · have hread := hall (p, r.text jsonUpstream) (mem_toList.2 hrow)
          have hconfig : r.config = httpImposter [] := by simpa [Row.text, Except.toOption] using hread
          rw [hconfig]
          exact List.nodup_nil
        · cases hp
          exact fun hd => Bool.noConfusion (hclean.symm.trans hd)
      · exact absurd hk (by simp)
    · cases hmove
  · have hadmits : ((readAt jsonUpstream .faultless {} readAfterDrive 2).sm.tables.configs[(4545 : Port)]?.all fun row =>
        (admitRow jsonUpstream row).toOption.isSome) = true := by
      decide +kernel
    intro row hrow
    rw [hrow, Option.all_some] at hadmits
    cases hrow' : admitRow jsonUpstream row with
    | ok config => exact ⟨config, rfl⟩
    | error reason => rw [hrow'] at hadmits; cases hadmits

/-- A put, its drive, a second put, and one that is conditional on the second. -/
def readBeforeDrive : List ReadMove :=
  [.commit [requestAt 1 (putIf none "op-1" [])], .drive,
    .commit [requestAt 2 (putIf none "op-2" [{ id := some "s", responses := [] }])], .drive,
    .commit [requestAt 3 (putIf (some 2) "op-3" [])]]

/-- **A read before the second put's drive has the token of the second and the body of the
first**, and the write that is conditional on the token is applied. -/
theorem readBeforeDrive_loses_update :
    imposterRevision jsonUpstream (readAt jsonUpstream .faultless {} readBeforeDrive 3).sm.tables 4545 = some 2 ∧
      (readAt jsonUpstream .faultless {} readBeforeDrive 3).engine.served[(4545 : Port)]? = some (httpImposter []) ∧
      storedConfig jsonUpstream (readAt jsonUpstream .faultless {} readBeforeDrive 3).sm.tables 4545 =
        some (httpImposter [{ id := some "s", responses := [] }]) ∧
      (readAt jsonUpstream .faultless {} readBeforeDrive 5).events[5]? =
        some (.entry false (requestAt 3 (putIf (some 2) "op-3" []))) ∧
      (applyOne jsonUpstream false (sAt jsonUpstream {} (readAt jsonUpstream .faultless {} readBeforeDrive 5).events 5)
        (requestAt 3 (putIf (some 2) "op-3" []))).reply = .ofApplied 3 := by
  refine ⟨by decide +kernel, by decide +kernel, by decide +kernel, by decide +kernel, by decide +kernel⟩

end RiftCluster
