import RiftCluster.Model.Flow
import RiftCluster.Proof.Record

/-!
# Replicas converge

Pushes, adoptions and anti-entropy passes all end in one merge per entry. The record of
a key that is only merged into, and never taken away, is at every point the newest of
what has arrived (`newest_after`), so any order of arrival and any duplication leave
the entry of the greatest version (`deliveries_converge`).
-/

namespace RiftCluster

open KV

variable {V : Type} {f k : String} {e : Versioned V} {c : ShardCall V}

/-- The ways an entry reaches a shard from outside. -/
inductive Arrival (V : Type) where
  /-- `apply_replica` -/
  | pushed (req : ReplicateReq V)
  /-- `ensure_adopted` and `anti_entropy_tick` -/
  | pulled (reply : SyncReply V)

def Arrival.calls : Arrival V → List (ShardCall V)
  | .pushed req => [applyReplica req]
  | .pulled reply => reply.merges

/-- A call brings an entry for a key in one of these ways. -/
def Arrives (f k : String) (e : Versioned V) (c : ShardCall V) : Prop :=
  c.request = .set f k e ∧ ∃ arrival : Arrival V, c ∈ arrival.calls

theorem Arrives.eq_merge (h : Arrives f k e c) : ∃ durability, c = .merge f k e durability := by
  obtain ⟨hreq, arrival, hmem⟩ := h
  cases arrival with
  | pushed req =>
    obtain rfl := List.mem_singleton.1 hmem
    unfold applyReplica at hreq ⊢
    cases hop : req.op with
    | put key entry =>
      simp only [hop, ShardCall.request, Mutation.set.injEq] at hreq ⊢
      obtain ⟨rfl, rfl, rfl⟩ := hreq
      exact ⟨_, rfl⟩
    | delete key => simp [hop, ShardCall.request] at hreq
    | clearFlow => simp [hop, ShardCall.request] at hreq
  | pulled reply =>
    obtain ⟨flow, -, hmem⟩ := List.mem_flatMap.1 hmem
    obtain ⟨kv, -, rfl⟩ := List.mem_map.1 hmem
    simp only [ShardCall.request, Mutation.set.injEq] at hreq
    obtain ⟨rfl, rfl, rfl⟩ := hreq
    exact ⟨_, rfl⟩

/-- A move touches the record of the key only by bringing one of the puts, all of which are
live then: the flow is not cleared, not evicted, and nothing of it expires. -/
def ShardMove.Delivers (t : Traffic V) (f k : String) (puts : List (Versioned V)) : ShardMove V → Prop
  | .call now c => (c.request.Affects f k → ∃ e ∈ puts, Arrives f k e c) ∧ ∀ e ∈ puts, isLive e now = true
  | .run slot => f ∉ t.evicted slot
  | .commit _ _ => True
  | .tick now => ∀ e ∈ puts, isLive e now = true

variable {t : Traffic V} {puts : List (Versioned V)} {moves : List (ShardMove V)}

/-- The entries that are there at the start or have arrived in the first `n` moves. -/
def arrived (t : Traffic V) (f k : String) (moves : List (ShardMove V)) (n : ℕ) : Set (Versioned V) :=
  { e | t.shard.entry f k = some e ∨ ∃ now c, .call now c ∈ moves.take n ∧ Arrives f k e c }

theorem arrived_succ_of_ne {n : ℕ} (hn : n < moves.length) (h : ∀ now c e, moves[n] = .call now c → ¬ Arrives f k e c) :
    arrived t f k moves (n + 1) = arrived t f k moves n := by
  ext e
  simp only [arrived, Set.mem_ofPred_eq, List.take_succ_eq_append_getElem hn, List.mem_append, List.mem_singleton]
  refine or_congr_right ⟨?_, ?_⟩
  · rintro ⟨now, c, hmem | heq, harr⟩
    · exact ⟨now, c, hmem, harr⟩
    · exact absurd harr (h now c e heq.symm)
  · rintro ⟨now, c, hmem, harr⟩
    exact ⟨now, c, .inl hmem, harr⟩

theorem arrived_succ_of_arrives {n now : ℕ} (hn : n < moves.length) (hmove : moves[n] = .call now c) (h : Arrives f k e c) :
    arrived t f k moves (n + 1) = insert e (arrived t f k moves n) := by
  ext e'
  simp only [arrived, Set.mem_ofPred_eq, Set.mem_insert_iff, List.take_succ_eq_append_getElem hn, List.mem_append,
    List.mem_singleton]
  constructor
  · rintro (hinit | ⟨now', c', hmem | heq, harr⟩)
    · exact .inr (.inl hinit)
    · exact .inr (.inr ⟨now', c', hmem, harr⟩)
    · rw [hmove, ShardMove.call.injEq] at heq
      obtain ⟨-, rfl⟩ := heq
      have hsame := harr.1.symm.trans h.1
      simp only [Mutation.set.injEq, true_and] at hsame
      exact .inl hsame
  · rintro (rfl | hinit | ⟨now', c', hmem, harr⟩)
    · exact .inr ⟨now, c, .inr hmove.symm, h⟩
    · exact .inl hinit
    · exact .inr ⟨now', c', .inl hmem, harr⟩

/-- **The record is at every point the newest of what has arrived.** -/
theorem newest_after (hstart : ∀ e, t.shard.entry f k = some e → e ∈ puts)
    (hmoves : ∀ n move, moves[n]? = some move → ShardMove.Delivers (t.after moves n) f k puts move) {n : ℕ}
    (hn : n ≤ moves.length) :
    (∀ e ∈ arrived t f k moves n, e ∈ puts) ∧
      Lww.IsNewest Versioned.version (arrived t f k moves n) ((t.after moves n).shard.entry f k) := by
  induction n with
  | zero =>
    have hinit : arrived t f k moves 0 = { e | t.shard.entry f k = some e } := by simp [arrived]
    rw [hinit, Traffic.after, Trace.stateAt_zero]
    refine ⟨hstart, ?_⟩
    cases t.shard.entry f k with
    | none => simp [Lww.IsNewest]
    | some e => simp [Lww.IsNewest]
  | succ n ih =>
    obtain ⟨hsub, hnew⟩ := ih (by omega)
    have hmove := hmoves n _ (List.getElem?_eq_getElem (by omega))
    have hstep : (t.after moves (n + 1)).shard.entry f k = moves[n].leaves (t.after moves n) f k := by
      rw [Traffic.after, Trace.stateAt_succ (by omega), Traffic.entry_step]
      rfl
    -- what the record holds has arrived, so it is one of the puts
    have hcur : ∀ cur, (t.after moves n).shard.entry f k = some cur → cur ∈ puts := by
      intro cur hcur
      rw [hcur] at hnew
      exact hsub cur hnew.1
    -- a step that leaves the record is no arrival
    have hquiet : moves[n].leaves (t.after moves n) f k = (t.after moves n).shard.entry f k →
        (∀ now c e, moves[n] = .call now c → ¬ Arrives f k e c) →
        (∀ e ∈ arrived t f k moves (n + 1), e ∈ puts) ∧
          Lww.IsNewest Versioned.version (arrived t f k moves (n + 1)) ((t.after moves (n + 1)).shard.entry f k) := by
      intro hsame hnone
      rw [hstep, hsame, arrived_succ_of_ne (by omega) hnone]
      exact ⟨hsub, hnew⟩
    cases hm : moves[n] with
    | call now c =>
      rw [hm] at hmove
      obtain ⟨hbrings, hlive⟩ := hmove
      by_cases haff : c.request.Affects f k
      · obtain ⟨e, he, harr⟩ := hbrings haff
        obtain ⟨durability, rfl⟩ := harr.eq_merge
        rw [hstep, hm, arrived_succ_of_arrives (by omega) hm harr, merge_leaves fun cur h => hlive cur (hcur cur h)]
        refine ⟨fun e' he' => ?_, Lww.isNewest_put hnew e⟩
        rcases Set.mem_insert_iff.1 he' with rfl | he'
        · exact he
        · exact hsub e' he'
      · refine hquiet (by rw [hm, leaves_of_not_affects haff]) ?_
        intro now' c' e heq harr
        rw [hm, ShardMove.call.injEq] at heq
        obtain ⟨-, rfl⟩ := heq
        exact haff (by rw [harr.1]; exact ⟨rfl, rfl⟩)
    | run slot =>
      rw [hm] at hmove
      exact hquiet (by rw [hm]; exact if_neg hmove) (by simp [hm])
    | commit now m => exact hquiet (by rw [hm]; rfl) (by simp [hm])
    | tick now =>
      rw [hm] at hmove
      exact hquiet (by rw [hm, leaves_of_live fun cur h => hmove cur (hcur cur h)]) (by simp [hm])

/-- **Replicas converge.** Entries of distinct versions arrive for a key, each at least
once, in any order and by any way, while other calls and the shard's own steps run; the
flow is not cleared, not evicted, and none of the entries expires. Then the record is
the entry of the greatest version, and if that is a tombstone, the key reads as absent. -/
theorem deliveries_converge (t : Traffic V) (f k : String) (puts : List (Versioned V))
    (hdistinct : puts.Pairwise fun a b => a.version ≠ b.version) (moves : List (ShardMove V))
    (hstart : ∀ e, t.shard.entry f k = some e → e ∈ puts)
    (hmoves : ∀ n move, moves[n]? = some move → ShardMove.Delivers (t.after moves n) f k puts move)
    (hall : ∀ e ∈ puts, t.shard.entry f k = some e ∨ ∃ now c, .call now c ∈ moves ∧ Arrives f k e c)
    (greatest : Versioned V) (hmem : greatest ∈ puts) (hmax : ∀ e ∈ puts, e.version ≤ greatest.version) :
    (t.after moves moves.length).shard.entry f k = some greatest ∧
      (greatest.deleted = true → ∀ now, (t.after moves moves.length).shard.get now f k = none) := by
  obtain ⟨hsub, hnew⟩ := newest_after hstart hmoves le_rfl
  have hinj : Set.InjOn Versioned.version { e | e ∈ puts } := by
    have hsymm : Std.Symm fun a b : Versioned V => a.version ≠ b.version := ⟨fun _ _ h => Ne.symm h⟩
    intro a ha b hb heq
    by_contra hne
    exact hdistinct.forall ha hb hne heq
  have hset : arrived t f k moves moves.length = { e | e ∈ puts } := by
    ext e
    refine ⟨hsub e, fun he => ?_⟩
    simpa only [arrived, Set.mem_ofPred_eq, List.take_length] using hall e he
  rw [hset] at hnew
  have hentry := hnew.eq_some hinj hmem hmax
  refine ⟨hentry, fun hdeleted now => ?_⟩
  rw [Shard.get, hentry, Option.filter_some, hdeleted]
  simp

/-- A delete is pushed, and an older entry is pulled after it. -/
def lateArrivals : List (ShardMove ℕ) :=
  [.call 1 (applyReplica ⟨"f", .put "k" { recordOf 2 with deleted := true }, .async⟩),
    .call 2 (.merge "f" "k" (recordOf 1) repairDurability)]

theorem lateArrivals_leave_tombstone :
    let t : Traffic ℕ := { shard := { maxFlows := 1 } }
    (t.after lateArrivals 2).shard.entry "f" "k" = some { recordOf 2 with deleted := true } ∧
      ∀ now, (t.after lateArrivals 2).shard.get now "f" "k" = none := by
  have hpush : Arrives "f" "k" { recordOf 2 with deleted := true }
      (applyReplica ⟨"f", .put "k" { recordOf 2 with deleted := true }, .async⟩) :=
    ⟨rfl, .pushed _, List.mem_singleton.2 rfl⟩
  have hpull : Arrives "f" "k" (recordOf 1) (.merge "f" "k" (recordOf 1) repairDurability) :=
    ⟨rfl, .pulled [("f", [("k", recordOf 1)])], List.mem_singleton.2 rfl⟩
  have hlive : ∀ now, ∀ e ∈ [recordOf 1, { recordOf 2 with deleted := true }], isLive e now = true := by
    simp [recordOf, isLive]
  have hend := deliveries_converge { shard := { maxFlows := 1 } } "f" "k" [recordOf 1, { recordOf 2 with deleted := true }]
    (by decide) lateArrivals (fun e he => by simp [Shard.entry] at he)
    (fun n move h => by
      rcases n with _ | _ | n
      · cases h; exact ⟨fun _ => ⟨_, by simp, hpush⟩, hlive 1⟩
      · cases h; exact ⟨fun _ => ⟨_, by simp, hpull⟩, hlive 2⟩
      · cases h)
    (fun e he => by
      rcases List.mem_pair.1 he with rfl | rfl
      · exact .inr ⟨2, _, by simp [lateArrivals], hpull⟩
      · exact .inr ⟨1, _, by simp [lateArrivals], hpush⟩)
    { recordOf 2 with deleted := true } (by simp) (by decide)
  exact ⟨hend.1, hend.2 rfl⟩

end RiftCluster
