import RiftCluster.Model.Shard

/-!
# What a shard's steps do to a record

One lemma per atomic step: the record of a key after it (`Shard.entry`). Sends and
commits move no record; an installed record is the only one that changes; a
removal, a drop, an eviction and the sweep only take records away.
-/

namespace RiftCluster

open KV

variable {V : Type} {s : Shard V} {e : Versioned V} {flowId key f k : String} {now : ℕ}

/-! ## Versions -/

theorem supersededBy_iff {e other : Versioned V} : e.supersededBy other = true ↔ e.version < other.version := by
  simp only [Versioned.supersededBy, Versioned.version, Prod.Lex.toLex_lt_toLex, Bool.or_eq_true, Bool.and_eq_true,
    decide_eq_true_eq, beq_iff_eq]

theorem isLive_mono {now' : ℕ} (h : now ≤ now') (hl : isLive e now' = true) : isLive e now = true := by
  simp only [isLive, Bool.or_eq_true, beq_iff_eq, decide_eq_true_eq] at hl ⊢
  omega

/-! ## Merges -/

theorem begin_merge_refused {durability : Durability} (h : s.refuses now flowId key e = true) :
    ShardCall.begin s now (.merge flowId key e durability) = (s, []) := if_pos h

theorem begin_merge_taken {durability : Durability} (h : ¬ s.refuses now flowId key e = true) :
    ShardCall.begin s now (.merge flowId key e durability) =
      ((s.install now flowId key e).send (persisted durability (.set flowId key e)), [.evict []]) := if_neg h

/-! ## Records -/

namespace Shard

@[simp] theorem send_memory (requests : List (Mutation V)) : (s.send requests).memory = s.memory := by
  unfold send; split <;> rfl

@[simp] theorem send_entry (requests : List (Mutation V)) : (s.send requests).entry f k = s.entry f k := by
  rw [entry, send_memory, entry]

@[simp] theorem send_maxFlows (requests : List (Mutation V)) : (s.send requests).maxFlows = s.maxFlows := by
  unfold send; split <;> rfl

@[simp] theorem send_writer (requests : List (Mutation V)) : (s.send requests).writer = s.writer := by
  unfold send; split <;> rfl

@[simp] theorem send_disk (requests : List (Mutation V)) : (s.send requests).disk = s.disk := by
  unfold send; split <;> rfl

@[simp] theorem send_touchSeq (requests : List (Mutation V)) : (s.send requests).touchSeq = s.touchSeq := by
  unfold send; split <;> rfl

theorem send_queue (h : s.writer = true) (requests : List (Mutation V)) :
    (s.send requests).queue = s.queue ++ requests := by
  simp [send, h]

theorem entry_install : (s.install now flowId key e).entry f k =
    if flowId = f ∧ key = k then some e else s.entry f k := by
  simp only [entry, install, get_insert]
  by_cases hf : flowId = f
  · subst hf
    simp only [true_and, if_true, Option.bind_some, get_insert]
    split
    · rfl
    · cases s.memory[flowId]? with
      | none => simp
      | some flow => rfl
  · simp [hf]

theorem entry_remove : (s.remove now flowId key).entry f k = if flowId = f ∧ key = k then none else s.entry f k := by
  unfold remove
  cases hm : s.memory[flowId]? with
  | none =>
    by_cases hf : flowId = f
    · subst hf; simp [entry, hm]
    · simp [hf]
  | some flow =>
    by_cases hf : flowId = f
    · subst hf
      have hrow : s.entry flowId k = flow.keys[k]? := by simp [entry, hm]
      simp only [entry, true_and]
      split
      · -- the key was the flow's last
        rename_i hempty
        have hgone : (flow.keys.erase key)[k]? = none := by
          rw [Std.ExtTreeMap.isEmpty_iff.1 hempty]; exact get_empty k
        rw [get_erase] at hgone
        rw [get_erase, if_pos rfl]
        split
        · rfl
        · rename_i hk
          rw [if_neg hk] at hgone
          simp [hm, hgone]
      · rw [get_insert, if_pos rfl, Option.bind_some, get_erase]
        split
        · rfl
        · simp [hm]
    · simp only [entry, hf, false_and, if_false]
      split
      · rw [get_erase, if_neg hf]
      · rw [get_insert, if_neg hf]

theorem entry_drop : (s.drop flowId).entry f k = if flowId = f then none else s.entry f k := by
  simp only [entry, drop, get_erase]
  split <;> rfl

theorem memory_shed (flows : List String) : (s.shed flows).memory[f]? = if f ∈ flows then none else s.memory[f]? :=
  get_eraseAll _ _ _

theorem entry_shed (flows : List String) : (s.shed flows).entry f k = if f ∈ flows then none else s.entry f k := by
  simp only [entry, memory_shed]
  split <;> rfl

theorem entry_tick : (s.tick now).entry f k = (s.entry f k).filter fun e => isLive e now := by
  simp only [entry, tick, sweepExpired, get_retain]
  rw [Std.ExtTreeMap.getElem?_map]
  cases s.memory[f]? with
  | none => rfl
  | some flow =>
    simp only [Option.map_some, Option.filter_some, Option.bind_some]
    split
    · rw [Option.bind_some, get_retain]
    · rename_i hempty
      have hempty' : (flow.keys.retain fun _ e => isLive e now) = ∅ := by
        apply Std.ExtTreeMap.isEmpty_iff.1
        simpa using hempty
      have hk : (flow.keys.retain fun _ e => isLive e now)[k]? = none := by rw [hempty']; exact get_empty k
      rw [get_retain] at hk
      rw [hk]; rfl

theorem mem_expired {row : String × String} :
    row ∈ s.expired now ↔ ∃ e, s.entry row.1 row.2 = some e ∧ isLive e now = false := by
  obtain ⟨f, k⟩ := row
  simp only [expired, List.mem_flatMap, List.mem_map, List.mem_filter, Prod.mk.injEq, Prod.exists, entry]
  constructor
  · rintro ⟨f', flow, hflow, k', e, ⟨hkey, hdead⟩, rfl, rfl⟩
    rw [mem_toList] at hflow hkey
    exact ⟨e, by rw [hflow]; exact hkey, by simpa using hdead⟩
  · rintro ⟨e, he, hdead⟩
    obtain ⟨flow, hflow, hkey⟩ := Option.bind_eq_some_iff.1 he
    exact ⟨f, flow, mem_toList.2 hflow, k, e, ⟨mem_toList.2 hkey, by simp [hdead]⟩, rfl, rfl⟩

end Shard

end RiftCluster
