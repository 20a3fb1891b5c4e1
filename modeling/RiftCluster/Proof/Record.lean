import RiftCluster.Lib.Lww
import RiftCluster.Proof.WriteOrder

/-!
# What a step of a shard does to one record

`Traffic.entry_step` says it once, for every step: a call leaves the record as its
request does, unless it is a merge the record refuses; an eviction takes the records of
the flows it chose; the sweep takes expired ones. A merge into a live record is a
last-writer-wins register (`merge_leaves`), so a step that brings nothing newer and
takes nothing away leaves the record (`passes_leaves`).
-/

namespace RiftCluster

open KV

variable {V : Type} {f k : String} {now : ℕ} {s : Shard V} {t : Traffic V}

/-- Whether a call leaves the memory alone: a merge of an entry that is not newer. -/
def ShardCall.refused (s : Shard V) (now : ℕ) : ShardCall V → Bool
  | .merge flowId key entry _ => s.refuses now flowId key entry
  | _ => false

theorem entry_begin (c : ShardCall V) : (c.begin s now).1.entry f k =
    if c.refused s now then s.entry f k else c.request.effect f k (s.entry f k) := by
  cases c with
  | set flowId key entry durability => exact install_effect _ _ _ _ _
  | merge flowId key entry durability =>
    by_cases hrefuse : (ShardCall.merge flowId key entry durability).refused s now = true
    · rw [if_pos hrefuse, begin_merge_refused hrefuse]
    · rw [if_neg hrefuse, begin_merge_taken hrefuse, Shard.send_entry]
      exact install_effect _ _ _ _ _
  | delete flowId key durability => exact remove_effect _ _ _ _
  | clearFlow flowId durability => exact drop_effect _ _

def Traffic.evicted (t : Traffic V) (slot : ℕ) : List String :=
  match t.tasks[slot]? with
  | some (.evict _) => t.shard.victims
  | _ => []

theorem entry_run (slot : ℕ) :
    (t.step (.run slot)).shard.entry f k = if f ∈ t.evicted slot then none else t.shard.entry f k := by
  cases htask : t.tasks[slot]? with
  | none => simp [Traffic.step, Traffic.evicted, htask]
  | some task =>
    rw [Traffic.step_run htask, Traffic.evicted, htask]
    cases task with
    | evict next =>
      simp only [Task.step]
      split
      · rename_i hnone
        rw [List.isEmpty_iff] at hnone
        simp [hnone]
      · exact Shard.entry_shed _
    | clear flows next => simp [Task.step]
    | submit request => simp [Task.step]

def ShardMove.leaves (t : Traffic V) (f k : String) : ShardMove V → Option (Versioned V)
  | .call now c => if c.refused t.shard now then t.shard.entry f k else c.request.effect f k (t.shard.entry f k)
  | .run slot => if f ∈ t.evicted slot then none else t.shard.entry f k
  | .commit _ _ => t.shard.entry f k
  | .tick now => (t.shard.entry f k).filter fun e => isLive e now

/-- **What a step does to a record.** -/
theorem Traffic.entry_step (t : Traffic V) (move : ShardMove V) :
    (t.step move).shard.entry f k = move.leaves t f k := by
  cases move with
  | call now c => exact entry_begin c
  | run slot => exact entry_run slot
  | commit now n => rfl
  | tick now => exact Shard.entry_tick

theorem leaves_of_not_affects {c : ShardCall V} (h : ¬ c.request.Affects f k) :
    (ShardMove.call now c).leaves t f k = t.shard.entry f k := by
  simp only [ShardMove.leaves, effect_of_not_affects h, ite_self]

theorem leaves_of_live (h : ∀ cur, t.shard.entry f k = some cur → isLive cur now = true) :
    (ShardMove.tick now).leaves t f k = t.shard.entry f k := by
  simp only [ShardMove.leaves]
  cases he : t.shard.entry f k with
  | none => rfl
  | some cur => rw [Option.filter_some, if_pos (h cur he)]

/-- **A merge into a live record keeps the newer of the two.** -/
theorem merge_leaves {e : Versioned V} {durability : Durability}
    (hlive : ∀ cur, t.shard.entry f k = some cur → isLive cur now = true) :
    (ShardMove.call now (.merge f k e durability)).leaves t f k = Lww.put Versioned.version (t.shard.entry f k) e := by
  have hrefuses : t.shard.refuses now f k e = (t.shard.entry f k).any fun cur => !cur.supersededBy e := by
    unfold Shard.refuses Shard.getVersioned
    cases he : t.shard.entry f k with
    | none => rfl
    | some cur => simp [hlive cur he]
  simp only [ShardMove.leaves, ShardCall.refused, ShardCall.request, Mutation.effect, hrefuses, and_self, if_true]
  cases t.shard.entry f k with
  | none => rfl
  | some cur =>
    simp only [Option.any_some, Bool.not_eq_true']
    cases hsup : cur.supersededBy e with
    | true => rw [Lww.put_of_lt (supersededBy_iff.1 hsup)]; rfl
    | false =>
      have hle : e.version ≤ cur.version := by
        rw [← not_lt, ← supersededBy_iff, hsup]
        simp
      rw [Lww.put_of_le hle]; rfl

/-- A step that passes over a record: what it brings for it is no newer and comes while the
record is live, and the record is not evicted or swept. -/
def ShardMove.Passes (t : Traffic V) (f k : String) (e : Versioned V) : ShardMove V → Prop
  | .call now c => c.request.Affects f k → isLive e now = true ∧
      ∃ e' durability, c = .merge f k e' durability ∧ e'.version ≤ e.version
  | .run slot => f ∉ t.evicted slot
  | .commit _ _ => True
  | .tick now => isLive e now = true

theorem passes_leaves {move : ShardMove V} {e : Versioned V} (h : move.Passes t f k e) (he : t.shard.entry f k = some e) :
    move.leaves t f k = some e := by
  have honly : ∀ {now}, isLive e now = true → ∀ cur, t.shard.entry f k = some cur → isLive cur now = true := by
    intro now hlive cur hcur
    rw [he] at hcur
    cases hcur
    exact hlive
  cases move with
  | call now c =>
    by_cases haff : c.request.Affects f k
    · obtain ⟨hlive, e', durability, rfl, hle⟩ := h haff
      rw [merge_leaves (honly hlive), he, Lww.put_of_le hle]
    · rw [leaves_of_not_affects haff, he]
  | run slot => exact (if_neg h).trans he
  | commit now j => exact he
  | tick now => rw [leaves_of_live (honly h), he]

end RiftCluster
