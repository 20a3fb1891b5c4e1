import RiftCluster.Proof.WriteOrder

/-!
# Closing a shard and opening it again

Calls made one after another, under a clock that does not go back, on a shard opened
from a file with no more live flows than the cap. The flow a call has just written is
the newest, so an eviction never takes it (`newest_not_victim`), and every step is a
safe one of `WriteOrder`. What is closed is then the memory, expired rows apart, and
reading it back trims nothing, since the memory is within the cap (`capOk_step`).

A file over the cap is another matter: recovery sheds flows from the memory and
leaves their rows in the file, to come back with the next write to such a flow.
-/

namespace RiftCluster

open KV

variable {V : Type} {s : Shard V} {t : Traffic V} {f k : String} {now clock : ℕ}

/-! ## Ages -/

theorem touchedBefore_total (a b : ℕ × ℕ) : touchedBefore a b = true ∨ touchedBefore b a = true := by
  simp only [touchedBefore, Bool.or_eq_true, Bool.and_eq_true, decide_eq_true_eq, beq_iff_eq]
  omega

theorem touchedBefore_trans {a b c : ℕ × ℕ} (hab : touchedBefore a b = true) (hbc : touchedBefore b c = true) :
    touchedBefore a c = true := by
  simp only [touchedBefore, Bool.or_eq_true, Bool.and_eq_true, decide_eq_true_eq, beq_iff_eq] at *
  omega

theorem byAge_sorted (memory : Memory V) : (byAge memory).Pairwise fun a b => touchedBefore a.2 b.2 = true := by
  have : Std.Total fun a b : String × ℕ × ℕ => touchedBefore a.2 b.2 = true := ⟨fun a b => touchedBefore_total a.2 b.2⟩
  have : IsTrans (String × ℕ × ℕ) fun a b => touchedBefore a.2 b.2 = true := ⟨fun _ _ _ => touchedBefore_trans⟩
  exact List.pairwise_insertionSort _ _

theorem byAge_perm (memory : Memory V) :
    (byAge memory).Perm (memory.toList.map fun kv => (kv.1, kv.2.lastTouch, kv.2.touchSeq)) :=
  List.perm_insertionSort _ _

theorem mem_byAge {memory : Memory V} {a : String × ℕ × ℕ} :
    a ∈ byAge memory ↔ ∃ flow, memory[a.1]? = some flow ∧ a.2 = (flow.lastTouch, flow.touchSeq) := by
  rw [(byAge_perm memory).mem_iff, List.mem_map]
  obtain ⟨f, touch⟩ := a
  constructor
  · rintro ⟨⟨f', flow⟩, hmem, heq⟩
    cases heq
    exact ⟨flow, mem_toList.1 hmem, rfl⟩
  · rintro ⟨flow, hflow, htouch⟩
    exact ⟨(f, flow), mem_toList.2 hflow, by rw [← htouch]⟩

theorem byAge_keys (memory : Memory V) : ((byAge memory).map Prod.fst).Nodup := by
  rw [((byAge_perm memory).map Prod.fst).nodup_iff, List.map_map]
  exact nodup_toList_keys memory

theorem byAge_length (memory : Memory V) : (byAge memory).length = memory.size := by
  rw [(byAge_perm memory).length_eq, List.length_map, Std.ExtTreeMap.length_toList]

namespace Shard

theorem victims_nodup (s : Shard V) : s.victims.Nodup := by
  unfold victims
  rw [List.map_take]
  exact (byAge_keys s.memory).sublist (List.take_sublist _ _)

theorem victims_length (s : Shard V) : s.victims.length = s.memory.size - s.maxFlows := by
  unfold victims
  rw [List.length_map, List.length_take, byAge_length]
  omega

theorem mem_of_victim (h : f ∈ s.victims) : s.memory[f]?.isSome = true := by
  obtain ⟨a, ha, rfl⟩ := List.mem_map.1 h
  obtain ⟨flow, hflow, -⟩ := mem_byAge.1 (List.mem_of_mem_take ha)
  rw [hflow]; rfl

/-- **An eviction brings the memory down to the cap.** -/
theorem shed_victims_size (s : Shard V) : (s.shed s.victims).memory.size ≤ s.maxFlows ∨ s.victims = [] := by
  by_cases hv : s.victims = []
  · exact .inr hv
  · left
    have hsize : (s.shed s.victims).memory.size + s.victims.length ≤ s.memory.size := size_add_le s.victims_nodup
      (fun g hg => ⟨mem_of_victim hg, by rw [memory_shed, if_pos hg]⟩)
      (fun g hg => by
        rw [memory_shed] at hg
        split at hg
        · cases hg
        · exact hg)
    have hlen := s.victims_length
    have hpos := List.length_pos_of_ne_nil hv
    omega

def Newest (s : Shard V) (f : String) : Prop :=
  ∀ g flow other, s.memory[f]? = some flow → s.memory[g]? = some other → g ≠ f →
    touchedBefore (flow.lastTouch, flow.touchSeq) (other.lastTouch, other.touchSeq) = false

/-- **A flow that is evicted was touched no later than one that stays.** -/
theorem victim_older {g : String} {flow other : FlowMem V} (hf : f ∈ s.victims) (hg : g ∉ s.victims)
    (hflow : s.memory[f]? = some flow) (hother : s.memory[g]? = some other) :
    touchedBefore (flow.lastTouch, flow.touchSeq) (other.lastTouch, other.touchSeq) = true := by
  have hsorted := byAge_sorted s.memory
  rw [← List.take_append_drop (s.memory.size - s.maxFlows) (byAge s.memory)] at hsorted
  obtain ⟨a, ha, rfl⟩ := List.mem_map.1 hf
  have hb : (g, other.lastTouch, other.touchSeq) ∈ byAge s.memory := mem_byAge.2 ⟨other, hother, rfl⟩
  rw [← List.take_append_drop (s.memory.size - s.maxFlows) (byAge s.memory), List.mem_append] at hb
  have hlater := hb.resolve_left fun hb => hg (List.mem_map.2 ⟨_, hb, rfl⟩)
  have hle := (List.pairwise_append.1 hsorted).2.2 a ha _ hlater
  obtain ⟨flow', hflow', htouch⟩ := mem_byAge.1 (List.mem_of_mem_take ha)
  rw [hflow] at hflow'
  cases hflow'
  rwa [htouch] at hle

theorem exists_survivor (hcap : 0 < s.maxFlows) (hheld : 0 < s.memory.size) :
    ∃ g other, g ∉ s.victims ∧ s.memory[g]? = some other := by
  have hlt : s.memory.size - s.maxFlows < (byAge s.memory).length := by rw [byAge_length]; omega
  obtain ⟨other, hother, -⟩ := mem_byAge.1 (List.getElem_mem hlt)
  refine ⟨_, other, fun hvictim => ?_, hother⟩
  -- it stands right after the victims, and no flow stands twice
  obtain ⟨a, ha, heq⟩ := List.mem_map.1 hvictim
  obtain ⟨i, hi, hai⟩ := List.getElem_of_mem ha
  rw [List.length_take, byAge_length] at hi
  rw [List.getElem_take] at hai
  have hib : i < (byAge s.memory).length := by rw [byAge_length]; omega
  have hdiff := List.pairwise_iff_getElem.1 (List.pairwise_map.1 (byAge_keys s.memory)) i _ hib hlt (by omega)
  rw [hai] at hdiff
  exact hdiff heq

/-- **The newest flow is not evicted**, as long as the cap leaves room for one. -/
theorem newest_not_victim (hnew : s.Newest f) (hcap : 0 < s.maxFlows) : f ∉ s.victims := by
  intro hf
  obtain ⟨flow, hflow⟩ := Option.isSome_iff_exists.1 (mem_of_victim hf)
  have hheld : 0 < s.memory.size := by
    have hpos := List.length_pos_of_mem hf
    rw [victims_length] at hpos
    omega
  obtain ⟨g, other, hg, hother⟩ := exists_survivor hcap hheld
  have holder := victim_older hf hg hflow hother
  rw [hnew g flow other hflow hother fun heq => hg (heq ▸ hf)] at holder
  cases holder

/-- No flow was touched after the clock, and the touch counter is past every flow's. -/
def Touched (clock : ℕ) (s : Shard V) : Prop :=
  ∀ (f : String) (flow : FlowMem V), s.memory[f]? = some flow → flow.lastTouch ≤ clock ∧ flow.touchSeq < s.touchSeq

theorem Touched.mono {clock clock' : ℕ} (h : Touched clock s) (hle : clock ≤ clock') : Touched clock' s :=
  fun f flow hf => ⟨(h f flow hf).1.trans hle, (h f flow hf).2⟩

/-- What a step leaves in the memory was there, with its touches. -/
def Within (s' s : Shard V) : Prop :=
  ∀ (f : String) (flow' : FlowMem V), s'.memory[f]? = some flow' →
    ∃ flow, s.memory[f]? = some flow ∧ flow'.lastTouch = flow.lastTouch ∧ flow'.touchSeq = flow.touchSeq

theorem Within.size_le {s' : Shard V} (h : Within s' s) : s'.memory.size ≤ s.memory.size := by
  have hsize : s'.memory.size + ([] : List String).length ≤ s.memory.size :=
    size_add_le List.nodup_nil (fun _ hk => by cases hk) fun g hg => by
      obtain ⟨flow', hflow'⟩ := Option.isSome_iff_exists.1 hg
      obtain ⟨flow, hflow, -⟩ := h g flow' hflow'
      rw [hflow]; rfl
  simpa using hsize

theorem Within.touched {s' : Shard V} {clock : ℕ} (h : Within s' s) (hseq : s.touchSeq ≤ s'.touchSeq)
    (ht : Touched clock s) : Touched clock s' := by
  intro f flow' hf
  obtain ⟨flow, hflow, hl, hs⟩ := h f flow' hf
  obtain ⟨h1, h2⟩ := ht f flow hflow
  exact ⟨by omega, by omega⟩

theorem Within.newest {s' : Shard V} (h : Within s' s) (hnew : s.Newest f) : s'.Newest f := by
  intro g flow' other' hf hg hne
  obtain ⟨flow, hflow, hl, hs⟩ := h f flow' hf
  obtain ⟨other, hother, hl', hs'⟩ := h g other' hg
  rw [hl, hs, hl', hs']
  exact hnew g flow other hflow hother hne

theorem within_shed (flows : List String) : Within (s.shed flows) s := by
  intro g flow' hg
  rw [memory_shed] at hg
  split at hg
  · cases hg
  · exact ⟨flow', hg, rfl, rfl⟩

theorem within_drop (flowId : String) : Within (s.drop flowId) s := by
  intro g flow' hg
  rw [drop, get_erase] at hg
  split at hg
  · cases hg
  · exact ⟨flow', hg, rfl, rfl⟩

theorem within_tick : Within (s.tick now) s := by
  intro g flow' hg
  simp only [tick, sweepExpired, get_retain, Option.filter_eq_some_iff] at hg
  obtain ⟨hg, -⟩ := hg
  rw [Std.ExtTreeMap.getElem?_map] at hg
  obtain ⟨flow, hflow, rfl⟩ := Option.map_eq_some_iff.1 hg
  exact ⟨flow, hflow, rfl, rfl⟩

theorem install_touched {clock : ℕ} (ht : Touched clock s) (hle : clock ≤ now) (f key : String) (e : Versioned V) :
    Touched now (s.install now f key e) ∧ (s.install now f key e).Newest f := by
  have hget : ∀ g, (s.install now f key e).memory[g]? = if f = g then
      some { keys := (s.memory[f]?.getD {}).keys.insert key e, lastTouch := now, touchSeq := s.touchSeq }
      else s.memory[g]? := fun g => get_insert _ _ _ _
  constructor
  · intro g flow hg
    rw [hget] at hg
    have hseq : (s.install now f key e).touchSeq = s.touchSeq + 1 := rfl
    split at hg
    · cases hg
      exact ⟨le_rfl, Nat.lt_succ_self _⟩
    · obtain ⟨h1, h2⟩ := ht g flow hg
      exact ⟨by omega, by omega⟩
  · intro g flow other hf hg hne
    rw [hget, if_pos rfl] at hf
    rw [hget, if_neg (Ne.symm hne)] at hg
    cases hf
    obtain ⟨h1, h2⟩ := ht g other hg
    simp only [touchedBefore, Bool.or_eq_false_iff, Bool.and_eq_false_iff, decide_eq_false_iff_not, beq_eq_false_iff_ne]
    omega

theorem remove_touched {key : String} {clock : ℕ} (ht : Touched clock s) (hle : clock ≤ now) :
    Touched now (s.remove now f key) := by
  unfold remove
  split
  · exact ht.mono hle
  · intro g flow hg
    dsimp only at hg ⊢
    split at hg
    · rw [get_erase] at hg
      split at hg
      · cases hg
      · obtain ⟨h1, h2⟩ := ht g flow hg
        exact ⟨by omega, by omega⟩
    · rw [get_insert] at hg
      split at hg
      · cases hg
        exact ⟨le_rfl, Nat.lt_succ_self _⟩
      · obtain ⟨h1, h2⟩ := ht g flow hg
        exact ⟨by omega, by omega⟩

theorem remove_size (key : String) : (s.remove now f key).memory.size ≤ s.memory.size := by
  have hsize : (s.remove now f key).memory.size + ([] : List String).length ≤ s.memory.size :=
    size_add_le List.nodup_nil (fun _ hk => by cases hk) fun g hg => by
      unfold remove at hg
      split at hg
      · exact hg
      · rename_i flow hflow
        dsimp only at hg
        split at hg
        · rw [get_erase] at hg
          split at hg
          · cases hg
          · exact hg
        · rw [get_insert] at hg
          split at hg
          · rename_i heq
            rw [← heq, hflow]; rfl
          · exact hg
  simpa using hsize

end Shard

/-! ## The cap -/

/-- The memory is within the cap, or an eviction is under way. -/
def CapOk (t : Traffic V) : Prop := t.shard.memory.size ≤ t.shard.maxFlows ∨ ∃ next, Task.evict next ∈ t.tasks

theorem CapOk.smaller (h : CapOk t) {t' : Traffic V} (hmax : t'.shard.maxFlows = t.shard.maxFlows)
    (hsize : t'.shard.memory.size ≤ t.shard.memory.size)
    (htasks : ∀ next, .evict next ∈ t.tasks → .evict next ∈ t'.tasks) : CapOk t' := by
  rcases h with h | ⟨next, hn⟩
  · exact .inl (by omega)
  · exact .inr ⟨next, htasks next hn⟩

theorem mem_other {slot : ℕ} {task : Task V} (htask : t.tasks[slot]? = some task) (rest : List (Task V))
    {next : List (Mutation V)} (hne : task ≠ .evict next) (h : .evict next ∈ t.tasks) :
    .evict next ∈ t.tasks.take slot ++ rest ++ t.tasks.drop (slot + 1) := by
  obtain ⟨hlt, rfl⟩ := List.getElem?_eq_some_iff.1 htask
  have hsplit : t.tasks = t.tasks.take slot ++ t.tasks[slot] :: t.tasks.drop (slot + 1) := by
    rw [List.getElem_cons_drop, List.take_append_drop]
  rw [hsplit] at h
  rcases List.mem_append.1 h with h | h
  · exact List.mem_append_left _ (List.mem_append_left _ h)
  · rcases List.mem_cons.1 h with h | h
    · exact absurd h.symm hne
    · exact List.mem_append_right _ h

theorem capOk_run (h : CapOk t) (slot : ℕ) : CapOk (t.step (.run slot)) := by
  cases htask : t.tasks[slot]? with
  | none => simpa only [Traffic.step, htask] using h
  | some task =>
    rw [Traffic.step_run htask]
    cases task with
    | evict next =>
      left
      have hcap := t.shard.shed_victims_size
      have hlen := t.shard.victims_length
      simp only [Task.step]
      split
      · rename_i hnone
        rw [List.isEmpty_iff] at hnone
        rw [hnone, List.length_nil] at hlen
        dsimp only
        omega
      · rename_i hsome
        rw [List.isEmpty_iff] at hsome
        exact hcap.resolve_right hsome
    | clear flows next =>
      exact h.smaller (Shard.send_maxFlows _) (by simp only [Task.step, Shard.send_memory, le_refl])
        fun _ hn => mem_other htask _ (by simp) hn
    | submit request =>
      exact h.smaller (Shard.send_maxFlows _) (by simp only [Task.step, Shard.send_memory, le_refl])
        fun _ hn => mem_other htask _ (by simp) hn

/-- **Every step keeps to the cap.** -/
theorem capOk_step (h : CapOk t) (move : ShardMove V) : CapOk (t.step move) := by
  cases move with
  | call now c =>
    cases c with
    | set flowId key entry durability => exact .inr ⟨_, List.mem_append_right _ List.mem_cons_self⟩
    | merge flowId key entry durability =>
      simp only [Traffic.step, ShardCall.begin]
      split
      · exact h.smaller rfl le_rfl fun _ hn => List.mem_append_left _ hn
      · exact .inr ⟨_, List.mem_append_right _ List.mem_cons_self⟩
    | delete flowId key durability =>
      have hmax : (t.shard.remove now flowId key).maxFlows = t.shard.maxFlows := by
        unfold Shard.remove; split <;> rfl
      exact h.smaller hmax (Shard.remove_size key) fun _ hn => List.mem_append_left _ hn
    | clearFlow flowId durability =>
      exact h.smaller rfl (Shard.within_drop flowId).size_le fun _ hn => List.mem_append_left _ hn
  | run slot => exact capOk_run h slot
  | commit now n => exact h.smaller rfl le_rfl fun _ hn => hn
  | tick now => exact h.smaller rfl Shard.within_tick.size_le fun _ hn => hn

/-! ## Calls one after another -/

def ShardMove.time : ShardMove V → Option ℕ
  | .call now _ | .commit now _ | .tick now => some now
  | .run _ => none

/-- Durable calls made one after another, each begun when none is under way, on a clock
that goes from `clock` to at most `limit` and never back. -/
def Orderly (limit : ℕ) : ℕ → Traffic V → List (ShardMove V) → Prop
  | _, _, [] => True
  | clock, t, move :: moves =>
    move.Durable ∧ (∀ now c, move = .call now c → t.tasks = []) ∧
      (∀ now, move.time = some now → clock ≤ now ∧ now ≤ limit) ∧
      Orderly limit (move.time.getD clock) (t.step move) moves

/-- At most one call is under way, and one about to evict has written the newest flow. -/
structure SeqOk (clock : ℕ) (t : Traffic V) : Prop where
  one : t.tasks.length ≤ 1
  newest : ∀ next, .evict next ∈ t.tasks → ∀ m ∈ next, ∃ f k e, m = .set f k e ∧ t.shard.Newest f
  touched : t.shard.Touched clock

theorem SeqOk.tasks_eq (h : SeqOk clock t) {slot : ℕ} {task : Task V} (htask : t.tasks[slot]? = some task) :
    t.tasks = [task] ∧ slot = 0 := by
  obtain ⟨hlt, hget⟩ := List.getElem?_eq_some_iff.1 htask
  have hone := h.one
  obtain rfl : slot = 0 := by omega
  match htasks : t.tasks, hlt with
  | [a], _ => simp_all
  | a :: b :: rest, _ => rw [htasks] at hone; simp at hone

theorem SeqOk.quiet {clock : ℕ} {t : Traffic V} (hone : t.tasks.length ≤ 1) (hno : ∀ next, .evict next ∉ t.tasks)
    (ht : t.shard.Touched clock) : SeqOk clock t :=
  ⟨hone, fun next hn => absurd hn (hno next), ht⟩

theorem Shard.Touched.send {s : Shard V} (h : s.Touched clock) (requests : List (Mutation V)) :
    (s.send requests).Touched clock := by
  intro f flow hf
  rw [Shard.send_memory] at hf
  rw [Shard.send_touchSeq]
  exact h f flow hf

theorem seqOk_call (h : SeqOk clock t) (hle : clock ≤ now) (hidle : t.tasks = []) (c : ShardCall V) :
    SeqOk now (t.step (.call now c)) := by
  have htasks : (t.step (.call now c)).tasks = (c.begin t.shard now).2 := by
    simp only [Traffic.step, hidle, List.nil_append]
  cases c with
  | set flowId key entry durability =>
    obtain ⟨ht, hnew⟩ := Shard.install_touched h.touched hle flowId key entry
    refine ⟨by simp [htasks, ShardCall.begin], fun next hn m hm => ?_, ht⟩
    rw [htasks] at hn
    simp only [ShardCall.begin, List.mem_singleton, Task.evict.injEq] at hn
    rw [hn, persisted] at hm
    split at hm
    · cases hm
    · exact ⟨flowId, key, entry, List.mem_singleton.1 hm, hnew⟩
  | merge flowId key entry durability =>
    by_cases hrefuse : t.shard.refuses now flowId key entry = true
    · have hsame : t.step (.call now (.merge flowId key entry durability)) = t := by
        simp [Traffic.step, begin_merge_refused hrefuse]
      rw [hsame]
      exact ⟨h.one, h.newest, h.touched.mono hle⟩
    · -- the request of a merge is already sent
      rw [begin_merge_taken hrefuse] at htasks
      have hshard : (t.step (.call now (.merge flowId key entry durability))).shard =
          (t.shard.install now flowId key entry).send (persisted durability (.set flowId key entry)) :=
        congrArg Prod.fst (begin_merge_taken hrefuse)
      refine ⟨by simp [htasks], fun next hn m hm => ?_, ?_⟩
      · rw [htasks] at hn
        simp only [List.mem_singleton, Task.evict.injEq] at hn
        rw [hn] at hm
        cases hm
      · rw [hshard]
        exact (Shard.install_touched h.touched hle _ _ _).1.send _
  | delete flowId key durability =>
    exact SeqOk.quiet (by simp [htasks, ShardCall.begin]) (fun next hn => by simp [htasks, ShardCall.begin] at hn)
      (Shard.remove_touched h.touched hle)
  | clearFlow flowId durability =>
    exact SeqOk.quiet (by simp [htasks, ShardCall.begin]) (fun next hn => by simp [htasks, ShardCall.begin] at hn)
      ((Shard.within_drop flowId).touched le_rfl (h.touched.mono hle))

theorem seqOk_run (h : SeqOk clock t) (slot : ℕ) : SeqOk clock (t.step (.run slot)) := by
  cases htask : t.tasks[slot]? with
  | none => simpa only [Traffic.step, htask] using h
  | some task =>
    obtain ⟨htasks, rfl⟩ := h.tasks_eq htask
    rw [Traffic.step_run htask]
    -- what follows an eviction's choice of victims evicts no more
    have hrest : (task.step t.shard).2.length ≤ 1 ∧ ∀ next, .evict next ∉ (task.step t.shard).2 := by
      cases task with
      | evict next => simp only [Task.step]; split <;> simp
      | clear flows next => simp [Task.step]
      | submit request => simp [Task.step]
    have htouched : (task.step t.shard).1.Touched clock := by
      cases task with
      | evict next =>
        simp only [Task.step]
        split
        · exact h.touched
        · exact (Shard.within_shed _).touched le_rfl h.touched
      | clear flows next => exact h.touched.send _
      | submit request => exact h.touched.send _
    exact SeqOk.quiet (by simpa [htasks] using hrest.1) (by simpa [htasks] using hrest.2) htouched

/-- **One call at a time stays one call at a time.** -/
theorem seqOk_step (h : SeqOk clock t) {move : ShardMove V} (hidle : ∀ now c, move = .call now c → t.tasks = [])
    (hle : ∀ now, move.time = some now → clock ≤ now) : SeqOk (move.time.getD clock) (t.step move) := by
  cases move with
  | call now c => exact seqOk_call h (hle now rfl) (hidle now c rfl) c
  | run slot => exact seqOk_run h slot
  | commit now n => exact ⟨h.one, h.newest, h.touched.mono (hle now rfl)⟩
  | tick now =>
    refine ⟨h.one, fun next hn m hm => ?_, Shard.within_tick.touched le_rfl (h.touched.mono (hle now rfl))⟩
    obtain ⟨f, k, e, rfl, hnew⟩ := h.newest next hn m hm
    exact ⟨f, k, e, rfl, Shard.within_tick.newest hnew⟩

/-- One call at a time is safe: the only request unsent at an eviction is about the flow
just written, which stays. -/
theorem SeqOk.safe (h : SeqOk clock t) (hcap : 0 < t.shard.maxFlows) {move : ShardMove V}
    (hidle : ∀ now c, move = .call now c → t.tasks = []) : move.Safe t := by
  cases move with
  | call now c =>
    intro f k _ m hm
    rw [Traffic.unsent, hidle now c rfl] at hm
    cases hm
  | run slot =>
    intro next htask f hf k m hm haff
    obtain ⟨htasks, -⟩ := h.tasks_eq htask
    have hnext : m ∈ next := by simpa [Traffic.unsent, htasks, Task.unsent] using hm
    obtain ⟨f', k', e, rfl, hnew⟩ := h.newest next (by simp [htasks]) m hnext
    obtain ⟨rfl, -⟩ := haff
    exact Shard.newest_not_victim hnew hcap hf
  | commit now n => trivial
  | tick now => trivial

theorem Traffic.step_maxFlows (t : Traffic V) (move : ShardMove V) : (t.step move).shard.maxFlows = t.shard.maxFlows := by
  cases move with
  | call now c =>
    cases c with
    | set | clearFlow => rfl
    | merge flowId key entry durability =>
      simp only [Traffic.step, ShardCall.begin]
      split
      · rfl
      · exact Shard.send_maxFlows _
    | delete flowId key durability =>
      simp only [Traffic.step, ShardCall.begin, Shard.remove]
      split <;> rfl
  | run slot =>
    cases htask : t.tasks[slot]? with
    | none => simp only [Traffic.step, htask]
    | some task =>
      rw [Traffic.step_run htask]
      cases task with
      | evict next => simp only [Task.step]; split <;> rfl
      | clear | submit => exact Shard.send_maxFlows _
  | commit | tick => rfl

theorem fileOk_orderly {limit : ℕ} {moves : List (ShardMove V)} (horderly : Orderly limit clock t moves)
    (hok : FileOk (fun e => isLive e limit = false) t) (hseq : SeqOk clock t) (hcap : 0 < t.shard.maxFlows) :
    FileOk (fun e => isLive e limit = false) (moves.foldl Traffic.step t) := by
  induction moves generalizing clock t with
  | nil => exact hok
  | cons move moves ih =>
    obtain ⟨hdurable, hidle, htime, hrest⟩ := horderly
    refine ih hrest (fileOk_step hok (hseq.safe hcap hidle) hdurable fun now e heq hdead => ?_)
      (seqOk_step hseq hidle fun now hnow => (htime now hnow).1) (by rw [Traffic.step_maxFlows]; exact hcap)
    -- what is expired at a sweep is expired later on
    have hle : now ≤ limit := (htime now (by rw [heq]; rfl)).2
    by_contra hlive
    rw [Bool.not_eq_false] at hlive
    rw [isLive_mono hle hlive] at hdead
    cases hdead

theorem capOk_foldl (h : CapOk t) (moves : List (ShardMove V)) : CapOk (moves.foldl Traffic.step t) := by
  induction moves generalizing t with
  | nil => exact h
  | cons move moves ih => exact ih (capOk_step h move)

/-! ## Recovery -/

def recordIn (memory : Memory V) (f k : String) : Option (Versioned V) := memory[f]?.bind fun flow => flow.keys[k]?

theorem recordIn_loadRow (memory : Memory V) (row : (String × String) × Versioned V) :
    recordIn (loadRow now memory row) f k =
      if isLive row.2 now = true ∧ row.1 = (f, k) then some row.2 else recordIn memory f k := by
  obtain ⟨⟨f', k'⟩, e⟩ := row
  unfold loadRow recordIn
  by_cases hlive : isLive e now = true
  · simp only [hlive, if_true, true_and, get_insert, Prod.mk.injEq]
    by_cases hf : f' = f
    · subst hf
      simp only [if_true, Option.bind_some, get_insert, true_and]
      split
      · rfl
      · cases memory[f']? with
        | none => simp
        | some flow => rfl
    · simp [hf]
  · simp [hlive]

theorem recordIn_loadRows {rows : List ((String × String) × Versioned V)} (hnd : (rows.map Prod.fst).Nodup)
    (memory : Memory V) (hnew : ∀ row ∈ rows, recordIn memory row.1.1 row.1.2 = none) {e : Versioned V} :
    recordIn (rows.foldl (loadRow now) memory) f k = some e ↔
      ((f, k), e) ∈ rows ∧ isLive e now = true ∨ recordIn memory f k = some e := by
  induction rows generalizing memory with
  | nil => simp
  | cons row rows ih =>
    rw [List.map_cons, List.nodup_cons] at hnd
    have hnew' : ∀ row' ∈ rows, recordIn (loadRow now memory row) row'.1.1 row'.1.2 = none := by
      intro row' hmem
      have hne : row.1 ≠ row'.1 := fun heq => hnd.1 (heq ▸ List.mem_map_of_mem hmem)
      rw [recordIn_loadRow, if_neg fun h => hne h.2]
      exact hnew row' (List.mem_cons_of_mem _ hmem)
    rw [List.foldl_cons, ih hnd.2 _ hnew', recordIn_loadRow, List.mem_cons]
    by_cases hkey : row.1 = (f, k)
    · have hfree : recordIn memory f k = none := by simpa [hkey] using hnew row List.mem_cons_self
      have hnot : ((f, k), e) ∉ rows := fun hmem => hnd.1 (hkey ▸ List.mem_map_of_mem hmem)
      have hrow : ((f, k), e) = row ↔ row.2 = e := by
        obtain ⟨key, e'⟩ := row
        cases hkey
        simp [eq_comm]
      simp only [hrow, hnot, hfree, hkey, and_true, or_false, false_and, false_or, reduceCtorEq]
      by_cases hlive : isLive row.2 now = true
      · rw [if_pos hlive, Option.some.injEq]
        exact ⟨fun h => ⟨h, h ▸ hlive⟩, fun h => h.1⟩
      · rw [if_neg hlive]
        constructor
        · intro h
          cases h
        · rintro ⟨rfl, h⟩
          exact absurd h hlive
    · have hrow : ((f, k), e) ≠ row := fun h => hkey (by rw [← h])
      simp only [hrow, hkey, and_false, if_false, false_or]

/-- **Recovery reads back the live rows.** -/
theorem recordIn_loadFile (d : Disk V) (rank : String → ℕ) :
    recordIn (loadFile d now rank) f k = d.flowKv[(f, k)]?.filter fun e => isLive e now := by
  have hload : recordIn (loadFile d now rank) f k = recordIn (d.flowKv.toList.foldl (loadRow now) ∅) f k := by
    unfold loadFile recordIn
    rw [Std.ExtTreeMap.getElem?_map]
    cases (d.flowKv.toList.foldl (loadRow now) ∅ : Memory V)[f]? <;> rfl
  rw [hload]
  ext e
  rw [recordIn_loadRows (nodup_toList_keys d.flowKv) ∅ (fun row _ => by simp [recordIn]), mem_toList,
    Option.filter_eq_some_iff]
  simp [recordIn]

theorem exists_recordIn_loadFile {d : Disk V} {rank : String → ℕ} (h : (loadFile d now rank)[f]?.isSome = true) :
    ∃ k e, recordIn (loadFile d now rank) f k = some e := by
  have hrows : ∀ (rows : List ((String × String) × Versioned V)) (memory : Memory V),
      (∀ (f : String) flow, memory[f]? = some flow → ∃ (k : String) (e : Versioned V), flow.keys[k]? = some e) →
      ∀ (f : String) flow, (rows.foldl (loadRow now) memory)[f]? = some flow → ∃ (k : String) (e : Versioned V), flow.keys[k]? = some e := by
    intro rows
    induction rows with
    | nil => exact fun memory h => h
    | cons row rows ih =>
      intro memory hmem
      refine ih _ fun g flow hg => ?_
      unfold loadRow at hg
      split at hg
      · rw [get_insert] at hg
        split at hg
        · cases hg
          exact ⟨row.1.2, row.2, by simp⟩
        · exact hmem g flow hg
      · exact hmem g flow hg
  obtain ⟨flow, hflow⟩ := Option.isSome_iff_exists.1 h
  have hkeys := hflow
  rw [loadFile, Std.ExtTreeMap.getElem?_map] at hkeys
  obtain ⟨flow', hflow', rfl⟩ := Option.map_eq_some_iff.1 hkeys
  obtain ⟨k, e, he⟩ := hrows d.flowKv.toList ∅ (fun g flow hg => by simp at hg) f flow' hflow'
  exact ⟨k, e, by rw [recordIn, hflow]; exact he⟩

theorem trim_of_le {maxFlows : ℕ} {memory : Memory V} (h : memory.size ≤ maxFlows) (fuel : ℕ) :
    trim maxFlows fuel memory = memory := by
  cases fuel with
  | zero => rfl
  | succ fuel => rw [trim, if_neg (by omega)]

theorem open_memory {d : Disk V} {maxFlows : ℕ} {rank : String → ℕ} (hfits : (loadFile d now rank).size ≤ maxFlows) :
    (Shard.open d maxFlows now rank).memory = loadFile d now rank := trim_of_le hfits _

theorem open_entry {d : Disk V} {maxFlows : ℕ} {rank : String → ℕ} (hfits : (loadFile d now rank).size ≤ maxFlows) :
    (Shard.open d maxFlows now rank).entry f k = d.flowKv[(f, k)]?.filter fun e => isLive e now := by
  rw [← recordIn_loadFile d rank, ← open_memory hfits]
  rfl

theorem trim_within {maxFlows fuel : ℕ} {memory : Memory V} {flow : FlowMem V}
    (h : (trim maxFlows fuel memory)[f]? = some flow) : memory[f]? = some flow := by
  induction fuel generalizing memory with
  | zero => exact h
  | succ fuel ih =>
    rw [trim] at h
    split at h
    · split at h
      · have herased := ih h
        rw [get_erase] at herased
        split at herased
        · cases herased
        · exact herased
      · exact h
    · exact h

theorem open_touched {d : Disk V} {maxFlows : ℕ} {rank : String → ℕ}
    (hpast : ∀ (f : String) written, d.flowMeta[f]? = some written → written ≤ now) :
    (Shard.open d maxFlows now rank).Touched now := by
  intro f flow hf
  constructor
  · have hloaded : (loadFile d now rank)[f]? = some flow := trim_within hf
    rw [loadFile, Std.ExtTreeMap.getElem?_map] at hloaded
    obtain ⟨flow', -, rfl⟩ := Option.map_eq_some_iff.1 hloaded
    cases hw : d.flowMeta[f]? with
    | none => simp
    | some written => simpa [hw] using hpast f written hw
  · have hmem : flow.touchSeq ∈
        (Shard.open d maxFlows now rank).memory.toList.map (fun kv => kv.2.touchSeq) :=
      List.mem_map.2 ⟨(f, flow), mem_toList.2 hf, rfl⟩
    have hle : flow.touchSeq ≤
        ((Shard.open d maxFlows now rank).memory.toList.map fun kv => kv.2.touchSeq).foldl max 0 := by
      rw [List.foldl_max]
      exact (List.le_max?_getD_of_mem hmem).trans (Nat.le_max_right _ _)
    exact Nat.lt_succ_of_le hle

/-! ## Close and reopen -/

def Traffic.opened (d : Disk V) (maxFlows now : ℕ) (rank : String → ℕ) : Traffic V :=
  { shard := Shard.open d maxFlows now rank }

theorem fileOk_opened {d : Disk V} {maxFlows limit : ℕ} {rank : String → ℕ} (hle : now ≤ limit)
    (hfits : (loadFile d now rank).size ≤ maxFlows) :
    FileOk (fun e => isLive e limit = false) (Traffic.opened d maxFlows now rank) := by
  refine ⟨rfl, List.Pairwise.nil, fun f k => ?_⟩
  have hentry : (Traffic.opened d maxFlows now rank).shard.entry f k = d.flowKv[(f, k)]?.filter fun e => isLive e now :=
    open_entry hfits
  have hrow : replay f k (Traffic.opened d maxFlows now rank).shard.disk.flowKv[(f, k)]?
      ((Traffic.opened d maxFlows now rank).shard.queue ++ (Traffic.opened d maxFlows now rank).unsent) =
      d.flowKv[(f, k)]? := rfl
  rw [hentry, hrow]
  cases d.flowKv[(f, k)]? with
  | none => exact .inl rfl
  | some e =>
    by_cases hlive : isLive e now = true
    · exact .inl (by simp [hlive])
    · refine .inr ⟨by simp [hlive], e, rfl, ?_⟩
      by_contra h
      rw [Bool.not_eq_false] at h
      exact hlive (isLive_mono hle h)

/-- A shard whose file mirrors its memory, the rows expired by `limit` apart, is read back
at `limit` as the live part of that memory. -/
theorem reopened_entry {limit maxFlows : ℕ} {s : Shard V} (rank : String → ℕ)
    (hrows : ∀ f k, Mirror (fun e => isLive e limit = false) (s.entry f k) s.disk.flowKv[(f, k)]?)
    (hcap : s.memory.size ≤ maxFlows) :
    (Shard.open s.disk maxFlows limit rank).entry f k = (s.entry f k).filter fun e => isLive e limit := by
  have hread : ∀ f k, (s.disk.flowKv[(f, k)]?.filter fun e => isLive e limit) =
      (s.entry f k).filter fun e => isLive e limit := by
    intro f k
    rcases hrows f k with h | ⟨hnone, e, he, hdead⟩
    · rw [h]
    · rw [hnone, he, Option.filter_some, hdead]
      rfl
  -- a flow that comes back was in the memory, so none is trimmed
  have hfits : (loadFile s.disk limit rank).size ≤ maxFlows := by
    have hsize : (loadFile s.disk limit rank).size + ([] : List String).length ≤ s.memory.size := by
      refine size_add_le List.nodup_nil (fun _ hk => by cases hk) fun g hg => ?_
      obtain ⟨k, e, he⟩ := exists_recordIn_loadFile hg
      rw [recordIn_loadFile, hread, Option.filter_eq_some_iff] at he
      obtain ⟨flow, hflow, -⟩ := Option.bind_eq_some_iff.1 he.1
      rw [hflow]; rfl
    rw [List.length_nil] at hsize
    omega
  rw [open_entry hfits, hread]

/-- **Reopening restores what was served.** A file is opened at `now` with no more live
flows than the cap and no touch time in the future; durable calls run one after another
on a clock that does not go back; the shard is closed at `closed` and opened again at
`limit`, when nothing more has expired. Then every flow that was in memory has the
same live keys and entries as before. -/
theorem reopen_restores (d : Disk V) (maxFlows now closed limit : ℕ) (rank rank' : String → ℕ)
    (hfits : (loadFile d now rank).size ≤ maxFlows)
    (hpast : ∀ (f : String) written, d.flowMeta[f]? = some written → written ≤ now)
    (moves : List (ShardMove V)) (hclock : now ≤ limit ∧ closed ≤ limit)
    (horderly : Orderly limit now (Traffic.opened d maxFlows now rank) moves)
    (hreturned : (moves.foldl Traffic.step (Traffic.opened d maxFlows now rank)).tasks = [])
    (hkept : ∀ f k e, (moves.foldl Traffic.step (Traffic.opened d maxFlows now rank)).shard.entry f k = some e →
      isLive e closed = true → isLive e limit = true) :
    let served := (moves.foldl Traffic.step (Traffic.opened d maxFlows now rank)).shard
    ∀ f, served.memory[f]?.isSome = true → ∀ k,
      (Shard.open (served.close closed).disk maxFlows limit rank').entry f k =
        (served.entry f k).filter fun e => isLive e closed := by
  intro served f hf k
  have hcap : served.memory.size ≤ maxFlows := by
    have hstart : CapOk (Traffic.opened d maxFlows now rank) := .inl (by
      show (Shard.open d maxFlows now rank).memory.size ≤ maxFlows
      rw [open_memory hfits]
      exact hfits)
    have hmax : ∀ (ms : List (ShardMove V)) (t : Traffic V), (ms.foldl Traffic.step t).shard.maxFlows = t.shard.maxFlows := by
      intro ms
      induction ms with
      | nil => exact fun _ => rfl
      | cons m ms ih => exact fun t => (ih _).trans (t.step_maxFlows m)
    rcases capOk_foldl hstart moves with h | ⟨next, h⟩
    · rwa [hmax] at h
    · rw [hreturned] at h; cases h
  -- a shard with room for no flow serves none
  have hpos : 0 < maxFlows := by
    by_contra h
    have hempty : served.memory = ∅ := Std.ExtTreeMap.eq_empty_iff_size_eq_zero.2 (by omega)
    rw [hempty] at hf
    simp at hf
  have hfile := fileOk_orderly horderly (fileOk_opened hclock.1 hfits)
    (SeqOk.quiet (Nat.zero_le _) (fun _ => List.not_mem_nil) (open_touched hpast)) hpos
  have hrows : ∀ f k, Mirror (fun e => isLive e limit = false) ((served.close closed).entry f k)
      (served.close closed).disk.flowKv[(f, k)]? := by
    intro f k
    have h := hfile.mirrors f k
    simp only [Traffic.unsent, hreturned, List.flatMap_nil, List.append_nil] at h
    have hdisk : (served.close closed).disk.flowKv[(f, k)]? = replay f k served.disk.flowKv[(f, k)]? served.queue :=
      commitBatch_row _ _ _
    rw [hdisk]
    exact h
  rw [reopened_entry rank' hrows hcap]
  have hentry : (served.close closed).entry f k = served.entry f k := rfl
  rw [hentry]
  cases he : served.entry f k with
  | none => rfl
  | some e =>
    by_cases hlive : isLive e closed = true
    · rw [Option.filter_some, Option.filter_some, hlive, hkept f k e he hlive]
    · have hlate : ¬ isLive e limit = true := fun h => hlive (isLive_mono hclock.2 h)
      rw [Option.filter_some, Option.filter_some, if_neg hlive, if_neg hlate]

/-- A file with one key of each flow, written at the times given. -/
def fileOf (flows : List (String × ℕ)) : Disk ℕ :=
  { flowKv := flows.foldl (fun kv flow => kv.insert (flow.1, "k") (recordOf 1)) ∅
    flowMeta := flows.foldl (fun written flow => written.insert flow.1 flow.2) ∅ }

/-- A set of a second key, with its eviction and its request. -/
def setSecondKey : List (ShardMove ℕ) :=
  [.call 3 (.set "a" "j" (recordOf 2) .sync), .run 0, .run 0, .run 0]

theorem setSecondKey_restored :
    let served := (setSecondKey.foldl Traffic.step (Traffic.opened (fileOf [("a", 1)]) 1 3 fun _ => 0)).shard
    served.memory["a"]?.isSome = true ∧ ∀ k, (Shard.open (served.close 4).disk 1 5 fun _ => 0).entry "a" k =
      (served.entry "a" k).filter fun e => isLive e 4 :=
  have hmem : (setSecondKey.foldl Traffic.step
      (Traffic.opened (fileOf [("a", 1)]) 1 3 fun _ => 0)).shard.memory["a"]?.isSome = true := by decide +kernel
  ⟨hmem, reopen_restores (fileOf [("a", 1)]) 1 3 4 5 (fun _ => 0) (fun _ => 0) (by decide +kernel)
    (fun f written h => by
      simp only [fileOf, List.foldl_cons, List.foldl_nil, get_insert] at h
      split at h
      · cases h; decide
      · simp at h)
    setSecondKey (by decide)
    (by simp [setSecondKey, Orderly, ShardMove.Durable, ShardCall.durability, ShardMove.time, Traffic.opened])
    (by decide +kernel)
    (fun f k e he _ => by
      have hserved : (setSecondKey.foldl Traffic.step (Traffic.opened (fileOf [("a", 1)]) 1 3 fun _ => 0)).shard.memory =
          (∅ : Memory ℕ).insert "a" ⟨(Std.ExtTreeMap.insert ∅ "k" (recordOf 1)).insert "j" (recordOf 2), 3, 1⟩ := by
        decide +kernel
      obtain ⟨flow, hflow, hkey⟩ := Option.bind_eq_some_iff.1 he
      rw [hserved, get_insert] at hflow
      split at hflow
      · cases hflow
        simp only [get_insert] at hkey
        split at hkey
        · cases hkey; rfl
        · split at hkey
          · cases hkey; rfl
          · simp at hkey
      · simp at hflow) "a" hmem⟩

/-- **Over the cap, a flow comes back with keys it did not have.** The file holds flows
`a` and `b`, and recovery sheds `a`, the older, from the memory. A set makes `a` anew
with one key; the key it had in the file is read back beside it. -/
theorem overCap_reopen_differs :
    let served := (setSecondKey.foldl Traffic.step (Traffic.opened (fileOf [("a", 1), ("b", 2)]) 1 3 fun _ => 0)).shard
    let reopened := Shard.open (served.close 4).disk 1 5 fun _ => 0
    served.memory["a"]?.isSome = true ∧ served.entry "a" "k" = none ∧ reopened.entry "a" "k" = some (recordOf 1) := by
  decide +kernel

end RiftCluster
