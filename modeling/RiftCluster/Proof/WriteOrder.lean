import RiftCluster.Proof.Shard

/-!
# The file follows the memory

The writer commits requests in the order they were sent, so the file ends up as the
memory did if, row by row, requests are sent in the order the memory changed. A
merge sends under the memory lock. A set, a delete and an eviction send after they
have released it, and until then their request is *unsent*.

`FileOk` is the invariant: the file, with the queue and then everything unsent
applied to it, is the memory; and no row has unsent requests of two calls. A step
keeps it (`fileOk_step`) if it starts no change of a row that still has a request
unsent (`ShardMove.Safe`). When all calls have returned and the queue is empty, the
file is the memory (`file_matches_memory`).
-/

namespace RiftCluster

open KV

variable {V : Type} {f k : String} {row : Option (Versioned V)} {m : Mutation V} {ms : List (Mutation V)}

/-! ## Row by row -/

/-- Whether a request is about a row. -/
def Mutation.Affects (f k : String) : Mutation V → Prop
  | .set flowId key _ | .delete flowId key => flowId = f ∧ key = k
  | .clearFlow flowId => flowId = f

/-- What a request leaves of a row. -/
def Mutation.effect (f k : String) (row : Option (Versioned V)) : Mutation V → Option (Versioned V)
  | .set flowId key e => if flowId = f ∧ key = k then some e else row
  | .delete flowId key => if flowId = f ∧ key = k then none else row
  | .clearFlow flowId => if flowId = f then none else row

/-- A row after some requests. -/
def replay (f k : String) (row : Option (Versioned V)) (ms : List (Mutation V)) : Option (Versioned V) :=
  ms.foldl (Mutation.effect f k) row

@[simp] theorem replay_nil : replay f k row [] = row := rfl

theorem replay_append (as bs : List (Mutation V)) : replay f k row (as ++ bs) = replay f k (replay f k row as) bs :=
  List.foldl_append

theorem effect_of_not_affects (h : ¬ m.Affects f k) : m.effect f k row = row := by
  cases m <;> exact if_neg h

/-- A request about a row decides it, whatever it was. -/
theorem effect_of_affects (h : m.Affects f k) (row row' : Option (Versioned V)) : m.effect f k row = m.effect f k row' := by
  cases m <;> exact (if_pos h).trans (if_pos h).symm

theorem replay_of_not_affects (h : ∀ m ∈ ms, ¬ m.Affects f k) : replay f k row ms = row := by
  induction ms generalizing row with
  | nil => rfl
  | cons m ms ih =>
    have hm : m.effect f k row = row := effect_of_not_affects (h m List.mem_cons_self)
    rw [replay, List.foldl_cons, hm]
    exact ih fun m' hm' => h m' (List.mem_cons_of_mem _ hm')

/-- Requests leave a row as it was, or decide it whatever it was. -/
theorem replay_cases (f k : String) (ms : List (Mutation V)) :
    (∀ row, replay f k row ms = row) ∨ ∃ last, ∀ row, replay f k row ms = last := by
  induction ms with
  | nil => exact .inl fun _ => rfl
  | cons m ms ih =>
    rcases ih with hkeep | ⟨last, hlast⟩
    · by_cases hm : m.Affects f k
      · exact .inr ⟨m.effect f k none, fun row => (hkeep _).trans (effect_of_affects hm row none)⟩
      · exact .inl fun row => (hkeep _).trans (effect_of_not_affects hm)
    · exact .inr ⟨last, fun row => hlast _⟩

/-- Requests of which only one side is about the row can be swapped. -/
theorem replay_swap {as bs : List (Mutation V)}
    (h : (∀ m ∈ as, ¬ m.Affects f k) ∨ ∀ m ∈ bs, ¬ m.Affects f k) :
    replay f k row (as ++ bs) = replay f k row (bs ++ as) := by
  rw [replay_append, replay_append]
  rcases h with h | h
  · rw [replay_of_not_affects h, replay_of_not_affects h]
  · rw [replay_of_not_affects h, replay_of_not_affects h]

theorem replay_clears {flows : List String} (h : f ∈ flows) :
    replay f k row (flows.map .clearFlow) = none := by
  induction flows generalizing row with
  | nil => cases h
  | cons x flows ih =>
    by_cases hf : f ∈ flows
    · exact ih hf
    · obtain rfl : f = x := (List.mem_cons.1 h).resolve_right hf
      have hfirst : Mutation.effect f k row (.clearFlow f) = none := if_pos rfl
      rw [List.map_cons, replay, List.foldl_cons, hfirst]
      refine replay_of_not_affects fun m hm haff => ?_
      obtain ⟨x, hx, rfl⟩ := List.mem_map.1 hm
      exact hf ((haff : x = f) ▸ hx)

theorem apply_row (now : ℕ) (d : Disk V) (m : Mutation V) :
    (d.apply now m).flowKv[(f, k)]? = m.effect f k d.flowKv[(f, k)]? := by
  cases m with
  | set flowId key e => simp only [Disk.apply, Mutation.effect, get_insert, Prod.mk.injEq]
  | delete flowId key => simp only [Disk.apply, Mutation.effect, get_erase, Prod.mk.injEq]
  | clearFlow flowId =>
    simp only [Disk.apply, Mutation.effect, get_retain]
    by_cases hf : flowId = f
    · subst hf
      cases d.flowKv[(flowId, k)]? <;> simp
    · have hne : (f != flowId) = true := by simpa using Ne.symm hf
      cases d.flowKv[(f, k)]? <;> simp [hne, hf]

/-- **A batch leaves each row as its requests do, in order.** -/
theorem commitBatch_row (now : ℕ) (d : Disk V) (ms : List (Mutation V)) :
    (commitBatch now d ms).flowKv[(f, k)]? = replay f k d.flowKv[(f, k)]? ms := by
  induction ms generalizing d with
  | nil => rfl
  | cons m ms ih =>
    have hi := ih (d.apply now m)
    rw [apply_row] at hi
    exact hi

theorem commitDeletes_row (d : Disk V) (deletes : List (String × String)) :
    (commitDeletes d deletes).flowKv[(f, k)]? = if (f, k) ∈ deletes then none else d.flowKv[(f, k)]? := by
  rw [commitDeletes, get_eraseAll]
  congr

/-! ## The invariant -/

/-- The requests a call has not sent yet. -/
def Task.unsent : Task V → List (Mutation V)
  | .evict next => next
  | .clear flows next => flows.map .clearFlow ++ next
  | .submit request => request

def Traffic.unsent (t : Traffic V) : List (Mutation V) := t.tasks.flatMap Task.unsent

/-- Two calls have no unsent requests about one row. -/
def Task.Apart (a b : Task V) : Prop :=
  ∀ f k, (∀ m ∈ a.unsent, ¬ m.Affects f k) ∨ ∀ m ∈ b.unsent, ¬ m.Affects f k

/-- A record and its row are the same, or the record is gone and the row is of a kind
that may stay behind. -/
def Mirror (dead : Versioned V → Prop) (record row : Option (Versioned V)) : Prop :=
  record = row ∨ record = none ∧ ∃ e, row = some e ∧ dead e

/-- **The file, once all that is queued and all that is unsent is applied, is the memory.** -/
structure FileOk (dead : Versioned V → Prop) (t : Traffic V) : Prop where
  writer : t.shard.writer = true
  apart : t.tasks.Pairwise Task.Apart
  mirrors : ∀ f k, Mirror dead (t.shard.entry f k)
    (replay f k t.shard.disk.flowKv[(f, k)]? (t.shard.queue ++ t.unsent))

/-- No call under way has an unsent request about the row. -/
def Traffic.Free (t : Traffic V) (f k : String) : Prop := ∀ m ∈ t.unsent, ¬ m.Affects f k

/-- The request a call makes. -/
def ShardCall.request : ShardCall V → Mutation V
  | .set flowId key entry _ | .merge flowId key entry _ => .set flowId key entry
  | .delete flowId key _ => .delete flowId key
  | .clearFlow flowId _ => .clearFlow flowId

def ShardCall.durability : ShardCall V → Durability
  | .set _ _ _ durability | .merge _ _ _ durability | .delete _ _ durability | .clearFlow _ durability => durability

/-- A call starts, and a flow is evicted, only where no call under way has a request
unsent. -/
def ShardMove.Safe (t : Traffic V) : ShardMove V → Prop
  | .call _ c => ∀ f k, c.request.Affects f k → t.Free f k
  | .run slot => ∀ next, t.tasks[slot]? = some (.evict next) → ∀ f ∈ t.shard.victims, ∀ k, t.Free f k
  | .commit _ _ | .tick _ => True

/-- The calls of a move are durable. -/
def ShardMove.Durable : ShardMove V → Prop
  | .call _ c => c.durability ≠ .none
  | _ => True

/-! ## Every step keeps it -/

variable {dead : Versioned V → Prop} {t : Traffic V}

theorem Mirror.effect {record row : Option (Versioned V)} (h : Mirror dead record row) (m : Mutation V) (f k : String) :
    Mirror dead (m.effect f k record) (m.effect f k row) := by
  by_cases hm : m.Affects f k
  · exact .inl (effect_of_affects hm record row)
  · rw [effect_of_not_affects hm, effect_of_not_affects hm]
    exact h

/-- A record installed, removed or dropped is as its request leaves it. -/
theorem install_effect (s : Shard V) (now : ℕ) (flowId key : String) (e : Versioned V) :
    (s.install now flowId key e).entry f k = Mutation.effect f k (s.entry f k) (.set flowId key e) :=
  Shard.entry_install

theorem remove_effect (s : Shard V) (now : ℕ) (flowId key : String) :
    (s.remove now flowId key).entry f k = Mutation.effect f k (s.entry f k) (.delete flowId key) :=
  Shard.entry_remove

theorem drop_effect (s : Shard V) (flowId : String) :
    (s.drop flowId).entry f k = Mutation.effect f k (s.entry f k) (.clearFlow flowId) :=
  Shard.entry_drop

/-- A call whose change of the memory is done and whose request is unsent. -/
theorem FileOk.add_task (hok : FileOk dead t) {s : Shard V} {task : Task V} (hunsent : task.unsent = [m])
    (hw : s.writer = t.shard.writer) (hq : s.queue = t.shard.queue) (hd : s.disk = t.shard.disk)
    (hentry : ∀ f k, s.entry f k = m.effect f k (t.shard.entry f k)) (hfree : ∀ f k, m.Affects f k → t.Free f k) :
    FileOk dead { shard := s, tasks := t.tasks ++ [task] } where
  writer := hw.trans hok.writer
  apart := by
    refine List.pairwise_append.2 ⟨hok.apart, List.pairwise_singleton _ _, fun a ha b hb f k => ?_⟩
    rw [List.mem_singleton.1 hb, hunsent]
    by_cases hm : m.Affects f k
    · exact .inl fun m' hm' => hfree f k hm m' (List.mem_flatMap.2 ⟨a, ha, hm'⟩)
    · exact .inr fun m' hm' => by rw [List.mem_singleton.1 hm']; exact hm
  mirrors := fun f k => by
    have hall : Traffic.unsent { shard := s, tasks := t.tasks ++ [task] } = t.unsent ++ [m] := by
      simp [Traffic.unsent, hunsent]
    rw [hall, hq, hd, ← List.append_assoc, replay_append, hentry]
    exact (hok.mirrors f k).effect m f k

/-- A merge changes the memory and sends under one lock. -/
theorem FileOk.merge (hok : FileOk dead t) {s : Shard V} (hw : s.writer = t.shard.writer)
    (hq : s.queue = t.shard.queue ++ [m]) (hd : s.disk = t.shard.disk)
    (hentry : ∀ f k, s.entry f k = m.effect f k (t.shard.entry f k)) (hfree : ∀ f k, m.Affects f k → t.Free f k) :
    FileOk dead { shard := s, tasks := t.tasks ++ [.evict []] } where
  writer := hw.trans hok.writer
  apart := List.pairwise_append.2 ⟨hok.apart, List.pairwise_singleton _ _, fun a _ b hb f k =>
    .inr fun m' hm' => by rw [List.mem_singleton.1 hb] at hm'; cases hm'⟩
  mirrors := fun f k => by
    have hall : Traffic.unsent { shard := s, tasks := t.tasks ++ [.evict []] } = t.unsent := by
      simp [Traffic.unsent, Task.unsent]
    have hswap : replay f k t.shard.disk.flowKv[(f, k)]? (t.shard.queue ++ [m] ++ t.unsent) =
        m.effect f k (replay f k t.shard.disk.flowKv[(f, k)]? (t.shard.queue ++ t.unsent)) := by
      rw [List.append_assoc, replay_append, replay_swap, ← replay_append, ← List.append_assoc, replay_append]
      · rfl
      · by_cases hm : m.Affects f k
        · exact .inr (hfree f k hm)
        · exact .inl fun m' hm' => by rw [List.mem_singleton.1 hm']; exact hm
    rw [hall, hq, hd, hswap, hentry]
    exact (hok.mirrors f k).effect m f k

theorem fileOk_call (hok : FileOk dead t) {now : ℕ} {call : ShardCall V}
    (hsafe : ∀ f k, call.request.Affects f k → t.Free f k) (hdurable : call.durability ≠ .none) :
    FileOk dead (t.step (.call now call)) := by
  have hone : ∀ m : Mutation V, persisted call.durability m = [m] := fun m => if_neg hdurable
  cases call with
  | set flowId key entry durability =>
    have hunsent : (Task.evict (persisted durability (.set flowId key entry))).unsent = [.set flowId key entry] := hone _
    exact hok.add_task hunsent rfl rfl rfl (fun f k => install_effect _ _ _ _ _) hsafe
  | merge flowId key entry durability =>
    by_cases hrefuse : t.shard.refuses now flowId key entry = true
    · simpa [Traffic.step, begin_merge_refused hrefuse] using hok
    · rw [Traffic.step, begin_merge_taken hrefuse]
      have hq : ((t.shard.install now flowId key entry).send (persisted durability (.set flowId key entry))).queue =
          t.shard.queue ++ [.set flowId key entry] := by
        rw [Shard.send_queue (s := t.shard.install now flowId key entry) hok.writer]
        exact congrArg (t.shard.queue ++ ·) (hone _)
      refine hok.merge (by rw [Shard.send_writer]; rfl) hq (by rw [Shard.send_disk]; rfl) (fun f k => ?_) hsafe
      rw [Shard.send_entry]
      exact install_effect _ _ _ _ _
  | delete flowId key durability =>
    have hunsent : (Task.submit (persisted durability (.delete flowId key))).unsent =
      [(.delete flowId key : Mutation V)] := hone _
    obtain ⟨hw, hq, hd⟩ : (t.shard.remove now flowId key).writer = t.shard.writer ∧
        (t.shard.remove now flowId key).queue = t.shard.queue ∧ (t.shard.remove now flowId key).disk = t.shard.disk := by
      unfold Shard.remove
      split <;> exact ⟨rfl, rfl, rfl⟩
    exact hok.add_task hunsent hw hq hd (fun f k => remove_effect _ _ _ _) hsafe
  | clearFlow flowId durability =>
    have hunsent : (Task.submit (persisted durability (.clearFlow flowId))).unsent = [(.clearFlow flowId : Mutation V)] :=
      hone _
    exact hok.add_task hunsent rfl rfl rfl (fun f k => drop_effect _ _) hsafe

/-- Replacing a member of a pairwise list. -/
theorem pairwise_replace {α : Type} {R : α → α → Prop} {pre post as : List α} {a : α}
    (h : (pre ++ a :: post).Pairwise R) (hpre : ∀ x ∈ pre, ∀ b ∈ as, R x a → R x b)
    (hpost : ∀ y ∈ post, ∀ b ∈ as, R a y → R b y) (has : as.Pairwise R) : (pre ++ as ++ post).Pairwise R := by
  rw [List.pairwise_append, List.pairwise_cons] at h
  obtain ⟨h1, ⟨h2, h3⟩, h4⟩ := h
  rw [List.append_assoc]
  refine List.pairwise_append.2 ⟨h1, List.pairwise_append.2 ⟨has, h3, fun b hb y hy => hpost y hy b hb (h2 y hy)⟩, ?_⟩
  intro x hx y hy
  rcases List.mem_append.1 hy with hb | hy
  · exact hpre x hx y hb (h4 x hx a List.mem_cons_self)
  · exact h4 x hx y (List.mem_cons_of_mem _ hy)

theorem Traffic.tasks_split {slot : ℕ} {task : Task V} (htask : t.tasks[slot]? = some task) :
    t.tasks = t.tasks.take slot ++ task :: t.tasks.drop (slot + 1) := by
  obtain ⟨hlt, rfl⟩ := List.getElem?_eq_some_iff.1 htask
  rw [List.getElem_cons_drop, List.take_append_drop]

/-- What is unsent, before, in and after a slot. -/
theorem Traffic.unsent_split {slot : ℕ} {task : Task V} (htask : t.tasks[slot]? = some task) :
    t.unsent = (t.tasks.take slot).flatMap Task.unsent ++
      (task.unsent ++ (t.tasks.drop (slot + 1)).flatMap Task.unsent) := by
  rw [Traffic.unsent]
  conv_lhs => rw [Traffic.tasks_split htask]
  rw [List.flatMap_append, List.flatMap_cons]

theorem Traffic.unsent_replaced (s : Shard V) (slot : ℕ) (rest : List (Task V)) :
    Traffic.unsent { shard := s, tasks := t.tasks.take slot ++ rest ++ t.tasks.drop (slot + 1) } =
      (t.tasks.take slot).flatMap Task.unsent ++
        (rest.flatMap Task.unsent ++ (t.tasks.drop (slot + 1)).flatMap Task.unsent) := by
  simp only [Traffic.unsent, List.flatMap_append, List.append_assoc]

/-- A call sends the first part of what it has unsent. -/
theorem FileOk.send (hok : FileOk dead t) {slot : ℕ} {task : Task V} (htask : t.tasks[slot]? = some task)
    (sent : List (Mutation V)) (rest : List (Task V)) (hlen : rest.length ≤ 1)
    (hunsent : task.unsent = sent ++ rest.flatMap Task.unsent) :
    FileOk dead { shard := t.shard.send sent, tasks := t.tasks.take slot ++ rest ++ t.tasks.drop (slot + 1) } := by
  have hap := hok.apart
  rw [Traffic.tasks_split htask] at hap
  have hmem : ∀ b ∈ rest, ∀ m ∈ b.unsent, m ∈ task.unsent := fun b hb m hm => by
    rw [hunsent]
    exact List.mem_append_right _ (List.mem_flatMap.2 ⟨b, hb, hm⟩)
  refine ⟨(Shard.send_writer _).trans hok.writer, ?_, fun f k => ?_⟩
  · refine pairwise_replace hap (fun x _ b hb h f k => (h f k).imp_right fun h m hm => h m (hmem b hb m hm))
      (fun y _ b hb h f k => (h f k).imp_left fun h m hm => h m (hmem b hb m hm)) ?_
    match rest, hlen with
    | [], _ => exact List.Pairwise.nil
    | [b], _ => exact List.pairwise_singleton _ _
  · -- what is sent jumps over the unsent requests of the calls before it
    have hjump : (∀ m ∈ sent, ¬ m.Affects f k) ∨ ∀ m ∈ (t.tasks.take slot).flatMap Task.unsent, ¬ m.Affects f k := by
      by_cases hs : ∀ m ∈ sent, ¬ m.Affects f k
      · exact .inl hs
      · right
        intro m hm haff
        obtain ⟨a, ha, hma⟩ := List.mem_flatMap.1 hm
        rcases (List.pairwise_append.1 hap).2.2 a ha _ List.mem_cons_self f k with h | h
        · exact h m hma haff
        · exact hs fun m' hm' => h m' (by rw [hunsent]; exact List.mem_append_left _ hm')
    have hrow := hok.mirrors f k
    rw [Traffic.unsent_split htask, hunsent] at hrow
    rw [Traffic.unsent_replaced, Shard.send_entry, Shard.send_queue hok.writer, Shard.send_disk]
    have hsame : ∀ row : Option (Versioned V),
        replay f k row (t.shard.queue ++ sent ++ ((t.tasks.take slot).flatMap Task.unsent ++
          (rest.flatMap Task.unsent ++ (t.tasks.drop (slot + 1)).flatMap Task.unsent))) =
        replay f k row (t.shard.queue ++ ((t.tasks.take slot).flatMap Task.unsent ++
          (sent ++ rest.flatMap Task.unsent ++ (t.tasks.drop (slot + 1)).flatMap Task.unsent))) := by
      intro row
      have hswap : replay f k (replay f k row t.shard.queue) (sent ++ (t.tasks.take slot).flatMap Task.unsent) =
          replay f k (replay f k row t.shard.queue) ((t.tasks.take slot).flatMap Task.unsent ++ sent) := replay_swap hjump
      simp only [replay_append] at hswap ⊢
      rw [hswap]
    rw [hsame]
    exact hrow

/-- The flows chosen for eviction leave the memory, and their clears become unsent. -/
theorem FileOk.evict (hok : FileOk dead t) {slot : ℕ} {next : List (Mutation V)} {flows : List String}
    (htask : t.tasks[slot]? = some (.evict next)) (hfree : ∀ f ∈ flows, ∀ k, t.Free f k) :
    FileOk dead { shard := t.shard.shed flows, tasks := t.tasks.take slot ++ [.clear flows next] ++ t.tasks.drop (slot + 1) } := by
  have hap := hok.apart
  rw [Traffic.tasks_split htask] at hap
  have hclear : ∀ {f k}, f ∉ flows → ∀ m ∈ flows.map (Mutation.clearFlow (V := V)), ¬ m.Affects f k := by
    intro f k hf m hm haff
    obtain ⟨f', hf', rfl⟩ := List.mem_map.1 hm
    exact hf ((haff : f' = f) ▸ hf')
  have hothers : ∀ {f k}, f ∈ flows → ∀ a ∈ t.tasks, ∀ m ∈ a.unsent, ¬ m.Affects f k := fun hf a ha m hm =>
    hfree _ hf _ m (List.mem_flatMap.2 ⟨a, ha, hm⟩)
  refine ⟨hok.writer, ?_, fun f k => ?_⟩
  · refine pairwise_replace hap (fun x hx b hb h f k => ?_) (fun y hy b hb h f k => ?_) (List.pairwise_singleton _ _)
    · rw [List.mem_singleton.1 hb]
      by_cases hf : f ∈ flows
      · exact .inl (hothers hf x (List.mem_of_mem_take hx))
      · exact (h f k).imp_right fun h m hm => (List.mem_append.1 hm).elim (hclear hf m) (h m)
    · rw [List.mem_singleton.1 hb]
      by_cases hf : f ∈ flows
      · exact .inr (hothers hf y (List.mem_of_mem_drop hy))
      · exact (h f k).imp_left fun h m hm => (List.mem_append.1 hm).elim (hclear hf m) (h m)
  · have hold : t.unsent = (t.tasks.take slot).flatMap Task.unsent ++
        (next ++ (t.tasks.drop (slot + 1)).flatMap Task.unsent) := Traffic.unsent_split htask
    have hnew : Traffic.unsent
        { shard := t.shard.shed flows, tasks := t.tasks.take slot ++ [.clear flows next] ++ t.tasks.drop (slot + 1) } =
        (t.tasks.take slot).flatMap Task.unsent ++
          (flows.map .clearFlow ++ (next ++ (t.tasks.drop (slot + 1)).flatMap Task.unsent)) := by
      rw [Traffic.unsent_replaced]
      simp [Task.unsent]
    have hrow := hok.mirrors f k
    rw [hold, replay_append, replay_append] at hrow
    rw [hnew, Shard.entry_shed, replay_append, replay_append, replay_append]
    by_cases hf : f ∈ flows
    · -- nothing after the flow's clear is about it
      have hafter : ∀ m ∈ next ++ (t.tasks.drop (slot + 1)).flatMap Task.unsent, ¬ m.Affects f k := by
        intro m hm
        refine hfree f hf k m ?_
        rw [hold]
        exact List.mem_append_right _ hm
      rw [if_pos hf, replay_clears hf, replay_of_not_affects hafter]
      exact .inl rfl
    · rw [if_neg hf, replay_of_not_affects (hclear hf)]
      exact hrow

theorem Traffic.step_run {slot : ℕ} {task : Task V} (h : t.tasks[slot]? = some task) :
    t.step (.run slot) = { shard := (task.step t.shard).1
                           tasks := t.tasks.take slot ++ (task.step t.shard).2 ++ t.tasks.drop (slot + 1) } := by
  simp only [Traffic.step, h]

theorem fileOk_run (hok : FileOk dead t) {slot : ℕ}
    (hsafe : ∀ next, t.tasks[slot]? = some (.evict next) → ∀ f ∈ t.shard.victims, ∀ k, t.Free f k) :
    FileOk dead (t.step (.run slot)) := by
  cases htask : t.tasks[slot]? with
  | none => simpa only [Traffic.step, htask] using hok
  | some task =>
    rw [Traffic.step_run htask]
    cases task with
    | evict next =>
      simp only [Task.step]
      split
      · have hnone : t.shard.send [] = t.shard := by
          unfold Shard.send; split <;> simp
        have h := hok.send htask [] [.submit next] le_rfl (by simp [Task.unsent])
        rwa [hnone] at h
      · exact hok.evict htask (hsafe next htask)
    | clear flows next => exact hok.send htask (flows.map .clearFlow) [.submit next] le_rfl (by simp [Task.unsent])
    | submit request => exact hok.send htask request [] (Nat.zero_le _) (by simp [Task.unsent])

theorem fileOk_commit (hok : FileOk dead t) (now n : ℕ) : FileOk dead (t.step (.commit now n)) where
  writer := hok.writer
  apart := hok.apart
  mirrors := fun f k => by
    have hrow := hok.mirrors f k
    rw [← List.take_append_drop (min n maxBatch) t.shard.queue, List.append_assoc, replay_append] at hrow
    simp only [Traffic.step, Shard.commit, commitBatch_row]
    exact hrow

/-- A swept record is expired, and its row is gone too unless a request puts it back. -/
theorem fileOk_tick (hok : FileOk dead t) {now : ℕ} (hdead : ∀ e, isLive e now = false → dead e) :
    FileOk dead (t.step (.tick now)) where
  writer := hok.writer
  apart := hok.apart
  mirrors := fun f k => by
    have hrow := hok.mirrors f k
    have hunsent : (t.step (.tick now)).unsent = t.unsent := rfl
    have hqueue : (t.step (.tick now)).shard.queue = t.shard.queue := rfl
    have hdisk : (t.step (.tick now)).shard.disk.flowKv[(f, k)]? =
        if (f, k) ∈ t.shard.expired now then none else t.shard.disk.flowKv[(f, k)]? := commitDeletes_row _ _
    have hentry : (t.step (.tick now)).shard.entry f k = (t.shard.entry f k).filter fun e => isLive e now :=
      Shard.entry_tick
    rw [hunsent, hqueue, hdisk, hentry]
    by_cases hmem : (f, k) ∈ t.shard.expired now
    · obtain ⟨e, he, hexp⟩ := Shard.mem_expired.1 hmem
      simp only at he
      have hkept : replay f k t.shard.disk.flowKv[(f, k)]? (t.shard.queue ++ t.unsent) = some e := by
        rcases hrow with h | ⟨h, -⟩
        · rw [← h, he]
        · rw [he] at h; cases h
      rw [if_pos hmem, he, Option.filter_some, hexp]
      rcases replay_cases f k (t.shard.queue ++ t.unsent) with hkeep | ⟨last, hlast⟩
      · exact .inl (hkeep none).symm
      · rw [hlast] at hkept ⊢
        exact .inr ⟨rfl, e, hkept, hdead e hexp⟩
    · have hsame : ((t.shard.entry f k).filter fun e => isLive e now) = t.shard.entry f k := by
        cases he : t.shard.entry f k with
        | none => rfl
        | some e =>
          have hl : isLive e now = true := by
            by_contra hl
            exact hmem (Shard.mem_expired.2 ⟨e, he, by simpa using hl⟩)
          simp [hl]
      rw [if_neg hmem, hsame]
      exact hrow

/-- **Every safe step keeps the invariant.** -/
theorem fileOk_step (hok : FileOk dead t) {move : ShardMove V} (hsafe : move.Safe t) (hdurable : move.Durable)
    (hdead : ∀ now e, move = .tick now → isLive e now = false → dead e) : FileOk dead (t.step move) := by
  cases move with
  | call now c => exact fileOk_call hok hsafe hdurable
  | run slot => exact fileOk_run hok hsafe
  | commit now n => exact fileOk_commit hok now n
  | tick now => exact fileOk_tick hok fun e he => hdead now e rfl he

/-- The traffic after the first `n` moves. -/
def Traffic.after (t : Traffic V) (moves : List (ShardMove V)) (n : ℕ) : Traffic V :=
  Trace.stateAt Traffic.step t moves n

theorem fileOk_after {moves : List (ShardMove V)} (hok : FileOk dead t)
    (hsafe : ∀ n (move : ShardMove V), moves[n]? = some move → move.Safe (t.after moves n)) (hdurable : ∀ move ∈ moves, move.Durable)
    (hdead : ∀ now e, .tick now ∈ moves → isLive e now = false → dead e) {n : ℕ} (hn : n ≤ moves.length) :
    FileOk dead (t.after moves n) := by
  refine Trace.stateAt_stretch (Nat.zero_le n) hn (by simpa using hok) fun j hj _ _ h => ?_
  have hget : moves[j]? = some moves[j] := List.getElem?_eq_getElem hj
  refine fileOk_step h (hsafe j _ hget) (hdurable _ (List.getElem_mem hj)) fun now e heq he => hdead now e ?_ he
  rw [← heq]
  exact List.getElem_mem hj

/-! ## Calls side by side -/

/-- A set, a merge, a step of a call under way, or a commit. -/
def ShardMove.IsWrite : ShardMove V → Prop
  | .call _ (.set _ _ _ durability) | .call _ (.merge _ _ _ durability) => durability ≠ .none
  | .call _ _ | .tick _ => False
  | .run _ | .commit _ _ => True

theorem ShardMove.IsWrite.durable {move : ShardMove V} (h : move.IsWrite) : move.Durable := by
  match move, h with
  | .call _ (.set _ _ _ _), h | .call _ (.merge _ _ _ _), h => exact h
  | .run _, _ | .commit _ _, _ => trivial

/-- **The file ends up as the memory**, for any number of durable sets and merges side by
side, with the evictions they trigger, on a shard whose file agrees with its memory:
if a call starts, and a flow is evicted, only where no call under way has a request
unsent about that row, then once all calls have returned and the queue is drained, the
file holds exactly the entries of the memory. -/
theorem file_matches_memory (t : Traffic V) (hopen : t.shard.writer = true) (hidle : t.tasks = [])
    (hempty : t.shard.queue = []) (hagree : ∀ f k, t.shard.disk.flowKv[(f, k)]? = t.shard.entry f k)
    (moves : List (ShardMove V)) (hwrites : ∀ move ∈ moves, move.IsWrite)
    (hsafe : ∀ n move, moves[n]? = some move → ShardMove.Safe (t.after moves n) move)
    (hreturned : (t.after moves moves.length).tasks = []) (hdrained : (t.after moves moves.length).shard.queue = []) :
    ∀ f k, (t.after moves moves.length).shard.disk.flowKv[(f, k)]? = (t.after moves moves.length).shard.entry f k := by
  have hstart : FileOk (fun _ => False) t := by
    refine ⟨hopen, by rw [hidle]; exact List.Pairwise.nil, fun f k => .inl ?_⟩
    simp only [Traffic.unsent, hidle, hempty, List.flatMap_nil, List.append_nil, replay_nil]
    exact (hagree f k).symm
  have hend := fileOk_after hstart hsafe (fun move hm => (hwrites move hm).durable)
    (fun now e hm => absurd (hwrites _ hm) id) le_rfl
  intro f k
  have hrow := hend.mirrors f k
  simp only [Traffic.unsent, hreturned, hdrained, List.flatMap_nil, List.append_nil, replay_nil] at hrow
  rcases hrow with h | ⟨-, _, -, h⟩
  · exact h.symm
  · exact h.elim

/-- A record of version `v`. -/
def recordOf (v : ℕ) : Versioned ℕ := { mIdx := 1, v, origin := 1, expiresAt := 0, value := v }

/-- A set and its three further steps, then a commit. -/
def oneSet : List (ShardMove ℕ) :=
  [.call 1 (.set "f" "k" (recordOf 1) .sync), .run 0, .run 0, .commit 2 1]

theorem oneSet_reaches_file :
    (Traffic.after { shard := { maxFlows := 1 } } oneSet 4).shard.entry "f" "k" = some (recordOf 1) ∧
      ∀ f k, (Traffic.after { shard := { maxFlows := 1 } } oneSet 4).shard.disk.flowKv[(f, k)]? =
        (Traffic.after { shard := { maxFlows := 1 } } oneSet 4).shard.entry f k := by
  refine ⟨by decide +kernel, file_matches_memory { shard := { maxFlows := 1 } } rfl rfl rfl
    (fun f k => by simp [Shard.entry]) oneSet (by simp [oneSet, ShardMove.IsWrite]) (fun n move h => ?_)
    (by decide +kernel) (by decide +kernel)⟩
  rcases n with _ | _ | _ | _ | n
  · cases h; intro f k _ m hm; simp [Traffic.after, Traffic.unsent] at hm
  · cases h
    intro next _ f hf
    have hv : (Traffic.after { shard := { maxFlows := 1 } } oneSet 1).shard.victims = [] := by decide +kernel
    rw [hv] at hf
    cases hf
  · cases h
    intro next hnext
    have ht : (Traffic.after { shard := { maxFlows := 1 } } oneSet 2).tasks[0]? =
        some (.submit [.set "f" "k" (recordOf 1)]) := by decide +kernel
    rw [ht] at hnext
    cases hnext
  · cases h; trivial
  · cases h

/-- Two sets of one key at once. The second changes the memory before the first has sent
its request, and sends its own first. -/
def crossedSets : List (ShardMove ℕ) :=
  [.call 1 (.set "f" "k" (recordOf 1) .sync), .call 1 (.set "f" "k" (recordOf 2) .sync),
    .run 0, .run 1, .run 1, .run 0, .commit 2 2]

/-- **The later write is in memory, the earlier one in the file.** -/
theorem crossedSets_disagree :
    let t := Traffic.after { shard := { maxFlows := 1 } } crossedSets 7
    t.tasks = [] ∧ t.shard.queue = [] ∧ t.shard.entry "f" "k" = some (recordOf 2) ∧
      t.shard.disk.flowKv[("f", "k")]? = some (recordOf 1) := by
  decide +kernel

end RiftCluster
