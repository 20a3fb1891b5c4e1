import RiftCluster.Proof.Reopen

/-!
# Eviction is by whole flow, least recently touched first

Calls made one after another under a clock that does not go back, over any number of
restarts. A touch stamps its flow past every other (`Ages.touch`), everything else keeps
the stamps of what it leaves (`Ages.within`), so the stamps order the flows as the calls
that touched them (`ages_after`). What an eviction takes was therefore touched no later than
what it leaves (`eviction_is_lru`).
-/

namespace RiftCluster

open KV

variable {V : Type} {s s' : Shard V} {clock now n : ℕ} {touched : String → Option ℕ}

def FlowMem.stamp (flow : FlowMem V) : ℕ × ℕ := (flow.lastTouch, flow.touchSeq)

/-- The stamps in the memory, against the calls of the history so far. -/
structure Ages (clock n : ℕ) (touched : String → Option ℕ) (s : Shard V) : Prop where
  cap : 0 < s.maxFlows
  stamps : s.Touched clock
  file : ∀ (f : String) written, s.disk.flowMeta[f]? = some written → written ≤ clock
  past : ∀ f i, touched f = some i → i < n
  order : ∀ (f g : String) (flow other : FlowMem V) i j, s.memory[f]? = some flow → s.memory[g]? = some other →
    touched f = some i → touched g = some j → i < j → touchedBefore other.stamp flow.stamp = false

theorem Ages.within {n' : ℕ} (h : Ages clock n touched s) (hle : clock ≤ now) (hn : n ≤ n')
    (hwithin : s'.Within s) (hseq : s'.touchSeq = s.touchSeq) (hmax : s'.maxFlows = s.maxFlows)
    (hfile : ∀ (f : String) written, s'.disk.flowMeta[f]? = some written → written ≤ now) :
    Ages now n' touched s' where
  cap := hmax ▸ h.cap
  stamps := hwithin.touched hseq.ge (h.stamps.mono hle)
  file := hfile
  past := fun f i hi => (h.past f i hi).trans_le hn
  order := by
    intro f g flow' other' i j hf hg hi hj hij
    obtain ⟨flow, hflow, hl, hs⟩ := hwithin f flow' hf
    obtain ⟨other, hother, hl', hs'⟩ := hwithin g other' hg
    have horder := h.order f g flow other i j hflow hother hi hj hij
    simp only [FlowMem.stamp] at horder ⊢
    rwa [hl, hs, hl', hs']

/-- A step that stamps one flow, and otherwise only takes flows away. -/
structure Stamps (now : ℕ) (f : String) (s s' : Shard V) : Prop where
  stamped : ∀ flow, s'.memory[f]? = some flow → flow.stamp = (now, s.touchSeq)
  others : ∀ (g : String) flow', g ≠ f → s'.memory[g]? = some flow' →
    ∃ flow, s.memory[g]? = some flow ∧ flow'.lastTouch = flow.lastTouch ∧ flow'.touchSeq = flow.touchSeq
  seq : s'.touchSeq = s.touchSeq + 1
  maxFlows : s'.maxFlows = s.maxFlows
  disk : s'.disk = s.disk

theorem stamps_install (flowId key : String) (e : Versioned V) : Stamps now flowId s (s.install now flowId key e) where
  stamped := by
    intro flow hflow
    rw [Shard.install, get_insert, if_pos rfl] at hflow
    cases hflow
    rfl
  others := by
    intro g flow' hne hg
    rw [Shard.install, get_insert, if_neg (Ne.symm hne)] at hg
    exact ⟨flow', hg, rfl, rfl⟩
  seq := rfl
  maxFlows := rfl
  disk := rfl

theorem stamps_remove {flowId key : String} (hheld : s.memory[flowId]?.isSome = true) :
    Stamps now flowId s (s.remove now flowId key) := by
  obtain ⟨flow, hflow⟩ := Option.isSome_iff_exists.1 hheld
  have hremove : s.remove now flowId key =
      { s with
        memory := if (flow.keys.erase key).isEmpty then s.memory.erase flowId
          else s.memory.insert flowId { keys := flow.keys.erase key, lastTouch := now, touchSeq := s.touchSeq }
        touchSeq := s.touchSeq + 1 } := by
    simp only [Shard.remove, hflow]
  rw [hremove]
  -- the last key takes its flow with it
  by_cases hempty : (flow.keys.erase key).isEmpty = true
  · simp only [hempty, if_true]
    exact
      { stamped := fun flow' h => by rw [get_erase, if_pos rfl] at h; cases h
        others := fun g flow' hne h => by
          rw [get_erase, if_neg (Ne.symm hne)] at h
          exact ⟨flow', h, rfl, rfl⟩
        seq := rfl
        maxFlows := rfl
        disk := rfl }
  · simp only [hempty]
    exact
      { stamped := fun flow' h => by
          simp only [Bool.false_eq_true, if_false] at h
          rw [get_insert, if_pos rfl] at h
          cases h
          rfl
        others := fun g flow' hne h => by
          simp only [Bool.false_eq_true, if_false] at h
          rw [get_insert, if_neg (Ne.symm hne)] at h
          exact ⟨flow', h, rfl, rfl⟩
        seq := rfl
        maxFlows := rfl
        disk := rfl }

/-- **A touch is past every stamp.** -/
theorem Ages.touch (h : Ages clock n touched s) (hle : clock ≤ now) {f : String} (hstamps : Stamps now f s s') :
    Ages now (n + 1) (fun g => if f = g then some n else touched g) s' where
  cap := hstamps.maxFlows ▸ h.cap
  stamps := by
    intro g flow' hg
    rw [hstamps.seq]
    by_cases hgf : g = f
    · subst hgf
      have hstamp := hstamps.stamped flow' hg
      rw [FlowMem.stamp, Prod.mk.injEq] at hstamp
      exact ⟨hstamp.1.le, by omega⟩
    · obtain ⟨flow, hflow, hl, hs⟩ := hstamps.others g flow' hgf hg
      obtain ⟨h1, h2⟩ := h.stamps g flow hflow
      exact ⟨by omega, by omega⟩
  file := fun g written hw => (h.file g written (hstamps.disk ▸ hw)).trans hle
  past := by
    intro g i hi
    split at hi
    · cases hi; exact Nat.lt_succ_self n
    · exact (h.past g i hi).trans (Nat.lt_succ_self n)
  order := by
    intro g g' flow other i j hg hg' hi hj hij
    -- the flow that was touched earlier is not the one of this step
    have hgf : g ≠ f := by
      rintro rfl
      rw [if_pos rfl] at hi
      cases hi
      split at hj
      · cases hj; omega
      · have := h.past g' j hj; omega
    rw [if_neg (Ne.symm hgf)] at hi
    obtain ⟨flow₀, hflow₀, hl, hs⟩ := hstamps.others g flow hgf hg
    by_cases hgf' : g' = f
    · subst hgf'
      rw [hstamps.stamped other hg', FlowMem.stamp]
      obtain ⟨h1, h2⟩ := h.stamps g flow₀ hflow₀
      simp only [touchedBefore, Bool.or_eq_false_iff, Bool.and_eq_false_iff, decide_eq_false_iff_not,
        beq_eq_false_iff_ne]
      omega
    · rw [if_neg (Ne.symm hgf')] at hj
      obtain ⟨other₀, hother₀, hl', hs'⟩ := hstamps.others g' other hgf' hg'
      have horder := h.order g g' flow₀ other₀ i j hflow₀ hother₀ hi hj hij
      simp only [FlowMem.stamp] at horder ⊢
      rwa [hl, hs, hl', hs']

/-! ## Calls -/

namespace Shard

theorem evictIfNeeded_memory (s : Shard V) : s.evictIfNeeded.memory = (s.shed s.victims).memory := send_memory _

theorem within_of_memory (h : s'.memory = s.memory) : Within s' s := by
  intro f flow hf
  rw [h] at hf
  exact ⟨flow, hf, rfl, rfl⟩

theorem Within.trans {s'' : Shard V} (h' : Within s'' s') (h : Within s' s) : Within s'' s := by
  intro f flow'' hf
  obtain ⟨flow', hflow', hl', hs'⟩ := h' f flow'' hf
  obtain ⟨flow, hflow, hl, hs⟩ := h f flow' hflow'
  exact ⟨flow, hflow, hl'.trans hl, hs'.trans hs⟩

theorem evictIfNeeded_maxFlows (s : Shard V) : s.evictIfNeeded.maxFlows = s.maxFlows := send_maxFlows _

theorem evictIfNeeded_writer (s : Shard V) : s.evictIfNeeded.writer = s.writer := send_writer _

theorem clear_mem_evict {g : String} (hwriter : s.writer = true) (h : g ∈ s.victims) :
    .clearFlow g ∈ s.evictIfNeeded.queue := by
  rw [evictIfNeeded, send_queue (s := s.shed s.victims) hwriter]
  exact List.mem_append_right _ (List.mem_map_of_mem h)

theorem within_evict (s : Shard V) : Within s.evictIfNeeded s :=
  (within_of_memory s.evictIfNeeded_memory).trans (within_shed _)

/-- **After an eviction the cap holds.** -/
theorem evict_fits (s : Shard V) : s.evictIfNeeded.memory.size ≤ s.maxFlows := by
  rw [evictIfNeeded_memory]
  rcases s.shed_victims_size with hfits | hnone
  · exact hfits
  · have hlen := s.victims_length
    rw [hnone, List.length_nil] at hlen
    rw [hnone]
    show s.memory.size ≤ s.maxFlows
    omega

end Shard

theorem Ages.send (h : Ages clock n touched s) (requests : List (Mutation V)) :
    Ages clock n touched (s.send requests) :=
  h.within le_rfl le_rfl (Shard.within_of_memory (Shard.send_memory _)) (Shard.send_touchSeq _) (Shard.send_maxFlows _)
    (by rw [Shard.send_disk]; exact h.file)

theorem Ages.evict (h : Ages clock n touched s) : Ages clock n touched s.evictIfNeeded :=
  h.within le_rfl le_rfl s.within_evict (Shard.send_touchSeq _) (Shard.send_maxFlows _)
    (by rw [Shard.evictIfNeeded, Shard.send_disk]; exact h.file)

theorem ages_call (h : Ages clock n touched s) (hle : clock ≤ now) (call : ShardCall V) :
    Ages now (n + 1) (fun f => if call.touches s now f then some n else touched f) (call.whole s now) := by
  -- what touches nothing leaves the calls as they were
  have hkept : Ages now (n + 1) touched s :=
    h.within hle (Nat.le_succ n) (Shard.within_of_memory rfl) rfl rfl
      fun f written hw => (h.file f written hw).trans hle
  cases call with
  | set flowId key e durability =>
    have hinstalled := h.touch hle (stamps_install (s := s) flowId key e)
    simp only [ShardCall.touches, beq_iff_eq]
    exact hinstalled.evict.send _
  | merge flowId key e durability =>
    cases hrefused : s.refuses now flowId key e with
    | true =>
      simp only [ShardCall.whole, ShardCall.touches, Shard.merge, hrefused, Bool.not_true, Bool.and_false,
        Bool.false_eq_true, if_false, if_true]
      exact hkept
    | false =>
      have hinstalled := h.touch hle (stamps_install (s := s) flowId key e)
      have hevicted := (hinstalled.send (persisted durability (.set flowId key e))).evict
      simp only [ShardCall.whole, ShardCall.touches, Shard.merge, hrefused, Bool.not_false, Bool.and_true,
        beq_iff_eq, Bool.false_eq_true, if_false]
      exact hevicted
  | delete flowId key durability =>
    cases hheld : s.memory[flowId]?.isSome with
    | true =>
      have hstamps : Stamps now flowId s (s.remove now flowId key) := stamps_remove hheld
      have hremoved := h.touch hle hstamps
      simp only [ShardCall.touches, hheld, Bool.and_true, beq_iff_eq]
      exact hremoved.send _
    | false =>
      have hsame : s.remove now flowId key = s := by
        rw [Option.isSome_eq_false_iff, Option.isNone_iff_eq_none] at hheld
        simp only [Shard.remove, hheld]
      simp only [ShardCall.touches, hheld, Bool.and_false, Bool.false_eq_true, if_false, ShardCall.whole, Shard.delete,
        hsame]
      exact hkept.send _
  | clearFlow flowId durability =>
    have hdropped : Ages now (n + 1) touched (s.drop flowId) :=
      hkept.within le_rfl le_rfl (Shard.within_drop flowId) rfl rfl hkept.file
    exact hdropped.send _

/-! ## Histories -/

theorem commitBatch_meta (d : Disk V) (batch : List (Mutation V)) {f : String} {written : ℕ}
    (h : (commitBatch now d batch).flowMeta[f]? = some written) : written = now ∨ d.flowMeta[f]? = some written := by
  induction batch generalizing d with
  | nil => exact .inr h
  | cons m batch ih =>
    rcases ih (d.apply now m) h with rfl | hbefore
    · exact .inl rfl
    · cases m with
      | set flowId key e =>
        rw [Disk.apply, get_insert] at hbefore
        split at hbefore
        · exact .inl (Option.some.inj hbefore).symm
        · exact .inr hbefore
      | delete flowId key => exact .inr hbefore
      | clearFlow flowId =>
        rw [Disk.apply, get_erase] at hbefore
        split at hbefore
        · cases hbefore
        · exact .inr hbefore

theorem trim_size {maxFlows fuel : ℕ} {memory : Memory V} (h : memory.size ≤ maxFlows + fuel) :
    (trim maxFlows fuel memory).size ≤ maxFlows := by
  induction fuel generalizing memory with
  | zero => exact h
  | succ fuel ih =>
    rw [trim]
    split
    · cases hhead : (byAge memory).head? with
      | none =>
        have hlen := byAge_length memory
        rw [List.head?_eq_none_iff.1 hhead, List.length_nil] at hlen
        show memory.size ≤ maxFlows
        omega
      | some oldest =>
        obtain ⟨flow, hflow, -⟩ := mem_byAge.1 (List.mem_of_head? hhead)
        have hmem : oldest.1 ∈ memory := by
          rw [Std.ExtTreeMap.mem_iff_isSome_getElem?, hflow]
          rfl
        refine ih ?_
        rw [Std.ExtTreeMap.size_erase, if_pos (Std.ExtTreeMap.contains_iff_mem.2 hmem)]
        omega
    · omega

/-- The cap that an event opens the file with leaves room for a flow. -/
def ShardEvent.Capped : ShardEvent V → Prop
  | .restart maxFlows _ _ => 0 < maxFlows
  | _ => True

theorem ages_next (h : Ages clock n touched s) {event : ShardEvent V} (hle : clock ≤ event.now)
    (hcap : event.Capped) :
    Ages event.now (n + 1) (event.retouch s n touched) (s.next event) := by
  cases event with
  | call now call => exact ages_call h hle call
  | commit now k =>
    refine h.within hle (Nat.le_succ n) (Shard.within_of_memory rfl) rfl rfl fun f written hw => ?_
    rcases commitBatch_meta _ _ hw with rfl | hbefore
    · exact le_rfl
    · exact (h.file f written hbefore).trans hle
  | tick now =>
    exact h.within hle (Nat.le_succ n) Shard.within_tick rfl rfl fun f written hw => (h.file f written hw).trans hle
  | restart maxFlows now rank =>
    exact
      { cap := hcap
        stamps := open_touched fun f written hw => (h.file f written hw).trans hle
        file := fun f written hw => (h.file f written hw).trans hle
        past := fun f i hi => by cases hi
        order := fun f g flow other i j _ _ hi => by cases hi }

def Shard.Fits (s : Shard V) : Prop := s.memory.size ≤ s.maxFlows

theorem fits_next (h : s.Fits) (event : ShardEvent V) : (s.next event).Fits := by
  have hsmaller : ∀ {s' : Shard V}, s'.maxFlows = s.maxFlows → s'.memory.size ≤ s.memory.size → s'.Fits := by
    intro s' hmax hsize
    unfold Shard.Fits at h ⊢
    omega
  cases event with
  | call now call =>
    cases call with
    | set flowId key e durability =>
      show ((s.install now flowId key e).evictIfNeeded.send _).Fits
      rw [Shard.Fits, Shard.send_memory, Shard.send_maxFlows]
      exact (Shard.evict_fits _).trans_eq (Shard.evictIfNeeded_maxFlows _).symm
    | merge flowId key e durability =>
      show (s.merge now flowId key e durability).Fits
      rw [Shard.merge]
      split
      · exact h
      · exact (Shard.evict_fits _).trans_eq (Shard.evictIfNeeded_maxFlows _).symm
    | delete flowId key durability =>
      show ((s.remove now flowId key).send _).Fits
      refine hsmaller ?_ ?_
      · rw [Shard.send_maxFlows]
        unfold Shard.remove
        split <;> rfl
      · rw [Shard.send_memory]
        exact Shard.remove_size key
    | clearFlow flowId durability =>
      show ((s.drop flowId).send _).Fits
      refine hsmaller (Shard.send_maxFlows _) ?_
      rw [Shard.send_memory]
      exact (Shard.within_drop flowId).size_le
  | commit now k => exact h
  | tick now => exact hsmaller rfl Shard.within_tick.size_le
  | restart maxFlows now rank => exact trim_size (Nat.le_add_left _ _)

def Steady (history : List (ShardEvent V)) : Prop := (history.map ShardEvent.now).Pairwise (· ≤ ·)

theorem after_succ {history : List (ShardEvent V)} (hn : n < history.length) :
    s.after history (n + 1) = (s.after history n).next history[n] := Trace.stateAt_succ hn

theorem lastTouched_succ {history : List (ShardEvent V)} (hn : n < history.length) :
    lastTouched s history (n + 1) = history[n].retouch (s.after history n) n (lastTouched s history n) := by
  funext f
  rw [lastTouched, List.getElem?_eq_getElem hn]

section Histories

variable {maxFlows : ℕ} {writer : Bool} {history : List (ShardEvent V)}

/-- **Along every history the stamps order the flows as their last touches.** -/
theorem ages_after (hcap : 0 < maxFlows) (hcaps : ∀ event ∈ history, event.Capped) (hclock : Steady history)
    (hn : n ≤ history.length) :
    ∃ clock, (∀ k (hk : k < history.length), n ≤ k → clock ≤ history[k].now) ∧
      Ages clock n (lastTouched (Shard.fresh V maxFlows writer) history n)
        ((Shard.fresh V maxFlows writer).after history n) := by
  induction n with
  | zero =>
    refine ⟨0, fun k hk _ => Nat.zero_le _, ?_⟩
    exact
      { cap := hcap
        stamps := fun f flow hf => by simp [Shard.after, Shard.fresh] at hf
        file := fun f written hw => by simp [Shard.after, Shard.fresh] at hw
        past := fun f i hi => by cases hi
        order := fun f g flow other i j _ _ hi => by cases hi }
  | succ n ih =>
    obtain ⟨clock, hle, hages⟩ := ih (by omega)
    refine ⟨history[n].now, fun k hk hnk => ?_, ?_⟩
    · exact List.pairwise_iff_getElem.1 (List.pairwise_map.1 hclock) n k (by omega) hk (by omega)
    · rw [lastTouched_succ hn, after_succ hn]
      exact ages_next hages (hle n hn le_rfl) (hcaps _ (List.getElem_mem hn))

theorem fits_after (n : ℕ) : ((Shard.fresh V maxFlows writer).after history n).Fits :=
  Trace.stateAt_inv (P := Shard.Fits) (by simp [Shard.Fits, Shard.fresh])
    (fun s event _ hfits => fits_next hfits event) n

/-! ## The eviction of a write -/

/-- What a write of a record has done: the record is held, every other flow is held whole or
not at all, and those that went were touched no later than those that stay. -/
structure WroteAndShed (now : ℕ) (f key : String) (e : Versioned V) (touched : String → Option ℕ) (s s' : Shard V) :
    Prop where
  held : s'.entry f key = some e
  whole : ∀ g : String, s'.memory[g]? = none ∨ s'.memory[g]? = (s.install now f key e).memory[g]?
  /-- The writer is told to clear what went. -/
  cleared : ∀ g : String, s.writer = true → s.memory[g]?.isSome = true → s'.memory[g]? = none →
    .clearFlow g ∈ s'.queue
  older : ∀ (g h : String) i j, s.memory[g]?.isSome = true → s'.memory[g]? = none → s'.memory[h]?.isSome = true →
    touched g = some i → touched h = some j → i ≤ j

theorem wrote_evict {f key : String} {e : Versioned V} {s₁ : Shard V}
    (hwritten : s₁.memory = (s.install now f key e).memory) (hnew : s₁.Newest f) (hages : Ages clock n touched s₁) (hmemory : s'.memory = s₁.evictIfNeeded.memory)
    (hqueue : s.writer = true → ∀ g ∈ s₁.victims, .clearFlow g ∈ s'.queue) :
    WroteAndShed now f key e touched s s' := by
  have hget : ∀ g : String, s'.memory[g]? = if g ∈ s₁.victims then none else s₁.memory[g]? := by
    intro g
    rw [hmemory, Shard.evictIfNeeded_memory, Shard.memory_shed]
  have hstays : f ∉ s₁.victims := Shard.newest_not_victim hnew hages.cap
  -- a flow that is gone was among the victims
  have hvictim : ∀ g : String, s.memory[g]?.isSome = true → s'.memory[g]? = none →
      g ∈ s₁.victims ∧ ∃ flow, s₁.memory[g]? = some flow := by
    intro g hg hgone
    have hheld : s₁.memory[g]?.isSome = true := by
      rw [hwritten, Shard.install, get_insert]
      split
      · rfl
      · exact hg
    obtain ⟨flow, hflow⟩ := Option.isSome_iff_exists.1 hheld
    refine ⟨?_, flow, hflow⟩
    by_contra hnot
    rw [hget, if_neg hnot, hflow] at hgone
    cases hgone
  refine ⟨?_, fun g => ?_, fun g hw hg hgone => hqueue hw g (hvictim g hg hgone).1, fun g h i j hg hgone hh hi hj => ?_⟩
  · have hentry : (s.install now f key e).entry f key = some e := by
      rw [Shard.entry_install, if_pos ⟨rfl, rfl⟩]
    rwa [Shard.entry, hget, if_neg hstays, hwritten]
  · rw [hget, hwritten]
    split
    · exact .inl rfl
    · exact .inr rfl
  · obtain ⟨hmem, flow, hflow⟩ := hvictim g hg hgone
    obtain ⟨other, hother⟩ := Option.isSome_iff_exists.1 hh
    have hsurvives : h ∉ s₁.victims := by
      intro hin
      rw [hget, if_pos hin] at hother
      cases hother
    rw [hget, if_neg hsurvives] at hother
    have hbefore := Shard.victim_older hmem hsurvives hflow hother
    by_contra hlt
    have hafter := hages.order h g other flow j i hother hflow hj hi (by omega)
    rw [FlowMem.stamp, FlowMem.stamp, hbefore] at hafter
    cases hafter

theorem wrote_call (hages : Ages clock n touched s) (hle : clock ≤ now) {call : ShardCall V} {f key : String}
    {e : Versioned V} (hrecord : call.record = some (f, key, e)) :
    (call.touches s now f = false → call.whole s now = s) ∧
      (call.touches s now f = true →
        WroteAndShed now f key e (fun g => if call.touches s now g then some n else touched g) s
          (call.whole s now)) := by
  have hinstalled := hages.touch hle (stamps_install (s := s) f key e)
  have hnew := (Shard.install_touched hages.stamps hle f key e).2
  cases call with
  | set flowId key' e' durability =>
    cases hrecord
    refine ⟨fun h => by simp [ShardCall.touches] at h, fun _ => ?_⟩
    simp only [ShardCall.touches, beq_iff_eq]
    refine wrote_evict rfl hnew hinstalled (Shard.send_memory _) fun hwriter g hg => ?_
    rw [ShardCall.whole, Shard.set, Shard.send_queue (by rw [Shard.evictIfNeeded_writer]; exact hwriter)]
    exact List.mem_append_left _ (Shard.clear_mem_evict hwriter hg)
  | merge flowId key' e' durability =>
    cases hrecord
    cases hrefused : s.refuses now f key e with
    | true =>
      refine ⟨fun _ => if_pos hrefused, fun h => ?_⟩
      simp [ShardCall.touches, hrefused] at h
    | false =>
      refine ⟨fun h => by simp [ShardCall.touches, hrefused] at h, fun _ => ?_⟩
      simp only [ShardCall.touches, hrefused, Bool.not_false, Bool.and_true, beq_iff_eq]
      have hsent := Shard.within_of_memory (Shard.send_memory (s := s.install now f key e)
        (persisted durability (.set f key e)))
      have hmerge : s.merge now f key e durability =
          ((s.install now f key e).send (persisted durability (.set f key e))).evictIfNeeded := by
        rw [Shard.merge, hrefused]
        rfl
      refine wrote_evict (Shard.send_memory _) (hsent.newest hnew) (hinstalled.send _) ?_ fun hwriter g hg => ?_
      · rw [ShardCall.whole, hmerge]
      · rw [ShardCall.whole, hmerge]
        exact Shard.clear_mem_evict (by rw [Shard.send_writer]; exact hwriter) hg
  | delete flowId key' durability => cases hrecord
  | clearFlow flowId durability => cases hrecord

/-- **Eviction is whole-flow LRU.** After every set and merge of every history the shard is
within its cap, and holds the record it wrote; every other flow is there whole or not at
all, and one that went was touched by no later call than any that stays. -/
theorem eviction_is_lru (maxFlows : ℕ) (writer : Bool) (history : List (ShardEvent V)) (hcap : 1 ≤ maxFlows)
    (hcaps : ∀ event ∈ history, event.Capped) (hclock : Steady history) (n now : ℕ) (call : ShardCall V)
    (hcall : history[n]? = some (.call now call)) (f key : String) (e : Versioned V)
    (hrecord : call.record = some (f, key, e)) :
    ((Shard.fresh V maxFlows writer).after history (n + 1)).memory.size ≤
        ((Shard.fresh V maxFlows writer).after history (n + 1)).maxFlows ∧
      (call.touches ((Shard.fresh V maxFlows writer).after history n) now f = false →
        (Shard.fresh V maxFlows writer).after history (n + 1) = (Shard.fresh V maxFlows writer).after history n) ∧
      (call.touches ((Shard.fresh V maxFlows writer).after history n) now f = true →
        WroteAndShed now f key e (lastTouched (Shard.fresh V maxFlows writer) history (n + 1))
          ((Shard.fresh V maxFlows writer).after history n)
          ((Shard.fresh V maxFlows writer).after history (n + 1))) := by
  obtain ⟨hn, hevent⟩ := List.getElem?_eq_some_iff.1 hcall
  obtain ⟨clock, hle, hages⟩ : ∃ clock, (∀ k (hk : k < history.length), n ≤ k → clock ≤ history[k].now) ∧
      Ages clock n (lastTouched (Shard.fresh V maxFlows writer) history n)
        ((Shard.fresh V maxFlows writer).after history n) := ages_after hcap hcaps hclock hn.le
  have hclockLe : clock ≤ now := by
    have hnow := hle n hn le_rfl
    rwa [hevent] at hnow
  refine ⟨fits_after (n + 1), ?_⟩
  rw [lastTouched_succ hn, after_succ hn, hevent]
  exact wrote_call hages hclockLe hrecord

/-- Two flows written in one millisecond, under a cap of one. -/
def setsPastCap : List (ShardEvent ℕ) :=
  [.call 5 (.set "a" "k" (recordOf 1) .none), .call 5 (.set "b" "k" (recordOf 2) .none)]

theorem setsPastCap_evict_first :
    Steady setsPastCap ∧ ((Shard.fresh ℕ 1 true).after setsPastCap 2).memory.size ≤ 1 ∧
      ((Shard.fresh ℕ 1 true).after setsPastCap 2).entry "b" "k" = some (recordOf 2) ∧
      ((Shard.fresh ℕ 1 true).after setsPastCap 1).entry "a" "k" = some (recordOf 1) ∧
      ((Shard.fresh ℕ 1 true).after setsPastCap 2).entry "a" "k" = none := by
  have hclock : Steady setsPastCap := by simp [Steady, setsPastCap, ShardEvent.now]
  have hcaps : ∀ event ∈ setsPastCap, event.Capped := by
    intro event hevent
    rcases List.mem_cons.1 hevent with rfl | hevent
    · trivial
    · rw [List.mem_singleton.1 hevent]; trivial
  obtain ⟨hfits, -, hwrote⟩ := eviction_is_lru 1 true setsPastCap le_rfl hcaps hclock 1 5
    (.set "b" "k" (recordOf 2) .none) rfl "b" "k" (recordOf 2) rfl
  exact ⟨hclock, hfits, (hwrote rfl).held, by decide +kernel, by decide +kernel⟩

end Histories

end RiftCluster
