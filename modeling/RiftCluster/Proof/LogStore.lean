import RiftCluster.Model.LogWire

/-!
# The log store keeps the log

The table, read in key order, is the kept log entry by entry (`KeepsLog`): an append goes past
the last key, because it is contiguous, and a truncate or a purge drops an end of the
table. The rows of the log and the row of the purge point are then read back as the kept
log's own (`log_store_keeps_log`).
-/

namespace RiftCluster

open KV

variable {C : LogCodec}

namespace KeptLog

/-! ## Contiguous entries -/

theorem Contiguous.increasing {entries : List Entry} (h : Contiguous entries) :
    entries.Pairwise fun a b => a.logId.index < b.logId.index := by
  have hlt : entries.IsChain fun a b => a.logId.index < b.logId.index := h.imp fun a b hab => by omega
  exact List.isChain_iff_pairwise.1 hlt

theorem Contiguous.filter {entries : List Entry} (h : Contiguous entries) {p : ℕ → Bool}
    (hp : ∀ i j k, i ≤ j → j ≤ k → p i = true → p k = true → p j = true) :
    Contiguous (entries.filter fun e => p e.logId.index) := by
  induction entries with
  | nil => exact .nil
  | cons a entries ih =>
    have htail : Contiguous entries := h.tail
    by_cases ha : p a.logId.index = true
    · rw [List.filter_cons_of_pos (a := a) ha]
      cases entries with
      | nil => exact .singleton _
      | cons b entries =>
        have hab : b.logId.index = a.logId.index + 1 := (List.isChain_cons_cons.1 h).1
        have hrest := ih htail
        by_cases hb : p b.logId.index = true
        · rw [List.filter_cons_of_pos (a := b) hb] at hrest ⊢
          exact List.isChain_cons_cons.2 ⟨hab, hrest⟩
        · -- once it fails after `a` it fails for good
          have hnone : (b :: entries).filter (fun e => p e.logId.index) = [] := by
            rw [List.filter_eq_nil_iff]
            intro c hc hpc
            have hbc : b.logId.index ≤ c.logId.index := by
              rcases List.mem_cons.1 hc with rfl | hc
              · exact le_rfl
              · exact (List.rel_of_pairwise_cons htail.increasing hc).le
            exact hb (hp _ _ _ (by omega) hbc ha hpc)
          rw [hnone]
          exact .singleton _
    · rw [List.filter_cons_of_neg (a := a) ha]
      exact ih htail

theorem above_mono (lo : Bound) {i j : ℕ} (hij : i ≤ j) (h : above lo i = true) : above lo j = true := by
  cases lo <;> simp only [above, decide_eq_true_eq] at h ⊢ <;> omega

theorem below_anti (hi : Bound) {i j : ℕ} (hij : i ≤ j) (h : below hi j = true) : below hi i = true := by
  cases hi <;> simp only [below, decide_eq_true_eq] at h ⊢ <;> omega

theorem Contiguous.range {l : KeptLog} (h : Contiguous l.entries) (lo hi : Bound) : Contiguous (l.range lo hi) := by
  refine h.filter (p := fun index => above lo index && below hi index) fun i j k hij hjk hpi hpk => ?_
  rw [Bool.and_eq_true] at hpi hpk ⊢
  exact ⟨above_mono lo hij hpi.1, below_anti hi hjk hpk.2⟩

theorem Contiguous.append {l : KeptLog} (h : Contiguous l.entries) {entries : List Entry}
    (hallowed : l.Allows (.append entries)) : Contiguous (l.entries ++ entries) := by
  refine List.IsChain.append h hallowed.1 fun a ha b hb => ?_
  have hlast : a.logId ∈ l.last := by
    rw [last, Option.mem_def.1 ha]
    rfl
  exact hallowed.2 _ hlast b hb

end KeptLog

/-! ## The table is the log -/

def LogCodec.row (C : LogCodec) (e : Entry) : ℕ × String := (e.logId.index, C.entry.write e)

structure KeepsLog (C : LogCodec) (s : LogStore) (l : KeptLog) : Prop where
  rows : s.log.toList = l.entries.map C.row
  purged : s.logMeta = l.purged.map fun point => C.logMeta.write (some point)
  contiguous : KeptLog.Contiguous l.entries

theorem append_rows (entries : List Entry) {t : Table ℕ String} {kept : List Entry} (h : t.toList = kept.map C.row)
    (hcontiguous : KeptLog.Contiguous (kept ++ entries)) :
    (entries.foldl (fun log e => log.insert e.logId.index (C.entry.write e)) t).toList =
      (kept ++ entries).map C.row := by
  induction entries generalizing t kept with
  | nil => rw [List.append_nil]; exact h
  | cons e entries ih =>
    have hlast : ∀ row ∈ t.toList, compare row.1 e.logId.index = .lt := by
      intro row hrow
      rw [h] at hrow
      obtain ⟨e', he', rfl⟩ := List.mem_map.1 hrow
      have hlt := (List.pairwise_append.1 hcontiguous.increasing).2.2 e' he' e List.mem_cons_self
      exact Nat.compare_eq_lt.2 hlt
    have hinsert : (t.insert e.logId.index (C.entry.write e)).toList = (kept ++ [e]).map C.row := by
      rw [toList_insert_last hlast, h, List.map_append]
      rfl
    rw [List.append_cons] at hcontiguous ⊢
    exact ih hinsert hcontiguous

theorem retain_rows {t : Table ℕ String} {kept : List Entry} (h : t.toList = kept.map C.row) (p : ℕ → Bool) :
    (Table.retain t fun index _ => p index).toList = (kept.filter fun e => p e.logId.index).map C.row := by
  rw [toList_retain, h, List.filter_map]
  rfl

/-- **A call that is allowed does to the table what it does to the log.** -/
theorem keeps_step {s : LogStore} {l : KeptLog} (h : KeepsLog C s l) {call : LogCall} (hallowed : l.Allows call) :
    KeepsLog C (s.step C call) (l.step call) := by
  cases call with
  | append entries =>
    have hcontiguous := h.contiguous.append hallowed
    exact ⟨append_rows entries h.rows hcontiguous, h.purged, hcontiguous⟩
  | truncate logId =>
    have hfilter : (fun e : Entry => !decide (logId.index ≤ e.logId.index)) =
        fun e => decide (e.logId.index < logId.index) := by
      funext e
      rw [← decide_not, decide_eq_decide]
      omega
    refine ⟨?_, h.purged, ?_⟩
    · have hrows := retain_rows h.rows fun index => !decide (logId.index ≤ index)
      rwa [hfilter] at hrows
    · exact h.contiguous.filter (p := fun index => decide (index < logId.index)) fun i j k _ hjk _ hk => by
        rw [decide_eq_true_eq] at hk ⊢
        omega
  | purge logId =>
    have hfilter : (fun e : Entry => !decide (e.logId.index ≤ logId.index)) =
        fun e => decide (logId.index < e.logId.index) := by
      funext e
      rw [← decide_not, decide_eq_decide]
      omega
    refine ⟨?_, rfl, ?_⟩
    · have hrows := retain_rows h.rows fun index => !decide (index ≤ logId.index)
      rwa [hfilter] at hrows
    · exact h.contiguous.filter (p := fun index => decide (logId.index < index)) fun i j k hij _ hi _ => by
        rw [decide_eq_true_eq] at hi ⊢
        omega

theorem keeps_run (calls : List LogCall) {s : LogStore} {l : KeptLog} (h : KeepsLog C s l) (hallowed : l.AllowsAll calls) :
    KeepsLog C (calls.foldl (LogStore.step C) s) (calls.foldl KeptLog.step l) := by
  induction calls generalizing s l with
  | nil => exact h
  | cons call calls ih => exact ih (keeps_step h hallowed.1) hallowed.2

theorem keeps_empty : KeepsLog C {} {} where
  rows := toList_eq .nil fun k v => by simp
  purged := rfl
  contiguous := .nil

/-! ## What is read -/

theorem mapM_rows (entries : List Entry) :
    (entries.map C.row).mapM (fun row => C.entry.read row.2) = .ok entries := by
  induction entries with
  | nil => rfl
  | cons e entries ih =>
    rw [List.map_cons, List.mapM_cons, ih, LogCodec.row, C.entry_read]
    rfl

theorem fromStart_eq {lo : Bound} (h : lo.inside = true) (index : ℕ) :
    LogStore.fromStart lo index = KeptLog.above lo index := by
  cases lo with
  | included x => rfl
  | unbounded => rfl
  | excluded x =>
    simp only [Bound.inside, decide_eq_true_eq] at h
    simp only [LogStore.fromStart, KeptLog.above, saturatingAdd, min_eq_left (show x + 1 ≤ u64Max by omega)]
    rfl

theorem beforeEnd_eq {hi : Bound} (h : hi.inside = true) (index : ℕ) :
    LogStore.beforeEnd hi index = KeptLog.below hi index := by
  cases hi with
  | excluded x => rfl
  | unbounded => rfl
  | included x =>
    simp only [Bound.inside, decide_eq_true_eq] at h
    simp only [LogStore.beforeEnd, KeptLog.below, saturatingAdd, min_eq_left (show x + 1 ≤ u64Max by omega),
      Nat.lt_succ_iff]

theorem KeepsLog.entries {s : LogStore} {l : KeptLog} (h : KeepsLog C s l) {lo hi : Bound} (hlo : lo.inside = true)
    (hhi : hi.inside = true) : s.tryGetLogEntries C lo hi = .ok (l.range lo hi) := by
  have hfilter : s.log.toList.filter (fun row => LogStore.fromStart lo row.1 && LogStore.beforeEnd hi row.1) =
      (l.range lo hi).map C.row := by
    rw [h.rows, List.filter_map, KeptLog.range]
    congr 2
    funext e
    simp only [Function.comp, LogCodec.row, fromStart_eq hlo, beforeEnd_eq hhi]
  rw [LogStore.tryGetLogEntries, hfilter]
  exact mapM_rows _

theorem KeepsLog.logState {s : LogStore} {l : KeptLog} (h : KeepsLog C s l) :
    s.getLogState C = .ok { lastPurgedLogId := l.purged, lastLogId := l.last } := by
  have hlast : s.lastRowId C = .ok (l.entries.getLast?.map Entry.logId) := by
    rw [LogStore.lastRowId, h.rows, List.getLast?_map]
    cases l.entries.getLast? with
    | none => rfl
    | some e =>
      simp only [Option.map_some, LogCodec.row, C.entry_read]
      rfl
  have hpurged : s.purgedId C = .ok l.purged := by
    rw [LogStore.purgedId, h.purged]
    cases l.purged with
    | none => rfl
    | some point => exact C.meta_read _
  rw [LogStore.getLogState, hlast, hpurged]
  rfl

/-! ## What the calls left -/

theorem foldl_purged (calls : List LogCall) (l : KeptLog) :
    (calls.foldl KeptLog.step l).purged = (lastPurge calls).or l.purged := by
  induction calls generalizing l with
  | nil => rfl
  | cons call calls ih =>
    rw [List.foldl_cons, ih]
    cases call with
    | append entries => rfl
    | truncate logId => rfl
    | purge logId =>
      rw [lastPurge, lastPurge, List.filterMap_cons, LogCall.purge?]
      simp only [KeptLog.step]
      cases hlast : (calls.filterMap LogCall.purge?).getLast? with
      | none =>
        rw [List.getLast?_eq_none_iff.1 hlast]
        rfl
      | some point =>
        rw [List.getLast?_cons, hlast]
        rfl

/-- Each retained entry is the one that was appended last at its index. -/
def LastAt (appended : List Entry) (l : KeptLog) : Prop :=
  ∀ e ∈ l.entries, (appended.filter fun e' => e'.logId.index = e.logId.index).getLast? = some e

theorem filter_index {entries : List Entry} (h : KeptLog.Contiguous entries) {e : Entry} (he : e ∈ entries) :
    entries.filter (fun e' => e'.logId.index = e.logId.index) = [e] := by
  obtain ⟨before, after, rfl⟩ := List.append_of_mem he
  have hpairwise := List.pairwise_append.1 h.increasing
  have hbefore : before.filter (fun e' => e'.logId.index = e.logId.index) = [] := by
    rw [List.filter_eq_nil_iff]
    intro a ha heq
    have hlt := hpairwise.2.2 a ha e List.mem_cons_self
    rw [decide_eq_true_eq] at heq
    omega
  have hafter : after.filter (fun e' => e'.logId.index = e.logId.index) = [] := by
    rw [List.filter_eq_nil_iff]
    intro a ha heq
    have hlt := List.rel_of_pairwise_cons hpairwise.2.1 ha
    rw [decide_eq_true_eq] at heq
    omega
  rw [List.filter_append, hbefore, List.filter_cons_of_pos (by simp), hafter]
  rfl

theorem lastAt_step {appended : List Entry} {l : KeptLog} (h : LastAt appended l)
    (hcontiguous : KeptLog.Contiguous l.entries) {call : LogCall} (hallowed : l.Allows call) :
    LastAt (appended ++ call.appended) (l.step call) := by
  cases call with
  | append entries =>
    have hall := hcontiguous.append hallowed
    intro e he
    rcases List.mem_append.1 he with he | he
    · -- what is appended has later indexes
      have hnone : entries.filter (fun e' => e'.logId.index = e.logId.index) = [] := by
        rw [List.filter_eq_nil_iff]
        intro a ha heq
        have hlt := (List.pairwise_append.1 hall.increasing).2.2 e he a ha
        rw [decide_eq_true_eq] at heq
        omega
      rw [LogCall.appended, List.filter_append, hnone, List.append_nil]
      exact h e he
    · rw [LogCall.appended, List.filter_append, filter_index hallowed.1 he, List.getLast?_concat]
  | truncate logId =>
    rw [show (LogCall.truncate logId).appended = [] from rfl, List.append_nil]
    exact fun e he => h e (List.mem_of_mem_filter he)
  | purge logId =>
    rw [show (LogCall.purge logId).appended = [] from rfl, List.append_nil]
    exact fun e he => h e (List.mem_of_mem_filter he)

theorem lastAt_run (calls : List LogCall) {s : LogStore} {l : KeptLog} (hkeeps : KeepsLog C s l)
    (hallowed : l.AllowsAll calls) {appended : List Entry} (h : LastAt appended l) :
    LastAt (appended ++ calls.flatMap LogCall.appended) (calls.foldl KeptLog.step l) := by
  induction calls generalizing s l appended with
  | nil => rw [List.flatMap_nil, List.append_nil]; exact h
  | cons call calls ih =>
    rw [List.flatMap_cons, ← List.append_assoc]
    exact ih (keeps_step hkeeps hallowed.1) hallowed.2 (lastAt_step h hkeeps.contiguous hallowed.1)

/-- **The log store behaves as a log.** After any calls openraft may make, the log state is
the last purge point and the last retained entry (or the purge point), and a read of a range
gives the retained entries in it: contiguous, each with what was appended last at its
index. -/
theorem log_store_keeps_log (C : LogCodec) (calls : List LogCall) (hallowed : KeptLog.AllowsAll {} calls) :
    (LogStore.run C calls).getLogState C =
        .ok { lastPurgedLogId := lastPurge calls
              lastLogId := ((KeptLog.run calls).entries.getLast?.map Entry.logId).or (lastPurge calls) } ∧
      (∀ e ∈ (KeptLog.run calls).entries, lastAppended calls e.logId.index = some e) ∧
      ∀ lo hi : Bound, lo.inside = true → hi.inside = true →
        (LogStore.run C calls).tryGetLogEntries C lo hi = .ok ((KeptLog.run calls).range lo hi) ∧
        KeptLog.Contiguous ((KeptLog.run calls).range lo hi) := by
  have hkeeps : KeepsLog C (LogStore.run C calls) (KeptLog.run calls) := keeps_run calls keeps_empty hallowed
  have hpurged : (KeptLog.run calls).purged = lastPurge calls := by
    rw [KeptLog.run, foldl_purged, Option.or_none]
  have hempty : LastAt [] {} := fun e he => absurd he List.not_mem_nil
  have hlast := lastAt_run (C := C) calls keeps_empty hallowed hempty
  refine ⟨?_, hlast, fun lo hi hlo hhi => ⟨hkeeps.entries hlo hhi, hkeeps.contiguous.range lo hi⟩⟩
  rw [hkeeps.logState, KeptLog.last, hpurged]

/-- A blank entry that node 1 wrote as the leader of a term. -/
def blankAt (term index : ℕ) (h : index < 2 ^ 64 := by decide) : Entry := ⟨⟨term, 1, index, h⟩, .blank⟩

/-- Three entries, a purge of the first, and the third overwritten in the next term. -/
def overwritten : List LogCall :=
  [.append [blankAt 1 1, blankAt 1 2, blankAt 1 3], .purge (blankAt 1 1).logId, .truncate (blankAt 1 3).logId,
    .append [blankAt 2 3]]

theorem overwritten_kept :
    KeptLog.AllowsAll {} overwritten ∧
      (LogStore.run jsonLog overwritten).getLogState jsonLog =
        .ok { lastPurgedLogId := some (blankAt 1 1).logId, lastLogId := some (blankAt 2 3).logId } ∧
      (LogStore.run jsonLog overwritten).tryGetLogEntries jsonLog (.included 0) (.excluded 4) =
        .ok [blankAt 1 2, blankAt 2 3] := by
  have hallowed : KeptLog.AllowsAll {} overwritten := by
    simp [overwritten, KeptLog.AllowsAll, KeptLog.Allows, KeptLog.Contiguous, KeptLog.step, KeptLog.last, blankAt]
  obtain ⟨hstate, -, hread⟩ := log_store_keeps_log jsonLog overwritten hallowed
  exact ⟨hallowed, hstate, (hread (.included 0) (.excluded 4) rfl rfl).1⟩

end RiftCluster
