import RiftCluster.Model.Proxy
import RiftCluster.Proof.Markers

/-!
# The state a log leads to

A replica that has applied the first `n` entries, in whatever batches, has the tables of
`logState` at `n` (`Follows`). A marker that is there at `n` was written by one entry and
has been there since (`marker_writer`). The answer `Applied` to a recording under an op id
of its own says that the marker is there right after the entry the answer names
(`applied_marker`), be it answered the first time or again.
-/

namespace RiftCluster

open KV

variable {U : Upstream} {log : List Entry} {slot : ClaimSlot}

/-! ## States along a log -/

theorem logState_succ {n : ℕ} {e : Entry} (he : log[n]? = some e) :
    logState U log (n + 1) = (applyOne U false (logState U log n) e).state := by
  obtain ⟨hn, rfl⟩ := List.getElem?_eq_some_iff.1 he
  unfold logState
  rw [sAt_succ (by simpa using hn), List.getElem_map]
  rfl

theorem logState_longer {log' : List Entry} (h : log <+: log') {n : ℕ} (hn : n ≤ log.length) :
    logState U log' n = logState U log n := by
  obtain ⟨rest, rfl⟩ := h
  unfold logState
  rw [List.map_append, sAt_append (by rwa [List.length_map])]

theorem stateOk_logState (n : ℕ) : StateOk U (logState U log n) := stateOk_run stateOk_empty _ n

theorem markerAt_longer {log' : List Entry} (h : log <+: log') {n : ℕ} (hn : n ≤ log.length) :
    markerAt U log' slot n = markerAt U log slot n := by
  rw [markerAt, markerAt, logState_longer h hn]

def Indexed (log : List Entry) : Prop := ∀ n (e : Entry), log[n]? = some e → e.logId.index = n

theorem indexed_append (h : Indexed log) {e : Entry} (he : e.logId.index = log.length) : Indexed (log ++ [e]) := by
  intro n e' hn
  rw [List.getElem?_append] at hn
  split at hn
  · exact h n e' hn
  · obtain ⟨hlt, heq⟩ := List.getElem?_eq_some_iff.1 hn
    rw [List.length_singleton] at hlt
    rw [← heq, List.getElem_singleton, he]
    omega

/-! ## Replicas -/

/-- The replica has applied a first part of the log, and the metrics are not ahead of it. -/
structure Follows (U : Upstream) (log : List Entry) (n : ProxyNode) : Prop where
  indexed : Indexed log
  bound : n.replica.position ≤ log.length
  swept : n.replica.sweep U = (logState U log n.replica.position).sweep U
  published : ∀ a, n.lastApplied = some a → a < n.replica.position

variable {n : ProxyNode}

theorem Follows.row (h : Follows U log n) (slot : ClaimSlot) :
    n.proxyRecorded slot = markerAt U log slot n.replica.position := by
  have htables : n.replica.tables = (logState U log n.replica.position).tables := by
    have hswept := h.swept
    simp only [State.sweep, State.mk.injEq] at hswept
    exact hswept.1
  rw [ProxyNode.proxyRecorded, markerAt, htables]

theorem follows_append (h : Follows U log n) {e : Entry} (he : e.logId.index = log.length) : Follows U (log ++ [e]) n where
  indexed := indexed_append h.indexed he
  bound := by rw [List.length_append]; exact Nat.le_add_right_of_le h.bound
  swept := by rw [logState_longer (List.prefix_append _ _) h.bound]; exact h.swept
  published := h.published

theorem follows_apply (h : Follows U log n) {e : Entry} (he : log[n.replica.position]? = some e) (degraded : Bool) :
    Follows U log { n with replica := n.replica.step U (.entry degraded e) } := by
  have hpos : (n.replica.step U (.entry degraded e)).position = n.replica.position + 1 := by
    have happ : (n.replica.step U (.entry degraded e)).applied.lastAppliedLog = some e.logId := by
      rw [State.step, applyOne_applied]; rfl
    rw [State.position, happ]
    exact congrArg (· + 1) (h.indexed _ _ he)
  obtain ⟨hlt, -⟩ := List.getElem?_eq_some_iff.1 he
  refine ⟨h.indexed, ?_, ?_, fun a ha => ?_⟩
  · rw [hpos]; exact hlt
  · -- both sides apply the same entry, and a sweep before it is not seen
    simp only [hpos]
    rw [State.step, logState_succ he, ← (applyOne_sweep n.replica e false degraded).2, h.swept,
      (applyOne_sweep (logState U log n.replica.position) e false false).2]
  · rw [hpos]; exact Nat.lt_succ_of_lt (h.published a ha)

/-! ## Markers -/

/-- The entry at a position wrote the marker of a slot, with a response. -/
def WroteMarker (U : Upstream) (log : List Entry) (slot : ClaimSlot) (j : ℕ) (resp : RecordedResponse) : Prop :=
  ∃ e request stub, log[j]? = some e ∧ e.payload = .normal request ∧
    request.op = .proxyRecorded slot.1 slot.2 resp stub ∧ markerAt U log slot j = none ∧
    markerAt U log slot (j + 1) = some (U.recorded.write resp)

theorem WroteMarker.lt {j : ℕ} {resp : RecordedResponse} (h : WroteMarker U log slot j resp) : j < log.length := by
  obtain ⟨e, -, -, he, -⟩ := h
  exact (List.getElem?_eq_some_iff.1 he).1

theorem WroteMarker.append {log' : List Entry} (hlog : log <+: log') {j : ℕ} {resp : RecordedResponse}
    (h : WroteMarker U log slot j resp) : WroteMarker U log' slot j resp := by
  have hj := h.lt
  obtain ⟨e, request, stub, he, hp, hop, h0, h1⟩ := h
  refine ⟨e, request, stub, ?_, hp, hop, ?_, ?_⟩
  · obtain ⟨rest, rfl⟩ := hlog
    rw [List.getElem?_append_left hj]
    exact he
  · rw [markerAt_longer hlog (by omega)]; exact h0
  · rw [markerAt_longer hlog (by omega)]; exact h1

theorem marker_step {j : ℕ} (hj : j < log.length) (slot : ClaimSlot) :
    markerAt U log slot (j + 1) = markerAt U log slot j ∨ markerAt U log slot (j + 1) = none ∨
      ∃ resp, WroteMarker U log slot j resp := by
  obtain ⟨p, h⟩ := slot
  have he : log[j]? = some log[j] := List.getElem?_eq_getElem hj
  have hsucc : logState U log (j + 1) = (logState U log j).step U (.entry false log[j]) := logState_succ he
  rcases step_tables (U := U) (logState U log j) (.entry false log[j]) with ht | ⟨d, e, request, hev, hp, -, -, -, ht, -⟩
  · exact .inl (by rw [markerAt, hsucc, ht]; rfl)
  · cases hev
    have hm : markerAt U log (p, h) (j + 1) =
        (mutateTables U (logState U log j).tables request.op log[j].logId.index false).1.proxyRecorded[(p, h)]? := by
      rw [markerAt, hsucc, ht]
    rcases mutate_marker (stateOk_logState j).tables request.op log[j].logId.index false p h with
      hk | ⟨-, hk⟩ | ⟨resp, stub, hop, -, hnone, -, hk⟩
    · exact .inl (hm.trans hk)
    · exact .inr (.inl (hm.trans hk))
    · exact .inr (.inr ⟨resp, log[j], request, stub, he, hp, hop, hnone, hm.trans hk⟩)

/-- **A marker that is there was written by one entry, and has been there since.** -/
theorem marker_writer {n : ℕ} (hn : n ≤ log.length) {v : String} (hv : markerAt U log slot n = some v) :
    ∃ j resp, j < n ∧ v = U.recorded.write resp ∧ WroteMarker U log slot j resp ∧
      ∀ m, j < m → m ≤ n → markerAt U log slot m = some v := by
  obtain ⟨j, hj, hjn, hnot, hmade, hsince⟩ :=
    sAt_origin (fun s => s.tables.proxyRecorded[slot]? = some v) (by simp) (by rwa [List.length_map]) hv
  have hj' : j < log.length := by simpa using hj
  have hmade' : markerAt U log slot (j + 1) = some v := hsince (j + 1) (by omega) hjn
  rcases marker_step (U := U) hj' slot with h | h | ⟨resp, hw⟩
  · exact absurd (h.symm.trans hmade') hnot
  · rw [h] at hmade'
    cases hmade'
  · have hw' := hw
    obtain ⟨-, -, -, -, -, -, -, h1⟩ := hw'
    rw [hmade'] at h1
    exact ⟨j, resp, hjn, Option.some.inj h1, hw, hsince⟩

theorem marker_stays {r n : ℕ} (hr : (markerAt U log slot (r + 1)).isSome) (hrn : r < n)
    (hpurge : ∀ m, r < m → m < n → (markerAt U log slot m).isSome → (markerAt U log slot (m + 1)).isSome) :
    (markerAt U log slot n).isSome := by
  induction n, hrn using Nat.le_induction with
  | base => exact hr
  | succ n hrn ih => exact hpurge n hrn (by omega) (ih fun m h1 h2 => hpurge m h1 (by omega))

/-! ## Answers -/

/-- The row is what the entry at `j`, run under this op id, recorded of its answer. -/
def RecordedBy (U : Upstream) (log : List Entry) (opId row : String) (j : ℕ) : Prop :=
  ∃ (e : Entry) (request : ControlRequest) (expires : ℕ), log[j]? = some e ∧ e.payload = .normal request ∧
    request.opId = opId ∧ replayOf U ((logState U log j).receive e) request = none ∧
    row = U.dedup.write ⟨(applyOne U false (logState U log j) e).reply, expires⟩

theorem dedup_origin {n : ℕ} (hn : n ≤ log.length) {opId row : String}
    (hrow : (logState U log n).dedup[opId]? = some row) : ∃ j < n, RecordedBy U log opId row j := by
  obtain ⟨j, hj, d, e, request, ⟨hev, hp, hop, hr⟩, hwritten⟩ :=
    dedup_row_written (U := U) (by rwa [List.length_map]) hrow
  rw [List.getElem?_map, Option.map_eq_some_iff] at hev
  obtain ⟨e', he, hentry⟩ := hev
  cases hentry
  exact ⟨j, hj, e, request, _, he, hp, hop, hr, hwritten⟩

theorem run_marker {j : ℕ} {e : Entry} {request : ControlRequest} (he : log[j]? = some e)
    (hp : e.payload = .normal request) (hr : replayOf U ((logState U log j).receive e) request = none)
    {resp : RecordedResponse} {stub : Option RecordedStub}
    (hop : request.op = .proxyRecorded slot.1 slot.2 resp stub) (hm : merging stub = false)
    (happlied : (applyOne U false (logState U log j) e).reply.outcome = .applied) :
    (applyOne U false (logState U log j) e).reply.revision = e.logId.index ∧ (markerAt U log slot (j + 1)).isSome := by
  rcases entry_runs (U := U) (logState U log j) false e with ⟨-, -, hf⟩ | ⟨request', hp', -, -, -, ht, hreply, -⟩
  · obtain ⟨reason, hreason⟩ := hf request hp hr
    rw [hreason] at happlied
    cases happlied
  · rw [hp] at hp'
    cases hp'
    rw [hop] at ht hreply
    have hmarker : markerAt U log slot (j + 1) = (mutateTables U (logState U log j).tables
        (.proxyRecorded slot.1 slot.2 resp stub) e.logId.index false).1.proxyRecorded[slot]? := by
      rw [markerAt, logState_succ he, ht]
    rw [hmarker]
    rw [hreply] at happlied ⊢
    have hok : StateOk U (logState U log j) := stateOk_logState j
    rcases recording_cases hok.tables slot.1 slot.2 resp hm e.logId.index false with
      ⟨hsome, heq⟩ | ⟨reason, heq⟩ | ⟨-, hmark⟩
    · rw [heq]
      exact ⟨rfl, hsome⟩
    · rw [heq] at happlied
      cases happlied
    · refine ⟨?_, ?_⟩
      · cases hout : (mutateTables U (logState U log j).tables (.proxyRecorded slot.1 slot.2 resp stub) e.logId.index false).2 with
        | ok actions => rfl
        | error reason => rw [hout] at happlied; cases happlied
      · exact Option.isSome_iff_exists.2 ⟨_, hmark⟩

/-- **The answer `Applied` to a recording says where its marker is**, if no other request of
the log has its op id. -/
theorem applied_marker (hindexed : Indexed log) {n : ℕ} {e : Entry} {request : ControlRequest} {revision : ℕ}
    (he : log[n]? = some e) (hp : e.payload = .normal request)
    (hown : ∀ e' ∈ log, ∀ request', e'.payload = .normal request' → request'.opId = request.opId → request' = request)
    {resp : RecordedResponse} {stub : Option RecordedStub}
    (hop : request.op = .proxyRecorded slot.1 slot.2 resp stub) (hm : merging stub = false)
    (hreply : logReply U log n = some (.ofApplied revision)) :
    revision < log.length ∧ (markerAt U log slot (revision + 1)).isSome := by
  have hreply' : (applyOne U false (logState U log n) e).reply = .ofApplied revision := by
    rw [logReply, he] at hreply
    exact Option.some.inj hreply
  -- the answer is one that an entry with this request was given when it was run
  obtain ⟨j, e', hej, hp', hr', hans⟩ : ∃ j e', log[j]? = some e' ∧ e'.payload = .normal request ∧
      replayOf U ((logState U log j).receive e') request = none ∧
      (applyOne U false (logState U log j) e').reply = .ofApplied revision := by
    rcases applyOne_cases (U := U) false (logState U log n) e with ⟨hne, -⟩ | ⟨request', previous, hq, hr, heq⟩ | ⟨request', hq, hr, heq⟩
    · exact absurd hp (hne request)
    · rw [hp] at hq
      cases hq
      rw [replayOf_eq] at hr
      obtain ⟨row, hrow, hlive⟩ := Option.bind_eq_some_iff.1 hr
      obtain ⟨hn, -⟩ := List.getElem?_eq_some_iff.1 he
      obtain ⟨j, -, e', request', expires, hej, hp', hid, hr', hrow'⟩ :=
        dedup_origin (U := U) hn.le (hrow : (logState U log n).dedup[request.opId]? = some row)
      obtain rfl := hown e' (List.mem_of_getElem? hej) request' hp' hid
      refine ⟨j, e', hej, hp', hr', ?_⟩
      have hread : U.dedup.read row = .ok ⟨(applyOne U false (logState U log j) e').reply, expires⟩ := by
        rw [hrow', Upstream.dedup_read_write]
      rw [liveEntry, hread] at hlive
      obtain ⟨hprev, -⟩ := Option.filter_eq_some_iff.1 hlive
      cases hprev
      rw [heq] at hreply'
      exact hreply'
    · rw [hp] at hq
      cases hq
      exact ⟨n, e, he, hp, hr, hreply'⟩
  obtain ⟨hrev, hmarker⟩ := run_marker hej hp' hr' hop hm (by rw [hans]; rfl)
  rw [hans, hindexed j e' hej] at hrev
  obtain rfl : revision = j := hrev
  exact ⟨(List.getElem?_eq_some_iff.1 hej).1, hmarker⟩

end RiftCluster
