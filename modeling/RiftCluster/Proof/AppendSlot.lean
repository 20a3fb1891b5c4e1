import RiftCluster.Model.AppendSlot

/-!
# Attaching to a transfer is sound

* `entries_covered`: of two stretches of one log from the same base, one carries every entry of the
  other up to its own last one.
* `appendResult_returned`: what a call makes of the end of a transfer that fits it is right.
* `Returned`: what a call's answer says the follower has done.
* `ClientOk`, `clientOk_step`, `clientOk_run`: the slot names the transfer it holds, a waiting call
  fits its slot, and every answer returned so far is right.
-/

namespace RiftCluster

variable {V L P X : Type} [LinearOrder L]

/-- The requests build on the same entry under the same vote. -/
def SameBase (q rpc : AppendRequest V L P) : Prop := q.vote = rpc.vote ∧ q.prevLogId = rpc.prevLogId

/-- A leader never rewrites its own log within a term: of two requests on one base, one carries the
other's entries first. -/
def OneLog (requests : List (AppendRequest V L P)) : Prop :=
  ∀ q ∈ requests, ∀ rpc ∈ requests, SameBase q rpc → q.entries <+: rpc.entries ∨ rpc.entries <+: q.entries

/-! ## Stretches of one log -/

theorem lastLogId_append {q rpc : AppendRequest V L P} {rest : List (LogEntry L P)}
    (hsplit : q.entries ++ rest = rpc.entries) (hq : q.entries ≠ []) {e : LogEntry L P} (he : e ∈ rest) :
    q.lastLogId < e.logId := by
  have hasc := rpc.ascending
  rw [← hsplit, List.pairwise_append] at hasc
  have hlast := hasc.2.2 _ (List.getLast_mem hq) e he
  unfold AppendRequest.lastLogId
  rw [List.getLast?_eq_some_getLast hq]
  exact WithBot.coe_lt_coe.2 hlast

theorem le_lastLogId {rpc : AppendRequest V L P} {e : LogEntry L P} (he : e ∈ rpc.entries) :
    (e.logId : WithBot L) ≤ rpc.lastLogId := by
  have hne : rpc.entries ≠ [] := List.ne_nil_of_mem he
  unfold AppendRequest.lastLogId
  rw [List.getLast?_eq_some_getLast hne]
  have hasc := rpc.ascending
  rw [← List.dropLast_append_getLast hne] at he hasc
  rw [List.pairwise_append] at hasc
  rcases List.mem_append.1 he with hinit | hlast
  · exact WithBot.coe_le_coe.2 (hasc.2.2 e hinit _ (List.mem_singleton_self _)).le
  · rw [List.mem_singleton.1 hlast]

theorem entries_covered {q rpc : AppendRequest V L P} (hq : q.entries ≠ [])
    (hone : q.entries <+: rpc.entries ∨ rpc.entries <+: q.entries) :
    ∀ e ∈ rpc.entries, (e.logId : WithBot L) ≤ q.lastLogId → e ∈ q.entries := by
  intro e he hle
  rcases hone with ⟨rest, hsplit⟩ | hpre
  · rw [← hsplit] at he
    rcases List.mem_append.1 he with hin | hrest
    · exact hin
    · exact absurd hle (not_le.2 (lastLogId_append hsplit hq hrest))
  · exact hpre.subset he

/-! ## What an answer means -/

def Answered (c : PeerClient V L P X) (q : AppendRequest V L P) (response : AppendResponse V L) : Prop :=
  ∃ t ∈ c.transfers, t.request = q ∧ t.outcome = some (.answered (.ok response))

def Returned (c : PeerClient V L P X) (rpc : AppendRequest V L P) :
    Except (AppendError X) (AppendResponse V L) → Prop
  | .ok .success => ∃ q, Answered c q .success ∧ SameBase q rpc ∧ ∀ e ∈ rpc.entries, e ∈ q.entries
  | .ok (.partialSuccess through) =>
    -- put together here, or the follower's own
    (∃ q, Answered c q .success ∧ SameBase q rpc ∧
      ∀ e ∈ rpc.entries, (e.logId : WithBot L) ≤ through → e ∈ q.entries) ∨
    ∃ q, Answered c q (.partialSuccess through) ∧ SameBase q rpc
  | .ok .conflict => ∃ q, Answered c q .conflict ∧ SameBase q rpc
  | .ok (.higherVote vote) => ∃ q, Answered c q (.higherVote vote) ∧ SameBase q rpc
  | .error _ => True

def KeepsAnswers (c c' : PeerClient V L P X) : Prop :=
  ∀ q response, Answered c q response → Answered c' q response

theorem Returned.mono {c c' : PeerClient V L P X} (hk : KeepsAnswers c c') {rpc : AppendRequest V L P}
    {result : Except (AppendError X) (AppendResponse V L)} (h : Returned c rpc result) : Returned c' rpc result := by
  cases result with
  | error e => trivial
  | ok response =>
    cases response with
    | success =>
      obtain ⟨q, hq, hrest⟩ := h
      exact ⟨q, hk _ _ hq, hrest⟩
    | partialSuccess through =>
      rcases h with ⟨q, hq, hrest⟩ | ⟨q, hq, hrest⟩
      · exact Or.inl ⟨q, hk _ _ hq, hrest⟩
      · exact Or.inr ⟨q, hk _ _ hq, hrest⟩
    | conflict =>
      obtain ⟨q, hq, hrest⟩ := h
      exact ⟨q, hk _ _ hq, hrest⟩
    | higherVote vote =>
      obtain ⟨q, hq, hrest⟩ := h
      exact ⟨q, hk _ _ hq, hrest⟩

/-- **What a call makes of its transfer's end is right**, if the transfer's request fits it. -/
theorem appendResult_returned {c : PeerClient V L P X} {q rpc : AppendRequest V L P} {outcome : TransferEnd V L X}
    (hsent : ⟨q, some outcome⟩ ∈ c.transfers) (hbase : SameBase q rpc) (hq : q.entries ≠ [])
    (hone : q.entries <+: rpc.entries ∨ rpc.entries <+: q.entries) (hle : q.lastLogId ≤ rpc.lastLogId) :
    Returned c rpc (appendResult q.lastLogId rpc outcome) := by
  cases outcome with
  | failed => trivial
  | answered result =>
    cases result with
    | error e => trivial
    | ok response =>
      have hans : Answered c q response := ⟨_, hsent, rfl, rfl⟩
      cases response with
      | success =>
        have hcover := entries_covered hq hone
        by_cases hlast : q.lastLogId < rpc.lastLogId
        · simp only [appendResult, if_pos hlast]
          exact Or.inl ⟨q, hans, hbase, hcover⟩
        · have heq : q.lastLogId = rpc.lastLogId := le_antisymm hle (not_lt.1 hlast)
          simp only [appendResult, if_neg hlast]
          refine ⟨q, hans, hbase, ?_⟩
          intro e he
          exact hcover e he (heq ▸ le_lastLogId he)
      | partialSuccess through => exact Or.inr ⟨q, hans, hbase⟩
      | conflict => exact ⟨q, hans, hbase⟩
      | higherVote vote => exact ⟨q, hans, hbase⟩

/-! ## The run -/

/-- The slot names the transfer it holds, and the call under way fits it. -/
structure ClientOk (requests : List (AppendRequest V L P)) (c : PeerClient V L P X) : Prop where
  sent : ∀ t ∈ c.transfers, t.request ∈ requests
  slot : ∀ s, c.inflight = some s → ∃ t, c.transfers[s.handle]? = some t ∧ t.request.entries ≠ [] ∧
    s.vote = t.request.vote ∧ s.prevLogId = t.request.prevLogId ∧ s.lastLogId = t.request.lastLogId
  waiting : ∀ rpc, c.waiting = some rpc → rpc ∈ requests ∧ (rpc.entries ≠ [] → ∃ s, c.inflight = some s ∧
    s.vote = rpc.vote ∧ s.prevLogId = rpc.prevLogId ∧ s.lastLogId ≤ rpc.lastLogId)
  returned : ∀ rpc result, (rpc, result) ∈ c.returned → Returned c rpc result

variable {requests : List (AppendRequest V L P)} {c : PeerClient V L P X}

theorem keeps_append {c c' : PeerClient V L P X} {t : Transfer V L P X} (h : c'.transfers = c.transfers ++ [t]) :
    KeepsAnswers c c' := by
  rintro q response ⟨t', hmem, hreq, hout⟩
  exact ⟨t', h ▸ List.mem_append_left _ hmem, hreq, hout⟩

theorem keeps_same {c c' : PeerClient V L P X} (h : c'.transfers = c.transfers) : KeepsAnswers c c' := by
  rintro q response ⟨t', hmem, hreq, hout⟩
  exact ⟨t', h ▸ hmem, hreq, hout⟩

theorem ClientOk.returned_mono (h : ClientOk requests c) {c' : PeerClient V L P X} (hk : KeepsAnswers c c') :
    ∀ rpc result, (rpc, result) ∈ c.returned → Returned c' rpc result :=
  fun rpc result hmem => (h.returned rpc result hmem).mono hk

theorem returned_append {c c' : PeerClient V L P X} {rpc : AppendRequest V L P}
    {result : Except (AppendError X) (AppendResponse V L)} (h : ClientOk requests c) (hk : KeepsAnswers c c')
    (hnew : Returned c' rpc result) :
    ∀ rpc' result', (rpc', result') ∈ c.returned ++ [(rpc, result)] → Returned c' rpc' result' := by
  intro rpc' result' hmem
  rcases List.mem_append.1 hmem with hold | hlast
  · exact h.returned_mono hk rpc' result' hold
  · rw [List.mem_singleton] at hlast
    cases hlast
    exact hnew

theorem clientOk_call [DecidableEq V] (h : ClientOk requests c) (hidle : c.waiting = none) {rpc : AppendRequest V L P}
    (hrpc : rpc ∈ requests) (serializes : Bool) : ClientOk requests (c.call rpc serializes) := by
  unfold PeerClient.call
  by_cases hempty : rpc.entries.isEmpty = true
  · rw [if_pos hempty]
    refine ⟨h.sent, h.slot, ?_, h.returned_mono (keeps_same rfl)⟩
    intro rpc' hw
    cases hw
    exact ⟨hrpc, fun hne => absurd (List.isEmpty_iff.1 hempty) hne⟩
  · rw [if_neg hempty]
    have hne : rpc.entries ≠ [] := fun hnil => hempty (List.isEmpty_iff.2 hnil)
    by_cases hatt : c.inflight.any (·.attaches rpc) = true
    · -- the call waits for the transfer that is under way
      rw [if_pos hatt]
      refine ⟨h.sent, h.slot, ?_, h.returned_mono (keeps_same rfl)⟩
      intro rpc' hw
      cases hw
      cases hs : c.inflight with
      | none => simp [hs] at hatt
      | some s =>
        have hfit : (s.vote = rpc.vote ∧ s.prevLogId = rpc.prevLogId) ∧ s.lastLogId ≤ rpc.lastLogId := by
          simpa [hs, InflightAppend.attaches] using hatt
        exact ⟨hrpc, fun _ => ⟨s, rfl, hfit.1.1, hfit.1.2, hfit.2⟩⟩
    · rw [if_neg hatt]
      cases serializes with
      | false =>
        refine ⟨h.sent, fun s hs => (by cases hs), ?_, returned_append h (keeps_same rfl) trivial⟩
        intro rpc' hw
        have hw' : c.waiting = some rpc' := hw
        rw [hidle] at hw'
        cases hw'
      | true =>
        -- a transfer of its own, in the slot
        refine ⟨?_, ?_, ?_, h.returned_mono (keeps_append rfl)⟩
        · intro t ht
          rcases List.mem_append.1 ht with ht | ht
          · exact h.sent t ht
          · rw [List.mem_singleton.1 ht]
            exact hrpc
        · intro s hs
          cases hs
          exact ⟨⟨rpc, none⟩, by simp, hne, rfl, rfl, rfl⟩
        · intro rpc' hw
          cases hw
          exact ⟨hrpc, fun _ => ⟨_, rfl, rfl, rfl, le_rfl⟩⟩

theorem inline_returned {rpc : AppendRequest V L P} {result : Except X (AppendResponse V L)}
    (hsent : ⟨rpc, some (.answered result)⟩ ∈ c.transfers) : Returned c rpc (result.mapError .transfer) := by
  cases result with
  | error e => trivial
  | ok response =>
    have hans : Answered c rpc response := ⟨_, hsent, rfl, rfl⟩
    have hbase : SameBase rpc rpc := ⟨rfl, rfl⟩
    cases response with
    | success => exact ⟨rpc, hans, hbase, fun e he => he⟩
    | partialSuccess through => exact Or.inr ⟨rpc, hans, hbase⟩
    | conflict => exact ⟨rpc, hans, hbase⟩
    | higherVote vote => exact ⟨rpc, hans, hbase⟩

theorem clientOk_answer (h : ClientOk requests c) (result : Except X (AppendResponse V L)) :
    ClientOk requests (c.answer result) := by
  unfold PeerClient.answer
  cases hw : c.waiting with
  | none => exact h
  | some rpc =>
    simp only
    split
    · refine ⟨?_, ?_, fun rpc' hw' => (by cases hw'), ?_⟩
      · intro t ht
        rcases List.mem_append.1 ht with ht | ht
        · exact h.sent t ht
        · rw [List.mem_singleton.1 ht]
          exact (h.waiting rpc hw).1
      · intro s hs
        obtain ⟨t, ht, hrest⟩ := h.slot s hs
        exact ⟨t, List.getElem?_append_left (List.getElem?_eq_some_iff.1 ht).1 ▸ ht, hrest⟩
      · exact returned_append h (keeps_append rfl) (inline_returned (by simp))
    · exact h

theorem clientOk_join (hone : OneLog requests) (h : ClientOk requests c) : ClientOk requests c.join := by
  unfold PeerClient.join
  cases hw : c.waiting with
  | none => exact h
  | some rpc =>
    cases hs : c.inflight with
    | none => exact h
    | some slot =>
      simp only
      by_cases hempty : rpc.entries.isEmpty = true
      · rw [if_pos hempty]
        exact h
      · rw [if_neg hempty]
        cases hout : c.transfers[slot.handle]?.bind Transfer.outcome with
        | none => exact h
        | some outcome =>
          refine ⟨h.sent, fun s hs => (by cases hs), fun rpc' hw' => (by cases hw'), ?_⟩
          refine returned_append h (keeps_same rfl) ?_
          -- the slot's transfer is of a request on the same base that ends no later
          obtain ⟨hrpc, hfit⟩ := h.waiting rpc hw
          obtain ⟨slot', hslot', hvote, hprev, hle⟩ := hfit fun hnil => hempty (List.isEmpty_iff.2 hnil)
          rw [hs] at hslot'
          cases hslot'
          obtain ⟨t, ht, hne, hvote', hprev', hlast⟩ := h.slot slot hs
          obtain ⟨t', ht', hout'⟩ := Option.bind_eq_some_iff.1 hout
          rw [ht] at ht'
          cases ht'
          have hmem : t ∈ c.transfers := List.mem_of_getElem? ht
          have hbase : SameBase t.request rpc := ⟨hvote' ▸ hvote, hprev' ▸ hprev⟩
          have hsent : (⟨t.request, some outcome⟩ : Transfer V L P X) ∈ c.transfers := by
            rw [← hout']
            exact hmem
          rw [hlast] at hle ⊢
          exact appendResult_returned hsent hbase hne (hone _ (h.sent t hmem) _ hrpc hbase) hle

theorem settle_request (outcome : TransferEnd V L X) (t : Transfer V L P X) :
    (t.settle outcome).request = t.request := by
  unfold Transfer.settle
  split <;> rfl

theorem keeps_settle (c : PeerClient V L P X) (handle : ℕ) (outcome : TransferEnd V L X) :
    KeepsAnswers c { c with transfers := c.transfers.modify handle (Transfer.settle outcome) } := by
  rintro q response ⟨t, hmem, hreq, hout⟩
  obtain ⟨i, hi, rfl⟩ := List.getElem_of_mem hmem
  -- an outcome that is there is not replaced
  have hstays : (c.transfers[i]).settle outcome = c.transfers[i] := by
    unfold Transfer.settle
    rw [hout]
    rfl
  have hget : (c.transfers.modify handle (Transfer.settle outcome))[i]? = some c.transfers[i] := by
    rw [List.getElem?_modify, List.getElem?_eq_getElem hi]
    by_cases hh : handle = i
    · simp [hh, hstays]
    · simp [hh]
  exact ⟨c.transfers[i], List.mem_of_getElem? hget, hreq, hout⟩

theorem clientOk_settle (h : ClientOk requests c) (handle : ℕ) (outcome : TransferEnd V L X) :
    ClientOk requests { c with transfers := c.transfers.modify handle (Transfer.settle outcome) } := by
  refine ⟨?_, ?_, h.waiting, h.returned_mono (keeps_settle c handle outcome)⟩
  · intro t ht
    obtain ⟨i, hi⟩ := List.mem_iff_getElem?.1 ht
    rw [List.getElem?_modify] at hi
    obtain ⟨t', ht', rfl⟩ := Option.map_eq_some_iff.1 hi
    have hreq := h.sent t' (List.mem_of_getElem? ht')
    split
    · rwa [settle_request]
    · exact hreq
  · intro s hs
    obtain ⟨t, ht, hrest⟩ := h.slot s hs
    refine ⟨if handle = s.handle then t.settle outcome else t, ?_, ?_⟩
    · rw [List.getElem?_modify, ht]
      rfl
    · split
      · rwa [settle_request]
      · exact hrest

/-- **What a step keeps.** -/
theorem clientOk_step [DecidableEq V] (hone : OneLog requests) (h : ClientOk requests c) {m : ClientMove V L P X}
    (hm : ∀ rpc serializes, m = .call rpc serializes → rpc ∈ requests) : ClientOk requests (c.step m) := by
  cases m with
  | call rpc serializes =>
    simp only [PeerClient.step]
    cases hw : c.waiting with
    | some rpc' => exact h
    | none => exact clientOk_call h hw (hm rpc serializes rfl) serializes
  | drop => exact ⟨h.sent, h.slot, fun rpc hw => (by cases hw), h.returned_mono (keeps_same rfl)⟩
  | answer result => exact clientOk_answer h result
  | settle handle outcome => exact clientOk_settle h handle outcome
  | join => exact clientOk_join hone h

theorem clientOk_run [DecidableEq V] (moves : List (ClientMove V L P X)) (hone : OneLog (callsOf moves)) :
    ClientOk (callsOf moves) (PeerClient.run moves) := by
  refine List.foldlRecOn moves _ ?_ ?_
  · exact ⟨fun t ht => (by cases ht), fun s hs => (by cases hs), fun rpc hw => (by cases hw),
      fun rpc result hmem => (by cases hmem)⟩
  · intro c hc m hmem
    refine clientOk_step hone hc ?_
    rintro rpc serializes rfl
    exact List.mem_filterMap.2 ⟨_, hmem, rfl⟩

/-- **Attaching to a transfer is sound.** Let the requests of a run be stretches of one log. Then
whenever a call has returned a success, the follower has acknowledged a request on the same base
that carries every entry of the call's; a partial success that was put together here is for a
request that carries every entry up to where it says; and a conflict or a higher vote is the
follower's answer to a request on the same base. -/
theorem attach_sound [DecidableEq V] (moves : List (ClientMove V L P X)) (hone : OneLog (callsOf moves))
    (rpc : AppendRequest V L P) (result : Except (AppendError X) (AppendResponse V L))
    (hmem : (rpc, result) ∈ (PeerClient.run moves).returned) : Returned (PeerClient.run moves) rpc result :=
  (clientOk_run moves hone).returned rpc result hmem

/-- The first entry of a log, and the first two, on the same base. -/
def firstEntry : AppendRequest ℕ ℕ Unit := ⟨1, ⊥, [⟨1, ()⟩], by decide⟩

def firstTwo : AppendRequest ℕ ℕ Unit := ⟨1, ⊥, [⟨1, ()⟩, ⟨2, ()⟩], by decide⟩

/-- A call for one entry is dropped, and one for two attaches to what it left. -/
def droppedThenLonger : List (ClientMove ℕ ℕ Unit Unit) :=
  [.call firstEntry true, .drop, .call firstTwo true, .settle 0 (.answered (.ok .success)), .join]

theorem droppedThenLonger_acknowledged :
    OneLog (callsOf droppedThenLonger) ∧
      (PeerClient.run droppedThenLonger).returned = [(firstTwo, .ok (.partialSuccess 1))] ∧
      Returned (PeerClient.run droppedThenLonger) firstTwo (.ok (.partialSuccess 1)) := by
  have hone : OneLog (callsOf droppedThenLonger) := by
    have hall : ∀ q ∈ callsOf droppedThenLonger, q = firstEntry ∨ q = firstTwo := by simp [callsOf, droppedThenLonger]
    have hpre : firstEntry.entries <+: firstTwo.entries := ⟨[⟨2, ()⟩], rfl⟩
    intro q hq rpc hrpc _
    rcases hall q hq with rfl | rfl <;> rcases hall rpc hrpc with rfl | rfl
    · exact Or.inl List.prefix_rfl
    · exact Or.inl hpre
    · exact Or.inr hpre
    · exact Or.inl List.prefix_rfl
  have hrun : (PeerClient.run droppedThenLonger).returned = [(firstTwo, .ok (.partialSuccess 1))] := by rfl
  exact ⟨hone, hrun, attach_sound droppedThenLonger hone _ _ (by rw [hrun]; exact List.mem_singleton_self _)⟩

end RiftCluster
