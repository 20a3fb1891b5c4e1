import RiftCluster.Lib.KeyedFold
import RiftCluster.Model.WriteBarrier

/-!
# The write barrier accounts for every member

* `settle_confirmed`, `settle_notReady`, `settle_perm`: the verdict of one poll, whatever the order
  of the addresses.
* `slot_start`, `slot_round`: what the start and a round make of one member, from its own poll only.
* `MemberOk`, `memberOk_round`, `memberOk_at`: a member is pending and was never retired, or given
  up, or retired by an answer.
* `finish_unapplied`, `finish_unreachable`: who is named.
-/

namespace RiftCluster

open KV

variable {E : Type}

/-! ## One poll -/

def Confirms (revision : ℕ) (answer : Except E AppliedReply) : Prop :=
  ∃ reply, answer = .ok reply ∧ reply.ready ≠ some false ∧ ∃ a, reply.applied = some a ∧ revision ≤ a

def DeniesReady (answer : Except E AppliedReply) : Prop :=
  ∃ reply, answer = .ok reply ∧ reply.ready = some false

theorem poll_cases (revision : ℕ) (reply : AppliedReply) :
    (reply.ready = some false ∧ (reply.poll revision : BarrierPoll E) = .notReady) ∨
    (reply.ready ≠ some false ∧ (∃ a, reply.applied = some a ∧ revision ≤ a) ∧
      (reply.poll revision : BarrierPoll E) = .confirmed) ∨
    (reply.ready ≠ some false ∧ (¬∃ a, reply.applied = some a ∧ revision ≤ a) ∧
      (reply.poll revision : BarrierPoll E) = .behind) := by
  unfold AppliedReply.poll
  by_cases hready : reply.ready = some false
  · exact Or.inl ⟨hready, if_pos hready⟩
  · rw [if_neg hready]
    refine Or.inr ?_
    cases happlied : reply.applied with
    | none => exact Or.inr ⟨hready, by simp, rfl⟩
    | some a =>
      by_cases hle : revision ≤ a
      · exact Or.inl ⟨hready, ⟨a, rfl, hle⟩, by simp [hle]⟩
      · exact Or.inr ⟨hready, by simpa using hle, by simp [hle]⟩

theorem poll_confirmed {revision : ℕ} {reply : AppliedReply} :
    (reply.poll revision : BarrierPoll E) = .confirmed ↔
      reply.ready ≠ some false ∧ ∃ a, reply.applied = some a ∧ revision ≤ a := by
  rcases poll_cases (E := E) revision reply with ⟨hready, hpoll⟩ | ⟨hready, happlied, hpoll⟩ | ⟨hready, hbehind, hpoll⟩
  · simp [hpoll, hready]
  · exact iff_of_true hpoll ⟨hready, happlied⟩
  · exact iff_of_false (by simp [hpoll]) fun h => hbehind h.2

theorem poll_notReady {revision : ℕ} {reply : AppliedReply} :
    (reply.poll revision : BarrierPoll E) = .notReady ↔ reply.ready = some false := by
  rcases poll_cases (E := E) revision reply with ⟨hready, hpoll⟩ | ⟨hready, happlied, hpoll⟩ | ⟨hready, hbehind, hpoll⟩ <;>
    simp [hpoll, hready]

theorem poll_eq_of_rank {revision : ℕ} {reply reply' : AppliedReply}
    (h : (reply.poll revision : BarrierPoll E).rank = (reply'.poll revision : BarrierPoll E).rank) :
    (reply.poll revision : BarrierPoll E) = reply'.poll revision := by
  rcases poll_cases (E := E) revision reply with ⟨-, hpoll⟩ | ⟨-, -, hpoll⟩ | ⟨-, -, hpoll⟩ <;>
  rcases poll_cases (E := E) revision reply' with ⟨-, hpoll'⟩ | ⟨-, -, hpoll'⟩ | ⟨-, -, hpoll'⟩ <;>
    simp [hpoll, hpoll', BarrierPoll.rank] at h ⊢

section Fold

variable (isLivenessFailure : E → Bool) (revision : ℕ)

theorem answer_error_verdict (f : PollFold E) (e : E) :
    (f.answer isLivenessFailure revision (.error e)).verdict = f.verdict := by
  unfold PollFold.answer
  simp only
  split <;> rfl

theorem answer_ok_verdict (f : PollFold E) (reply : AppliedReply) :
    (f.answer isLivenessFailure revision (.ok reply)).verdict = some (reply.poll revision) ∨
      (f.answer isLivenessFailure revision (.ok reply)).verdict = f.verdict ∧
        ∃ v, f.verdict = some v ∧ (reply.poll revision : BarrierPoll E).rank ≤ v.rank := by
  unfold PollFold.answer
  simp only
  split
  · exact Or.inl rfl
  · rename_i hnot
    refine Or.inr ⟨rfl, ?_⟩
    cases hv : f.verdict with
    | none => simp [hv] at hnot
    | some v => exact ⟨v, rfl, by simpa [hv] using hnot⟩

theorem foldl_verdict_mono (answers : List (Except E AppliedReply)) :
    ∀ (f : PollFold E) (v : BarrierPoll E), f.verdict = some v →
      ∃ v', (answers.foldl (PollFold.answer isLivenessFailure revision) f).verdict = some v' ∧ v.rank ≤ v'.rank := by
  induction answers with
  | nil => intro f v hv; exact ⟨v, hv, le_rfl⟩
  | cons answer answers ih =>
    intro f v hv
    have hstep : ∃ v', (f.answer isLivenessFailure revision answer).verdict = some v' ∧ v.rank ≤ v'.rank := by
      cases answer with
      | error e => exact ⟨v, by rw [answer_error_verdict, hv], le_rfl⟩
      | ok reply =>
        by_cases hgt : v.rank < (reply.poll revision : BarrierPoll E).rank
        · exact ⟨_, by simp [PollFold.answer, hv, hgt], hgt.le⟩
        · exact ⟨v, by simp [PollFold.answer, hv, hgt], le_rfl⟩
    obtain ⟨v', hv', hle⟩ := hstep
    obtain ⟨v'', hv'', hle'⟩ := ih _ v' hv'
    exact ⟨v'', hv'', hle.trans hle'⟩

theorem foldl_verdict_best (answers : List (Except E AppliedReply)) (reply : AppliedReply) :
    ∀ f : PollFold E, Except.ok reply ∈ answers →
      ∃ v, (answers.foldl (PollFold.answer isLivenessFailure revision) f).verdict = some v ∧
        (reply.poll revision : BarrierPoll E).rank ≤ v.rank := by
  induction answers with
  | nil => intro f hmem; cases hmem
  | cons answer answers ih =>
    intro f hmem
    rcases List.mem_cons.1 hmem with rfl | hmem
    · have hstep : ∃ v, (f.answer isLivenessFailure revision (.ok reply)).verdict = some v ∧
          (reply.poll revision : BarrierPoll E).rank ≤ v.rank := by
        rcases answer_ok_verdict isLivenessFailure revision f reply with heq | ⟨heq, v, hv, hle⟩
        · exact ⟨_, heq, le_rfl⟩
        · exact ⟨v, by rw [heq, hv], hle⟩
      obtain ⟨v, hv, hle⟩ := hstep
      obtain ⟨v', hv', hle'⟩ := foldl_verdict_mono isLivenessFailure revision answers _ v hv
      exact ⟨v', hv', hle.trans hle'⟩
    · exact ih _ hmem

theorem foldl_verdict_source (answers : List (Except E AppliedReply)) :
    ∀ (f : PollFold E) (v : BarrierPoll E),
      (answers.foldl (PollFold.answer isLivenessFailure revision) f).verdict = some v →
      f.verdict = some v ∨ ∃ reply, Except.ok reply ∈ answers ∧ v = reply.poll revision := by
  induction answers with
  | nil => intro f v hv; exact Or.inl hv
  | cons answer answers ih =>
    intro f v hv
    rcases ih _ v hv with hfirst | ⟨reply, hmem, hpoll⟩
    · cases answer with
      | error e => exact Or.inl (by rwa [answer_error_verdict] at hfirst)
      | ok reply =>
        rcases answer_ok_verdict isLivenessFailure revision f reply with heq | ⟨heq, -⟩
        · rw [heq, Option.some.injEq] at hfirst
          exact Or.inr ⟨reply, List.mem_cons_self, hfirst.symm⟩
        · exact Or.inl (heq ▸ hfirst)
    · exact Or.inr ⟨reply, List.mem_cons_of_mem _ hmem, hpoll⟩

def failsAs (isLivenessFailure : E → Bool) (live : Bool) : Except E AppliedReply → Bool
  | .ok _ => false
  | .error e => isLivenessFailure e == live

theorem foldl_silent (answers : List (Except E AppliedReply)) :
    ∀ f : PollFold E, (answers.foldl (PollFold.answer isLivenessFailure revision) f).silent =
      (f.silent || answers.any (failsAs isLivenessFailure true)) := by
  induction answers with
  | nil => intro f; simp
  | cons answer answers ih =>
    intro f
    rw [List.foldl_cons, ih, List.any_cons, ← Bool.or_assoc]
    congr 1
    cases answer with
    | ok reply =>
      simp only [PollFold.answer, failsAs]
      split <;> simp
    | error e => cases hlive : isLivenessFailure e <;> simp [PollFold.answer, failsAs, hlive]

theorem foldl_refused (answers : List (Except E AppliedReply)) :
    ∀ f : PollFold E, (answers.foldl (PollFold.answer isLivenessFailure revision) f).refused.isSome =
      (f.refused.isSome || answers.any (failsAs isLivenessFailure false)) := by
  induction answers with
  | nil => intro f; simp
  | cons answer answers ih =>
    intro f
    rw [List.foldl_cons, ih, List.any_cons, ← Bool.or_assoc]
    congr 1
    cases answer with
    | ok reply =>
      simp only [PollFold.answer, failsAs]
      split <;> simp
    | error e => cases hlive : isLivenessFailure e <;> simp [PollFold.answer, failsAs, hlive]

/-- A verdict of the fold is what the poll settles on; without one, some address may be silent. -/
theorem settle_cases (answers : List (Except E AppliedReply)) :
    (∃ reply, Except.ok reply ∈ answers ∧
      settleBarrierPoll isLivenessFailure answers revision = reply.poll revision ∧
      ∀ reply', Except.ok reply' ∈ answers →
        (reply'.poll revision : BarrierPoll E).rank ≤ (reply.poll revision : BarrierPoll E).rank) ∨
    ((∀ reply, Except.ok reply ∉ answers) ∧
      if answers.any (failsAs isLivenessFailure false) && !answers.any (failsAs isLivenessFailure true) then
        ∃ e, settleBarrierPoll isLivenessFailure answers revision = .refused e
      else settleBarrierPoll isLivenessFailure answers revision = .silent) := by
  have hsilent := foldl_silent isLivenessFailure revision answers {}
  have hrefused := foldl_refused isLivenessFailure revision answers {}
  have hbest := fun reply => foldl_verdict_best isLivenessFailure revision answers reply {}
  have hsource := foldl_verdict_source isLivenessFailure revision answers {}
  unfold settleBarrierPoll
  generalize answers.foldl (PollFold.answer isLivenessFailure revision) {} = f at *
  simp only [Option.isSome_none, Bool.false_or] at hsilent hrefused
  cases hv : f.verdict with
  | some v =>
    rcases hsource v hv with hnone | ⟨reply, hmem, rfl⟩
    · cases hnone
    · refine Or.inl ⟨reply, hmem, by simp [hv], ?_⟩
      intro reply' hmem'
      obtain ⟨v', hv', hle⟩ := hbest reply' hmem'
      rw [hv] at hv'
      cases hv'
      exact hle
  | none =>
    refine Or.inr ⟨?_, ?_⟩
    · intro reply hmem
      obtain ⟨v', hv', -⟩ := hbest reply hmem
      rw [hv] at hv'
      cases hv'
    · rw [← hsilent, ← hrefused]
      cases hr : f.refused with
      | none => simp [hv, hr]
      | some e => cases hs : f.silent <;> simp [hv, hr, hs]

end Fold

section Settle

variable {isLivenessFailure : E → Bool} {revision : ℕ} {answers : List (Except E AppliedReply)}

theorem rank_confirmed {v : BarrierPoll E} (h : 2 ≤ v.rank) : v = .confirmed := by
  cases v <;> simp [BarrierPoll.rank] at h ⊢

theorem settle_unanswered (hnone : ∀ reply, Except.ok reply ∉ answers) :
    settleBarrierPoll isLivenessFailure answers revision ≠ .confirmed ∧
      settleBarrierPoll isLivenessFailure answers revision ≠ .notReady := by
  rcases settle_cases isLivenessFailure revision answers with ⟨reply, hmem, -, -⟩ | ⟨-, hrest⟩
  · exact absurd hmem (hnone reply)
  · split at hrest
    · obtain ⟨e, he⟩ := hrest
      rw [he]
      exact ⟨nofun, nofun⟩
    · rw [hrest]
      exact ⟨nofun, nofun⟩

/-- **A poll confirms exactly if some address confirms.** -/
theorem settle_confirmed : settleBarrierPoll isLivenessFailure answers revision = .confirmed ↔
    ∃ answer ∈ answers, Confirms revision answer := by
  rcases settle_cases isLivenessFailure revision answers with ⟨reply, hmem, heq, hbest⟩ | ⟨hnone, -⟩
  · rw [heq]
    constructor
    · intro hpoll
      exact ⟨_, hmem, reply, rfl, poll_confirmed.1 hpoll⟩
    · rintro ⟨_, hmem', reply', rfl, hconf⟩
      have hpoll' : (reply'.poll revision : BarrierPoll E) = .confirmed := poll_confirmed.2 hconf
      have hle := hbest reply' hmem'
      rw [hpoll'] at hle
      exact rank_confirmed hle
  · refine iff_of_false (settle_unanswered hnone).1 ?_
    rintro ⟨_, hmem, reply, rfl, -⟩
    exact hnone reply hmem

/-- **It says not Ready exactly if some address does and none confirms.** -/
theorem settle_notReady : settleBarrierPoll isLivenessFailure answers revision = .notReady ↔
    (∃ answer ∈ answers, DeniesReady answer) ∧ ¬∃ answer ∈ answers, Confirms revision answer := by
  rcases settle_cases isLivenessFailure revision answers with ⟨reply, hmem, heq, hbest⟩ | ⟨hnone, -⟩
  · have hconf : settleBarrierPoll isLivenessFailure answers revision = .confirmed ↔ _ := settle_confirmed
    rw [← hconf, heq]
    constructor
    · intro hpoll
      exact ⟨⟨_, hmem, reply, rfl, poll_notReady.1 hpoll⟩, by simp [hpoll]⟩
    · rintro ⟨⟨_, hmem', reply', rfl, hdeny⟩, hnot⟩
      have hpoll' : (reply'.poll revision : BarrierPoll E) = .notReady := poll_notReady.2 hdeny
      have hle := hbest reply' hmem'
      rw [hpoll'] at hle
      rcases poll_cases (E := E) revision reply with ⟨-, hpoll⟩ | ⟨-, -, hpoll⟩ | ⟨-, -, hpoll⟩
      · exact hpoll
      · exact absurd hpoll hnot
      · rw [hpoll] at hle
        cases hle
  · refine iff_of_false (settle_unanswered hnone).2 ?_
    rintro ⟨⟨_, hmem, reply, rfl, -⟩, -⟩
    exact hnone reply hmem

def BarrierPoll.kind : BarrierPoll E → BarrierPoll Unit
  | .confirmed => .confirmed
  | .notReady => .notReady
  | .behind => .behind
  | .silent => .silent
  | .refused _ => .refused ()

/-- **The verdict does not depend on the order of the addresses.** -/
theorem settle_perm {answers' : List (Except E AppliedReply)} (hperm : answers.Perm answers') :
    (settleBarrierPoll isLivenessFailure answers revision).kind =
      (settleBarrierPoll isLivenessFailure answers' revision).kind := by
  rcases settle_cases isLivenessFailure revision answers with ⟨reply, hmem, heq, hbest⟩ | ⟨hnone, hrest⟩ <;>
  rcases settle_cases isLivenessFailure revision answers' with ⟨reply', hmem', heq', hbest'⟩ | ⟨hnone', hrest'⟩
  · have hrank : (reply.poll revision : BarrierPoll E).rank = (reply'.poll revision : BarrierPoll E).rank :=
      le_antisymm (hbest' reply (hperm.mem_iff.1 hmem)) (hbest reply' (hperm.mem_iff.2 hmem'))
    rw [heq, heq', poll_eq_of_rank hrank]
  · exact absurd (hperm.mem_iff.1 hmem) (hnone' reply)
  · exact absurd (hperm.mem_iff.2 hmem') (hnone reply')
  · rw [hperm.any_eq, hperm.any_eq] at hrest
    split at hrest
    · rename_i hcond
      rw [if_pos hcond] at hrest'
      obtain ⟨e, he⟩ := hrest
      obtain ⟨e', he'⟩ := hrest'
      rw [he, he']
      rfl
    · rename_i hcond
      rw [if_neg hcond] at hrest'
      rw [hrest, hrest']

end Settle

/-! ## One member -/

/-- Where a member stands: its pending entry, and how often it is in `unreachable`. -/
def BarrierState.slot (s : BarrierState) (id : ℕ) : Option BarrierMember × ℕ :=
  (s.pending[id]?, s.unreachable.count id)

def fate (givenUp : Bool) (row : ℕ × BarrierPoll E) (slot : Option BarrierMember × ℕ) : Option BarrierMember × ℕ :=
  match row.2 with
  | .confirmed | .notReady => (none, slot.2)
  | .behind => (slot.1.map fun m => { m with answered := true }, slot.2)
  | .silent => if givenUp && slot.1.any (!·.answered) then (none, slot.2 + 1) else slot
  | .refused _ => (none, slot.2 + 1)

theorem settleMember_local (givenUp : Bool) :
    KeyedFold.Local BarrierState.slot (Barrier.settleMember (E := E) givenUp) (fate givenUp) := by
  intro s row k
  obtain ⟨id, poll⟩ := row
  by_cases hk : id = k
  · subst hk
    cases poll with
    | confirmed => simp [Barrier.settleMember, BarrierState.slot, fate]
    | notReady => simp [Barrier.settleMember, BarrierState.slot, fate]
    | behind => cases hm : s.pending[id]? <;> simp [Barrier.settleMember, BarrierState.slot, fate, hm]
    | silent =>
      simp only [Barrier.settleMember, fate, if_true]
      have hentry : (s.slot id).1 = s.pending[id]? := rfl
      rw [hentry]
      split
      · simp [BarrierState.slot]
      · rfl
    | refused e => simp [Barrier.settleMember, BarrierState.slot, fate]
  · rw [if_neg hk]
    cases poll with
    | confirmed => simp [Barrier.settleMember, BarrierState.slot, get_erase, hk]
    | notReady => simp [Barrier.settleMember, BarrierState.slot, get_erase, hk]
    | behind => cases hm : s.pending[id]? <;> simp [Barrier.settleMember, BarrierState.slot, get_insert, hm, hk]
    | silent =>
      simp only [Barrier.settleMember]
      split
      · simp [BarrierState.slot, get_erase, hk]
      · rfl
    | refused e => simp [Barrier.settleMember, BarrierState.slot, get_erase, hk]

variable {b : Barrier E}

def Barrier.enlisted (b : Barrier E) (row : ℕ × String) (slot : Option BarrierMember × ℕ) : Option BarrierMember × ℕ :=
  if row.1 = b.self then (some ⟨[], true⟩, slot.2)
  else
    match b.resolve row.2 with
    | some peers => (some ⟨peers, false⟩, slot.2)
    | none => (slot.1, slot.2 + 1)

theorem enlist_local (b : Barrier E) : KeyedFold.Local BarrierState.slot b.enlist b.enlisted := by
  intro s row k
  obtain ⟨id, addr⟩ := row
  unfold Barrier.enlist Barrier.enlisted
  by_cases hself : id = b.self
  · simp only [if_pos hself]
    by_cases hk : id = k <;> simp [BarrierState.slot, get_insert, hk]
  · simp only [if_neg hself]
    cases b.resolve addr <;> by_cases hk : id = k <;> simp [BarrierState.slot, get_insert, hk]

theorem slot_start {id : ℕ} {addr : String} (hid : b.members[id]? = some addr) :
    b.start.slot id = b.enlisted (id, addr) (none, 0) := by
  have := KeyedFold.foldl_row (enlist_local b) (nodup_toList_keys b.members) (mem_toList.2 hid) {}
  simpa [Barrier.start, BarrierState.slot] using this

theorem slot_start_other {id : ℕ} (hid : b.members[id]? = none) : b.start.slot id = (none, 0) := by
  have hnot : id ∉ b.members.toList.map Prod.fst := by
    rw [mem_toList_keys, hid]
    simp
  have := KeyedFold.foldl_other (enlist_local b) hnot {}
  simpa [Barrier.start, BarrierState.slot] using this

/-- **A round settles each pending member by its own poll**, and leaves the others. -/
theorem slot_round (b : Barrier E) (s : BarrierState) (r : BarrierRound E) (id : ℕ) :
    (b.round s r).slot id =
      match s.pending[id]? with
      | some m => fate (decide (barrierUnreachableAfter ≤ r.polledAt)) (id, b.pollApplied r id m.peers) (s.slot id)
      | none => s.slot id := by
  have hkeys : ((s.pending.toList.map fun m => (m.1, b.pollApplied r m.1 m.2.peers)).map Prod.fst) =
      s.pending.toList.map Prod.fst := by simp [List.map_map, Function.comp_def]
  unfold Barrier.round
  cases hm : s.pending[id]? with
  | some m =>
    have hrow : (id, b.pollApplied r id m.peers) ∈
        s.pending.toList.map fun m => (m.1, b.pollApplied r m.1 m.2.peers) :=
      List.mem_map.2 ⟨(id, m), mem_toList.2 hm, rfl⟩
    refine KeyedFold.foldl_row (settleMember_local _) ?_ hrow s
    rw [hkeys]
    exact nodup_toList_keys _
  | none =>
    refine KeyedFold.foldl_other (settleMember_local _) ?_ s
    rw [hkeys, mem_toList_keys, hm]
    simp

/-! ## The run -/

def Barrier.peersOf (b : Barrier E) (id : ℕ) : List String :=
  if id = b.self then [] else (b.members[id]?.bind b.resolve).getD []

/-- In the round the member confirms the write: the node itself by its own applied index, another
by one of its addresses. -/
def Barrier.AppliedIn (b : Barrier E) (r : BarrierRound E) (id : ℕ) : Prop :=
  if id = b.self then ∃ a, r.own = some a ∧ b.revision ≤ a
  else ∃ peer ∈ b.peersOf id, Confirms b.revision (r.reply id peer)

/-- In the round one of the member's addresses says not Ready. -/
def Barrier.NotReadyIn (b : Barrier E) (r : BarrierRound E) (id : ℕ) : Prop :=
  id ≠ b.self ∧ ∃ peer ∈ b.peersOf id, DeniesReady (r.reply id peer)

theorem pollApplied_confirmed (b : Barrier E) (r : BarrierRound E) (id : ℕ) :
    b.pollApplied r id (b.peersOf id) = .confirmed ↔ b.AppliedIn r id := by
  unfold Barrier.pollApplied Barrier.AppliedIn
  by_cases hself : id = b.self
  · simp only [if_pos hself]
    cases hown : r.own with
    | none => simp
    | some a => by_cases hle : b.revision ≤ a <;> simp [hle]
  · simp only [if_neg hself]
    rw [settle_confirmed]
    simp

theorem pollApplied_notReady (b : Barrier E) (r : BarrierRound E) (id : ℕ) :
    b.pollApplied r id (b.peersOf id) = .notReady ↔ b.NotReadyIn r id ∧ ¬b.AppliedIn r id := by
  rw [← pollApplied_confirmed]
  unfold Barrier.pollApplied Barrier.NotReadyIn
  by_cases hself : id = b.self
  · refine iff_of_false ?_ fun h => h.1.1 hself
    rw [if_pos hself]
    split <;> simp
  · simp only [if_neg hself]
    rw [settle_notReady, settle_confirmed]
    simp [hself]

theorem pollApplied_other {r : BarrierRound E} {id : ℕ} (hconf : b.pollApplied r id (b.peersOf id) ≠ .confirmed)
    (hdeny : b.pollApplied r id (b.peersOf id) ≠ .notReady) : ¬b.AppliedIn r id ∧ ¬b.NotReadyIn r id := by
  have happ : ¬b.AppliedIn r id := fun h => hconf ((pollApplied_confirmed b r id).2 h)
  exact ⟨happ, fun h => hdeny ((pollApplied_notReady b r id).2 ⟨h, happ⟩)⟩

def Barrier.Polled (b : Barrier E) (rs : List (BarrierRound E)) (k id : ℕ) : Prop :=
  (b.stateAt rs k).pending[id]?.isSome = true

/-- The member is retired in the `k`-th round by an answer. -/
def Barrier.Retired (b : Barrier E) (rs : List (BarrierRound E)) (k id : ℕ) : Prop :=
  ∃ r, rs[k]? = some r ∧ b.Polled rs k id ∧ (b.AppliedIn r id ∨ b.NotReadyIn r id)

/-- Where a member can stand before the `k`-th round. -/
inductive MemberOk (b : Barrier E) (rs : List (BarrierRound E)) (k id : ℕ) : Option BarrierMember × ℕ → Prop
  | pending (m : BarrierMember) (hpeers : m.peers = b.peersOf id) (hnever : ∀ j < k, ¬b.Retired rs j id) :
      MemberOk b rs k id (some m, 0)
  | unreachable (hnever : ∀ j < k, ¬b.Retired rs j id) : MemberOk b rs k id (none, 1)
  | retired (j : ℕ) (hj : j < k) (hret : b.Retired rs j id) : MemberOk b rs k id (none, 0)

variable {rs : List (BarrierRound E)} {k id : ℕ}

theorem memberOk_start {addr : String} (hid : b.members[id]? = some addr) :
    MemberOk b rs 0 id ((b.stateAt rs 0).slot id) := by
  have hnever : ∀ j < 0, ¬b.Retired rs j id := fun j hj => absurd hj (Nat.not_lt_zero j)
  rw [Barrier.stateAt, Trace.stateAt_zero, slot_start hid]
  unfold Barrier.enlisted
  by_cases hself : id = b.self
  · rw [if_pos hself]
    exact .pending _ (by simp [Barrier.peersOf, hself]) hnever
  · rw [if_neg hself]
    cases hres : b.resolve addr with
    | some peers => exact .pending _ (by simp [Barrier.peersOf, hself, hid, hres]) hnever
    | none => exact .unreachable hnever

theorem stateAt_succ_slot (hk : k < rs.length) (id : ℕ) :
    (b.stateAt rs (k + 1)).slot id = (b.round (b.stateAt rs k) rs[k]).slot id := by
  unfold Barrier.stateAt
  rw [Trace.stateAt_succ hk]

theorem never_succ (hk : k < rs.length) (hnever : ∀ j < k, ¬b.Retired rs j id)
    (hnow : b.Polled rs k id → ¬b.AppliedIn rs[k] id ∧ ¬b.NotReadyIn rs[k] id) :
    ∀ j < k + 1, ¬b.Retired rs j id := by
  intro j hj hret
  rcases Nat.lt_succ_iff_lt_or_eq.1 hj with hlt | rfl
  · exact hnever j hlt hret
  · obtain ⟨r, hr, hpolled, hans⟩ := hret
    rw [List.getElem?_eq_getElem hk, Option.some.injEq] at hr
    subst hr
    obtain ⟨happ, hnot⟩ := hnow hpolled
    rcases hans with hans | hans
    · exact happ hans
    · exact hnot hans

/-- **What a round keeps of every member.** -/
theorem memberOk_round (hk : k < rs.length) (h : MemberOk b rs k id ((b.stateAt rs k).slot id)) :
    MemberOk b rs (k + 1) id ((b.stateAt rs (k + 1)).slot id) := by
  rw [stateAt_succ_slot hk, slot_round]
  have hentry : (b.stateAt rs k).pending[id]? = ((b.stateAt rs k).slot id).1 := rfl
  rw [hentry]
  have hpolled : b.Polled rs k id ↔ ((b.stateAt rs k).slot id).1.isSome = true := Iff.rfl
  generalize (b.stateAt rs k).slot id = slot at h hpolled
  cases h with
  | unreachable hnever => exact .unreachable (never_succ hk hnever fun hp => by simp [hpolled] at hp)
  | retired j hj hret => exact .retired j (Nat.lt_succ_of_lt hj) hret
  | pending m hpeers hnever =>
    have hother := fun h1 h2 => never_succ hk hnever fun _ => pollApplied_other h1 h2
    have hwas : b.Polled rs k id := hpolled.2 rfl
    simp only [hpeers]
    -- the verdict decides; only an answer retires
    cases hpoll : b.pollApplied rs[k] id (b.peersOf id) with
    | confirmed =>
      have happ := (pollApplied_confirmed b rs[k] id).1 hpoll
      exact .retired k (Nat.lt_succ_self k) ⟨rs[k], List.getElem?_eq_getElem hk, hwas, Or.inl happ⟩
    | notReady =>
      have hnot := ((pollApplied_notReady b rs[k] id).1 hpoll).1
      exact .retired k (Nat.lt_succ_self k) ⟨rs[k], List.getElem?_eq_getElem hk, hwas, Or.inr hnot⟩
    | behind => exact .pending _ hpeers (hother (by simp [hpoll]) (by simp [hpoll]))
    | silent =>
      simp only [fate]
      split
      · exact .unreachable (hother (by simp [hpoll]) (by simp [hpoll]))
      · exact .pending m hpeers (hother (by simp [hpoll]) (by simp [hpoll]))
    | refused e => exact .unreachable (hother (by simp [hpoll]) (by simp [hpoll]))

theorem memberOk_at {addr : String} (hid : b.members[id]? = some addr) (hk : k ≤ rs.length) :
    MemberOk b rs k id ((b.stateAt rs k).slot id) := by
  induction k with
  | zero => exact memberOk_start hid
  | succ k ih => exact memberOk_round hk (ih (by omega))

theorem slot_other (hid : b.members[id]? = none) (hk : k ≤ rs.length) : (b.stateAt rs k).slot id = (none, 0) := by
  induction k with
  | zero => rw [Barrier.stateAt, Trace.stateAt_zero, slot_start_other hid]
  | succ k ih =>
    have hslot := ih (by omega)
    have hnone : (b.stateAt rs k).pending[id]? = none := congrArg Prod.fst hslot
    rw [stateAt_succ_slot hk, slot_round, hnone]
    exact hslot

theorem retired_once {addr : String} (hid : b.members[id]? = some addr) {i j : ℕ} (hi : b.Retired rs i id)
    (hj : b.Retired rs j id) : i = j := by
  have hafter : ∀ i j, i < j → b.Retired rs i id → ¬b.Retired rs j id := by
    rintro i j hij hi ⟨r, hr, hpolled, -⟩
    obtain ⟨hlt, -⟩ := List.getElem?_eq_some_iff.1 hr
    have hok := memberOk_at hid hlt.le
    have hentry : b.Polled rs j id ↔ ((b.stateAt rs j).slot id).1.isSome = true := Iff.rfl
    rw [hentry] at hpolled
    generalize (b.stateAt rs j).slot id = slot at hok hpolled
    cases hok with
    | pending m hpeers hnever => exact hnever i hij hi
    | unreachable hnever => exact hnever i hij hi
    | retired i' hi' hret => cases hpolled
  rcases Nat.lt_trichotomy i j with hlt | heq | hgt
  · exact absurd hj (hafter i j hlt hi)
  · exact heq
  · exact absurd hi (hafter j i hgt hj)

/-! ## Who is named -/

theorem finish_unapplied (s : BarrierState) (id : ℕ) :
    id ∈ (Barrier.finish s).unapplied ↔ ∃ m, s.pending[id]? = some m ∧ m.answered = true := by
  simp only [Barrier.finish, List.partition_eq_filter_filter, List.mem_map, List.mem_filter]
  constructor
  · rintro ⟨⟨i, m⟩, ⟨hmem, hans⟩, rfl⟩
    exact ⟨m, mem_toList.1 hmem, hans⟩
  · rintro ⟨m, hm, hans⟩
    exact ⟨(id, m), ⟨mem_toList.2 hm, hans⟩, rfl⟩

theorem finish_unreachable (s : BarrierState) (id : ℕ) :
    id ∈ (Barrier.finish s).unreachable ↔ 0 < (s.slot id).2 ∨ ∃ m, s.pending[id]? = some m ∧ m.answered = false := by
  simp only [Barrier.finish, List.partition_eq_filter_filter, List.mem_insertionSort, List.mem_append, List.mem_map,
    List.mem_filter, BarrierState.slot, List.count_pos_iff]
  refine or_congr Iff.rfl ?_
  constructor
  · rintro ⟨⟨i, m⟩, ⟨hmem, hans⟩, rfl⟩
    exact ⟨m, mem_toList.1 hmem, by simpa using hans⟩
  · rintro ⟨m, hm, hans⟩
    exact ⟨(id, m), ⟨mem_toList.2 hm, by simpa using hans⟩, rfl⟩

theorem keys_sorted {V : Type} (t : Table ℕ V) : (t.toList.map Prod.fst).Pairwise (· < ·) := by
  rw [List.pairwise_map]
  exact Std.ExtTreeMap.ordered_keys_toList.imp fun h => Nat.compare_eq_lt.1 h

theorem finish_sorted {s : BarrierState} (hone : ∀ id, (s.slot id).2 ≤ 1)
    (hfree : ∀ id, s.pending[id]?.isSome = true → (s.slot id).2 = 0) :
    (Barrier.finish s).unapplied.Pairwise (· < ·) ∧ (Barrier.finish s).unreachable.Pairwise (· < ·) := by
  constructor
  · have hsub : (Barrier.finish s).unapplied.Sublist (s.pending.toList.map Prod.fst) := by
      simp only [Barrier.finish, List.partition_eq_filter_filter]
      exact List.filter_sublist.map _
    exact (keys_sorted _).sublist hsub
  · have hsilent : ∀ id ∈ (s.pending.toList.filter fun m => !m.2.answered).map Prod.fst,
        s.pending[id]?.isSome = true := by
      intro id hmem
      exact mem_toList_keys.1 ((List.filter_sublist.map _).subset hmem)
    have hnd : (s.unreachable ++ (s.pending.toList.filter fun m => !m.2.answered).map Prod.fst).Nodup := by
      refine List.nodup_append.2 ⟨List.nodup_iff_count_le_one.2 hone, ?_, ?_⟩
      · exact (nodup_toList_keys _).sublist (List.filter_sublist.map _)
      · rintro id hgone id' hmem rfl
        have hzero := hfree id (hsilent id hmem)
        have hpos : 0 < s.unreachable.count id := List.count_pos_iff.2 hgone
        have hcount : s.unreachable.count id = 0 := hzero
        omega
    have hperm := List.perm_insertionSort (· ≤ ·)
      (s.unreachable ++ (s.pending.toList.filter fun m => !m.2.answered).map Prod.fst)
    have hle := List.pairwise_insertionSort (· ≤ ·)
      (s.unreachable ++ (s.pending.toList.filter fun m => !m.2.answered).map Prod.fst)
    simp only [Barrier.finish, List.partition_eq_filter_filter]
    exact (hle.and (hperm.nodup_iff.2 hnd)).imp fun h => lt_of_le_of_ne h.1 h.2

/-! ## The loop -/

theorem rounds_eq (b : Barrier E) (rs : List (BarrierRound E)) :
    ∀ s s', b.rounds s rs = some s' → ∃ n ≤ rs.length, s' = Trace.stateAt b.round s rs n := by
  induction rs with
  | nil => intro s s' h; cases h
  | cons r rest ih =>
    intro s s' h
    simp only [Barrier.rounds] at h
    split at h
    · cases h
      exact ⟨1, by simp, rfl⟩
    · obtain ⟨n, hn, rfl⟩ := ih _ _ h
      exact ⟨n + 1, by simpa using hn, rfl⟩

theorem rounds_end (b : Barrier E) {rs : List (BarrierRound E)} (hlate : ∃ r ∈ rs, b.timeout ≤ r.checkedAt) :
    ∀ s, (b.rounds s rs).isSome = true := by
  induction rs with
  | nil => obtain ⟨r, hmem, -⟩ := hlate; cases hmem
  | cons r rest ih =>
    intro s
    simp only [Barrier.rounds]
    split
    · rfl
    · rename_i hgo
      obtain ⟨r', hmem, hle⟩ := hlate
      rcases List.mem_cons.1 hmem with rfl | hmem
      · simp [hle] at hgo
      · exact ih ⟨r', hmem, hle⟩ _

/-- What a barrier can say of a member. -/
inductive BarrierClass where
  | confirmed
  | notReady
  | unapplied
  | unreachable
  deriving DecidableEq, Repr

/-- A member's class after `n` rounds, by the answers of the rounds it was polled in, or by the
outcome. An address that confirms counts before one that says not Ready. -/
def Barrier.InClass (b : Barrier E) (rs : List (BarrierRound E)) (n : ℕ) (o : BarrierOutcome) (id : ℕ) :
    BarrierClass → Prop
  | .confirmed => ∃ k < n, ∃ r, rs[k]? = some r ∧ b.Polled rs k id ∧ b.AppliedIn r id
  | .notReady => ∃ k < n, ∃ r, rs[k]? = some r ∧ b.Polled rs k id ∧ b.NotReadyIn r id ∧ ¬b.AppliedIn r id
  | .unapplied => id ∈ o.unapplied
  | .unreachable => id ∈ o.unreachable

variable {n : ℕ}

theorem retired_of_class {o : BarrierOutcome} {cls : BarrierClass} (hcls : cls = .confirmed ∨ cls = .notReady)
    (h : b.InClass rs n o id cls) : ∃ k < n, b.Retired rs k id := by
  rcases hcls with rfl | rfl
  · obtain ⟨k, hk, r, hr, hpolled, happ⟩ := h
    exact ⟨k, hk, r, hr, hpolled, Or.inl happ⟩
  · obtain ⟨k, hk, r, hr, hpolled, hnot, -⟩ := h
    exact ⟨k, hk, r, hr, hpolled, Or.inr hnot⟩

/-- **Every member is in exactly one class.** -/
theorem class_unique {addr : String} (hid : b.members[id]? = some addr) (hn : n ≤ rs.length) :
    ∃! cls, b.InClass rs n (Barrier.finish (b.stateAt rs n)) id cls := by
  have hok := memberOk_at hid hn
  have hunapplied := finish_unapplied (b.stateAt rs n) id
  have hunreachable := finish_unreachable (b.stateAt rs n) id
  have hentry : (b.stateAt rs n).pending[id]? = ((b.stateAt rs n).slot id).1 := rfl
  rw [hentry] at hunapplied hunreachable
  generalize (b.stateAt rs n).slot id = slot at hok hunapplied hunreachable
  have hnone : (∀ j < n, ¬b.Retired rs j id) → ∀ cls, b.InClass rs n (Barrier.finish (b.stateAt rs n)) id cls →
      cls = .unapplied ∨ cls = .unreachable := by
    intro hnever cls hcls
    cases cls with
    | confirmed =>
      obtain ⟨k, hk, hret⟩ := retired_of_class (Or.inl rfl) hcls
      exact absurd hret (hnever k hk)
    | notReady =>
      obtain ⟨k, hk, hret⟩ := retired_of_class (Or.inr rfl) hcls
      exact absurd hret (hnever k hk)
    | unapplied => exact Or.inl rfl
    | unreachable => exact Or.inr rfl
  cases hok with
  | pending m hpeers hnever =>
    cases hans : m.answered with
    | true =>
      refine ⟨.unapplied, hunapplied.2 ⟨m, rfl, hans⟩, ?_⟩
      intro cls hcls
      rcases hnone hnever cls hcls with rfl | rfl
      · rfl
      · rcases hunreachable.1 hcls with hpos | ⟨m', hm', hans'⟩
        · exact absurd hpos (lt_irrefl 0)
        · cases hm'
          rw [hans] at hans'
          cases hans'
    | false =>
      refine ⟨.unreachable, hunreachable.2 (Or.inr ⟨m, rfl, hans⟩), ?_⟩
      intro cls hcls
      rcases hnone hnever cls hcls with rfl | rfl
      · obtain ⟨m', hm', hans'⟩ := hunapplied.1 hcls
        cases hm'
        rw [hans] at hans'
        cases hans'
      · rfl
  | unreachable hnever =>
    refine ⟨.unreachable, hunreachable.2 (Or.inl Nat.one_pos), ?_⟩
    intro cls hcls
    rcases hnone hnever cls hcls with rfl | rfl
    · obtain ⟨m', hm', -⟩ := hunapplied.1 hcls
      cases hm'
    · rfl
  | retired j hj hret =>
    -- no other round retires it, so the answers of this one decide
    have honly : ∀ k r, rs[k]? = some r → b.Polled rs k id → b.AppliedIn r id ∨ b.NotReadyIn r id → k = j :=
      fun k r hr hpolled hans => retired_once hid ⟨r, hr, hpolled, hans⟩ hret
    obtain ⟨r, hr, hpolled, hans⟩ := hret
    have hlisted : ∀ cls, b.InClass rs n (Barrier.finish (b.stateAt rs n)) id cls → cls = .confirmed ∨ cls = .notReady := by
      intro cls hcls
      cases cls with
      | confirmed => exact Or.inl rfl
      | notReady => exact Or.inr rfl
      | unapplied =>
        obtain ⟨m', hm', -⟩ := hunapplied.1 hcls
        cases hm'
      | unreachable =>
        rcases hunreachable.1 hcls with hpos | ⟨m', hm', -⟩
        · exact absurd hpos (lt_irrefl 0)
        · cases hm'
    by_cases happ : b.AppliedIn r id
    · refine ⟨.confirmed, ⟨j, hj, r, hr, hpolled, happ⟩, ?_⟩
      intro cls hcls
      rcases hlisted cls hcls with rfl | rfl
      · rfl
      · obtain ⟨k, -, r', hr', hpolled', hnot, hnapp⟩ := hcls
        obtain rfl := honly k r' hr' hpolled' (Or.inr hnot)
        rw [hr] at hr'
        cases hr'
        exact absurd happ hnapp
    · have hnot : b.NotReadyIn r id := hans.resolve_left happ
      refine ⟨.notReady, ⟨j, hj, r, hr, hpolled, hnot, happ⟩, ?_⟩
      intro cls hcls
      rcases hlisted cls hcls with rfl | rfl
      · obtain ⟨k, -, r', hr', hpolled', happ'⟩ := hcls
        obtain rfl := honly k r' hr' hpolled' (Or.inl happ')
        rw [hr] at hr'
        cases hr'
        exact absurd happ' happ
      · rfl

theorem named_member (hn : n ≤ rs.length)
    (hnamed : id ∈ (Barrier.finish (b.stateAt rs n)).unapplied ∨ id ∈ (Barrier.finish (b.stateAt rs n)).unreachable) :
    ∃ addr, b.members[id]? = some addr := by
  cases hid : b.members[id]? with
  | some addr => exact ⟨addr, rfl⟩
  | none =>
    have hslot := slot_other hid hn
    have hnone : (b.stateAt rs n).pending[id]? = none := congrArg Prod.fst hslot
    rcases hnamed with hmem | hmem
    · obtain ⟨m, hm, -⟩ := (finish_unapplied _ _).1 hmem
      rw [hnone] at hm
      cases hm
    · rcases (finish_unreachable _ _).1 hmem with hpos | ⟨m, hm, -⟩
      · rw [hslot] at hpos
        exact absurd hpos (lt_irrefl 0)
      · rw [hnone] at hm
        cases hm

theorem slot_bounds (hn : n ≤ rs.length) (id : ℕ) :
    ((b.stateAt rs n).slot id).2 ≤ 1 ∧
      ((b.stateAt rs n).pending[id]?.isSome = true → ((b.stateAt rs n).slot id).2 = 0) := by
  have hentry : (b.stateAt rs n).pending[id]? = ((b.stateAt rs n).slot id).1 := rfl
  rw [hentry]
  cases hid : b.members[id]? with
  | none => simp [slot_other hid hn]
  | some addr =>
    have hok := memberOk_at hid hn
    generalize (b.stateAt rs n).slot id = slot at hok
    cases hok with
    | pending m hpeers hnever => exact ⟨Nat.zero_le 1, fun _ => rfl⟩
    | unreachable hnever => exact ⟨le_rfl, fun h => by cases h⟩
    | retired j hj hret => exact ⟨Nat.zero_le 1, fun _ => rfl⟩

theorem confirmed_iff {o : BarrierOutcome}
    (hclass : ∀ id addr, b.members[id]? = some addr → ∃! cls, b.InClass rs n o id cls)
    (hmember : ∀ id, id ∈ o.unapplied ∨ id ∈ o.unreachable → ∃ addr, b.members[id]? = some addr) :
    o.isConfirmed = true ↔ ∀ id addr, b.members[id]? = some addr →
      b.InClass rs n o id .confirmed ∨ b.InClass rs n o id .notReady := by
  simp only [BarrierOutcome.isConfirmed, Bool.and_eq_true, List.isEmpty_iff]
  constructor
  · rintro ⟨hun, hgone⟩ id addr hid
    obtain ⟨cls, hcls, -⟩ := hclass id addr hid
    cases cls with
    | confirmed => exact Or.inl hcls
    | notReady => exact Or.inr hcls
    | unapplied =>
      have hmem : id ∈ o.unapplied := hcls
      simp [hun] at hmem
    | unreachable =>
      have hmem : id ∈ o.unreachable := hcls
      simp [hgone] at hmem
  · intro hall
    have hapart : ∀ id cls, (cls = .unapplied ∨ cls = .unreachable) → (∃ addr, b.members[id]? = some addr) →
        ¬b.InClass rs n o id cls := by
      rintro id cls hcls ⟨addr, hid⟩ hin
      rcases hall id addr hid with hother | hother <;>
        have heq := (hclass id addr hid).unique hin hother <;> subst heq <;> simp at hcls
    constructor
    · refine List.eq_nil_iff_forall_not_mem.2 fun id hmem => ?_
      exact hapart id .unapplied (Or.inl rfl) (hmember id (Or.inl hmem)) hmem
    · refine List.eq_nil_iff_forall_not_mem.2 fun id hmem => ?_
      exact hapart id .unreachable (Or.inr rfl) (hmember id (Or.inr hmem)) hmem

/-- **The write barrier accounts for every member.** When it returns, after `n` rounds, every member
of the membership it captured is in exactly one class; nobody else is named; the two lists are
disjoint and sorted; and the outcome is confirmed exactly if every member confirmed the write or
said not Ready. It returns once a round is past the timeout. The verdict of one poll is the same in
every order of the addresses, but for the refusal it reports. -/
theorem write_barrier_accounts (b : Barrier E) :
    (∀ rs o, b.awaitApplied rs = some o → ∃ n ≤ rs.length, o = Barrier.finish (b.stateAt rs n) ∧
      (∀ id addr, b.members[id]? = some addr → ∃! cls, b.InClass rs n o id cls) ∧
      (∀ id, id ∈ o.unapplied ∨ id ∈ o.unreachable → ∃ addr, b.members[id]? = some addr) ∧
      o.unapplied.Disjoint o.unreachable ∧ o.unapplied.Pairwise (· < ·) ∧ o.unreachable.Pairwise (· < ·) ∧
      (o.isConfirmed = true ↔ ∀ id addr, b.members[id]? = some addr →
        b.InClass rs n o id .confirmed ∨ b.InClass rs n o id .notReady)) ∧
    (∀ rs : List (BarrierRound E), (∃ r ∈ rs, b.timeout ≤ r.checkedAt) → (b.awaitApplied rs).isSome = true) ∧
    (∀ answers answers' : List (Except E AppliedReply), answers.Perm answers' →
      (settleBarrierPoll b.isLivenessFailure answers b.revision).kind =
        (settleBarrierPoll b.isLivenessFailure answers' b.revision).kind) := by
  refine ⟨?_, ?_, fun _ _ hperm => settle_perm hperm⟩
  · intro rs o ho
    obtain ⟨s, hs, rfl⟩ := Option.map_eq_some_iff.1 ho
    obtain ⟨n, hn, rfl⟩ := rounds_eq b rs _ _ hs
    have hclass : ∀ id addr, b.members[id]? = some addr →
        ∃! cls, b.InClass rs n (Barrier.finish (b.stateAt rs n)) id cls := fun id addr hid => class_unique hid hn
    have hmember : ∀ id, id ∈ (Barrier.finish (b.stateAt rs n)).unapplied ∨
        id ∈ (Barrier.finish (b.stateAt rs n)).unreachable → ∃ addr, b.members[id]? = some addr :=
      fun id hnamed => named_member hn hnamed
    obtain ⟨hsorted, hsorted'⟩ := finish_sorted (fun id => (slot_bounds hn id).1) (fun id => (slot_bounds (b := b) hn id).2)
    refine ⟨n, hn, rfl, hclass, hmember, ?_, hsorted, hsorted', ?_⟩
    · intro id h1 h2
      obtain ⟨addr, hid⟩ := hmember id (Or.inl h1)
      have heq : BarrierClass.unapplied = .unreachable := (hclass id addr hid).unique h1 h2
      cases heq
    · exact confirmed_iff hclass hmember
  · intro rs hlate
    rw [Barrier.awaitApplied, Option.isSome_map]
    exact rounds_end b hlate _

/-- A fleet of two, where node 1 runs the barrier and node 2 has two addresses. -/
def twoMembers : Barrier Unit :=
  { isLivenessFailure := fun _ => true, self := 1, members := .ofList [(1, "a:7878"), (2, "b:7878")],
    resolve := fun _ => some ["10.0.0.2:7878", "[::2]:7878"], revision := 5, timeout := 100 }

/-- One address of node 2 confirms the write while the other says not Ready. -/
def splitAnswers : BarrierRound Unit :=
  { own := some 5,
    reply := fun _ peer => .ok (if peer = "10.0.0.2:7878" then ⟨some 5, some true⟩ else ⟨some 4, some false⟩),
    polledAt := 10, checkedAt := 11 }

/-- The barrier confirms. Node 1 has no address to answer from, and the addresses of node 2 gave
both of the answers that retire a member. -/
theorem twoMembers_split_confirmed :
    twoMembers.awaitApplied [splitAnswers] = some ⟨[], []⟩ ∧
    twoMembers.start.pending[1]? = some ⟨[], true⟩ ∧
    twoMembers.start.pending[2]? = some ⟨["10.0.0.2:7878", "[::2]:7878"], false⟩ ∧
    Confirms 5 (splitAnswers.reply 2 "10.0.0.2:7878") ∧ DeniesReady (splitAnswers.reply 2 "[::2]:7878") := by
  refine ⟨by decide +kernel, by decide +kernel, by decide +kernel, ?_, ?_⟩
  · exact ⟨⟨some 5, some true⟩, rfl, by decide, 5, rfl, le_rfl⟩
  · exact ⟨⟨some 4, some false⟩, rfl, rfl⟩

end RiftCluster
