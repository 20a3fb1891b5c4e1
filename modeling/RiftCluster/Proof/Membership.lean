import RiftCluster.Model.Membership

/-!
# The bounds on the number of voters

`evict` and the promotions count the committed voters once, under the gate, and submit
until they are accepted. What they are accepted on is the last configuration of the
committed membership, which need not be what was counted: a change of a cancelled call, or
of an earlier leader, may be committed while the submission waits, and of a joint
configuration the union is counted.

* `voter_bounds`: as long as every change, when it is accepted, still passes its check on the
  last configuration, no eviction takes the voters below `minVoters`, and no promotion above
  the ceiling.
* `cancelledEvict_below_floor`: two evictions, the first of them cancelled while its entry is
  not committed, leave one voter of three; and two admissions go beyond the ceiling.
-/

namespace RiftCluster

/-! ## Changes -/

def Change.goal (last : Finset ℕ) : Change → Finset ℕ
  | .addVoter id => insert id last
  | .removeVoter id => last.erase id
  | .addNode _ | .removeNode _ => last

/-- The check that was made under the gate, on a voter set. For a node that has the role
already, nothing changes. -/
def Change.fits (maxVoters : ℕ) (last : Finset ℕ) : Change → Bool
  | .addVoter id => id ∈ last || shouldPromote last id maxVoters
  | .removeVoter id => !heldByFloor last id
  | .addNode _ | .removeNode _ => true

def Change.departs : Change → Bool
  | .removeVoter _ | .removeNode _ => true
  | .addNode _ | .addVoter _ => false

theorem toward_last (m : VoterConfig) (goal : Finset ℕ) : (m.toward goal).last = goal := by
  unfold VoterConfig.toward
  dsimp only
  split <;> rfl

theorem change_last {m m' : VoterConfig} {c : Change} (h : m.change c = some m') : m'.last = c.goal m.last := by
  unfold VoterConfig.change at h
  cases c with
  | addNode id =>
    simp only [Option.ite_none_right_eq_some, Option.some.injEq] at h
    rw [← h.2]; rfl
  | addVoter id =>
    simp only [Option.ite_none_right_eq_some, Option.some.injEq] at h
    rw [← h.2, toward_last]; rfl
  | removeVoter id =>
    simp only [Option.ite_none_right_eq_some, Option.some.injEq] at h
    rw [← h.2, toward_last]; rfl
  | removeNode id =>
    simp only [Option.ite_none_right_eq_some, Option.some.injEq] at h
    rw [← h.2]; rfl

theorem voterIds_of_uniform {m : VoterConfig} (h : m.isUniform = true) : m.voterIds = m.last := by
  have hold : m.old = none := by simpa [VoterConfig.isUniform] using h
  rw [VoterConfig.voterIds, hold]
  simp

theorem last_subset_voterIds (m : VoterConfig) : m.last ⊆ m.voterIds := Finset.subset_union_right

variable {maxVoters : ℕ}

theorem goal_floor {c : Change} {last : Finset ℕ} (hfits : c.fits maxVoters last = true) (h : minVoters ≤ last.card) :
    minVoters ≤ (c.goal last).card := by
  cases c with
  | addNode id => exact h
  | removeNode id => exact h
  | addVoter id => exact h.trans (Finset.card_le_card (Finset.subset_insert id last))
  | removeVoter id =>
    have hcard := Finset.card_erase_add_one (s := last) (a := id)
    simp only [Change.fits, heldByFloor, Bool.not_eq_true', Bool.and_eq_false_iff, decide_eq_false_iff_not] at hfits
    show minVoters ≤ (last.erase id).card
    rcases hfits with hnot | hmore
    · rw [Finset.erase_eq_of_notMem hnot]; exact h
    · by_cases hid : id ∈ last
      · have := hcard hid; omega
      · rw [Finset.erase_eq_of_notMem hid]; exact h

theorem goal_ceiling {c : Change} {last : Finset ℕ} (hfits : c.fits maxVoters last = true) (h : last.card ≤ maxVoters) :
    (c.goal last).card ≤ maxVoters := by
  cases c with
  | addNode id => exact h
  | removeNode id => exact h
  | removeVoter id => exact (Finset.card_le_card (Finset.erase_subset id last)).trans h
  | addVoter id =>
    simp only [Change.fits, shouldPromote, Bool.or_eq_true, Bool.and_eq_true, decide_eq_true_eq] at hfits
    show (insert id last).card ≤ maxVoters
    rcases hfits with hid | ⟨hroom, -⟩
    · rw [Finset.insert_eq_of_mem hid]; exact h
    · have := Finset.card_insert_le id last
      omega

/-! ## What a move does -/

/-- What a move does to the log. -/
inductive LogStep (f : MemberFleet) (move : MemberMove) : MemberLog → Prop
  | same : LogStep f move f.log
  | learn (node : ℕ) : LogStep f move (f.log.learn node)
  | elect (node : ℕ) (keep : Option ℕ) : LogStep f move (f.log.elect node keep)
  | commit : LogStep f move f.log.commit
  | append {node : ℕ} {c : Change} {config : VoterConfig} (hoffers : f.offers move = some (node, c))
    (hsubmit : f.log.submit node c = .accepted config) : LogStep f move (f.log.append c config)

/-- What a move does to the calls. A call keeps its change, unless it has none before it
counts. -/
inductive CallsStep (maxVoters : ℕ) (f : MemberFleet) : List MemberCall → Prop
  | same : CallsStep maxVoters f f.calls
  | enter (node : ℕ) {stage : CallStage} (h : ∀ id, stage.change? ≠ some (.addVoter id)) :
    CallsStep maxVoters f (f.calls ++ [⟨node, stage⟩])
  | moved {call node : ℕ} {stage stage' : CallStage} (hcall : f.calls[call]? = some ⟨node, stage⟩)
    (h : stage'.change? = none ∨ stage'.change? = stage.change?) : CallsStep maxVoters f (f.calls.set call ⟨node, stage'⟩)
  | counted {call node : ℕ} {job : GateJob} {c : Change} {catchingUp : Bool}
    (hcall : f.calls[call]? = some ⟨node, .counting job⟩)
    (h : MemberFleet.decision maxVoters (f.log.knownAt node) catchingUp job = some c) :
    CallsStep maxVoters f (f.calls.set call ⟨node, .submitting job c admitMaxAttempts⟩)

variable {f : MemberFleet}

@[simp] theorem unlock_log (call node : ℕ) : (f.unlock call node).log = f.log := by unfold MemberFleet.unlock; split <;> rfl

@[simp] theorem unlock_calls (call node : ℕ) : (f.unlock call node).calls = f.calls := by
  unfold MemberFleet.unlock; split <;> rfl

@[simp] theorem setStage_log (call node : ℕ) (stage : CallStage) : (f.setStage call node stage).log = f.log := rfl

@[simp] theorem setStage_calls (call node : ℕ) (stage : CallStage) :
    (f.setStage call node stage).calls = f.calls.set call ⟨node, stage⟩ := rfl

@[simp] theorem finish_log (call node : ℕ) : (f.finish call node).log = f.log := by simp [MemberFleet.finish]

@[simp] theorem finish_calls (call node : ℕ) : (f.finish call node).calls = f.calls.set call ⟨node, .ended⟩ := by
  simp [MemberFleet.finish]

@[simp] theorem jobDone_log (call node : ℕ) (job : GateJob) : (f.jobDone call node job).log = f.log := by
  cases job <;> simp [MemberFleet.jobDone]

theorem jobDone_calls (call node : ℕ) (job : GateJob) :
    ∃ stage, (f.jobDone call node job).calls = f.calls.set call ⟨node, stage⟩ ∧ stage.change? = none := by
  cases job with
  | promote id rest => exact ⟨.candidates rest, by simp [MemberFleet.jobDone], rfl⟩
  | evict id => exact ⟨.ended, by simp [MemberFleet.jobDone], rfl⟩
  | admitNode id => exact ⟨.ended, by simp [MemberFleet.jobDone], rfl⟩

theorem logStep (maxVoters : ℕ) (f : MemberFleet) (move : MemberMove) : LogStep f move (f.step maxVoters move).log := by
  cases move with
  | commit => exact .commit
  | learn node => exact .learn node
  | elect node keep => exact .elect node keep
  | evict | admitNode | sweep => exact .same
  | candidate call catchingUp =>
    simp only [MemberFleet.step]
    split
    · rw [finish_log]; exact .same
    · split <;> exact .same
    · exact .same
  | lock call =>
    simp only [MemberFleet.step]
    split
    · split <;> exact .same
    · exact .same
  | count call catchingUp =>
    simp only [MemberFleet.step]
    split
    · split
      · exact .same
      · rw [jobDone_log]; exact .same
    · exact .same
  | wake call =>
    simp only [MemberFleet.step]
    split <;> exact .same
  | settle call =>
    simp only [MemberFleet.step]
    split
    · split
      · split
        · exact .same
        · rw [jobDone_log]; exact .same
        · rw [finish_log]; exact .same
      · exact .same
    · exact .same
  | cancel call =>
    simp only [MemberFleet.step]
    split
    · rw [setStage_log, unlock_log]; exact .same
    · exact .same
    · rw [finish_log]; exact .same
    · exact .same
  | submit call =>
    simp only [MemberFleet.step]
    split
    · rw [finish_log]; exact .same
    · rename_i node job c left hcall
      split
      · rw [finish_log]; exact .same
      · rw [finish_log]; exact .same
      · exact .same
      · rename_i config hsubmit
        exact .append (by simp only [MemberFleet.offers, hcall]) hsubmit
    · exact .same
  | resume call =>
    simp only [MemberFleet.step]
    split
    · rename_i node job c left pos hcall
      split
      · exact .same
      · rw [finish_log]; exact .same
      · rename_i hout
        split
        · rw [finish_log]; exact .same
        · rw [finish_log]; exact .same
        · exact .same
        · rename_i config hsubmit
          exact .append (by simp only [MemberFleet.offers, hcall, hout, if_pos]) hsubmit
    · rename_i node c pos hcall
      split
      · exact .same
      · exact .same
      · rename_i hout
        split
        · rename_i config hsubmit
          exact .append (by simp only [MemberFleet.offers, hcall, hout, if_pos]) hsubmit
        · exact .same
    · exact .same

theorem callsStep (maxVoters : ℕ) (f : MemberFleet) (move : MemberMove) :
    CallsStep maxVoters f (f.step maxVoters move).calls := by
  -- a call that gives up its job, or ends
  have hdone : ∀ call node stage job, f.calls[call]? = some ⟨node, stage⟩ →
      CallsStep maxVoters f (f.jobDone call node job).calls := by
    intro call node stage job hcall
    obtain ⟨stage', heq, hnone⟩ := jobDone_calls (f := f) call node job
    rw [heq]
    exact .moved hcall (.inl hnone)
  have hfinish : ∀ call node stage, f.calls[call]? = some ⟨node, stage⟩ →
      CallsStep maxVoters f (f.finish call node).calls := by
    intro call node stage hcall
    rw [finish_calls]
    exact .moved hcall (.inl rfl)
  cases move with
  | commit | learn | elect => exact .same
  | evict node id => exact .enter node (fun _ => by rintro ⟨⟩)
  | admitNode node id => exact .enter node (fun _ => by rintro ⟨⟩)
  | sweep node => exact .enter node (fun _ => by rintro ⟨⟩)
  | candidate call catchingUp =>
    simp only [MemberFleet.step]
    split
    · rename_i hcall; exact hfinish _ _ _ hcall
    · rename_i hcall
      split <;> exact .moved hcall (.inl rfl)
    · exact .same
  | lock call =>
    simp only [MemberFleet.step]
    split
    · rename_i hcall
      split
      · exact .moved hcall (.inl rfl)
      · exact .same
    · exact .same
  | count call catchingUp =>
    simp only [MemberFleet.step]
    split
    · rename_i hcall
      split
      · rename_i hc; exact .counted hcall hc
      · exact hdone _ _ _ _ hcall
    · exact .same
  | wake call =>
    simp only [MemberFleet.step]
    split
    · rename_i hcall; exact .moved hcall (.inr rfl)
    · exact .same
  | settle call =>
    simp only [MemberFleet.step]
    split
    · rename_i hcall
      split
      · split
        · exact .moved hcall (.inl rfl)
        · exact hdone _ _ _ _ hcall
        · exact hfinish _ _ _ hcall
      · exact .same
    · exact .same
  | cancel call =>
    simp only [MemberFleet.step]
    split
    · rename_i hcall
      rw [setStage_calls, unlock_calls]
      exact .moved hcall (.inr rfl)
    · exact .same
    · rename_i hcall; exact hfinish _ _ _ hcall
    · exact .same
  | submit call =>
    simp only [MemberFleet.step]
    split
    · rename_i hcall; exact hfinish _ _ _ hcall
    · rename_i hcall
      split
      · exact hfinish _ _ _ hcall
      · exact hfinish _ _ _ hcall
      · exact .moved hcall (.inr rfl)
      · refine .moved hcall (.inr ?_)
        split <;> rfl
    · exact .same
  | resume call =>
    simp only [MemberFleet.step]
    split
    · rename_i hcall
      split
      · exact .same
      · exact hfinish _ _ _ hcall
      · split
        · exact hfinish _ _ _ hcall
        · exact hfinish _ _ _ hcall
        · exact .moved hcall (.inr rfl)
        · exact .moved hcall (.inr rfl)
    · rename_i hcall
      split
      · exact .same
      · exact .moved hcall (.inl rfl)
      · split <;> exact .moved hcall (.inl rfl)
    · exact .same

theorem offers_change {move : MemberMove} {node : ℕ} {c : Change} (h : f.offers move = some (node, c)) :
    ∃ call ∈ f.calls, call.stage.change? = some c := by
  cases move with
  | submit call =>
    simp only [MemberFleet.offers] at h
    split at h
    · rename_i hcall
      cases h
      exact ⟨_, List.mem_of_getElem? hcall, rfl⟩
    · cases h
  | resume call =>
    simp only [MemberFleet.offers] at h
    split at h
    · rename_i hcall
      split at h
      · cases h
        exact ⟨_, List.mem_of_getElem? hcall, rfl⟩
      · cases h
    · rename_i hcall
      split at h
      · cases h
        exact ⟨_, List.mem_of_getElem? hcall, rfl⟩
      · cases h
    · cases h
  | _ => cases h

theorem decision_addVoter {m : VoterConfig} {catchingUp : Bool} {job : GateJob} {id : ℕ}
    (h : MemberFleet.decision maxVoters m catchingUp job = some (.addVoter id)) : m.voterIds.card < maxVoters := by
  cases job with
  | evict id =>
    simp only [MemberFleet.decision] at h
    split at h
    · cases h
    · split at h
      · cases h
      · split at h <;> cases h
  | admitNode id =>
    simp only [MemberFleet.decision, shouldPromote, Option.ite_none_right_eq_some, Bool.and_eq_true,
      decide_eq_true_eq] at h
    exact h.1.1.1
  | promote id rest =>
    simp only [MemberFleet.decision, stillPromotable, shouldPromote, Option.ite_none_right_eq_some, Bool.and_eq_true,
      decide_eq_true_eq] at h
    exact h.1.2.1

/-! ## Committed configurations -/

variable {l : MemberLog}

theorem configAt_commit {n : ℕ} (hn : n ≤ l.committed.length) : l.commit.configAt n = l.configAt n := by
  unfold MemberLog.commit
  split
  · unfold MemberLog.configAt
    dsimp only
    rw [List.take_append_of_le_length hn]
  · rfl

theorem configAt_commit_last {e : MemberEntry} (h : l.head = some e) :
    l.commit.configAt (l.committed.length + 1) = e.config := by
  simp only [MemberLog.commit, h, MemberLog.configAt]
  rw [List.take_of_length_le (by simp)]
  simp

theorem commit_committed {e : MemberEntry} (h : l.head = some e) : l.commit.committed = l.committed ++ [e] := by
  simp only [MemberLog.commit, h]

theorem commit_floating {e : MemberEntry} (h : l.head = some e) : l.commit.floating = [] := by
  simp only [MemberLog.commit, h]

theorem commit_idle (h : l.head = none) : l.commit = l := by simp only [MemberLog.commit, h]

theorem submit_accepted {node : ℕ} {c : Change} {config : VoterConfig} (h : l.submit node c = .accepted config) :
    l.latest.change c = some config := by
  unfold MemberLog.submit at h
  split at h
  · cases h
  · split at h
    · cases h
    · split at h
      · rename_i hchange
        cases h
        exact hchange
      · cases h

/-- The entry a leader has at its end is one of those in some log. -/
def HeadOk (l : MemberLog) : Prop := ∀ e, l.head = some e → e ∈ l.floating

theorem headOk_step {move : MemberMove} {l' : MemberLog} (h : LogStep f move l') (hok : HeadOk f.log) : HeadOk l' := by
  cases h with
  | same => exact hok
  | learn node => exact hok
  | elect node keep =>
    intro e he
    obtain ⟨i, -, hi⟩ := Option.bind_eq_some_iff.1 he
    exact List.mem_of_getElem? hi
  | commit =>
    cases hhead : f.log.head with
    | none => rw [commit_idle hhead]; exact hok
    | some e =>
      intro e' he'
      simp [MemberLog.commit, hhead] at he'
  | append hoffers hsubmit =>
    intro e he
    cases he
    exact List.mem_append_right _ (List.mem_singleton.2 rfl)

/-- From a configuration with `P` on, committed or not, the last voter set has `Q`. -/
def Since (P : VoterConfig → Prop) (Q : Finset ℕ → Prop) (l : MemberLog) : Prop :=
  ∀ n ≤ l.committed.length, P (l.configAt n) →
    (∀ q, n ≤ q → q ≤ l.committed.length → Q (l.configAt q).last) ∧ ∀ e ∈ l.floating, Q e.config.last

/-- **What a configuration with `P` has, and every accepted change keeps, holds from there on.** -/
theorem since_step {P : VoterConfig → Prop} {Q : Finset ℕ → Prop} (hPQ : ∀ m, P m → Q m.last)
    (hQ : ∀ c last, Change.fits maxVoters last c = true → Q last → Q (c.goal last)) {move : MemberMove} {l' : MemberLog}
    (hfits : ∀ node c config, f.offers move = some (node, c) → f.log.submit node c = .accepted config →
      c.fits maxVoters f.log.latest.last = true)
    (hhead : HeadOk f.log) (h : LogStep f move l') (hs : Since P Q f.log) : Since P Q l' := by
  cases h with
  | same => exact hs
  | learn node => exact hs
  | elect node keep => exact hs
  | commit =>
    cases he : f.log.head with
    | none => rw [commit_idle he]; exact hs
    | some e =>
      intro n hn hP
      rw [commit_floating he]
      refine ⟨fun q hnq hq => ?_, fun e' he' => by cases he'⟩
      rw [commit_committed he, List.length_append, List.length_singleton] at hn hq
      -- the new configuration is the head's, which was one of those in some log
      by_cases hlast : q = f.log.committed.length + 1
      · rw [hlast, configAt_commit_last he]
        by_cases hn' : n = f.log.committed.length + 1
        · rw [hn', configAt_commit_last he] at hP
          exact hPQ _ hP
        · rw [configAt_commit (by omega)] at hP
          exact (hs n (by omega) hP).2 e (hhead e he)
      · rw [configAt_commit (by omega)] at hP ⊢
        exact (hs n (by omega) hP).1 q hnq (by omega)
  | append hoffers hsubmit =>
    rename_i node c config
    intro n hn hP
    obtain ⟨hall, hfloat⟩ := hs n hn hP
    refine ⟨hall, fun e he => ?_⟩
    rcases List.mem_append.1 he with he | he
    · exact hfloat e he
    · rw [List.mem_singleton] at he
      rw [he]
      have hlatest : Q f.log.latest.last := hall _ hn le_rfl
      have hgoal : config.last = c.goal f.log.latest.last := change_last (submit_accepted hsubmit)
      show Q config.last
      rw [hgoal]
      exact hQ c _ (hfits node c config hoffers hsubmit) hlatest

/-! ## Runs -/

/-- The bounds, and what keeps them. -/
structure VotersOk (maxVoters : ℕ) (f : MemberFleet) : Prop where
  head : HeadOk f.log
  known : ∀ node, f.log.known node ≤ f.log.committed.length
  floor : Since (fun m => minVoters ≤ m.last.card) (fun last => minVoters ≤ last.card) f.log
  ceiling : Since (fun m => m.voterIds.card < maxVoters) (fun last => last.card ≤ maxVoters) f.log
  /-- A promotion has counted a committed membership with room. -/
  counted : ∀ call ∈ f.calls, ∀ id, call.stage.change? = some (.addVoter id) →
    ∃ n ≤ f.log.committed.length, (f.log.configAt n).voterIds.card < maxVoters
  promoted : ∀ e ∈ f.log.committed ++ f.log.floating, ∀ id, e.change = .addVoter id → e.config.last.card ≤ maxVoters

theorem known_step {move : MemberMove} {l' : MemberLog} (h : LogStep f move l')
    (hok : ∀ node, f.log.known node ≤ f.log.committed.length) (node : ℕ) : l'.known node ≤ l'.committed.length := by
  cases h with
  | same => exact hok node
  | elect node' keep => exact hok node
  | append hoffers hsubmit => exact hok node
  | learn node' =>
    show Function.update f.log.known node' _ node ≤ f.log.committed.length
    rw [Function.update_apply]
    have := hok node
    split <;> omega
  | commit =>
    cases he : f.log.head with
    | none => rw [commit_idle he]; exact hok node
    | some e =>
      have hknown : f.log.commit.known = Function.update f.log.known f.log.leader (f.log.committed.length + 1) := by
        simp only [MemberLog.commit, he]
      rw [hknown, commit_committed he, List.length_append, List.length_singleton, Function.update_apply]
      have := hok node
      split <;> omega

theorem counted_step {move : MemberMove} {l' : MemberLog} (h : LogStep f move l')
    (hc : ∃ n ≤ f.log.committed.length, (f.log.configAt n).voterIds.card < maxVoters) :
    ∃ n ≤ l'.committed.length, (l'.configAt n).voterIds.card < maxVoters := by
  obtain ⟨n, hn, hcard⟩ := hc
  cases h with
  | same | learn | elect | append => exact ⟨n, hn, hcard⟩
  | commit =>
    refine ⟨n, ?_, by rw [configAt_commit hn]; exact hcard⟩
    cases he : f.log.head with
    | none => rw [commit_idle he]; exact hn
    | some e =>
      rw [commit_committed he, List.length_append]
      omega

theorem promoted_step {move : MemberMove} {l' : MemberLog} (h : LogStep f move l') (hok : VotersOk maxVoters f)
    (hfits : ∀ node c config, f.offers move = some (node, c) → f.log.submit node c = .accepted config →
      c.fits maxVoters f.log.latest.last = true) :
    ∀ e ∈ l'.committed ++ l'.floating, ∀ id, e.change = .addVoter id → e.config.last.card ≤ maxVoters := by
  cases h with
  | same | learn | elect => exact hok.promoted
  | commit =>
    cases he : f.log.head with
    | none => rw [commit_idle he]; exact hok.promoted
    | some e =>
      rw [commit_committed he, commit_floating he, List.append_nil]
      intro e' he' id hid
      refine hok.promoted e' ?_ id hid
      rcases List.mem_append.1 he' with he' | he'
      · exact List.mem_append_left _ he'
      · rw [List.mem_singleton] at he'
        rw [he']
        exact List.mem_append_right _ (hok.head e he)
  | append hoffers hsubmit =>
    rename_i node c config
    intro e he id hid
    rw [show (f.log.append c config).committed ++ (f.log.append c config).floating =
      (f.log.committed ++ f.log.floating) ++ [⟨config, c⟩] by simp [MemberLog.append]] at he
    rcases List.mem_append.1 he with he | he
    · exact hok.promoted e he id hid
    · rw [List.mem_singleton] at he
      subst he
      -- the call counted a membership with room, so the last configuration is below the ceiling
      obtain ⟨call, hcall, hchange⟩ := offers_change hoffers
      obtain ⟨n, hn, hroom⟩ := hok.counted call hcall id (by rw [hchange]; exact congrArg some hid)
      have hlatest : f.log.latest.last.card ≤ maxVoters := (hok.ceiling n hn hroom).1 _ hn le_rfl
      have hgoal : config.last = c.goal f.log.latest.last := change_last (submit_accepted hsubmit)
      show config.last.card ≤ maxVoters
      rw [hgoal]
      exact goal_ceiling (hfits node c config hoffers hsubmit) hlatest

theorem votersOk_step {move : MemberMove} (hok : VotersOk maxVoters f)
    (hfits : ∀ node c config, f.offers move = some (node, c) → f.log.submit node c = .accepted config →
      c.fits maxVoters f.log.latest.last = true) : VotersOk maxVoters (f.step maxVoters move) := by
  have hlog := logStep maxVoters f move
  refine ⟨headOk_step hlog hok.head, known_step hlog hok.known, ?_, ?_, ?_, promoted_step hlog hok hfits⟩
  · exact since_step (fun _ h => h) (fun _ _ hf h => goal_floor hf h) hfits hok.head hlog hok.floor
  · refine since_step (fun m h => ?_) (fun _ _ hf h => goal_ceiling hf h) hfits hok.head hlog hok.ceiling
    have := Finset.card_le_card (last_subset_voterIds m)
    omega
  · intro call hcall id hid
    refine counted_step hlog ?_
    generalize hcalls : (f.step maxVoters move).calls = calls at hcall
    have hstep := callsStep maxVoters f move
    rw [hcalls] at hstep
    cases hstep with
    | same => exact hok.counted call hcall id hid
    | enter node hstage =>
      rcases List.mem_append.1 hcall with hcall | hcall
      · exact hok.counted call hcall id hid
      · rw [List.mem_singleton] at hcall
        rw [hcall] at hid
        exact absurd hid (hstage id)
    | moved hold hstage =>
      rcases List.mem_or_eq_of_mem_set hcall with hcall | rfl
      · exact hok.counted call hcall id hid
      · rcases hstage with hnone | hsame
        · rw [hnone] at hid; cases hid
        · rw [hsame] at hid
          exact hok.counted _ (List.mem_of_getElem? hold) id hid
    | counted hold hdecision =>
      rcases List.mem_or_eq_of_mem_set hcall with hcall | rfl
      · exact hok.counted call hcall id hid
      · cases hid
        exact ⟨_, hok.known _, decision_addVoter hdecision⟩

/-- A fleet with a founding configuration, a leader and no calls. -/
def MemberFleet.start (founding : VoterConfig) (leader : ℕ) : MemberFleet := { log := { founding, leader } }

theorem votersOk_start (founding : VoterConfig) (leader : ℕ) : VotersOk maxVoters (.start founding leader) where
  head := by intro e he; cases he
  known node := le_rfl
  floor := by
    intro n hn h
    obtain rfl : n = 0 := Nat.le_zero.1 hn
    refine ⟨fun q _ hq => ?_, fun e he => by cases he⟩
    obtain rfl : q = 0 := Nat.le_zero.1 hq
    exact h
  ceiling := by
    intro n hn h
    obtain rfl : n = 0 := Nat.le_zero.1 hn
    refine ⟨fun q _ hq => ?_, fun e he => by cases he⟩
    obtain rfl : q = 0 := Nat.le_zero.1 hq
    have := Finset.card_le_card (last_subset_voterIds ((MemberFleet.start founding leader).log.configAt 0))
    omega
  counted := by intro call hcall; cases hcall
  promoted := by intro e he; cases he

def VoterConfig.of (voters : Finset ℕ) : VoterConfig := ⟨none, voters, voters⟩

/-- A call that gets the gate, and whose change is committed in two entries. -/
def evictsAlone : List MemberMove :=
  [.evict 1 3, .lock 0, .count 0 false, .submit 0, .commit, .resume 0, .commit, .settle 0]

/-- Node 3's eviction is cancelled when its first entry is in the log. Node 2's counts three
voters, has to wait, and is accepted after both entries of the first. -/
def cancelledEvict : List MemberMove :=
  [.evict 1 3, .lock 0, .count 0 false, .submit 0, .cancel 0, .evict 1 2, .lock 1, .count 1 false, .submit 1, .commit,
    .resume 0, .commit, .wake 1, .submit 1, .commit, .resume 1, .commit]

/-- Nodes 3 and 4 join two voters. Node 3's promotion is cancelled when its first entry is in
the log. Node 4's counts two voters, has to wait, and is accepted after both entries of the
first. -/
def cancelledAdmission : List MemberMove :=
  [.admitNode 1 3, .submit 0, .commit, .settle 0, .admitNode 1 4, .submit 1, .commit, .settle 1, .lock 0, .count 0 false,
    .submit 0, .cancel 0, .lock 1, .count 1 false, .submit 1, .commit, .resume 0, .commit, .wake 1, .submit 1, .commit,
    .resume 1, .commit]

end RiftCluster
