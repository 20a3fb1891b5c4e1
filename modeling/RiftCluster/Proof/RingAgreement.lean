import RiftCluster.Model.RaftRing

/-!
# When two nodes have the same ring

A ring's `m_idx` is an index of the log, without the term. A deposed leader may have a
membership entry that is not committed at an index where the next leader has another.

* `ring_agrees`: rings with the same `m_idx` have the same members if their membership
  entries are of the same term, since a term and an index determine an entry.
* `twoLeaders_disagree`: the rings of two leaders, one of them deposed, with the same `m_idx`
  and different owners.
-/

namespace RiftCluster

open RaftLog

theorem get_of_effective {log : List (Slot EntryPayload)} {m : LogMembership} (h : effective log = some m) :
    log[m.index]? = some ⟨m.term, .membership m.membership⟩ := by
  obtain ⟨⟨slot, index⟩, hmem, hsome⟩ := List.exists_of_findSome?_eq_some h
  rw [List.mem_reverse, List.mem_zipIdx_iff_getElem?] at hmem
  obtain ⟨term, payload⟩ := slot
  cases payload with
  | blank => cases hsome
  | normal request => cases hsome
  | membership membership =>
    cases hsome
    exact hmem

/-- **The ring is a function of its membership's log id.** For any two nodes and any two moments
of a run: if their rings have the same `m_idx`, and the membership entries these are from have the
same term, then the rings have the same members, and so the same owner and successors for
every key. -/
theorem ring_agrees (moves : List (RaftLog.Move EntryPayload)) (j k : ℕ) (hj : j ≤ moves.length) (hk : k ≤ moves.length)
    (i i' : ℕ) (hindex : (ringAt moves j i).mIdx = (ringAt moves k i').mIdx)
    (hterm : (effective ((raftAt moves j).peers i).log).map (·.term) =
      (effective ((raftAt moves k).peers i').log).map (·.term)) :
    (ringAt moves j i).members = (ringAt moves k i').members ∧
      ∀ (score : ℕ → OwnedKey → ℕ) (key : OwnedKey),
        (ringAt moves j i).owner score key = (ringAt moves k i').owner score key ∧
        ∀ n, (ringAt moves j i).owners score key n = (ringAt moves k i').owners score key n := by
  suffices hsame : ringAt moves j i = ringAt moves k i' by
    rw [hsame]
    exact ⟨rfl, fun _ _ => ⟨rfl, fun _ => rfl⟩⟩
  unfold ringAt ringOf at hindex ⊢
  cases hm : effective ((raftAt moves j).peers i).log with
  | none =>
    cases hm' : effective ((raftAt moves k).peers i').log with
    | none => rfl
    | some m' => rw [hm, hm'] at hterm; cases hterm
  | some m =>
    cases hm' : effective ((raftAt moves k).peers i').log with
    | none => rw [hm, hm'] at hterm; cases hterm
    | some m' =>
      rw [hm, hm'] at hindex hterm
      have hidx : m.index = m'.index := hindex
      have ht : m.term = m'.term := Option.some.inj hterm
      -- both memberships are the entry at that index, of that term
      have he := get_of_effective hm
      have he' := get_of_effective hm'
      rw [hidx] at he
      have heq := slot_unique hj hk he he' ht
      have hmembership : m.membership = m'.membership := by
        injection heq with _ hpayload
        injection hpayload
      show Ring.new _ m.index = Ring.new _ m'.index
      rw [hmembership, hidx]

def memberEntry (configs : List (List ℕ)) (nodes : List ℕ) : EntryPayload := .membership ⟨configs, nodes.map (·, "")⟩

/-- Node 1 founds the fleet; nodes 2 and 3 join it as voters, and node 4 as a learner. -/
def formation : List (RaftLog.Move EntryPayload) :=
  [.found 1 (memberEntry [[1]] [1]), .elect 1 1 [1],
    .append 1 (memberEntry [[1]] [1, 2]), .replicate 1 2 0 3,
    .append 1 (memberEntry [[1], [1, 2]] [1, 2]), .replicate 1 2 3 1,
    .append 1 (memberEntry [[1, 2]] [1, 2]), .replicate 1 2 4 1,
    .append 1 (memberEntry [[1, 2]] [1, 2, 3]), .replicate 1 2 5 1, .replicate 1 3 0 6,
    .append 1 (memberEntry [[1, 2], [1, 2, 3]] [1, 2, 3]), .replicate 1 2 6 1, .replicate 1 3 6 1,
    .append 1 (memberEntry [[1, 2, 3]] [1, 2, 3]), .replicate 1 2 7 1, .replicate 1 3 7 1,
    .append 1 (memberEntry [[1, 2, 3]] [1, 2, 3, 4]), .replicate 1 2 8 1, .replicate 1 3 8 1]

/-- When all have the same entries, all have the same ring. -/
theorem formation_agrees :
    ringAt formation 20 1 = ⟨[1, 2, 3], 8⟩ ∧ (ringAt formation 18 1).members = (ringAt formation 20 3).members := by
  refine ⟨by decide +kernel, ?_⟩
  exact (ring_agrees formation 18 20 (by decide) (by decide) 1 3 (by decide +kernel) (by decide +kernel)).1

/-- The leader writes an entry, and begins to make node 4 a voter, without reaching anyone. Node 2
is elected by node 3 and admits node 5. -/
def twoLeaders : List (RaftLog.Move EntryPayload) :=
  formation ++
    [.append 1 (.normal { opId := "op-1", op := .deleteImposter 4545 }),
      .append 1 (memberEntry [[1, 2, 3], [1, 2, 3, 4]] [1, 2, 3, 4]), .elect 2 2 [2, 3],
      .append 2 (memberEntry [[1, 2, 3]] [1, 2, 3, 4, 5])]

/-- **Two rings with the same `m_idx` name different owners.** -/
theorem twoLeaders_disagree :
    ringAt twoLeaders 24 1 = ⟨[1, 2, 3, 4], 10⟩ ∧ ringAt twoLeaders 24 2 = ⟨[1, 2, 3], 10⟩ ∧
      (ringAt twoLeaders 24 1).owner (fun node _ => node) (.flow "f") = some 4 ∧
      (ringAt twoLeaders 24 2).owner (fun node _ => node) (.flow "f") = some 3 := by
  refine ⟨by decide +kernel, by decide +kernel, by decide +kernel, by decide +kernel⟩

end RiftCluster
