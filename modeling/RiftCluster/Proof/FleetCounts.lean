import RiftCluster.Model.FleetCounts
import RiftCluster.Proof.FlowScopes
import RiftCluster.Proof.Rendezvous

/-!
# Fleet counts are exact when complete

With one ring for the caller's `m_idx`, the shares of the members partition the flows: each
flow is counted at its owner (`sum_shares`). A peer is asked for every port as often as the
caller names it, and each of its slots is added, so a port that is named twice gets the peers'
entries twice (`mergePeerCounts_get`). Without a port, nobody is asked. These are the only ways
for a count that is not marked partial to be off (`fleet_counts_exact_iff`).
-/

namespace RiftCluster

open KV

open Spec (strip?)

variable {V : Type} {score : ℕ → OwnedKey → ℕ} {fleet : ℕ → CountsNode V} {me : ℕ} {ring : Ring} {ports : List Port}

/-! ## Entries -/

namespace CountsNode

def liveCount (node : CountsNode V) (f : String) : ℕ := (node.shard.memory[f]?.map fun flow => flow.liveCount node.now).getD 0

theorem entries_keys (node : CountsNode V) : (node.entriesByFlow.map Prod.fst).Nodup := by
  rw [entriesByFlow, List.map_map]
  exact nodup_toList_keys node.shard.memory

theorem mem_entries {node : CountsNode V} {f : String} {c : ℕ} :
    (f, c) ∈ node.entriesByFlow ↔ node.shard.memory[f]?.isSome = true ∧ c = node.liveCount f := by
  rw [entriesByFlow, List.mem_map, liveCount]
  constructor
  · rintro ⟨⟨f', flow⟩, hmem, heq⟩
    cases heq
    rw [mem_toList.1 hmem]
    exact ⟨rfl, rfl⟩
  · rintro ⟨hheld, rfl⟩
    obtain ⟨flow, hflow⟩ := Option.isSome_iff_exists.1 hheld
    exact ⟨(f, flow), mem_toList.2 hflow, by rw [hflow]; rfl⟩

end CountsNode

def share (score : ℕ → OwnedKey → ℕ) (fleet : ℕ → CountsNode V) (ring : Ring) (node : ℕ) (port : Port) : ℕ :=
  (((fleet node).entriesByFlow.filter fun e =>
    imposterPort e.1 = some port ∧ ring.owner score (.flow e.1) = some node).map Prod.snd).sum

theorem zeroCounts_get (ports : List Port) (port : Port) :
    (zeroCounts ports)[port]? = if port ∈ ports then some 0 else none := by
  have hfold : ∀ (ports : List Port) (counts : Table Port ℕ),
      (ports.foldl (fun counts port => counts.insert port 0) counts)[port]? =
        if port ∈ ports then some 0 else counts[port]? := by
    intro ports
    induction ports with
    | nil => intro counts; simp
    | cons p ports ih =>
      intro counts
      rw [List.foldl_cons, ih, get_insert]
      by_cases hmem : port ∈ ports
      · simp [hmem]
      · by_cases hp : p = port
        · simp [hp]
        · simp [hmem, hp, Ne.symm hp]
  rw [zeroCounts, hfold]
  simp

/-- **A node counts its share of each port it is asked for**, once. -/
theorem ownedCounts_get (node : ℕ) {port : Port} (hport : port ∈ ports) :
    (ownedCounts score fleet node ring ports)[port]? = some (share score fleet ring node port) := by
  obtain ⟨n, hn⟩ : ∃ n, n = 0 := ⟨0, rfl⟩
  have hzero : (zeroCounts ports)[port]? = some n := by rw [hn, zeroCounts_get, if_pos hport]
  have hshare : share score fleet ring node port = n + share score fleet ring node port := by rw [hn, Nat.zero_add]
  -- the induction is on the entries, and from any counts: zero is only where the fold starts
  rw [hshare, share, ownedCounts]
  clear hn hshare
  generalize (fleet node).entriesByFlow = entries
  generalize zeroCounts ports = counts at hzero
  induction entries generalizing counts n with
  | nil => simpa using hzero
  | cons e entries ih =>
    rw [List.foldl_cons]
    cases hfound : (imposterPort e.1).filter fun port => port ∈ ports with
    | none =>
      -- an entry of no port, or of one that is not asked for
      have hother : ¬ (imposterPort e.1 = some port ∧ ring.owner score (.flow e.1) = some node) := by
        rintro ⟨hthis, -⟩
        rw [hthis, Option.filter_some, if_pos (by simpa using hport)] at hfound
        cases hfound
      rw [List.filter_cons_of_neg (by simpa using hother)]
      exact ih n counts hzero
    | some port' =>
      obtain ⟨hport', -⟩ := Option.filter_eq_some_iff.1 hfound
      by_cases howner : ring.owner score (.flow e.1) = some node
      · simp only [howner, ne_eq, not_true_eq_false, if_false]
        by_cases heq : port' = port
        · subst heq
          rw [List.filter_cons_of_pos (by simp [hport', howner]), List.map_cons, List.sum_cons, ← Nat.add_assoc]
          exact ih _ _ (by rw [get_insert, if_pos rfl, hzero]; rfl)
        · rw [List.filter_cons_of_neg (by simp [hport', heq])]
          exact ih _ _ (by rw [get_insert, if_neg heq, hzero])
      · simp only [howner, ne_eq, not_false_eq_true, if_true]
        rw [List.filter_cons_of_neg (by simp [howner])]
        exact ih n counts hzero

/-! ## Merging -/

/-- **Every slot is added**, a port's own as often as it stands there. -/
theorem mergePeerCounts_get (slots : List (Port × ℕ)) {totals : Table Port ℕ} {port : Port} {n : ℕ}
    (h : totals[port]? = some (min n u64Max)) :
    (mergePeerCounts totals slots)[port]? =
      some (min (n + ((slots.filter fun slot => slot.1 = port).map Prod.snd).sum) u64Max) := by
  unfold mergePeerCounts
  induction slots generalizing totals n with
  | nil => simpa using h
  | cons slot slots ih =>
    rw [List.foldl_cons]
    by_cases hslot : slot.1 = port
    · rw [List.filter_cons_of_pos (by simpa using hslot), List.map_cons, List.sum_cons, ← Nat.add_assoc, hslot, h]
      refine ih ?_
      rw [get_insert, if_pos rfl, saturatingAdd]
      congr 1
      omega
    · rw [List.filter_cons_of_neg (by simpa using hslot)]
      refine ih ?_
      cases htotal : totals[slot.1]? with
      | none => exact h
      | some total => rw [get_insert, if_neg hslot, h]

theorem slots_sum (peer : ℕ) (port : Port) :
    (((ports.map fun p => (p, (ownedCounts score fleet peer ring ports)[p]?.getD 0)).filter fun slot =>
      slot.1 = port).map Prod.snd).sum = ports.count port * share score fleet ring peer port := by
  by_cases hport : port ∈ ports
  · rw [List.filter_map, List.map_map]
    have hconst : ∀ p ∈ ports.filter ((fun slot : Port × ℕ => decide (slot.1 = port)) ∘
          fun p => (p, (ownedCounts score fleet peer ring ports)[p]?.getD 0)),
        (Prod.snd ∘ fun p => (p, (ownedCounts score fleet peer ring ports)[p]?.getD 0)) p =
          share score fleet ring peer port := by
      intro p hp
      obtain rfl : p = port := by simpa using (List.mem_filter.1 hp).2
      simp only [Function.comp]
      rw [ownedCounts_get peer hport]
      rfl
    rw [List.map_congr_left hconst, List.map_const', List.sum_replicate, smul_eq_mul, List.count_eq_length_filter]
    congr 2
  · rw [List.count_eq_zero_of_not_mem hport, Nat.zero_mul]
    have hnone : (ports.map fun p => (p, (ownedCounts score fleet peer ring ports)[p]?.getD 0)).filter
        (fun slot => slot.1 = port) = [] := by
      rw [List.filter_eq_nil_iff]
      intro slot hslot heq
      obtain ⟨p, hp, rfl⟩ := List.mem_map.1 hslot
      rw [decide_eq_true_eq] at heq
      exact hport (heq ▸ hp)
    rw [hnone]
    rfl

/-! ## Replies -/

/-- A node that has the caller's `m_idx` has the caller's ring. -/
def RingsAgree (fleet : ℕ → CountsNode V) (ring : Ring) : Prop :=
  ∀ node ring', (fleet node).view = .ok ring' → ring'.mIdx = ring.mIdx → ring' = ring

/-- A task that ended with a reply under the caller's ring. -/
def Joined.Taken (fleet : ℕ → CountsNode V) (ring : Ring) (j : Joined) : Prop :=
  j = .replied j.peer ∧ (fleet j.peer).view = .ok ring

theorem view_nodup {node : CountsNode V} (h : node.view = .ok ring) : ring.members.Nodup := by
  unfold CountsNode.view at h
  cases hm : node.membership with
  | error e => rw [hm] at h; cases h
  | ok m =>
    rw [hm] at h
    change (if _ then _ else _) = _ at h
    split at h
    · cases h
    · cases h
      exact Ring.new_nodup m.1 m.2

theorem countsHandler_taken {peer : ℕ} (h : (fleet peer).view = .ok ring) :
    countsHandler score fleet peer ports ring.mIdx =
      .ok (ports.map fun port => (port, (ownedCounts score fleet peer ring ports)[port]?.getD 0)) := by
  rw [countsHandler, h]
  exact if_neg (by simp)

theorem countsHandler_refuses (hagree : RingsAgree fleet ring) {peer : ℕ} (h : (fleet peer).view ≠ .ok ring) :
    ∃ reason, countsHandler score fleet peer ports ring.mIdx = .error reason := by
  rw [countsHandler]
  cases hview : (fleet peer).view with
  | error reason => exact ⟨reason, rfl⟩
  | ok ring' =>
    refine ⟨_, if_pos fun heq => h ?_⟩
    rw [hview, hagree peer ring' hview heq.symm]

theorem spacesHandler_taken {peer : ℕ} (port : Port) (scope : String) (h : (fleet peer).view = .ok ring) :
    spacesHandler score fleet peer port scope ring.mIdx = .ok (spacesOf score fleet peer ring scope) := by
  rw [spacesHandler, h]
  exact if_neg (by simp)

theorem spacesHandler_refuses (hagree : RingsAgree fleet ring) {peer : ℕ} (port : Port) (scope : String)
    (h : (fleet peer).view ≠ .ok ring) :
    ∃ reason, spacesHandler score fleet peer port scope ring.mIdx = .error reason := by
  rw [spacesHandler]
  cases hview : (fleet peer).view with
  | error reason => exact ⟨reason, rfl⟩
  | ok ring' =>
    refine ⟨_, if_pos fun heq => h ?_⟩
    rw [hview, hagree peer ring' hview heq.symm]

namespace FleetTotals

variable {c : FleetTotals} {j : Joined} {joined : List Joined}

theorem join_taken (h : j.Taken fleet ring) : c.join score fleet ports ring.mIdx j =
    { c with
      totals := mergePeerCounts c.totals
        (ports.map fun port => (port, (ownedCounts score fleet j.peer ring ports)[port]?.getD 0))
      merged := c.merged ++ [j.peer] } := by
  rw [h.1, join, countsHandler_taken h.2]
  rfl

theorem join_not_taken (hagree : RingsAgree fleet ring) (h : ¬ j.Taken fleet ring) :
    (c.join score fleet ports ring.mIdx j).isPartial = true := by
  cases j with
  | replied peer =>
    obtain ⟨reason, hrefused⟩ : ∃ reason, countsHandler score fleet peer ports ring.mIdx = .error reason :=
      countsHandler_refuses hagree fun hview => h ⟨rfl, hview⟩
    rw [join, hrefused]
  | lost peer => rfl
  | panicked peer => rfl

theorem join_keeps_mark (h : c.isPartial = true) (mIdx : ℕ) (j : Joined) :
    (c.join score fleet ports mIdx j).isPartial = true := by
  cases j with
  | replied peer =>
    rw [join]
    cases countsHandler score fleet peer ports mIdx with
    | ok slots => exact h
    | error reason => rfl
  | lost peer => rfl
  | panicked peer => rfl

theorem joins_keep_partial (h : c.isPartial = true) (mIdx : ℕ) (joined : List Joined) :
    (joined.foldl (join score fleet ports mIdx) c).isPartial = true := by
  induction joined generalizing c with
  | nil => exact h
  | cons j joined ih => exact ih (join_keeps_mark h mIdx j)

theorem joins_partial (hagree : RingsAgree fleet ring) (h : ∃ j ∈ joined, ¬ j.Taken fleet ring) :
    (joined.foldl (join score fleet ports ring.mIdx) c).isPartial = true := by
  obtain ⟨j, hj, hnot⟩ := h
  obtain ⟨before, after, rfl⟩ := List.append_of_mem hj
  rw [List.foldl_append, List.foldl_cons]
  exact joins_keep_partial (join_not_taken hagree hnot) _ _

theorem joins_taken (score : ℕ → OwnedKey → ℕ) (ports : List Port) (hall : ∀ j ∈ joined, j.Taken fleet ring) :
    (joined.foldl (join score fleet ports ring.mIdx) c).isPartial = c.isPartial ∧
      (joined.foldl (join score fleet ports ring.mIdx) c).merged = c.merged ++ joined.map Joined.peer ∧
      ∀ port n, c.totals[port]? = some (min n u64Max) →
        (joined.foldl (join score fleet ports ring.mIdx) c).totals[port]? =
          some (min (n + ports.count port * (joined.map fun j => share score fleet ring j.peer port).sum) u64Max) := by
  induction joined generalizing c with
  | nil => exact ⟨rfl, (List.append_nil _).symm, fun port n h => by simpa using h⟩
  | cons j joined ih =>
    have htaken := hall j List.mem_cons_self
    obtain ⟨hmarked, hmerged, htotals⟩ := ih (c := c.join score fleet ports ring.mIdx j)
      fun j' hj' => hall j' (List.mem_cons_of_mem _ hj')
    rw [join_taken htaken] at hmarked hmerged htotals
    rw [List.foldl_cons, join_taken htaken]
    refine ⟨hmarked, ?_, fun port n hn => ?_⟩
    · rw [hmerged, List.map_cons, List.append_assoc]
      rfl
    · have hnext := htotals port _ (mergePeerCounts_get _ hn)
      rw [slots_sum] at hnext
      rw [hnext, List.map_cons, List.sum_cons, Nat.mul_add, ← Nat.add_assoc]

end FleetTotals

/-! ## The shares of the members -/

def ownerCount (score : ℕ → OwnedKey → ℕ) (fleet : ℕ → CountsNode V) (ring : Ring) (f : String) : ℕ :=
  (ring.owner score (.flow f)).elim 0 fun owner => (fleet owner).liveCount f

/-- The entries of a port: over all its flows, what the owner has. -/
def portCount (score : ℕ → OwnedKey → ℕ) (fleet : ℕ → CountsNode V) (ring : Ring) (flows : Finset String) (port : Port) :
    ℕ :=
  ∑ f ∈ flows with imposterPort f = some port, ownerCount score fleet ring f

theorem owner_mem {key : OwnedKey} {node : ℕ} (h : ring.owner score key = some node) : node ∈ ring.members :=
  List.argmax_mem h

theorem share_eq_sum {flows : Finset String} {node : ℕ}
    (hflows : ∀ f : String, (fleet node).shard.memory[f]?.isSome = true → f ∈ flows) (port : Port) :
    share score fleet ring node port =
      ∑ f ∈ flows with imposterPort f = some port,
        if ring.owner score (.flow f) = some node then (fleet node).liveCount f else 0 := by
  classical
  set entries := (fleet node).entriesByFlow.filter fun e =>
    imposterPort e.1 = some port ∧ ring.owner score (.flow e.1) = some node with hentries
  have hmem : ∀ e ∈ entries, (fleet node).shard.memory[e.1]?.isSome = true ∧ e.2 = (fleet node).liveCount e.1 ∧
      imposterPort e.1 = some port ∧ ring.owner score (.flow e.1) = some node := by
    intro e he
    obtain ⟨hin, hboth⟩ := List.mem_filter.1 he
    have hboth' := of_decide_eq_true hboth
    obtain ⟨hheld, hcount⟩ := CountsNode.mem_entries.1 hin
    exact ⟨hheld, hcount, hboth'⟩
  have hnodup : (entries.map Prod.fst).Nodup :=
    (CountsNode.entries_keys (fleet node)).sublist ((List.filter_sublist).map Prod.fst)
  have hvalues : entries.map Prod.snd = (entries.map Prod.fst).map (fleet node).liveCount := by
    rw [List.map_map]
    exact List.map_congr_left fun e he => (hmem e he).2.1
  rw [share, ← hentries, hvalues, ← List.sum_toFinset _ hnodup, ← Finset.sum_filter]
  refine Finset.sum_subset (fun f hf => ?_) fun f hf hnot => ?_
  · obtain ⟨e, he, rfl⟩ := List.mem_map.1 (List.mem_toFinset.1 hf)
    obtain ⟨hheld, -, hport, howner⟩ := hmem e he
    exact Finset.mem_filter.2 ⟨Finset.mem_filter.2 ⟨hflows _ hheld, hport⟩, howner⟩
  · -- a flow that is owned and not among the entries is not held
    obtain ⟨hf, howner⟩ := Finset.mem_filter.1 hf
    have hport := (Finset.mem_filter.1 hf).2
    by_contra hcount
    have hheld : (fleet node).shard.memory[f]?.isSome = true := by
      cases hflow : (fleet node).shard.memory[f]? with
      | none => exact absurd (by rw [CountsNode.liveCount, hflow]; rfl) hcount
      | some flow => rfl
    refine hnot (List.mem_toFinset.2 (List.mem_map.2 ⟨(f, (fleet node).liveCount f), ?_, rfl⟩))
    exact List.mem_filter.2 ⟨CountsNode.mem_entries.2 ⟨hheld, rfl⟩, by simp [hport, howner]⟩

/-- **Each flow is in the share of one member**: its owner. -/
theorem sum_shares {flows : Finset String} (hnodup : ring.members.Nodup)
    (hflows : ∀ node ∈ ring.members, ∀ f : String, (fleet node).shard.memory[f]?.isSome = true → f ∈ flows)
    (port : Port) :
    (ring.members.map fun node => share score fleet ring node port).sum = portCount score fleet ring flows port := by
  classical
  rw [← List.sum_toFinset _ hnodup, Finset.sum_congr rfl fun node hnode =>
    share_eq_sum (hflows node (List.mem_toFinset.1 hnode)) port, Finset.sum_comm, portCount]
  refine Finset.sum_congr rfl fun f _ => ?_
  cases howner : ring.owner score (.flow f) with
  | none => simp [ownerCount, howner]
  | some owner =>
    have hmem : owner ∈ ring.members.toFinset := List.mem_toFinset.2 (owner_mem howner)
    rw [ownerCount, howner, Option.elim_some, Finset.sum_eq_single owner]
    · rw [if_pos rfl]
    · intro node _ hne
      exact if_neg fun heq => hne (Option.some.inj heq).symm
    · exact fun hnot => absurd hmem hnot

theorem share_add_peers (hnodup : ring.members.Nodup) (port : Port) :
    share score fleet ring me port + ((ring.peersOf me).map fun node => share score fleet ring node port).sum =
      (ring.members.map fun node => share score fleet ring node port).sum := by
  by_cases hme : me ∈ ring.members
  · have hperm : ring.members.Perm (me :: ring.peersOf me) := by
      have herase : ring.peersOf me = ring.members.erase me := by
        rw [Ring.peersOf, hnodup.erase_eq_filter]
        apply List.filter_congr
        intro x _
        by_cases hx : x = me <;> simp [hx]
      rw [herase]
      exact List.perm_cons_erase hme
    rw [(hperm.map _).sum_eq, List.map_cons, List.sum_cons]
  · -- who is no member owns nothing
    have hnone : share score fleet ring me port = 0 := by
      have hempty : (fleet me).entriesByFlow.filter (fun e =>
          imposterPort e.1 = some port ∧ ring.owner score (.flow e.1) = some me) = [] := by
        rw [List.filter_eq_nil_iff]
        intro e _ hboth
        exact hme (owner_mem (of_decide_eq_true hboth).2)
      rw [share, hempty]
      rfl
    have hall : ring.peersOf me = ring.members :=
      List.filter_eq_self.2 fun id hid => decide_eq_true fun heq => hme (heq ▸ hid)
    rw [hnone, Nat.zero_add, hall]

/-! ## Counts -/

/-- Every peer replied in time, under the caller's ring. -/
def Complete (fleet : ℕ → CountsNode V) (ring : Ring) {peers : List ℕ} (fan : FanOut peers) : Prop :=
  fan.drained = true ∧ ∀ j ∈ fan.joined, j.Taken fleet ring

theorem Complete.perm {peers : List ℕ} {fan : FanOut peers} (h : Complete fleet ring fan) (hnodup : peers.Nodup) :
    (fan.joined.map Joined.peer).Perm peers := by
  refine (List.perm_ext_iff_of_nodup fan.once hnodup).2 fun peer => ⟨fun hmem => ?_, fan.all h.1 peer⟩
  obtain ⟨j, hj, rfl⟩ := List.mem_map.1 hmem
  exact fan.asked j hj

/-- What a count of the fleet is to be: if it is not partial, every peer has answered under the
caller's `m_idx`, and a port's total is the number of its entries. -/
def CountsExact (score : ℕ → OwnedKey → ℕ) (fleet : ℕ → CountsNode V) (me : ℕ) (flows : Finset String)
    (ports : List Port) (counted : FleetTotals) : Prop :=
  counted.isPartial = false → ∃ ring, (fleet me).view = .ok ring ∧
    (∀ peer ∈ ring.peersOf me, peer ∈ counted.merged ∧
      ∃ ring', (fleet peer).view = .ok ring' ∧ ring'.mIdx = ring.mIdx) ∧
    ∀ port ∈ ports, counted.totals[port]? = some (portCount score fleet ring flows port)

def PeersHoldNone (score : ℕ → OwnedKey → ℕ) (fleet : ℕ → CountsNode V) (ring : Ring) (me : ℕ) (port : Port) : Prop :=
  ∀ peer ∈ ring.peersOf me, share score fleet ring peer port = 0

section Calls

variable {fan : ∀ peers, FanOut peers} {flows : Finset String}

theorem fleetEntryCounts_empty : fleetEntryCounts score fleet me fan [] = { totals := ∅ } := rfl

theorem fleetEntryCounts_alone (hports : ports ≠ []) (hview : (fleet me).view = .ok ring) (hpeers : ring.peersOf me = []) :
    fleetEntryCounts score fleet me fan ports = { totals := ownedCounts score fleet me ring ports } := by
  rw [fleetEntryCounts, if_neg (by simpa using hports), hview]
  simp only [hpeers, List.isEmpty_nil, if_true]

theorem fleetEntryCounts_asks (hports : ports ≠ []) (hview : (fleet me).view = .ok ring) (hpeers : ring.peersOf me ≠ []) :
    fleetEntryCounts score fleet me fan ports =
      if (fan (ring.peersOf me)).drained then
        (fan (ring.peersOf me)).joined.foldl (FleetTotals.join score fleet ports ring.mIdx)
          { totals := ownedCounts score fleet me ring ports }
      else
        { (fan (ring.peersOf me)).joined.foldl (FleetTotals.join score fleet ports ring.mIdx)
            { totals := ownedCounts score fleet me ring ports } with isPartial := true } := by
  rw [fleetEntryCounts, if_neg (by simpa using hports), hview]
  simp only [List.isEmpty_iff, hpeers, if_false]

theorem incomplete_marked (hagree : RingsAgree fleet ring) (hports : ports ≠ [])
    (hview : (fleet me).view = .ok ring) (hpeers : ring.peersOf me ≠ [])
    (h : ¬ Complete fleet ring (fan (ring.peersOf me))) :
    (fleetEntryCounts score fleet me fan ports).isPartial = true := by
  rw [fleetEntryCounts_asks hports hview hpeers]
  split
  · rename_i hdrained
    refine FleetTotals.joins_partial hagree ?_
    by_contra hnone
    push Not at hnone
    exact h ⟨hdrained, hnone⟩
  · rfl

/-- **The totals of a complete call**: the caller's share once, and the peers' once for each
time the port is named. -/
theorem complete_counts (hports : ports ≠ []) (hview : (fleet me).view = .ok ring) (hpeers : ring.peersOf me ≠ [])
    (h : Complete fleet ring (fan (ring.peersOf me))) (hown : ∀ port, share score fleet ring me port ≤ u64Max) :
    (fleetEntryCounts score fleet me fan ports).isPartial = false ∧
      (∀ peer ∈ ring.peersOf me, peer ∈ (fleetEntryCounts score fleet me fan ports).merged) ∧
      ∀ port ∈ ports, (fleetEntryCounts score fleet me fan ports).totals[port]? =
        some (min (share score fleet ring me port + ports.count port *
          ((ring.peersOf me).map fun node => share score fleet ring node port).sum) u64Max) := by
  have hperm := h.perm ((view_nodup hview).filter _)
  rw [fleetEntryCounts_asks hports hview hpeers, if_pos h.1]
  have hjoins := FleetTotals.joins_taken score ports (c := { totals := ownedCounts score fleet me ring ports }) h.2
  obtain ⟨hmarked, hmerged, htotals⟩ := hjoins
  refine ⟨hmarked, fun peer hpeer => ?_, fun port hport => ?_⟩
  · rw [hmerged, List.nil_append]
    exact hperm.mem_iff.2 hpeer
  · have hstart : (ownedCounts score fleet me ring ports)[port]? =
        some (min (share score fleet ring me port) u64Max) := by
      rw [ownedCounts_get me hport, min_eq_left (hown port)]
    rw [htotals port _ hstart]
    have hsum : ((fan (ring.peersOf me)).joined.map fun j => share score fleet ring j.peer port).sum =
        ((ring.peersOf me).map fun node => share score fleet ring node port).sum := by
      rw [← (hperm.map _).sum_eq, List.map_map]
      rfl
    rw [hsum]

def TotalsFit (score : ℕ → OwnedKey → ℕ) (fleet : ℕ → CountsNode V) (ring : Ring) (flows : Finset String) : Prop :=
  ∀ port, portCount score fleet ring flows port < u64Max

/-- The flows of a finite set are all that the members hold. -/
def HoldsOnly (fleet : ℕ → CountsNode V) (ring : Ring) (flows : Finset String) : Prop :=
  ∀ node ∈ ring.members, ∀ f : String, (fleet node).shard.memory[f]?.isSome = true → f ∈ flows

theorem portCount_eq (hview : (fleet me).view = .ok ring) (hflows : HoldsOnly fleet ring flows) (port : Port) :
    portCount score fleet ring flows port =
      share score fleet ring me port + ((ring.peersOf me).map fun node => share score fleet ring node port).sum := by
  rw [share_add_peers (view_nodup hview), sum_shares (view_nodup hview) hflows]

theorem peersHoldNone_iff (port : Port) : PeersHoldNone score fleet ring me port ↔
    ((ring.peersOf me).map fun node => share score fleet ring node port).sum = 0 := by
  rw [List.sum_eq_zero_iff]
  constructor
  · intro h n hn
    obtain ⟨node, hnode, rfl⟩ := List.mem_map.1 hn
    exact h node hnode
  · intro h node hnode
    exact h _ (List.mem_map.2 ⟨node, hnode, rfl⟩)

/-- A capped total of `k` times the peers' share is exact for `k = 1`, or if that share is nothing. -/
theorem capped_total_iff {own peers k : ℕ} (hfits : own + peers < u64Max) (hk : 0 < k) :
    min (own + k * peers) u64Max = own + peers ↔ k = 1 ∨ peers = 0 := by
  rcases Nat.eq_zero_or_pos peers with rfl | hpos
  · simp only [Nat.mul_zero, Nat.add_zero, or_true, iff_true] at hfits ⊢
    omega
  · rcases Nat.lt_or_ge k 2 with hlt | hge
    · obtain rfl : k = 1 := by omega
      rw [Nat.one_mul]
      constructor
      · exact fun _ => .inl rfl
      · intro _
        omega
    · have hmore : 2 * peers ≤ k * peers := Nat.mul_le_mul_right _ hge
      constructor
      · intro h
        omega
      · rintro (h | h) <;> omega

/-- The condition on a call: somebody is asked where there is somebody to ask, and no port that a
complete call counts is named twice with entries at a peer. -/
def NamedOnce (score : ℕ → OwnedKey → ℕ) (fleet : ℕ → CountsNode V) (me : ℕ) (fan : ∀ peers, FanOut peers)
    (ports : List Port) : Prop :=
  (ports = [] → ∃ ring, (fleet me).view = .ok ring ∧ ring.peersOf me = []) ∧
    ∀ ring, (fleet me).view = .ok ring → Complete fleet ring (fan (ring.peersOf me)) →
      ∀ port ∈ ports, ports.count port = 1 ∨ PeersHoldNone score fleet ring me port

theorem exact_iff_of_empty : CountsExact score fleet me flows [] (fleetEntryCounts score fleet me fan []) ↔
    NamedOnce score fleet me fan [] := by
  rw [fleetEntryCounts_empty]
  constructor
  · intro hexact
    obtain ⟨ring, hview, hmerged, -⟩ := hexact rfl
    refine ⟨fun _ => ⟨ring, hview, ?_⟩, fun ring' _ _ port hport => absurd hport List.not_mem_nil⟩
    exact List.eq_nil_iff_forall_not_mem.2 fun peer hpeer => List.not_mem_nil (hmerged peer hpeer).1
  · rintro ⟨hnobody, -⟩ -
    obtain ⟨ring, hview, hpeers⟩ := hnobody rfl
    refine ⟨ring, hview, fun peer hpeer => ?_, fun port hport => absurd hport List.not_mem_nil⟩
    rw [hpeers] at hpeer
    exact absurd hpeer List.not_mem_nil

theorem exact_of_marked (h : (fleetEntryCounts score fleet me fan ports).isPartial = true) :
    CountsExact score fleet me flows ports (fleetEntryCounts score fleet me fan ports) := by
  intro hwhole
  rw [h] at hwhole
  cases hwhole

theorem exact_of_alone (hports : ports ≠ []) (hview : (fleet me).view = .ok ring) (hpeers : ring.peersOf me = [])
    (hflows : HoldsOnly fleet ring flows) :
    CountsExact score fleet me flows ports (fleetEntryCounts score fleet me fan ports) := by
  intro _
  rw [fleetEntryCounts_alone hports hview hpeers]
  refine ⟨ring, hview, fun peer hpeer => ?_, fun port hport => ?_⟩
  · rw [hpeers] at hpeer
    exact absurd hpeer List.not_mem_nil
  · rw [ownedCounts_get me hport, portCount_eq hview hflows, hpeers]
    rfl

theorem exact_iff_of_complete (hports : ports ≠ []) (hview : (fleet me).view = .ok ring) (hpeers : ring.peersOf me ≠ [])
    (hcomplete : Complete fleet ring (fan (ring.peersOf me))) (hflows : HoldsOnly fleet ring flows)
    (hfits : TotalsFit score fleet ring flows) :
    CountsExact score fleet me flows ports (fleetEntryCounts score fleet me fan ports) ↔
      ∀ port ∈ ports, ports.count port = 1 ∨ PeersHoldNone score fleet ring me port := by
  have hlt : ∀ port, share score fleet ring me port +
      ((ring.peersOf me).map fun node => share score fleet ring node port).sum < u64Max := by
    intro port
    rw [← portCount_eq hview hflows]
    exact hfits port
  obtain ⟨hmarked, hmerged, htotals⟩ := complete_counts hports hview hpeers hcomplete
    fun port => ((Nat.le_add_right _ _).trans_lt (hlt port)).le
  have hport : ∀ port ∈ ports, (fleetEntryCounts score fleet me fan ports).totals[port]? =
      some (portCount score fleet ring flows port) ↔ ports.count port = 1 ∨ PeersHoldNone score fleet ring me port := by
    intro port hmem
    rw [htotals port hmem, portCount_eq hview hflows, Option.some.injEq, peersHoldNone_iff]
    exact capped_total_iff (hlt port) (List.count_pos_iff.2 hmem)
  constructor
  · intro hexact port hmem
    obtain ⟨ring', hview', -, htotal⟩ := hexact hmarked
    rw [hview] at hview'
    cases hview'
    exact (hport port hmem).1 (htotal port hmem)
  · intro hnamed _
    refine ⟨ring, hview, fun peer hpeer => ⟨hmerged peer hpeer, ring, ?_, rfl⟩, fun port hmem => ?_⟩
    · obtain ⟨j, hj, rfl⟩ := List.mem_map.1 ((hcomplete.perm ((view_nodup hview).filter _)).mem_iff.2 hpeer)
      exact (hcomplete.2 j hj).2
    · exact (hport port hmem).2 (hnamed port hmem)

theorem counts_exact_iff (hagree : ∀ ring, (fleet me).view = .ok ring → RingsAgree fleet ring)
    (hflows : ∀ ring, (fleet me).view = .ok ring → HoldsOnly fleet ring flows)
    (hfits : ∀ ring, (fleet me).view = .ok ring → TotalsFit score fleet ring flows) :
    CountsExact score fleet me flows ports (fleetEntryCounts score fleet me fan ports) ↔
      NamedOnce score fleet me fan ports := by
  by_cases hports : ports = []
  · subst hports
    exact exact_iff_of_empty
  cases hview : (fleet me).view with
  | error reason =>
    have hmarked : (fleetEntryCounts score fleet me fan ports).isPartial = true := by
      rw [fleetEntryCounts, if_neg (by simpa using hports), hview]
    refine iff_of_true (exact_of_marked hmarked) ⟨fun h => absurd h hports, fun ring h => ?_⟩
    rw [hview] at h
    cases h
  | ok ring =>
    -- the condition for this ring, which is the only one
    have hthis : NamedOnce score fleet me fan ports ↔ (Complete fleet ring (fan (ring.peersOf me)) →
        ∀ port ∈ ports, ports.count port = 1 ∨ PeersHoldNone score fleet ring me port) := by
      refine ⟨fun h => h.2 ring hview, fun h => ⟨fun hnone => absurd hnone hports, fun ring' hview' => ?_⟩⟩
      rw [hview] at hview'
      cases hview'
      exact h
    rw [hthis]
    by_cases hpeers : ring.peersOf me = []
    · refine iff_of_true (exact_of_alone hports hview hpeers (hflows ring hview)) fun _ port _ => .inr fun peer hpeer => ?_
      rw [hpeers] at hpeer
      exact absurd hpeer List.not_mem_nil
    by_cases hcomplete : Complete fleet ring (fan (ring.peersOf me))
    · rw [exact_iff_of_complete hports hview hpeers hcomplete (hflows ring hview) (hfits ring hview)]
      exact ⟨fun h _ => h, fun h => h hcomplete⟩
    · exact iff_of_true (exact_of_marked (incomplete_marked (hagree ring hview) hports hview hpeers hcomplete))
        fun h => absurd h hcomplete

end Calls

/-! ## Spaces -/

theorem mem_spacesOf {node : ℕ} {scope space : String} {count : ℕ} :
    (space, count) ∈ spacesOf score fleet node ring scope ↔
      ring.owner score (.flow (scope ++ space)) = some node ∧
      (fleet node).shard.memory[scope ++ space]?.isSome = true ∧ count = (fleet node).liveCount (scope ++ space) := by
  rw [spacesOf, mem_ownedSpaces, CountsNode.mem_entries, and_comm]

theorem spacesOf_nodup (node : ℕ) (scope : String) :
    ((spacesOf score fleet node ring scope).map Prod.fst).Nodup := by
  have hkeys := CountsNode.entries_keys (fleet node)
  rw [List.Nodup, List.pairwise_map] at hkeys ⊢
  rw [spacesOf, ownedSpaces, List.pairwise_filterMap]
  refine hkeys.imp fun {e e'} hne row hrow row' hrow' heq => hne ?_
  let ownerOf := fun scopedId => ring.owner score (.flow scopedId)
  rw [(ownedSpace_eq_some ownerOf hrow).1, (ownedSpace_eq_some ownerOf hrow').1, heq]

theorem mergeSpaceRows_eq (own : List (String × ℕ)) (me : ℕ) (peers : List (ℕ × Option (List (String × ℕ))))
    (timedOut : Bool) :
    mergeSpaceRows own me peers timedOut =
      (spaceRows me own ++ peers.flatMap fun answer => spaceRows answer.1 (answer.2.getD []),
        timedOut || peers.any fun answer => answer.2.isNone) := by
  unfold mergeSpaceRows
  generalize spaceRows me own = rows
  induction peers generalizing rows timedOut with
  | nil => simp
  | cons answer peers ih =>
    rw [List.foldl_cons]
    cases hanswer : answer.2 with
    | none => rw [ih]; simp [hanswer, spaceRows]
    | some more => rw [ih]; simp [hanswer, spaceRows]

theorem spaces_complete (hagree : RingsAgree fleet ring) {peers : List ℕ} (fan : FanOut peers) (port : Port)
    (scope : String)
    (hdrained : fan.drained = true)
    (hall : ∀ answer ∈ fan.joined.flatMap (spaceAnswer score fleet port scope ring.mIdx), answer.2 ≠ none)
    (hanswered : ∀ peer ∈ peers, peer ∈ (fan.joined.flatMap (spaceAnswer score fleet port scope ring.mIdx)).map Prod.fst) :
    Complete fleet ring fan := by
  refine ⟨hdrained, fun j hj => ?_⟩
  have hof : ∀ answer ∈ spaceAnswer score fleet port scope ring.mIdx j, answer.2 ≠ none := fun answer hanswer =>
    hall answer (List.mem_flatMap.2 ⟨j, hj, hanswer⟩)
  cases j with
  | replied peer =>
    refine ⟨rfl, ?_⟩
    by_contra hview
    obtain ⟨reason, hrefused⟩ : ∃ reason, spacesHandler score fleet peer port scope ring.mIdx = .error reason :=
      spacesHandler_refuses hagree port scope hview
    exact hof (peer, none) (by rw [spaceAnswer, hrefused]; exact List.mem_singleton.2 rfl) rfl
  | lost peer => exact absurd rfl (hof (peer, none) (List.mem_singleton.2 rfl))
  | panicked peer =>
    -- its peer ended once, so nothing else answers for it
    obtain ⟨answer, hanswer, hpeer⟩ := List.mem_map.1 (hanswered peer (fan.asked _ hj))
    obtain ⟨j', hj', hin⟩ := List.mem_flatMap.1 hanswer
    have hsame : j'.peer = peer := by
      cases j' with
      | replied p => rw [List.mem_singleton.1 hin] at hpeer; exact hpeer
      | lost p => rw [List.mem_singleton.1 hin] at hpeer; exact hpeer
      | panicked p => cases hin
    have heq : j' = .panicked peer := List.inj_on_of_nodup_map fan.once hj' hj hsame
    subst heq
    cases hin

/-- What a listing of the fleet is to be: if it is not partial, every peer has answered under the
caller's `m_idx`, and each space under the scope is there once, with its ring owner. -/
def SpacesExact (score : ℕ → OwnedKey → ℕ) (fleet : ℕ → CountsNode V) (me : ℕ) (scope : String)
    (listed : List SpaceRow × Bool) : Prop :=
  listed.2 = false → ∃ ring, (fleet me).view = .ok ring ∧
    (∀ peer ∈ ring.peersOf me, ∃ ring', (fleet peer).view = .ok ring' ∧ ring'.mIdx = ring.mIdx) ∧
    (listed.1.map SpaceRow.space).Nodup ∧
    ∀ row, row ∈ listed.1 ↔ ring.owner score (.flow (scope ++ row.space)) = some row.owner ∧
      (fleet row.owner).shard.memory[scope ++ row.space]?.isSome = true ∧
      row.entryCount = (fleet row.owner).liveCount (scope ++ row.space)

theorem shares_listed (score : ℕ → OwnedKey → ℕ) (fleet : ℕ → CountsNode V) {nodes : List ℕ} (hnodup : nodes.Nodup)
    (hmembers : ∀ node ∈ ring.members, node ∈ nodes) (scope : String) :
    ((nodes.flatMap fun node => spaceRows node (spacesOf score fleet node ring scope)).map SpaceRow.space).Nodup ∧
      ∀ row, row ∈ nodes.flatMap (fun node => spaceRows node (spacesOf score fleet node ring scope)) ↔
        ring.owner score (.flow (scope ++ row.space)) = some row.owner ∧
        (fleet row.owner).shard.memory[scope ++ row.space]?.isSome = true ∧
        row.entryCount = (fleet row.owner).liveCount (scope ++ row.space) := by
  constructor
  · have hmap : (nodes.flatMap fun node => spaceRows node (spacesOf score fleet node ring scope)).map SpaceRow.space =
        nodes.flatMap fun node => (spacesOf score fleet node ring scope).map Prod.fst := by
      rw [List.map_flatMap]
      congr 1
      funext node
      rw [spaceRows, List.map_map]
      rfl
    rw [hmap, List.nodup_flatMap]
    refine ⟨fun node _ => spacesOf_nodup node scope, hnodup.imp fun {a b} hab => ?_⟩
    intro space ha hb
    obtain ⟨⟨_, ca⟩, hina, rfl⟩ := List.mem_map.1 ha
    obtain ⟨⟨_, cb⟩, hinb, heq⟩ := List.mem_map.1 hb
    dsimp only at heq
    subst heq
    have howner := (mem_spacesOf.1 hina).1
    rw [(mem_spacesOf.1 hinb).1] at howner
    exact hab (Option.some.inj howner).symm
  · intro row
    rw [List.mem_flatMap]
    constructor
    · rintro ⟨node, -, hrow⟩
      obtain ⟨⟨space, count⟩, hin, rfl⟩ := List.mem_map.1 hrow
      exact mem_spacesOf.1 hin
    · rintro ⟨howner, hheld⟩
      refine ⟨row.owner, hmembers _ (owner_mem howner), List.mem_map.2 ⟨(row.space, row.entryCount), ?_, rfl⟩⟩
      exact mem_spacesOf.2 ⟨howner, hheld⟩

theorem complete_answers {peers : List ℕ} {fan : FanOut peers} (h : Complete fleet ring fan) (port : Port)
    (scope : String) :
    fan.joined.flatMap (spaceAnswer score fleet port scope ring.mIdx) =
      fan.joined.map fun j => (j.peer, some (spacesOf score fleet j.peer ring scope)) := by
  rw [List.flatMap_congr fun j hj => show spaceAnswer score fleet port scope ring.mIdx j =
    [(j.peer, some (spacesOf score fleet j.peer ring scope))] by
      rw [(h.2 j hj).1, spaceAnswer, spacesHandler_taken port scope (h.2 j hj).2]
      rfl]
  exact List.flatMap_pure_eq_map _ _

theorem spaces_exact (hagree : ∀ ring, (fleet me).view = .ok ring → RingsAgree fleet ring) (fan : ∀ peers, FanOut peers)
    (port : Port) (scope : String) :
    SpacesExact score fleet me scope (fleetSpaces score fleet me fan port scope) := by
  intro hwhole
  unfold fleetSpaces at hwhole ⊢
  cases hview : (fleet me).view with
  | error reason => rw [hview] at hwhole; cases hwhole
  | ok ring =>
    rw [hview] at hwhole
    simp only [mergeSpaceRows_eq] at hwhole ⊢
    refine ⟨ring, rfl, ?_⟩
    have hnodup := view_nodup hview
    have hasked : ∀ node ∈ ring.members, node ≠ me → node ∈ ring.peersOf me := fun node hnode hne =>
      List.mem_filter.2 ⟨hnode, decide_eq_true hne⟩
    by_cases hpeers : ring.peersOf me = []
    · have hmembers : ∀ node ∈ ring.members, node ∈ [me] := by
        intro node hnode
        by_contra hne
        have hpeer := hasked node hnode fun heq => hne (List.mem_singleton.2 heq)
        rw [hpeers] at hpeer
        exact List.not_mem_nil hpeer
      have hlisted := shares_listed score fleet (List.nodup_singleton me) hmembers scope
      rw [hpeers]
      refine ⟨fun peer hpeer => absurd hpeer List.not_mem_nil, ?_⟩
      simpa using hlisted
    · simp only [List.isEmpty_iff, hpeers, if_false, Bool.or_eq_false_iff, Bool.not_eq_false', List.any_append,
        List.any_eq_false] at hwhole ⊢
      obtain ⟨hdrained, hanswers, hunanswered⟩ := hwhole
      have hanswered : ∀ peer ∈ ring.peersOf me, peer ∈
          ((fan (ring.peersOf me)).joined.flatMap (spaceAnswer score fleet port scope ring.mIdx)).map Prod.fst := by
        intro peer hpeer
        by_contra hnot
        exact hunanswered (peer, none)
          (List.mem_map.2 ⟨peer, List.mem_filter.2 ⟨hpeer, decide_eq_true hnot⟩, rfl⟩) rfl
      have hcomplete : Complete fleet ring (fan (ring.peersOf me)) :=
        spaces_complete (hagree ring hview) _ port scope hdrained
          (fun answer hanswer hnone => hanswers answer hanswer (by rw [hnone]; rfl)) hanswered
      have hperm := hcomplete.perm (hnodup.filter _)
      have hnobody : (ring.peersOf me).filter (fun peer => decide (peer ∉
          ((fan (ring.peersOf me)).joined.flatMap (spaceAnswer score fleet port scope ring.mIdx)).map Prod.fst)) = [] := by
        rw [List.filter_eq_nil_iff]
        intro peer hpeer hnot
        exact of_decide_eq_true hnot (hanswered peer hpeer)
      constructor
      · intro peer hpeer
        obtain ⟨j, hj, rfl⟩ := List.mem_map.1 (hperm.mem_iff.2 hpeer)
        exact ⟨ring, (hcomplete.2 j hj).2, rfl⟩
      · have hme : me ∉ (fan (ring.peersOf me)).joined.map Joined.peer := by
          intro hmem
          exact of_decide_eq_true (List.mem_filter.1 (hperm.mem_iff.1 hmem)).2 rfl
        have hmembers : ∀ node ∈ ring.members, node ∈ me :: (fan (ring.peersOf me)).joined.map Joined.peer := by
          intro node hnode
          by_cases hne : node = me
          · exact List.mem_cons.2 (.inl hne)
          · exact List.mem_cons_of_mem _ (hperm.mem_iff.2 (hasked node hnode hne))
        have hlisted := shares_listed score fleet
          (List.nodup_cons.2 ⟨hme, (fan (ring.peersOf me)).once⟩) hmembers scope
        rw [hnobody, complete_answers hcomplete]
        simpa [List.flatMap_map] using hlisted

/-- **Fleet counts are exact when complete, if somebody is asked and no port that peers hold
entries of is named twice.** Listings of spaces are exact when complete. -/
theorem fleet_counts_exact_iff (score : ℕ → OwnedKey → ℕ) (fleet : ℕ → CountsNode V) (me : ℕ)
    (fan : ∀ peers, FanOut peers) (flows : Finset String) (ports : List Port) (port : Port) (scope : String)
    (hagree : ∀ ring, (fleet me).view = .ok ring → RingsAgree fleet ring)
    (hflows : ∀ ring, (fleet me).view = .ok ring → HoldsOnly fleet ring flows)
    (hfits : ∀ ring, (fleet me).view = .ok ring → TotalsFit score fleet ring flows) :
    (CountsExact score fleet me flows ports (fleetEntryCounts score fleet me fan ports) ↔
      NamedOnce score fleet me fan ports) ∧
      SpacesExact score fleet me scope (fleetSpaces score fleet me fan port scope) :=
  ⟨counts_exact_iff hagree hflows hfits, spaces_exact hagree fan port scope⟩

def allReply (peers : List ℕ) : FanOut peers where
  joined := peers.dedup.map .replied
  drained := true
  once := by
    rw [List.map_map]
    exact (List.map_id peers.dedup).symm ▸ List.nodup_dedup peers
  asked := by
    intro j hj
    obtain ⟨peer, hpeer, rfl⟩ := List.mem_map.1 hj
    exact List.mem_dedup.1 hpeer
  all := by
    intro _ peer hpeer
    rw [List.map_map]
    exact List.mem_map.2 ⟨peer, List.mem_dedup.2 hpeer, rfl⟩

/-- Two voters. Node 2 holds a flow of port 80 with one entry, and owns it. -/
def oneEntry : ℕ → CountsNode ℕ := fun node =>
  { membership := .ok ([1, 2], 3)
    shard :=
      { maxFlows := 8
        memory := if node = 2 then
          (∅ : Memory ℕ).insert "i80:a" { keys := (∅ : Table String (Versioned ℕ)).insert "k" ⟨3, 1, 2, 0, 7, false⟩ }
          else ∅ }
    now := 10 }

def toHighest : ℕ → OwnedKey → ℕ := fun node _ => node

theorem oneEntry_view (node : ℕ) : (oneEntry node).view = .ok ⟨[1, 2], 3⟩ := rfl

theorem oneEntry_agrees (node : ℕ) : ∀ ring, (oneEntry node).view = .ok ring → RingsAgree oneEntry ring := by
  intro ring hview node' ring' hview' _
  rw [oneEntry_view] at hview hview'
  cases hview
  cases hview'
  rfl

theorem oneEntry_holds (node : ℕ) : ∀ ring, (oneEntry node).view = .ok ring → HoldsOnly oneEntry ring {"i80:a"} := by
  intro ring _ node' _ f hf
  simp only [oneEntry] at hf
  split at hf
  · rw [get_insert] at hf
    split at hf
    · exact Finset.mem_singleton.2 (‹_ = f›).symm
    · simp at hf
  · simp at hf

theorem oneEntry_fits (node : ℕ) : ∀ ring, (oneEntry node).view = .ok ring → TotalsFit toHighest oneEntry ring {"i80:a"} := by
  intro ring hview port
  rw [oneEntry_view] at hview
  cases hview
  have hone : ownerCount toHighest oneEntry ⟨[1, 2], 3⟩ "i80:a" = 1 := by decide +kernel
  rw [portCount, Finset.sum_filter, Finset.sum_singleton, hone]
  split <;> decide

/-- Named once, the port is counted right. -/
theorem oneEntry_counted :
    (∀ ring, (oneEntry 1).view = .ok ring → TotalsFit toHighest oneEntry ring {"i80:a"}) ∧
      CountsExact toHighest oneEntry 1 {"i80:a"} [80] (fleetEntryCounts toHighest oneEntry 1 allReply [80]) ∧
      (fleetEntryCounts toHighest oneEntry 1 allReply [80]).totals[80]? = some 1 := by
  have hexact := fleet_counts_exact_iff toHighest oneEntry 1 allReply {"i80:a"} [80] 80 "i80:" (oneEntry_agrees 1)
    (oneEntry_holds 1) (oneEntry_fits 1)
  refine ⟨oneEntry_fits 1, hexact.1.2 ⟨fun h => absurd h (by simp), fun ring _ _ port hport => .inl ?_⟩, by decide +kernel⟩
  rw [List.mem_singleton.1 hport]
  rfl

/-- **Named twice, the peer's entry is counted twice**, and the answer is not marked partial. -/
theorem oneEntry_counted_twice :
    (fleetEntryCounts toHighest oneEntry 1 allReply [80, 80]).isPartial = false ∧
      (fleetEntryCounts toHighest oneEntry 1 allReply [80, 80]).totals[80]? = some 2 ∧
      portCount toHighest oneEntry ⟨[1, 2], 3⟩ {"i80:a"} 80 = 1 := by
  refine ⟨by decide +kernel, by decide +kernel, ?_⟩
  rw [portCount, Finset.sum_filter, Finset.sum_singleton, if_pos (by decide +kernel)]
  decide +kernel

end RiftCluster
