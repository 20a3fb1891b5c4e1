import RiftCluster.Lib.Trace

/-!
# Replicated logs under one leader per term

Peers with a log each. A leader of a term appends to its log; the others take over slices
of it, at any time and in any order, and drop what conflicts. There is one leader per term
at most; which votes elect it, and what it begins its term with, are parameters.

* `merge_cases`: taking over a slice that starts where both logs agree leaves a log as it
  was, or makes it a beginning of the leader's.
* `slot_unique`: a term and an index determine a slot, for all peers and all moments.
-/

namespace RaftLog

variable {α : Type}

/-- One place of a log. Its index is its position. -/
structure Slot (α : Type) where
  term : ℕ
  payload : α
  deriving DecidableEq

structure Peer (α : Type) where
  term : ℕ := 0
  leads : Bool := false
  log : List (Slot α) := []

structure Fleet (α : Type) where
  peers : ℕ → Peer α := fun _ => {}
  /-- The log of a term's leader, as of the last time the leader appended to it. A request of
  that term carries a slice of it. -/
  leaderLog : ℕ → Option (List (Slot α)) := fun _ => none

inductive Move (α : Type) where
  /-- The first slot of the fleet's log. -/
  | found (node : ℕ) (payload : α)
  | elect (node term : ℕ) (voters : List ℕ)
  | append (node : ℕ) (payload : α)
  /-- A request of a term arrives: `count` slots, after the first `prev`. -/
  | replicate (term node prev count : ℕ)
  | restart (node : ℕ)

/-- What is left of a log after a request: the first slot that differs and all after it go. -/
def merge : List (Slot α) → List (Slot α) → List (Slot α)
  | own, [] => own
  | [], s :: slots => s :: slots
  | e :: own, s :: slots => if e.term = s.term then e :: merge own slots else s :: slots

def lastTerm (log : List (Slot α)) : ℕ := (log.getLast?.map (·.term)).getD 0

/-- The log of a candidate is at least as up to date as a voter's. -/
def upToDate (log other : List (Slot α)) : Bool :=
  lastTerm other < lastTerm log || (lastTerm other == lastTerm log && other.length ≤ log.length)

namespace Fleet

variable (blank : α) (quorum : List (Slot α) → List ℕ → Bool)

/-- Whether a node is elected: nobody leads the term, no voter has seen it, none has a log that
is ahead, and they are enough. -/
def electable (f : Fleet α) (node term : ℕ) (voters : List ℕ) : Bool :=
  (f.leaderLog term).isNone && (f.peers node).term < term && node ∈ voters &&
    (voters.all fun v => (f.peers v).term < term && upToDate (f.peers node).log (f.peers v).log) &&
    quorum (f.peers node).log voters

/-- Whether a peer takes a request of a term: it has seen no later one, and the slot before the
slice is the same. -/
def takes (f : Fleet α) (term node prev count : ℕ) (leaderLog : List (Slot α)) : Bool :=
  0 < term && (f.peers node).term ≤ term && !((f.peers node).leads && (f.peers node).term == term) &&
    prev + count ≤ leaderLog.length &&
    (prev == 0 || (f.peers node).log[prev - 1]?.any fun e => leaderLog[prev - 1]?.any fun s => e.term == s.term)

def step (f : Fleet α) : Move α → Fleet α
  | .found node payload =>
    if (f.leaderLog 0).isNone ∧ (f.peers node).log.isEmpty then
      { peers := Function.update f.peers node ⟨(f.peers node).term, false, [⟨0, payload⟩]⟩
        leaderLog := Function.update f.leaderLog 0 (some [⟨0, payload⟩]) }
    else f
  | .elect node term voters =>
    if f.electable quorum node term voters then
      let log := (f.peers node).log ++ [⟨term, blank⟩]
      { peers := fun i =>
          if i = node then ⟨term, true, log⟩
          else if i ∈ voters then { f.peers i with term, leads := false }
          else f.peers i
        leaderLog := Function.update f.leaderLog term (some log) }
    else f
  | .append node payload =>
    if (f.peers node).leads then
      let log := (f.peers node).log ++ [⟨(f.peers node).term, payload⟩]
      { peers := Function.update f.peers node { f.peers node with log }
        leaderLog := Function.update f.leaderLog (f.peers node).term (some log) }
    else f
  | .replicate term node prev count => match f.leaderLog term with
    | some leaderLog =>
      if f.takes term node prev count leaderLog then
        let log := (f.peers node).log
        { f with
          peers := Function.update f.peers node
            ⟨term, false, log.take prev ++ merge (log.drop prev) ((leaderLog.take (prev + count)).drop prev)⟩ }
      else f
    | none => f
  | .restart node => { f with peers := Function.update f.peers node { f.peers node with leads := false } }

end Fleet

/-! ## Agreement with the leaders' logs -/

/-- Up to each of its slots, a log is the log of the leader of that slot's term. -/
def Matches (f : Fleet α) (log : List (Slot α)) : Prop :=
  ∀ p e, log[p]? = some e → ∃ leaderLog, f.leaderLog e.term = some leaderLog ∧ log.take (p + 1) = leaderLog.take (p + 1)

/-- The logs of the leaders get longer, and are otherwise as they were. -/
def Grows (f f' : Fleet α) : Prop :=
  ∀ term leaderLog, f.leaderLog term = some leaderLog → ∃ longer, f'.leaderLog term = some longer ∧ leaderLog <+: longer

variable {f f' : Fleet α} {log log' : List (Slot α)}

theorem Grows.refl (f : Fleet α) : Grows f f := fun _ leaderLog h => ⟨leaderLog, h, List.prefix_refl _⟩

theorem lt_length_of_take_eq {p : ℕ} {e : Slot α} (he : log[p]? = some e) (h : log.take (p + 1) = log'.take (p + 1)) :
    p < log'.length := by
  have hp : p < log.length := (List.getElem?_eq_some_iff.1 he).1
  have hlen := congrArg List.length h
  rw [List.length_take, List.length_take] at hlen
  omega

theorem get_of_take_eq {p : ℕ} (h : log.take (p + 1) = log'.take (p + 1)) : log[p]? = log'[p]? := by
  rw [← List.getElem?_take_of_lt (Nat.lt_succ_self p), h, List.getElem?_take_of_lt (Nat.lt_succ_self p)]

theorem matches_grows (hg : Grows f f') (h : Matches f log) : Matches f' log := by
  intro p e he
  obtain ⟨leaderLog, hl, htake⟩ := h p e he
  obtain ⟨longer, hl', rest, rfl⟩ := hg e.term leaderLog hl
  refine ⟨_, hl', ?_⟩
  have hp : p < leaderLog.length := lt_length_of_take_eq he htake
  rw [htake, List.take_append_of_le_length (by omega)]

theorem take_eq_of_term {p : ℕ} {e e' : Slot α} (h : Matches f log) (h' : Matches f log') (he : log[p]? = some e)
    (he' : log'[p]? = some e') (hterm : e.term = e'.term) : log.take (p + 1) = log'.take (p + 1) := by
  obtain ⟨l, hl, htake⟩ := h p e he
  obtain ⟨l', hl', htake'⟩ := h' p e' he'
  rw [hterm, hl'] at hl
  cases hl
  rw [htake, htake']

theorem matches_take (h : Matches f log) (n : ℕ) : Matches f (log.take n) := by
  intro p e he
  have hp : p < n := by
    have := (List.getElem?_eq_some_iff.1 he).1
    rw [List.length_take] at this
    omega
  rw [List.getElem?_take_of_lt hp] at he
  obtain ⟨l, hl, htake⟩ := h p e he
  refine ⟨l, hl, ?_⟩
  rw [List.take_take, min_eq_left (by omega), htake]

/-- **A request leaves a log as it was, or makes it a beginning of the leader's.** -/
theorem merge_cases {leaderLog : List (Slot α)} (h : Matches f log) (h' : Matches f leaderLog) {n : ℕ}
    (hn : n ≤ leaderLog.length) {prev : ℕ} (hprev : prev ≤ n) (hsame : log.take prev = leaderLog.take prev) :
    log.take prev ++ merge (log.drop prev) ((leaderLog.take n).drop prev) = log ∨
      log.take prev ++ merge (log.drop prev) ((leaderLog.take n).drop prev) = leaderLog.take n := by
  -- by induction on the length of the slice
  induction hk : n - prev generalizing prev with
  | zero =>
    obtain rfl : prev = n := by omega
    have hnil : (leaderLog.take prev).drop prev = [] := List.drop_eq_nil_of_le (List.length_take_le _ _)
    rw [hnil]
    left
    cases hd : log.drop prev <;> simp only [merge] <;> rw [← hd, List.take_append_drop]
  | succ k ih =>
    have hlt : prev < leaderLog.length := by omega
    have hslice : (leaderLog.take n).drop prev = leaderLog[prev] :: (leaderLog.take n).drop (prev + 1) := by
      rw [List.drop_eq_getElem_cons (by rw [List.length_take]; omega), List.getElem_take]
    have hrest : log.take prev ++ leaderLog[prev] :: (leaderLog.take n).drop (prev + 1) = leaderLog.take n := by
      have hbegin : leaderLog.take prev = (leaderLog.take n).take prev := by rw [List.take_take, min_eq_left hprev]
      rw [← hslice, hsame, hbegin, List.take_append_drop]
    rw [hslice]
    by_cases hend : prev < log.length
    · rw [List.drop_eq_getElem_cons hend]
      simp only [merge]
      split
      · rename_i hterm
        have htake : log.take (prev + 1) = leaderLog.take (prev + 1) :=
          take_eq_of_term h h' (List.getElem?_eq_getElem hend) (List.getElem?_eq_getElem hlt) hterm
        have hstep := ih (by omega) htake (by omega)
        rw [List.take_succ_eq_append_getElem hend, List.append_assoc, List.singleton_append] at hstep
        exact hstep
      · exact .inr hrest
    · rw [List.drop_eq_nil_of_le (by omega)]
      exact .inr hrest

/-! ## Steps and runs -/

/-- Every log agrees with the leaders', and a leader's log is its own. -/
structure Ok (f : Fleet α) : Prop where
  peers : ∀ i, Matches f (f.peers i).log
  leaders : ∀ term leaderLog, f.leaderLog term = some leaderLog → Matches f leaderLog
  leads : ∀ i, (f.peers i).leads = true → f.leaderLog (f.peers i).term = some (f.peers i).log
  one : ∀ i j, (f.peers i).leads = true → (f.peers j).leads = true → (f.peers i).term = (f.peers j).term → i = j

theorem ok_start : Ok ({} : Fleet α) where
  peers := by intro i p e he; simp at he
  leaders := by intro term leaderLog h; cases h
  leads := by intro i h; cases h
  one := by intro i j h; cases h

variable {blank : α} {quorum : List (Slot α) → List ℕ → Bool}

theorem step_grows (hok : Ok f) (move : Move α) : Grows f (f.step blank quorum move) := by
  -- the log of one term is set, where there was none, or it was a beginning of this one
  have hset : ∀ t new, (∀ l, f.leaderLog t = some l → l <+: new) →
      ∀ term l, f.leaderLog term = some l →
        ∃ longer, Function.update f.leaderLog t (some new) term = some longer ∧ l <+: longer := by
    intro t new hnew term l hl
    by_cases ht : term = t
    · subst ht
      exact ⟨new, Function.update_self .., hnew l hl⟩
    · exact ⟨l, by rw [Function.update_of_ne ht]; exact hl, List.prefix_refl _⟩
  cases move with
  | found node payload =>
    simp only [Fleet.step]
    split
    · rename_i hfree
      refine hset 0 _ fun l hl => ?_
      rw [hl] at hfree
      exact absurd hfree.1 (by simp)
    · exact .refl f
  | elect node term voters =>
    simp only [Fleet.step]
    split
    · rename_i helect
      refine hset term _ fun l hl => ?_
      simp only [Fleet.electable, hl, Option.isNone_some, Bool.false_and] at helect
      cases helect
    · exact .refl f
  | append node payload =>
    simp only [Fleet.step]
    split
    · rename_i hleads
      refine hset _ _ fun l hl => ?_
      rw [hok.leads node hleads] at hl
      cases hl
      exact List.prefix_append _ _
    · exact .refl f
  | replicate term node prev count =>
    simp only [Fleet.step]
    split
    · split <;> exact .refl f
    · exact .refl f
  | restart node => exact .refl f

theorem matches_append {s : Slot α} (h : Matches f log) (hs : f.leaderLog s.term = some (log ++ [s])) :
    Matches f (log ++ [s]) := by
  intro p e he
  by_cases hp : p < log.length
  · rw [List.getElem?_append_left hp] at he
    obtain ⟨l, hl, htake⟩ := h p e he
    exact ⟨l, hl, by rw [List.take_append_of_le_length (by omega), htake]⟩
  · have hlast : p = log.length := by
      have := (List.getElem?_eq_some_iff.1 he).1
      rw [List.length_append, List.length_singleton] at this
      omega
    subst hlast
    have hes : s = e := by simpa using he
    subst hes
    exact ⟨_, hs, rfl⟩

/-- A node's log gets one more slot, and that is its leader's log from now on; the other logs
stay, and no other node leads the term. -/
theorem ok_extend (hok : Ok f) (node : ℕ) (s : Slot α) (hg : Grows f f')
    (hset : f'.leaderLog = Function.update f.leaderLog s.term (some ((f.peers node).log ++ [s])))
    (hlog : (f'.peers node).log = (f.peers node).log ++ [s])
    (hterm : (f'.peers node).leads = true → (f'.peers node).term = s.term)
    (hother : ∀ i, i ≠ node → (f'.peers i).log = (f.peers i).log ∧
      ((f'.peers i).leads = true → (f.peers i).leads = true ∧ (f'.peers i).term = (f.peers i).term))
    (hone : ∀ i, i ≠ node → (f.peers i).leads = true → (f.peers i).term ≠ s.term) : Ok f' := by
  have hself : f'.leaderLog s.term = some ((f.peers node).log ++ [s]) := by rw [hset, Function.update_self]
  have hnew : Matches f' ((f.peers node).log ++ [s]) := matches_append (matches_grows hg (hok.peers node)) hself
  have hne : ∀ i, i ≠ node → (f'.peers i).leads = true → (f'.peers i).term ≠ s.term := by
    intro i hi hl
    obtain ⟨hl', ht⟩ := (hother i hi).2 hl
    rw [ht]
    exact hone i hi hl'
  refine ⟨fun i => ?_, fun term l hl => ?_, fun i hi => ?_, fun i j hi hj hij => ?_⟩
  · by_cases h : i = node
    · rw [h, hlog]; exact hnew
    · rw [(hother i h).1]; exact matches_grows hg (hok.peers i)
  · by_cases h : term = s.term
    · rw [h, hself] at hl
      cases hl
      exact hnew
    · rw [hset, Function.update_of_ne h] at hl
      exact matches_grows hg (hok.leaders term l hl)
  · by_cases h : i = node
    · subst h
      rw [hterm hi, hlog, hself]
    · obtain ⟨hl', ht⟩ := (hother i h).2 hi
      rw [hset, Function.update_of_ne (hne i h hi), ht, (hother i h).1]
      exact hok.leads i hl'
  · by_cases h : i = node
    · by_cases h' : j = node
      · rw [h, h']
      · rw [h] at hi hij
        exact absurd (hij.symm.trans (hterm hi)) (hne j h' hj)
    · by_cases h' : j = node
      · rw [h'] at hj hij
        exact absurd (hij.trans (hterm hj)) (hne i h hi)
      · obtain ⟨hli, hti⟩ := (hother i h).2 hi
        obtain ⟨hlj, htj⟩ := (hother j h').2 hj
        exact hok.one i j hli hlj (by rw [← hti, ← htj]; exact hij)

/-- A node takes over a log that agrees with the leaders', or keeps its own, and leads no
longer. -/
theorem ok_follow (hok : Ok f) {node term : ℕ} {log : List (Slot α)} (hlog : Matches f log) :
    Ok { f with peers := Function.update f.peers node ⟨term, false, log⟩ } := by
  refine ⟨fun i => ?_, fun t l hl => hok.leaders t l hl, fun i hi => ?_, fun i j hi hj hij => ?_⟩
  · by_cases h : i = node
    · subst h
      show Matches _ (Function.update f.peers i _ i).log
      rw [Function.update_self]
      exact hlog
    · show Matches _ (Function.update f.peers node _ i).log
      rw [Function.update_of_ne h]
      exact hok.peers i
  · simp only at hi ⊢
    by_cases h : i = node
    · rw [h, Function.update_self] at hi
      cases hi
    · rw [Function.update_of_ne h] at hi ⊢
      exact hok.leads i hi
  · simp only at hi hj hij
    by_cases h : i = node
    · rw [h, Function.update_self] at hi
      cases hi
    · by_cases h' : j = node
      · rw [h', Function.update_self] at hj
        cases hj
      · rw [Function.update_of_ne h] at hi hij
        rw [Function.update_of_ne h'] at hj hij
        exact hok.one i j hi hj hij

theorem takes_same (hok : Ok f) {term node prev count : ℕ} {l : List (Slot α)} (hl : f.leaderLog term = some l)
    (h : f.takes term node prev count l = true) :
    prev + count ≤ l.length ∧ (f.peers node).log.take prev = l.take prev := by
  simp only [Fleet.takes, Bool.and_eq_true, Bool.or_eq_true, decide_eq_true_eq, beq_iff_eq] at h
  obtain ⟨⟨-, hlen⟩, hsame⟩ := h
  refine ⟨hlen, ?_⟩
  rcases hsame with rfl | hsame
  · simp
  · obtain ⟨e, he, hany⟩ := (Option.any_eq_true _ _).1 hsame
    obtain ⟨s, hs, hterm⟩ := (Option.any_eq_true _ _).1 hany
    have htake := take_eq_of_term (hok.peers node) (hok.leaders term l hl) he hs (beq_iff_eq.1 hterm)
    by_cases hzero : prev = 0
    · subst hzero; simp
    · rwa [show prev - 1 + 1 = prev by omega] at htake

theorem ok_step (hok : Ok f) (move : Move α) : Ok (f.step blank quorum move) := by
  have hg : Grows f (f.step blank quorum move) := step_grows hok move
  revert hg
  cases move with
  | found node payload =>
    simp only [Fleet.step]
    split
    · rename_i hfree
      intro hg
      have hempty : (f.peers node).log = [] := List.isEmpty_iff.1 hfree.2
      refine ok_extend hok node ⟨0, payload⟩ hg ?_ ?_ ?_ ?_ ?_
      · rw [hempty]; rfl
      · simp [hempty]
      · intro h; simp at h
      · intro i hi; simp [Function.update_of_ne hi]
      · intro i _ hi ht
        have hnone := hfree.1
        rw [show (0 : ℕ) = (f.peers i).term from ht.symm, hok.leads i hi] at hnone
        cases hnone
    · intro _; exact hok
  | elect node term voters =>
    simp only [Fleet.step]
    split
    · rename_i helect
      intro hg
      refine ok_extend hok node ⟨term, blank⟩ hg rfl ?_ ?_ ?_ ?_
      · simp
      · simp
      · intro i hi
        simp only [if_neg hi]
        split <;> simp
      · intro i _ hi ht
        simp only [Fleet.electable, Bool.and_eq_true] at helect
        have hnone := helect.1.1.1.1
        rw [show term = (f.peers i).term from ht.symm, hok.leads i hi] at hnone
        cases hnone
    · intro _; exact hok
  | append node payload =>
    simp only [Fleet.step]
    split
    · rename_i hleads
      intro hg
      refine ok_extend hok node ⟨(f.peers node).term, payload⟩ hg rfl ?_ ?_ ?_ ?_
      · simp
      · simp
      · intro i hi; simp [Function.update_of_ne hi]
      · intro i hi hli ht
        exact hi (hok.one i node hli hleads ht)
    · intro _; exact hok
  | replicate term node prev count =>
    intro _
    simp only [Fleet.step]
    split
    · rename_i l hl
      split
      · rename_i htakes
        obtain ⟨hlen, hsame⟩ := takes_same hok hl htakes
        refine ok_follow hok ?_
        rcases merge_cases (hok.peers node) (hok.leaders term l hl) hlen (Nat.le_add_right prev count) hsame with h | h
        · rw [h]; exact hok.peers node
        · rw [h]; exact matches_take (hok.leaders term l hl) _
      · exact hok
    · exact hok
  | restart node =>
    intro _
    exact ok_follow hok (hok.peers node)

section Runs

variable (blank quorum)

/-- The fleet after the first `n` moves, from the start. -/
def runAt (moves : List (Move α)) (n : ℕ) : Fleet α := Trace.stateAt (Fleet.step blank quorum) {} moves n

variable {blank quorum} {moves : List (Move α)}

theorem ok_run (k : ℕ) : Ok (runAt blank quorum moves k) :=
  Trace.stateAt_inv ok_start (fun _ move _ h => ok_step h move) k

theorem grows_run {j k : ℕ} (hjk : j ≤ k) (hk : k ≤ moves.length) :
    Grows (runAt blank quorum moves j) (runAt blank quorum moves k) := by
  refine Trace.stateAt_stretch (P := Grows (runAt blank quorum moves j)) hjk hk (.refl _) ?_
  intro m hm _ _ ih term l hl
  obtain ⟨l', hl', hpre⟩ := ih term l hl
  obtain ⟨l'', hl'', hpre'⟩ := step_grows (ok_run m) moves[m] term l' hl'
  exact ⟨l'', hl'', hpre.trans hpre'⟩

/-- **A term and an index determine a slot**, at every peer and every moment. -/
theorem slot_unique {j k : ℕ} (hj : j ≤ moves.length) (hk : k ≤ moves.length) {i i' p : ℕ} {e e' : Slot α}
    (he : ((runAt blank quorum moves j).peers i).log[p]? = some e)
    (he' : ((runAt blank quorum moves k).peers i').log[p]? = some e') (hterm : e.term = e'.term) : e = e' := by
  -- both logs agree with the leaders' of the later moment
  have hlater : Matches (runAt blank quorum moves (max j k)) ((runAt blank quorum moves j).peers i).log :=
    matches_grows (grows_run (le_max_left j k) (max_le hj hk)) ((ok_run j).peers i)
  have hlater' : Matches (runAt blank quorum moves (max j k)) ((runAt blank quorum moves k).peers i').log :=
    matches_grows (grows_run (le_max_right j k) (max_le hj hk)) ((ok_run k).peers i')
  have hsame := get_of_take_eq (take_eq_of_term hlater hlater' he he' hterm)
  rw [he, he'] at hsame
  exact Option.some.inj hsame

end Runs

end RaftLog
