import RiftCluster.Model.Sequencer

/-!
# What a sequence cursor remembers

The cursor a node holds for a key is the cycler that all its own advances of that key lead
to, in whatever role it made them, since its process started (`SeqKept`). Nothing that
happens to the ring is seen in it. So the first `next` a node answers after it took a key over
is a fresh cycler's index exactly when the advances it made before leave a cycler that
answers like a fresh one (`cursor_restarts_iff`).
-/

namespace RiftCluster

open KV

namespace RuleCycler

variable (C : RuleCycler)

def after (cycler : C.State) (op : SeqOp) : C.State :=
  if op.responseCount = 0 then cycler else (C.advance cycler op.count32 (op.repeats[·]?)).2

def replay (ops : List SeqOp) : C.State := ops.foldl C.after C.fresh

def serves (cycler : C.State) (op : SeqOp) : ℕ :=
  if op.responseCount = 0 then 0
  else min (C.advance cycler op.count32 (op.repeats[·]?)).1 (op.responseCount - 1)

def first (op : SeqOp) : ℕ := (C.advance C.fresh op.count32 (op.repeats[·]?)).1

theorem replay_append (ops : List SeqOp) (op : SeqOp) : C.replay (ops ++ [op]) = C.after (C.replay ops) op := by
  simp [replay]

theorem serves_fresh {op : SeqOp} (h : C.first op < op.responseCount) : C.serves C.fresh op = C.first op := by
  unfold first at h
  unfold serves first
  rw [if_neg (by omega), min_eq_left (by omega)]

end RuleCycler

/-- The advances of a key that a node made since it started: what one event adds. -/
def SeqEvent.past (node : ℕ) (key : CursorKey) (ops : List SeqOp) : SeqEvent → List SeqOp
  | .turn t => if t.node = node ∧ t.op.key = key ∧ t.op.advance = true then ops ++ [t.op] else ops
  | .moved _ _ => ops
  | .crashed n => if n = node then [] else ops

/-- The advances of `key` that `node` made since it started. -/
def advances (log : List SeqEvent) (node : ℕ) (key : CursorKey) : List SeqOp :=
  log.foldl (SeqEvent.past node key) []

theorem advances_append (log : List SeqEvent) (e : SeqEvent) (node : ℕ) (key : CursorKey) :
    advances (log ++ [e]) node key = e.past node key (advances log node key) := by
  simp [advances]

variable {C : RuleCycler} (score : ℕ → OwnedKey → ℕ)

theorem Sequencer.locally_cursor (s : Sequencer C) (op : SeqOp) (key : CursorKey) :
    (s.locally op).2.cursor key =
      if op.key = key ∧ op.advance = true then C.after (s.cursor key) op else s.cursor key := by
  unfold Sequencer.locally RuleCycler.after
  by_cases h0 : op.responseCount = 0
  · simp [h0]
  · simp only [h0, if_false]
    by_cases hk : op.key = key
    · subst hk
      cases op.advance <;> simp [Sequencer.cursor]
    · have hget : ∀ c : C.State, (s.cursors.insert op.key c)[key]? = s.cursors[key]? := by
        intro c
        rw [get_insert, if_neg hk]
      simp only [Sequencer.cursor, hget, hk, false_and, if_false]

theorem Sequencer.locally_index (s : Sequencer C) {op : SeqOp} (h : op.advance = true) :
    (s.locally op).1 = C.serves (s.cursor op.key) op := by
  unfold Sequencer.locally RuleCycler.serves
  by_cases h0 : op.responseCount = 0
  · simp [h0]
  · simp [h0, h]

namespace SeqFleet

/-! ## One step -/

/-- No cursor has changed, and nothing has happened to one. -/
structure Same (f g : SeqFleet C) : Prop where
  cursors : ∀ n, (g.nodes n).cursors = (f.nodes n).cursors
  log : g.log = f.log

theorem Same.rfl' (f : SeqFleet C) : Same f f := ⟨fun _ => rfl, rfl⟩

theorem same_setCall (f : SeqFleet C) (slot : ℕ) (c : SeqCall) : Same f (f.setCall slot c) :=
  ⟨fun _ => rfl, rfl⟩

theorem same_reply (f : SeqFleet C) (slot : ℕ) (c : SeqCall) (r : SeqReply) : Same f (f.reply slot c r) := by
  unfold reply
  split
  · exact same_setCall f slot _
  · exact Same.rfl' f

theorem same_setNode (f : SeqFleet C) (node : ℕ) {s : Sequencer C} (h : s.cursors = (f.nodes node).cursors) :
    Same f (f.setNode node s) := by
  refine ⟨fun n => ?_, rfl⟩
  by_cases hn : n = node
  · subst hn; simpa [setNode] using h
  · simp [setNode, hn]

/-- What a move does to the cursors and to the log. -/
inductive Effect (f : SeqFleet C) : SeqFleet C → Prop
  | none {g} (h : Same f g) : Effect f g
  | turn {g} (slot node : ℕ) (op : SeqOp) (path : DecisionPath) (h : Same (f.takeTurn slot node op path) g) :
      Effect f g
  | moved {g} (node : ℕ) (ring : Option Ring) (h : Same (f.note (.moved node ring)) g) : Effect f g
  | crashed {g} (node : ℕ)
      (h : Same ((f.setNode node { f.nodes node with ring := none, cursors := ∅ }).note (.crashed node)) g) : Effect f g

theorem effect_onCall {f : SeqFleet C} {slot : ℕ} {act : SeqCall → SeqFleet C} (h : ∀ c, Effect f (act c)) :
    Effect f (f.onCall slot act) := by
  unfold onCall
  cases f.calls[slot]? with
  | none => exact .none (Same.rfl' f)
  | some c => exact h c

theorem effect_turnOf (f : SeqFleet C) (slot : ℕ) (c : SeqCall) : Effect f (f.turnOf slot c) := by
  unfold turnOf
  cases c.stage with
  | ready path => exact .turn slot c.node c.op path (same_setCall _ slot _)
  | _ => exact .none (Same.rfl' f)

theorem effect_deliverTo (f : SeqFleet C) (slot : ℕ) (c : SeqCall) : Effect f (f.deliverTo score slot c) := by
  unfold deliverTo
  split
  · rename_i owner mIdx _ _
    dsimp only
    cases (f.nodes owner).refuses score owner mIdx c.op.key with
    | none => exact .none ⟨fun _ => rfl, rfl⟩
    | some refusal =>
      have h := same_reply (f.setCall slot { c with onWire := false }) slot { c with onWire := false } refusal
      exact .none ⟨h.cursors, h.log⟩
  · exact .none (Same.rfl' f)

theorem effect_serveCall (f : SeqFleet C) (task owner slot : ℕ) (c : SeqCall) :
    Effect f (f.serveCall task owner slot c) := by
  have h := same_reply ({ f with tasks := f.tasks.eraseIdx task }.takeTurn slot owner c.op .forward) slot c
    (.index ((f.nodes owner).locally c.op).1)
  exact .turn slot owner c.op .forward ⟨h.cursors, h.log⟩

theorem effect_receiveReply (f : SeqFleet C) (slot : ℕ) (c : SeqCall) : Effect f (f.receiveReply slot c) := by
  unfold receiveReply
  cases c.stage with
  | replied r =>
    dsimp only
    cases r.accepted c.op.responseCount with
    | none => exact .none (same_setCall f slot _)
    | some index => exact .none (same_setCall f slot _)
  | _ => exact .none (Same.rfl' f)

theorem effect_giveUpOn (f : SeqFleet C) (slot : ℕ) (c : SeqCall) : Effect f (f.giveUpOn slot c) := by
  unfold giveUpOn
  cases c.stage with
  | waiting => exact .none (same_setCall f slot _)
  | replied r => exact .none (same_setCall f slot _)
  | _ => exact .none (Same.rfl' f)

theorem effect_step (f : SeqFleet C) (m : SeqMove) : Effect f (f.step score m) := by
  cases m with
  | call node op => exact .none ⟨fun _ => rfl, rfl⟩
  | turn slot => exact effect_onCall (effect_turnOf f slot)
  | deliver slot => exact effect_onCall (effect_deliverTo score f slot)
  | serve task =>
    cases ht : f.tasks[task]? with
    | none =>
      simp only [step, ht]
      exact .none (Same.rfl' f)
    | some t =>
      simp only [step, ht]
      exact effect_onCall (effect_serveCall f task t.1 t.2)
  | receive slot => exact effect_onCall (effect_receiveReply f slot)
  | resend slot => exact effect_onCall fun c => .none (same_setCall f slot _)
  | giveUp slot => exact effect_onCall (effect_giveUpOn f slot)
  | membership node ring =>
    have h := same_setNode f node (s := { f.nodes node with ring := ring }) rfl
    exact .moved node ring ⟨h.cursors, rfl⟩
  | isolate node isolated => exact .none (same_setNode f node rfl)
  | crash node => exact .crashed node ⟨fun _ => rfl, rfl⟩

/-! ## Whole runs -/

/-- Every cursor of the key is what its node's own advances lead to, and every `next` for the
key was answered from the cursor as it was then. -/
structure SeqKept (key : CursorKey) (f : SeqFleet C) : Prop where
  cursor : ∀ node, (f.nodes node).cursor key = C.replay (advances f.log node key)
  told : ∀ before t later, f.log = before ++ .turn t :: later → t.op.key = key → t.op.advance = true →
    t.index = C.serves (C.replay (advances before t.node key)) t.op

variable {key : CursorKey}

theorem SeqKept.same {f g : SeqFleet C} (hf : SeqKept key f) (h : Same f g) : SeqKept key g := by
  refine ⟨fun node => ?_, ?_⟩
  · have hc : (g.nodes node).cursor key = (f.nodes node).cursor key := by
      unfold Sequencer.cursor
      rw [h.cursors]
    rw [hc, h.log]
    exact hf.cursor node
  · rw [h.log]
    exact hf.told

theorem told_note {f : SeqFleet C} (hf : SeqKept key f) {e : SeqEvent}
    (he : ∀ t, e = .turn t → t.op.key = key → t.op.advance = true →
      t.index = C.serves (C.replay (advances f.log t.node key)) t.op)
    {before later : List SeqEvent} {t : Turn} (h : f.log ++ [e] = before ++ .turn t :: later)
    (hkey : t.op.key = key) (ht : t.op.advance = true) :
    t.index = C.serves (C.replay (advances before t.node key)) t.op := by
  rcases List.eq_nil_or_concat later with rfl | ⟨later', e', rfl⟩
  · obtain ⟨hlog, hlast⟩ := List.append_inj' h rfl
    rw [← hlog]
    exact he t (by simpa using hlast) hkey ht
  · have hsplit : f.log ++ [e] = (before ++ .turn t :: later') ++ [e'] := by rw [h]; simp
    obtain ⟨hlog, -⟩ := List.append_inj' hsplit rfl
    exact hf.told before t later' hlog hkey ht

theorem kept_takeTurn {f : SeqFleet C} (hf : SeqKept key f) (slot node : ℕ) (op : SeqOp) (path : DecisionPath) :
    SeqKept key (f.takeTurn slot node op path) := by
  refine ⟨fun n => ?_, fun before t later h hkey ht => ?_⟩
  · have hlog : advances (f.takeTurn slot node op path).log n key =
        if node = n ∧ op.key = key ∧ op.advance = true then advances f.log n key ++ [op]
        else advances f.log n key := by
      rw [show (f.takeTurn slot node op path).log = f.log ++ [_] from rfl, advances_append]
      rfl
    rw [hlog]
    by_cases hn : node = n
    · subst hn
      have hnode : (f.takeTurn slot node op path).nodes node = ((f.nodes node).locally op).2 := by
        simp [takeTurn, setNode, note]
      rw [hnode, Sequencer.locally_cursor, hf.cursor]
      by_cases hk : op.key = key ∧ op.advance = true
      · rw [if_pos hk, if_pos ⟨rfl, hk⟩, C.replay_append]
      · rw [if_neg hk, if_neg fun h => hk h.2]
    · have hnode : (f.takeTurn slot node op path).nodes n = f.nodes n := by
        simp [takeTurn, setNode, note, Ne.symm hn]
      rw [hnode, hf.cursor, if_neg fun h => hn h.1]
  · refine told_note hf (e := .turn ⟨slot, node, op, path, ((f.nodes node).locally op).1⟩) ?_ h hkey ht
    rintro t ⟨⟩ rfl hadv
    rw [Sequencer.locally_index _ hadv, hf.cursor]

theorem kept_moved {f : SeqFleet C} (hf : SeqKept key f) (node : ℕ) (ring : Option Ring) :
    SeqKept key (f.note (.moved node ring)) := by
  refine ⟨fun n => ?_, fun before t later h hkey ht => ?_⟩
  · rw [show (f.note (.moved node ring)).log = f.log ++ [_] from rfl, advances_append]
    exact hf.cursor n
  · exact told_note hf (by rintro t ⟨⟩) h hkey ht

theorem kept_crashed {f : SeqFleet C} (hf : SeqKept key f) (node : ℕ) :
    SeqKept key ((f.setNode node { f.nodes node with ring := none, cursors := ∅ }).note (.crashed node)) := by
  refine ⟨fun n => ?_, fun before t later h hkey ht => ?_⟩
  · rw [show ((f.setNode node { f.nodes node with ring := none, cursors := ∅ }).note (.crashed node)).log =
      f.log ++ [.crashed node] from rfl, advances_append]
    by_cases hn : node = n
    · subst hn
      simp [setNode, note, Sequencer.cursor, SeqEvent.past, RuleCycler.replay]
    · have hpast : SeqEvent.past n key (advances f.log n key) (.crashed node) = advances f.log n key := if_neg hn
      rw [hpast, ← hf.cursor]
      simp [setNode, note, Ne.symm hn]
  · exact told_note hf (by rintro t ⟨⟩) h hkey ht

theorem kept_step {f : SeqFleet C} (hf : SeqKept key f) (m : SeqMove) : SeqKept key (f.step score m) := by
  cases effect_step score f m with
  | none h => exact hf.same h
  | turn slot node op path h => exact (kept_takeTurn hf slot node op path).same h
  | moved node ring h => exact (kept_moved hf node ring).same h
  | crashed node h => exact (kept_crashed hf node).same h

theorem kept_idle {nodes : ℕ → Sequencer C} (h : ∀ n, (nodes n).cursors[key]? = none) :
    SeqKept key { nodes := nodes } where
  cursor := fun node => by simp [Sequencer.cursor, h node, advances, RuleCycler.replay]
  told := fun before t later h => by simp at h

theorem kept_run {f : SeqFleet C} (hf : SeqKept key f) (ms : List SeqMove) : SeqKept key (f.run score ms) := by
  induction ms generalizing f with
  | nil => exact hf
  | cons m ms ih => exact ih (kept_step score hf m)

/-! ## Moves of ownership -/

end SeqFleet

def cursorOwner (score : ℕ → OwnedKey → ℕ) (ring : Option Ring) (key : CursorKey) : Option ℕ :=
  ring.bind fun r => r.owner score ⟨.sequence, wireKey key⟩

/-- A `next` for the key, answered by the node as its owner. -/
def SeqEvent.ownNext (node : ℕ) (key : CursorKey) : SeqEvent → Bool
  | .turn t => t.node = node && t.op.key = key && t.op.advance && t.asOwner
  | .moved _ _ | .crashed _ => false

/-- The turn `t`, after the events `earlier`, is the first `next` its node answers as owner
of the key since its ring gave it the key at an index with another owner at the index before.
`previous` tells the membership before the one at a log index. -/
def FirstNext (score : ℕ → OwnedKey → ℕ) (previous : ℕ → Option Ring) (log earlier : List SeqEvent) (t : Turn) :
    Prop :=
  (∃ later, log = earlier ++ .turn t :: later) ∧ SeqEvent.ownNext t.node t.op.key (.turn t) = true ∧
  ∃ before ring between, earlier = before ++ .moved t.node (some ring) :: between ∧
    (∃ other, other ≠ t.node ∧ cursorOwner score (previous ring.mIdx) t.op.key = some other) ∧
    cursorOwner score (some ring) t.op.key = some t.node ∧
    ∀ e ∈ between, e.ownNext t.node t.op.key = false

namespace SeqFleet

/-- **When a cursor restarts as its ownership moves.** Every first `next` after a move is a
fresh cycler's index exactly when each of them comes from a cycler that its node's earlier
advances of the key leave answering like a fresh one; so it is if the node has not
advanced the key since it started. -/
theorem cursor_restarts_iff (nodes : ℕ → Sequencer C) (previous : ℕ → Option Ring) (ms : List SeqMove) :
    ((∀ earlier t, FirstNext score previous ((start nodes).run score ms).log earlier t → t.index = C.first t.op) ↔
      ∀ earlier t, FirstNext score previous ((start nodes).run score ms).log earlier t →
        C.serves (C.replay (advances earlier t.node t.op.key)) t.op = C.first t.op) ∧
    ∀ earlier t, FirstNext score previous ((start nodes).run score ms).log earlier t →
      advances earlier t.node t.op.key = [] → C.first t.op < t.op.responseCount → t.index = C.first t.op := by
  have hindex : ∀ earlier t, FirstNext score previous ((start nodes).run score ms).log earlier t →
      t.index = C.serves (C.replay (advances earlier t.node t.op.key)) t.op := by
    rintro earlier t ⟨⟨later, hlog⟩, hown, -⟩
    have hadv : t.op.advance = true := by
      simp only [SeqEvent.ownNext, Bool.and_eq_true] at hown
      exact hown.1.2
    have hkept : SeqKept t.op.key ((start nodes).run score ms) := kept_run score (kept_idle fun n => by simp) ms
    exact hkept.told earlier t later hlog rfl hadv
  refine ⟨?_, ?_⟩
  · constructor
    · intro h earlier t ht
      rw [← hindex earlier t ht]
      exact h earlier t ht
    · intro h earlier t ht
      rw [hindex earlier t ht]
      exact h earlier t ht
  · intro earlier t ht hnone hfirst
    rw [hindex earlier t ht, hnone]
    exact C.serves_fresh hfirst

end SeqFleet

/-! A node that gets a key back goes on where it was when it lost it. -/

def turnByTurn : RuleCycler where
  State := ℕ
  fresh := 0
  advance := fun s n _ => (s % n, s + 1)
  peek := fun s n => s % n

def greatestId : ℕ → OwnedKey → ℕ := fun node _ => node

def twoResponses : SeqOp := ⟨(4545, "stub", ""), 2, [], true⟩

/-- The port is in owner mode, and the node has yet to learn its membership. -/
def justStarted : Sequencer turnByTurn := { modes := (∅ : Table Port SequencingMode).insert 4545 .owner }

/-- Node 1 alone, with node 2, and alone again: the membership before each of these. -/
def joinedAndLeft : ℕ → Option Ring
  | 2 => some ⟨[1], 1⟩
  | 3 => some ⟨[1, 2], 2⟩
  | _ => none

/-- Node 1 serves a response, node 2 joins and owns the key, node 2 leaves, and node 1
serves again. -/
def serveAndReturn : List SeqMove :=
  [.membership 1 (some ⟨[1], 1⟩), .call 1 twoResponses, .turn 0, .membership 1 (some ⟨[1, 2], 2⟩),
    .membership 1 (some ⟨[1], 3⟩), .call 1 twoResponses, .turn 1]

theorem key_back_goes_on :
    ∃ earlier t,
      FirstNext greatestId joinedAndLeft
        ((SeqFleet.start fun _ => justStarted).run greatestId serveAndReturn).log earlier t ∧
      t.index = 1 ∧ turnByTurn.first t.op = 0 := by
  have hlog : ((SeqFleet.start fun _ => justStarted).run greatestId serveAndReturn).log =
      [.moved 1 (some ⟨[1], 1⟩), .turn ⟨0, 1, twoResponses, .owner, 0⟩, .moved 1 (some ⟨[1, 2], 2⟩),
        .moved 1 (some ⟨[1], 3⟩), .turn ⟨1, 1, twoResponses, .owner, 1⟩] := by
    decide +kernel
  rw [hlog]
  refine ⟨[.moved 1 (some ⟨[1], 1⟩), .turn ⟨0, 1, twoResponses, .owner, 0⟩, .moved 1 (some ⟨[1, 2], 2⟩),
    .moved 1 (some ⟨[1], 3⟩)], ⟨1, 1, twoResponses, .owner, 1⟩, ⟨⟨[], rfl⟩, by decide, ?_⟩, rfl, by decide⟩
  refine ⟨[.moved 1 (some ⟨[1], 1⟩), .turn ⟨0, 1, twoResponses, .owner, 0⟩, .moved 1 (some ⟨[1, 2], 2⟩)],
    ⟨[1], 3⟩, [], rfl, ⟨2, by decide, by decide +kernel⟩, by decide +kernel, by simp⟩

end RiftCluster
