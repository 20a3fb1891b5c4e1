import RiftCluster.Proof.Sequencer

/-!
# One cursor for the fleet

While the membership stays as it is, every `next` for a key of an owner-mode imposter is
answered from the one cursor its owner holds, whichever member it was made on: the owner's
own calls take it directly, the others' pass the checks of `owner_decide` and their replies
the range check of the caller. The calls get the successive indices of one fresh cycler in
the order the owner took them (`fleet_cycles_one_cursor`).
-/

namespace RiftCluster

open KV

variable {C : RuleCycler} {score : ℕ → OwnedKey → ℕ} {r : Ring} {o : ℕ} {op : SeqOp}

/-- The index a fresh cycler gives after `n` earlier advances by the same operation. -/
def RuleCycler.output (C : RuleCycler) (op : SeqOp) (n : ℕ) : ℕ :=
  (C.advance (C.replay (List.replicate n op)) op.count32 (op.repeats[·]?)).1

/-- A member in good order: bound, not isolated, with this ring and the port in owner mode. -/
structure HoldsRing (r : Ring) (key : CursorKey) (s : Sequencer C) : Prop where
  bridge : s.bridge = true
  ring : s.ring = some r
  connected : s.isolated = false
  mode : s.mode key.1 = .owner

theorem HoldsRing.locally {key : CursorKey} {s : Sequencer C} (h : HoldsRing r key s) (op : SeqOp) :
    HoldsRing r key (s.locally op).2 := by
  unfold Sequencer.locally
  split
  · exact h
  · exact ⟨h.bridge, h.ring, h.connected, h.mode⟩

theorem Ring.owner_mem {key : OwnedKey} (h : r.owner score key = some o) : o ∈ r.members := List.argmax_mem h

theorem HoldsRing.view {key : CursorKey} {s : Sequencer C} (h : HoldsRing r key s)
    (ho : r.owner score ⟨.sequence, wireKey key⟩ = some o) : s.view = some r := by
  have hmem := Ring.owner_mem ho
  have hne : r.isEmpty = false := by
    unfold Ring.isEmpty
    cases hm : r.members with
    | nil => rw [hm] at hmem; cases hmem
    | cons => rfl
  simp [Sequencer.view, h.ring, hne]

theorem HoldsRing.route {key : CursorKey} {s : Sequencer C} (h : HoldsRing r key s)
    (ho : r.owner score ⟨.sequence, wireKey key⟩ = some o) (me : ℕ) :
    s.route score me key = if o = me then .here .owner else .ask o r.mIdx := by
  unfold Sequencer.route
  simp only [h.mode, h.bridge, h.view ho, ho, h.connected]
  rfl

theorem HoldsRing.refuses {key : CursorKey} {s : Sequencer C} (h : HoldsRing r key s)
    (ho : r.owner score ⟨.sequence, wireKey key⟩ = some o) : s.refuses score o r.mIdx key = none := by
  unfold Sequencer.refuses
  simp [h.view ho, ho, h.connected]

/-- The moves of a fleet whose members call `next` for one key while nothing fails: every
request is delivered once and every reply arrives. -/
inductive Calm (r : Ring) (op : SeqOp) : SeqMove → Prop
  | call {n : ℕ} (h : n ∈ r.members) : Calm r op (.call n op)
  | turn (slot : ℕ) : Calm r op (.turn slot)
  | deliver (slot : ℕ) : Calm r op (.deliver slot)
  | serve (task : ℕ) : Calm r op (.serve task)
  | receive (slot : ℕ) : Calm r op (.receive slot)

def turns (log : List SeqEvent) : List Turn :=
  log.filterMap fun
    | .turn t => some t
    | .moved _ _ | .crashed _ => none

@[simp] theorem turns_append (log : List SeqEvent) (t : Turn) : turns (log ++ [.turn t]) = turns log ++ [t] := by
  simp [turns]

def Served (log : List SeqEvent) (slot index : ℕ) : Prop := ∃ t ∈ turns log, t.slot = slot ∧ t.index = index

def Unserved (log : List SeqEvent) (slot : ℕ) : Prop := ∀ t ∈ turns log, t.slot ≠ slot

theorem Served.append {log : List SeqEvent} {slot index : ℕ} (h : Served log slot index) (t : Turn) :
    Served (log ++ [.turn t]) slot index := by
  obtain ⟨u, hu, hslot⟩ := h
  exact ⟨u, by simp [hu], hslot⟩

theorem Unserved.append {log : List SeqEvent} {slot : ℕ} (h : Unserved log slot) {t : Turn} (ht : t.slot ≠ slot) :
    Unserved (log ++ [.turn t]) slot := by
  intro u hu
  rw [turns_append, List.mem_append, List.mem_singleton] at hu
  rcases hu with hu | rfl
  · exact h u hu
  · exact ht

namespace SeqFleet

/-- Where a call may stand. Its request is on the wire only while it waits and before it is
a task of the owner. -/
def CallOk (r : Ring) (o : ℕ) (f : SeqFleet C) (slot : ℕ) (c : SeqCall) : Prop :=
  match c.stage with
  | .ready path => path = .owner ∧ c.node = o ∧ Unserved f.log slot
  | .waiting => c.asked = some (o, r.mIdx) ∧ Unserved f.log slot ∧ (c.onWire = true → (o, slot) ∉ f.tasks)
  | .replied reply => ∃ i, reply = .index i ∧ Served f.log slot i
  | .done i path => (path = .owner ∨ path = .forward) ∧ Served f.log slot i
  | .dead => False

structure OneCursor (r : Ring) (o : ℕ) (op : SeqOp) (f : SeqFleet C) : Prop where
  holds : ∀ n ∈ r.members, HoldsRing r op.key (f.nodes n)
  log : ∀ e ∈ f.log, ∃ t, e = .turn t ∧ t.node = o ∧ t.op = op ∧ t.asOwner = true ∧ t.slot < f.calls.length
  once : ((turns f.log).map Turn.slot).Nodup
  tasks : f.tasks.Nodup
  task : ∀ t ∈ f.tasks, t.1 = o ∧ ∃ c, f.calls[t.2]? = some c ∧ c.stage = .waiting ∧ c.onWire = false
  call : ∀ slot c, f.calls[slot]? = some c → c.op = op ∧ (c.onWire = true → c.stage = .waiting) ∧ CallOk r o f slot c

variable {f : SeqFleet C}

theorem idle_oneCursor {nodes : ℕ → Sequencer C} (h : ∀ n ∈ r.members, HoldsRing r op.key (nodes n)) :
    OneCursor r o op { nodes := nodes } where
  holds := h
  log := by simp
  once := by simp [turns]
  tasks := by simp
  task := by simp
  call := by simp

/-! ## One step -/

theorem oneCursor_call (hf : OneCursor r o op f) (ho : r.owner score ⟨.sequence, wireKey op.key⟩ = some o) {n : ℕ}
    (hn : n ∈ r.members) : OneCursor r o op (f.step score (.call n op)) := by
  have hnew : Unserved f.log f.calls.length := by
    intro t ht heq
    obtain ⟨e, he, het⟩ := List.mem_filterMap.1 ht
    obtain ⟨t', rfl, -, -, -, hlt⟩ := hf.log e he
    cases het
    omega
  have hfree : (o, f.calls.length) ∉ f.tasks := by
    intro h
    obtain ⟨-, c, hc, -⟩ := hf.task _ h
    simp at hc
  refine ⟨hf.holds, fun e he => ?_, hf.once, hf.tasks, fun t ht => ?_, fun slot c hc => ?_⟩
  · obtain ⟨t, rfl, hnode, hop, hown, hlt⟩ := hf.log e he
    exact ⟨t, rfl, hnode, hop, hown, by simp [step]; omega⟩
  · obtain ⟨hto, c, hc, hstage⟩ := hf.task t ht
    exact ⟨hto, c, by simp [step, List.getElem?_append_left (List.getElem?_eq_some_iff.1 hc).1, hc], hstage⟩
  · simp only [step, (hf.holds n hn).route ho] at hc
    rcases Nat.lt_trichotomy slot f.calls.length with hlt | rfl | hgt
    · rw [List.getElem?_append_left hlt] at hc
      exact hf.call slot c hc
    · rw [List.getElem?_append_right le_rfl] at hc
      by_cases hon : o = n
      · simp only [hon, if_true, Nat.sub_self, List.getElem?_cons_zero, Option.some.injEq] at hc
        subst hc
        exact ⟨rfl, by simp [SeqCall.begin], rfl, hon.symm, hnew⟩
      · simp only [hon, if_false, Nat.sub_self, List.getElem?_cons_zero, Option.some.injEq] at hc
        subst hc
        exact ⟨rfl, fun _ => rfl, rfl, hnew, fun _ => hfree⟩
    · rw [List.getElem?_eq_none (by simp; omega)] at hc
      cases hc

theorem oneCursor_setCall (hf : OneCursor r o op f) {slot : ℕ} {c : SeqCall} (hop : c.op = op)
    (hwire : c.onWire = true → c.stage = .waiting) (hok : CallOk r o f slot c) (htask : (o, slot) ∈ f.tasks → c.stage = .waiting ∧ c.onWire = false) :
    OneCursor r o op (f.setCall slot c) := by
  refine ⟨hf.holds, fun e he => ?_, hf.once, hf.tasks, fun t ht => ?_, fun slot' c' hc' => ?_⟩
  · obtain ⟨t, ht⟩ := hf.log e he
    exact ⟨t, by simpa [setCall] using ht⟩
  · obtain ⟨hto, d, hd, hstage⟩ := hf.task t ht
    refine ⟨hto, ?_⟩
    by_cases hs : slot = t.2
    · refine ⟨c, ?_, htask (by rw [← hto, hs]; exact ht)⟩
      have hlt := (List.getElem?_eq_some_iff.1 hd).1
      simp [setCall, hs, hlt]
    · exact ⟨d, by simpa [setCall, List.getElem?_set, hs] using hd, hstage⟩
  · by_cases hs : slot = slot'
    · subst hs
      obtain rfl : c = c' := by
        have hlt := (List.getElem?_eq_some_iff.1 hc').1
        simp only [setCall, List.length_set] at hlt
        simpa [setCall, hlt] using hc'
      exact ⟨hop, hwire, hok⟩
    · exact hf.call slot' c' (by simpa [setCall, List.getElem?_set, hs] using hc')

theorem oneCursor_turn (hf : OneCursor r o op f) (t : Turn) {c : SeqCall} (c' : SeqCall) (hc : f.calls[t.slot]? = some c)
    (hun : Unserved f.log t.slot) (hnode : t.node = o) (hop : t.op = op) (hop' : c'.op = op)
    (hown : t.asOwner = true) (hwire : c'.onWire = false)
    (hstage : c'.stage = .replied (.index t.index) ∨ c'.stage = .done t.index .owner)
    {tasks' : List (ℕ × ℕ)} (hsub : tasks'.Sublist f.tasks) (hnot : (o, t.slot) ∉ tasks') :
    OneCursor r o op
      { nodes := Function.update f.nodes o ((f.nodes o).locally op).2, calls := f.calls.set t.slot c',
        tasks := tasks', log := f.log ++ [.turn t] } := by
  have hlt := (List.getElem?_eq_some_iff.1 hc).1
  have hserved : Served (f.log ++ [.turn t]) t.slot t.index := ⟨t, by simp, rfl, rfl⟩
  refine ⟨fun n hn => ?_, fun e he => ?_, ?_, hsub.nodup hf.tasks, fun u hu => ?_, fun slot d hd => ?_⟩
  · by_cases hno : n = o
    · subst hno
      simpa using (hf.holds n hn).locally op
    · simpa [hno] using hf.holds n hn
  · rcases List.mem_append.1 he with he | he
    · obtain ⟨u, hu⟩ := hf.log e he
      exact ⟨u, by simpa using hu⟩
    · exact ⟨t, by simpa using he, hnode, hop, hown, by simpa using hlt⟩
  · rw [turns_append, List.map_append, List.nodup_append]
    refine ⟨hf.once, by simp, ?_⟩
    rintro a ha b hb rfl
    obtain ⟨u, hu, rfl⟩ := List.mem_map.1 ha
    exact hun u hu (by simpa using hb)
  · obtain ⟨huo, d, hd, hd'⟩ := hf.task u (hsub.subset hu)
    have hne : t.slot ≠ u.2 := by
      rintro heq
      exact hnot (by rw [heq, ← huo]; exact hu)
    exact ⟨huo, d, by simpa [List.getElem?_set, hne] using hd, hd'⟩
  · by_cases hs : t.slot = slot
    · subst hs
      obtain rfl : c' = d := by simpa [hlt] using hd
      refine ⟨hop', by simp [hwire], ?_⟩
      unfold CallOk
      rcases hstage with h | h
      · rw [h]; exact ⟨_, rfl, hserved⟩
      · rw [h]; exact ⟨.inl rfl, hserved⟩
    · have hd' : f.calls[slot]? = some d := by simpa [List.getElem?_set, hs] using hd
      obtain ⟨hdop, hdwire, hdok⟩ := hf.call slot d hd'
      refine ⟨hdop, hdwire, ?_⟩
      unfold CallOk at hdok ⊢
      cases hst : d.stage with
      | ready path =>
        simp only [hst] at hdok ⊢
        exact ⟨hdok.1, hdok.2.1, hdok.2.2.append hs⟩
      | waiting =>
        simp only [hst] at hdok ⊢
        exact ⟨hdok.1, hdok.2.1.append hs, fun hw hmem => hdok.2.2 hw (hsub.subset hmem)⟩
      | replied reply =>
        simp only [hst] at hdok ⊢
        obtain ⟨i, hi, hs⟩ := hdok
        exact ⟨i, hi, hs.append t⟩
      | done i path =>
        simp only [hst] at hdok ⊢
        exact ⟨hdok.1, hdok.2.append t⟩
      | dead => simp only [hst] at hdok

theorem OneCursor.not_task (hf : OneCursor r o op f) {slot : ℕ} {c : SeqCall} (hc : f.calls[slot]? = some c)
    (h : c.stage ≠ .waiting) : (o, slot) ∉ f.tasks := by
  intro ht
  obtain ⟨-, d, hd, hwait, -⟩ := hf.task _ ht
  rw [hc] at hd
  cases hd
  exact h hwait

theorem oneCursor_turnOf (hf : OneCursor r o op f) {slot : ℕ} {c : SeqCall} (hc : f.calls[slot]? = some c) :
    OneCursor r o op (f.turnOf slot c) := by
  obtain ⟨hop, hwire, hok⟩ := hf.call slot c hc
  unfold turnOf
  cases hst : c.stage with
  | ready path =>
    simp only [CallOk, hst] at hok
    obtain ⟨rfl, hnode, hun⟩ := hok
    have hoff : c.onWire = false := by simpa [hst] using hwire
    have h := oneCursor_turn hf ⟨slot, o, op, .owner, ((f.nodes o).locally op).1⟩
      { c with stage := .done ((f.nodes o).locally op).1 .owner } hc hun rfl rfl hop rfl hoff (.inr rfl)
      (List.Sublist.refl f.tasks) (hf.not_task hc (by simp [hst]))
    simpa only [takeTurn, setNode, note, setCall, hnode, hop] using h
  | _ => exact hf

theorem oneCursor_deliverTo (hf : OneCursor r o op f) (ho : r.owner score ⟨.sequence, wireKey op.key⟩ = some o)
    {slot : ℕ} {c : SeqCall} (hc : f.calls[slot]? = some c) : OneCursor r o op (f.deliverTo score slot c) := by
  obtain ⟨hop, hwire, hok⟩ := hf.call slot c hc
  unfold deliverTo
  split
  case h_2 => exact hf
  case h_1 owner mIdx hasked honWire =>
    have hwait := hwire honWire
    simp only [CallOk, hwait] at hok
    obtain ⟨hasked', hun, hfree⟩ := hok
    rw [hasked] at hasked'
    cases hasked'
    have hpass : (f.nodes o).refuses score o r.mIdx c.op.key = none := by
      rw [hop]
      exact (hf.holds o (Ring.owner_mem ho)).refuses ho
    simp only [hpass]
    have hset : OneCursor r o op (f.setCall slot { c with onWire := false }) :=
      oneCursor_setCall hf hop (by simp) (by simp only [CallOk, hwait]; exact ⟨hasked, hun, by simp⟩)
        fun _ => ⟨hwait, rfl⟩
    have hlt := (List.getElem?_eq_some_iff.1 hc).1
    refine ⟨hset.holds, hset.log, hset.once, ?_, fun t ht => ?_, fun slot' d hd => ?_⟩
    · rw [List.nodup_append]
      refine ⟨hf.tasks, by simp, ?_⟩
      rintro t ht u hu rfl
      rw [List.mem_singleton] at hu
      exact hfree honWire (hu ▸ ht)
    · rcases List.mem_append.1 ht with ht | ht
      · exact hset.task t ht
      · rw [List.mem_singleton] at ht
        subst ht
        exact ⟨rfl, { c with onWire := false }, by simp [setCall, hlt], hwait, rfl⟩
    · obtain ⟨hdop, hdwire, hdok⟩ := hset.call slot' d hd
      refine ⟨hdop, hdwire, ?_⟩
      unfold CallOk at hdok ⊢
      cases hst : d.stage with
      | waiting =>
        simp only [hst] at hdok ⊢
        refine ⟨hdok.1, hdok.2.1, fun hw hmem => ?_⟩
        rcases List.mem_append.1 hmem with hmem | hmem
        · exact hdok.2.2 hw hmem
        · -- the task is new, and its request is no longer on the wire
          obtain rfl : slot' = slot := by simpa using hmem
          have : d = { c with onWire := false } := by simpa [setCall, hlt] using hd.symm
          rw [this] at hw
          cases hw
      | ready path => simpa only [hst] using hdok
      | replied reply => simpa only [hst] using hdok
      | done i path => simpa only [hst] using hdok
      | dead => simp only [hst] at hdok

theorem oneCursor_serveCall (hf : OneCursor r o op f) {task slot : ℕ} {c : SeqCall}
    (ht : f.tasks[task]? = some (o, slot)) (hc : f.calls[slot]? = some c) :
    OneCursor r o op (f.serveCall task o slot c) := by
  obtain ⟨hop, hwire, hok⟩ := hf.call slot c hc
  obtain ⟨-, d, hd, hwait, hoff⟩ := hf.task (o, slot) (List.mem_of_getElem? ht)
  rw [hc] at hd
  cases hd
  simp only [CallOk, hwait] at hok
  have hnot : (o, slot) ∉ f.tasks.eraseIdx task := by
    intro hmem
    obtain ⟨i, hi, hget⟩ := List.mem_eraseIdx_iff_getElem?.1 hmem
    have hlt := (List.getElem?_eq_some_iff.1 hget).1
    exact hi ((List.getElem?_inj hlt hf.tasks).1 (hget.trans ht.symm))
  have h := oneCursor_turn hf ⟨slot, o, op, .forward, ((f.nodes o).locally op).1⟩
    { c with stage := .replied (.index ((f.nodes o).locally op).1) } hc hok.2.1 rfl rfl hop rfl hoff
    (.inl rfl)
    (List.eraseIdx_sublist f.tasks task) hnot
  unfold serveCall reply
  rw [if_pos hwait]
  simpa only [takeTurn, setNode, note, setCall, hop] using h

/-- The turns of a calm fleet are all by the owner and for the one operation, so before the
`n`-th of them there were `n` advances. -/
theorem advances_turns (ts : List Turn) (h : ∀ t ∈ ts, t.node = o ∧ t.op = op) (hadv : op.advance = true) :
    advances (ts.map .turn) o op.key = List.replicate ts.length op := by
  induction ts using List.reverseRecOn with
  | nil => rfl
  | append_singleton ts t ih =>
    obtain ⟨hnode, hop⟩ := h t (by simp)
    rw [List.map_append, List.map_singleton, advances_append, ih fun u hu => h u (by simp [hu])]
    simp [SeqEvent.past, hnode, hop, hadv, List.replicate_succ']

theorem OneCursor.log_eq (hf : OneCursor r o op f) : f.log = (turns f.log).map .turn := by
  have h : ∀ log : List SeqEvent, (∀ e ∈ log, ∃ t, e = .turn t) → log = (turns log).map .turn := by
    intro log
    induction log with
    | nil => intro _; rfl
    | cons e log ih =>
      intro he
      obtain ⟨t, rfl⟩ := he e (by simp)
      have hrest := ih fun e' he' => he e' (by simp [he'])
      simpa [turns] using hrest
  refine h f.log fun e he => ?_
  obtain ⟨t, ht, -⟩ := hf.log e he
  exact ⟨t, ht⟩

theorem OneCursor.turn_of (hf : OneCursor r o op f) :
    ∀ t ∈ turns f.log, t.node = o ∧ t.op = op ∧ t.asOwner = true := by
  intro t ht
  have hmem : SeqEvent.turn t ∈ f.log := by rw [hf.log_eq]; exact List.mem_map_of_mem ht
  obtain ⟨u, hu, hnode, hop, hown, -⟩ := hf.log _ hmem
  cases hu
  exact ⟨hnode, hop, hown⟩

theorem OneCursor.index_eq (hf : OneCursor r o op f) (hkept : SeqKept op.key f) (hadv : op.advance = true)
    (hbelow : ∀ n, C.output op n < op.responseCount) {n : ℕ} {t : Turn} (ht : (turns f.log)[n]? = some t) :
    t.index = C.output op n := by
  obtain ⟨hlt, hget⟩ := List.getElem?_eq_some_iff.1 ht
  obtain ⟨hnode, hop, -⟩ := hf.turn_of t (List.mem_of_getElem? ht)
  have hsplit : f.log = ((turns f.log).take n).map .turn ++ .turn t :: ((turns f.log).drop (n + 1)).map .turn := by
    conv_lhs => rw [hf.log_eq, ← List.take_append_drop n (turns f.log), List.drop_eq_getElem_cons hlt, hget]
    simp
  have htold := hkept.told _ t _ hsplit (by rw [hop]) (by rw [hop]; exact hadv)
  have hpast := advances_turns ((turns f.log).take n)
    (fun u hu => ⟨(hf.turn_of u (List.mem_of_mem_take hu)).1, (hf.turn_of u (List.mem_of_mem_take hu)).2.1⟩) hadv
  rw [hnode, hpast, hop, List.length_take, min_eq_left hlt.le] at htold
  have hb := hbelow n
  unfold RuleCycler.output at hb ⊢
  rw [htold]
  unfold RuleCycler.serves
  rw [if_neg (by omega), min_eq_left (by omega)]

theorem oneCursor_receiveReply (hf : OneCursor r o op f) (hkept : SeqKept op.key f) (hadv : op.advance = true)
    (hbelow : ∀ n, C.output op n < op.responseCount) {slot : ℕ} {c : SeqCall} (hc : f.calls[slot]? = some c) :
    OneCursor r o op (f.receiveReply slot c) := by
  obtain ⟨hop, hwire, hok⟩ := hf.call slot c hc
  unfold receiveReply
  cases hst : c.stage with
  | replied reply =>
    simp only [CallOk, hst] at hok
    obtain ⟨i, rfl, hserved⟩ := hok
    -- the index is one of the cycler's outputs, so the caller takes it
    have hi : i < op.responseCount := by
      obtain ⟨t, ht, -, rfl⟩ := hserved
      obtain ⟨n, hn⟩ := List.mem_iff_getElem?.1 ht
      rw [hf.index_eq hkept hadv hbelow hn]
      exact hbelow n
    simp only [SeqReply.accepted, hop, hi, if_true]
    have hoff : c.onWire = false := by simpa [hst] using hwire
    refine oneCursor_setCall hf rfl (by simp [hoff]) ⟨.inr rfl, hserved⟩ fun hmem => ?_
    exact absurd hmem (hf.not_task hc (by simp [hst]))
  | _ => exact hf

theorem oneCursor_onCall (hf : OneCursor r o op f) {slot : ℕ} {act : SeqCall → SeqFleet C}
    (h : ∀ c, f.calls[slot]? = some c → OneCursor r o op (act c)) : OneCursor r o op (f.onCall slot act) := by
  unfold onCall
  cases hc : f.calls[slot]? with
  | none => exact hf
  | some c => exact h c hc

theorem oneCursor_step (hf : OneCursor r o op f) (hkept : SeqKept op.key f)
    (ho : r.owner score ⟨.sequence, wireKey op.key⟩ = some o) (hadv : op.advance = true)
    (hbelow : ∀ n, C.output op n < op.responseCount) {m : SeqMove} (hm : Calm r op m) :
    OneCursor r o op (f.step score m) := by
  cases hm with
  | call hn => exact oneCursor_call hf ho hn
  | turn slot => exact oneCursor_onCall hf fun c hc => oneCursor_turnOf hf hc
  | deliver slot => exact oneCursor_onCall hf fun c hc => oneCursor_deliverTo hf ho hc
  | receive slot => exact oneCursor_onCall hf fun c hc => oneCursor_receiveReply hf hkept hadv hbelow hc
  | serve task =>
    cases ht : f.tasks[task]? with
    | none =>
      simp only [step, ht]
      exact hf
    | some t =>
      obtain ⟨owner, slot⟩ := t
      obtain ⟨hto, -⟩ := hf.task _ (List.mem_of_getElem? ht)
      simp only at hto
      subst hto
      simp only [step, ht]
      exact oneCursor_onCall hf fun c hc => oneCursor_serveCall hf ht hc

theorem oneCursor_run (hf : OneCursor r o op f) (hkept : SeqKept op.key f)
    (ho : r.owner score ⟨.sequence, wireKey op.key⟩ = some o) (hadv : op.advance = true)
    (hbelow : ∀ n, C.output op n < op.responseCount) {ms : List SeqMove} (hms : ∀ m ∈ ms, Calm r op m) :
    OneCursor r o op (f.run score ms) := by
  induction ms generalizing f with
  | nil => exact hf
  | cons m ms ih =>
    have hstep := oneCursor_step hf hkept ho hadv hbelow (hms m (by simp))
    exact ih hstep (kept_step score hkept m) fun m' hm' => hms m' (by simp [hm'])

theorem run_memberless (hr : r.members = []) {nodes : ℕ → Sequencer C} {ms : List SeqMove}
    (hms : ∀ m ∈ ms, Calm r op m) : ({ nodes := nodes } : SeqFleet C).run score ms = { nodes := nodes } := by
  induction ms with
  | nil => rfl
  | cons m ms ih =>
    have hstep : ({ nodes := nodes } : SeqFleet C).step score m = { nodes := nodes } := by
      cases hms m (by simp) with
      | call hn => rw [hr] at hn; cases hn
      | _ => rfl
    have hrun : ({ nodes := nodes } : SeqFleet C).run score (m :: ms) =
        (({ nodes := nodes } : SeqFleet C).step score m).run score ms := rfl
    rw [hrun, hstep]
    exact ih fun m' hm' => hms m' (by simp [hm'])

end SeqFleet

/-- **One cursor for the fleet.** Under a ring that does not change, with every member in good
order and nothing lost, the turns taken for a key get the successive outputs of one fresh
cycler, no call is served twice, none falls back, and what a call returns is the index it was
served with. -/
theorem fleet_cycles_one_cursor (score : ℕ → OwnedKey → ℕ) (r : Ring) (op : SeqOp) (nodes : ℕ → Sequencer C)
    (hnodes : ∀ n ∈ r.members, HoldsRing r op.key (nodes n)) (hnone : ∀ n, (nodes n).cursors[op.key]? = none)
    (hadv : op.advance = true) (hbelow : ∀ n, C.output op n < op.responseCount) (ms : List SeqMove)
    (hms : ∀ m ∈ ms, Calm r op m) :
    let f := ({ nodes := nodes } : SeqFleet C).run score ms
    (turns f.log).map Turn.index = (List.range (turns f.log).length).map (C.output op) ∧
    ((turns f.log).map Turn.slot).Nodup ∧
    (∀ t ∈ turns f.log, t.asOwner = true ∧ r.owner score ⟨.sequence, wireKey op.key⟩ = some t.node) ∧
    ∀ slot c, f.calls[slot]? = some c → c.stage ≠ .ready .fallback ∧
      ∀ i path, c.stage = .done i path → path ≠ .fallback ∧ Served f.log slot i := by
  intro f
  cases ho : r.owner score ⟨.sequence, wireKey op.key⟩ with
  | none =>
    have hf : f = { nodes := nodes } := SeqFleet.run_memberless (List.argmax_eq_none.1 ho) hms
    simp [hf, turns]
  | some o =>
    have hkept : SeqFleet.SeqKept op.key f := SeqFleet.kept_run score (SeqFleet.kept_idle hnone) ms
    have hf : SeqFleet.OneCursor r o op f :=
      SeqFleet.oneCursor_run (SeqFleet.idle_oneCursor hnodes) (SeqFleet.kept_idle hnone) ho hadv hbelow hms
    refine ⟨?_, hf.once, fun t ht => ?_, fun slot c hc => ?_⟩
    · refine List.ext_getElem? fun n => ?_
      rw [List.getElem?_map, List.getElem?_map]
      cases ht : (turns f.log)[n]? with
      | none => simp [List.getElem?_eq_none_iff.1 ht]
      | some t =>
        have hlt := (List.getElem?_eq_some_iff.1 ht).1
        simp [List.getElem?_range hlt, hf.index_eq hkept hadv hbelow ht]
    · obtain ⟨hnode, -, hown⟩ := hf.turn_of t ht
      exact ⟨hown, by rw [hnode]⟩
    · obtain ⟨-, -, hok⟩ := hf.call slot c hc
      unfold SeqFleet.CallOk at hok
      constructor
      · intro hst
        rw [hst] at hok
        cases hok.1
      · intro i path hst
        rw [hst] at hok
        obtain ⟨hpath, hserved⟩ := hok
        exact ⟨by rcases hpath with rfl | rfl <;> simp, hserved⟩

def inTwoRing (_ : ℕ) : Sequencer turnByTurn :=
  { ring := some ⟨[1, 2], 7⟩, modes := (∅ : Table Port SequencingMode).insert 4545 .owner }

/-- Two calls on node 1 and one on the owner, which takes its own first. -/
def threeNexts : List SeqMove :=
  [.call 1 twoResponses, .call 2 twoResponses, .call 1 twoResponses, .deliver 0, .turn 1, .serve 0, .deliver 2,
    .serve 0, .receive 2, .receive 0]

theorem threeNexts_cycle :
    (({ nodes := inTwoRing } : SeqFleet turnByTurn).run greatestId threeNexts).calls.map SeqCall.stage =
      [.done 1 .forward, .done 0 .owner, .done 0 .forward] ∧
    (turns (({ nodes := inTwoRing } : SeqFleet turnByTurn).run greatestId threeNexts).log).map Turn.index =
      (List.range 3).map (turnByTurn.output twoResponses) := by
  have hlen : (turns (({ nodes := inTwoRing } : SeqFleet turnByTurn).run greatestId threeNexts).log).length = 3 := by
    decide +kernel
  have h := fleet_cycles_one_cursor greatestId ⟨[1, 2], 7⟩ twoResponses inTwoRing
    (fun n _ => ⟨rfl, rfl, rfl, by simp [Sequencer.mode, inTwoRing, twoResponses]⟩) (fun n => rfl) rfl
    (fun n => Nat.mod_lt _ (by decide)) threeNexts
    (by
      intro m hm
      simp only [threeNexts, List.mem_cons, List.not_mem_nil, or_false] at hm
      rcases hm with rfl | rfl | rfl | rfl | rfl | rfl | rfl | rfl | rfl | rfl <;> constructor <;> simp)
  refine ⟨by decide +kernel, ?_⟩
  rw [← hlen]
  exact h.1

end RiftCluster
