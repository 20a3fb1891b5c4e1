import RiftCluster.Proof.Versions

/-!
# An owner's writes are linearizable

At one ring index, sets, increments, compare-and-swaps and deletes of a key act on a
single optional value, one at a time in the order they hold the lock: `execute` is that
sequential object. Merges take no lock, but an entry minted at a lower index never
replaces one of this index, so between a call's read and its write the record does not
move (`benign_leaves`).

`LinearOk` relates a node to the calls it has answered; `linearOk_step` keeps it.
-/

namespace RiftCluster

open KV

variable {V : Type}

/-! ## The sequential object -/

/-- What a reply says about the value. -/
inductive Told (V : Type) where
  | applied (value : Option V) (incremented : Option ℤ)
  | conflict (current : Option V)
  | error (reason : String)
  | refused
  deriving DecidableEq, Repr

def WriteReply.told : WriteReply V → Told V
  | .applied entry incremented _ => .applied (entry.map (·.value)) incremented
  | .casConflict current => .conflict current
  | .error reason => .error reason
  | .fenced _ | .notOwner _ => .refused

def WriteOp.IsRegister : WriteOp V → Prop
  | .set _ | .delete | .incr _ | .cas _ _ => True
  | .setTtl _ | .setKeyTtl _ | .clearFlow => False

section Spec

variable [FlowValue V] [DecidableEq V]

/-- **The object**: a call on a single optional value. -/
def execute (value : Option V) : WriteOp V → Option V × Told V
  | .set new => (some new, .applied (some new) none)
  | .delete => (none, .applied none none)
  | .incr amount =>
    let count := (value.bind FlowValue.asI64).getD 0
    match checkedAdd count amount with
    | none => (value, .error (overflowReason count amount))
    | some sum => (some (FlowValue.ofI64 sum), .applied none (some sum))
  | .cas expected new => if value = expected then (some new, .applied (some new) none) else (value, .conflict value)
  | .setTtl _ | .setKeyTtl _ | .clearFlow => (value, .refused)

def valueAfter (value : Option V) (calls : List (Answer V)) : Option V :=
  calls.foldl (fun v call => (execute v call.req.op).1) value

/-- The answers are those of the calls one at a time; a call whose durable write failed has
acted as well, and was answered with the failure. -/
def Agrees (value : Option V) : List (Answer V) → Prop
  | [] => True
  | call :: calls =>
    (call.fate = .executed → call.reply.told = (execute value call.req.op).2) ∧
      (call.fate = .failed → ∃ e : ShardError, call.reply = .error e.text) ∧
      Agrees (execute value call.req.op).1 calls

theorem agrees_append {value : Option V} {calls : List (Answer V)} {call : Answer V} :
    Agrees value (calls ++ [call]) ↔ Agrees value calls ∧
      (call.fate = .executed → call.reply.told = (execute (valueAfter value calls) call.req.op).2) ∧
      (call.fate = .failed → ∃ e : ShardError, call.reply = .error e.text) := by
  induction calls generalizing value with
  | nil => simp [Agrees, valueAfter]
  | cons first calls ih =>
    have hvalue : valueAfter value (first :: calls) = valueAfter (execute value first.req.op).1 calls := rfl
    rw [List.cons_append, Agrees, ih, Agrees, hvalue]
    tauto

theorem valueAfter_append {value : Option V} {calls : List (Answer V)} {call : Answer V} :
    valueAfter value (calls ++ [call]) = (execute (valueAfter value calls) call.req.op).1 := by
  simp [valueAfter]

end Spec

/-! ## The record as the object's value -/

def valueOf (record : Option (Versioned V)) : Option V := (record.filter fun e => !e.deleted).map (·.value)

theorem valueOf_mint {mIdx id expiry : ℕ} {prev : Option (Versioned V)} {value : V} :
    valueOf (some (mint mIdx id expiry prev value)) = some value := rfl

variable [FlowValue V] [DecidableEq V] {f k : String} {m now stamp : ℕ}

/-- A plan stores what the call makes of the value, and replies what it says. -/
def Computes (k : String) (m : ℕ) (value : Option V) (op : WriteOp V) (plan : Plan V) : Prop :=
  ∃ prev entry, plan.effects = [.put k prev entry] ∧ entry.mIdx = m ∧
    valueOf (some entry) = (execute value op).1 ∧ plan.reply.told = (execute value op).2

/-- **A call plans what the object does.** -/
theorem plan_computes {req : WriteReq V} {id expiry : ℕ} {s : Shard V} {rank : String → ℕ} {e : Versioned V}
    (hread : s.getVersioned now req.flowId req.key = some e) (hop : req.op.IsRegister) :
    let plan := req.plan m id expiry s now stamp rank
    plan.effects = [] ∧ execute (valueOf (some e)) req.op = (valueOf (some e), plan.reply.told) ∨
      Computes req.key m (valueOf (some e)) req.op plan := by
  have hcount : (((some e).filter fun e : Versioned V => !e.deleted).bind fun e => FlowValue.asI64 e.value) =
      (valueOf (some e)).bind FlowValue.asI64 := by
    unfold valueOf
    cases Option.filter (fun e : Versioned V => !e.deleted) (some e) <;> rfl
  unfold WriteReq.plan
  simp only [hread]
  cases hreq : req.op with
  | set value => exact .inr ⟨_, _, rfl, rfl, rfl, rfl⟩
  | delete => exact .inr ⟨_, _, rfl, rfl, rfl, rfl⟩
  | incr amount =>
    simp only [hcount]
    cases hsum : checkedAdd (((valueOf (some e)).bind FlowValue.asI64).getD 0) amount with
    | none => exact .inl ⟨rfl, by simp [execute, hsum, WriteReply.told]⟩
    | some sum =>
      refine .inr ⟨_, _, rfl, rfl, ?_, ?_⟩
      · rw [valueOf_mint]; simp [execute, hsum]
      · simp [execute, hsum, WriteReply.told]
  | cas expected new =>
    dsimp only
    by_cases heq : valueOf (some e) = expected
    · have heq' : ((some e).filter fun e : Versioned V => !e.deleted).map (·.value) = expected := heq
      rw [if_pos heq']
      exact .inr ⟨_, _, rfl, rfl, by rw [valueOf_mint]; simp [execute, heq], by simp [execute, heq, WriteReply.told, mint]⟩
    · have heq' : ¬ ((some e).filter fun e : Versioned V => !e.deleted).map (·.value) = expected := heq
      rw [if_neg heq']
      refine .inl ⟨rfl, ?_⟩
      simp only [execute, if_neg heq]
      rfl
  | setTtl seconds => rw [hreq] at hop; exact hop.elim
  | setKeyTtl seconds => rw [hreq] at hop; exact hop.elim
  | clearFlow => rw [hreq] at hop; exact hop.elim

/-! ## Runs at one ring index -/

/-- A request of the kind considered: on the key, a write of one value at index `m`; on the
rest of its flow, no request about the whole flow. -/
def RequestOk (f k : String) (m : ℕ) (req : WriteReq V) : Prop :=
  req.flowId = f → (∀ seconds, req.op ≠ .setTtl seconds) ∧ req.op ≠ .clearFlow ∧
    (req.key = k → req.op.IsRegister ∧ req.mIdx = m)

/-- A shard step that does not take the record away and brings only entries of lower
indexes; where it looks at the record, the record is live. -/
def ShardMove.Benign (t : Traffic V) (f k : String) (m : ℕ) : ShardMove V → Prop
  | .call now c => c.request.Affects f k → (∃ e durability, c = .merge f k e durability ∧ e.mIdx < m) ∧
      ∀ cur, t.shard.entry f k = some cur → isLive cur now = true
  | .run slot => f ∉ t.evicted slot
  | .commit _ _ => True
  | .tick now => ∀ cur, t.shard.entry f k = some cur → isLive cur now = true

/-- The steps of the runs considered. -/
structure FlowMove.Benign (n : FlowNode V) (f k : String) (m : ℕ) (move : FlowMove V) : Prop where
  request : ∀ req, move = .receive req → RequestOk f k m req
  live : ∀ now stamp rank, move = .read now stamp rank → ∀ e, n.shard.entry f k = some e → isLive e now = true
  outside : ∀ m', move.outside = some m' → m'.Benign n.traffic f k m

omit [FlowValue V] [DecidableEq V] in
/-- **No such step moves the record.** -/
theorem benign_leaves {t : Traffic V} {move : ShardMove V} (h : move.Benign t f k m) {e : Versioned V}
    (he : t.shard.entry f k = some e) (hm : e.mIdx = m) : move.leaves t f k = some e := by
  refine passes_leaves ?_ he
  cases move with
  | call now c =>
    intro haff
    obtain ⟨⟨e', durability, rfl, hlow⟩, hlive⟩ := h haff
    have hold : e'.supersededBy e = true := by simp [Versioned.supersededBy, hm, hlow]
    exact ⟨hlive e he, e', durability, rfl, le_of_lt (supersededBy_iff.1 hold)⟩
  | run slot => exact h
  | commit now j => trivial
  | tick now => exact h e he

/-- What the record and the call that holds the lock are, when the calls answered leave
`value`. -/
def Pending (f k : String) (m : ℕ) (record : Option (Versioned V)) (value : Option V) : Option (Held V) → Prop
  | none => valueOf record = value
  | some h =>
    if h.req.flowId = f ∧ h.req.key = k then
      match h.stage with
      | .locked => valueOf record = value
      | .found => False
      | .planned plan => valueOf record = value ∧ Computes k m value h.req.op plan
      | .storing plan => valueOf record = (execute value h.req.op).1 ∧ Computes k m value h.req.op plan
    else valueOf record = value

def Answer.onKey (f k : String) (a : Answer V) : Bool := a.req.flowId == f && a.req.key == k && a.fate != .refused

/-- **The record is what the calls answered so far make of the value at the start.** -/
structure LinearOk (f k : String) (m : ℕ) (start : Option V) (past : List (Answer V)) (n : FlowNode V) : Prop where
  minted : ∃ e, n.shard.entry f k = some e ∧ e.mIdx = m
  waiting : ∀ w ∈ n.waiting, RequestOk f k m w.req ∧ w.ring.mIdx = w.req.mIdx
  held : ∀ h, n.held = some h → RequestOk f k m h.req ∧ h.ring.mIdx = h.req.mIdx
  apart : ∀ h, n.held = some h → ¬ (h.req.flowId = f ∧ h.req.key = k) →
    ∀ effect ∈ h.stage.effects, ¬ (effect.call h.req).request.Affects f k
  serial : ∃ log, n.answered = past ++ log ∧ Agrees start (log.filter (Answer.onKey f k)) ∧
    Pending f k m (n.shard.entry f k) (valueAfter start (log.filter (Answer.onKey f k))) n.held

variable {score : ℕ → OwnedKey → ℕ} {n : FlowNode V} {start : Option V} {past : List (Answer V)}

omit [FlowValue V] [DecidableEq V] in
theorem RequestOk.not_onKey {req : WriteReq V} (h : RequestOk f k m req) (hop : ¬ req.op.IsRegister) :
    ¬ (req.flowId = f ∧ req.key = k) := fun hon => hop ((h hon.1).2.2 hon.2).1

theorem Pending.of_not_onKey {record : Option (Versioned V)} {value : Option V} {h : Held V}
    (hoff : ¬ (h.req.flowId = f ∧ h.req.key = k)) : Pending f k m record value (some h) ↔ valueOf record = value := by
  simp only [Pending, if_neg hoff]

theorem Pending.of_onKey {record : Option (Versioned V)} {value : Option V} {h : Held V}
    (hon : h.req.flowId = f ∧ h.req.key = k) : Pending f k m record value (some h) ↔
      match h.stage with
      | .locked => valueOf record = value
      | .found => False
      | .planned plan => valueOf record = value ∧ Computes k m value h.req.op plan
      | .storing plan => valueOf record = (execute value h.req.op).1 ∧ Computes k m value h.req.op plan := by
  simp only [Pending, if_pos hon]

/-- The call that holds the lock is answered, and what it leaves is what its execution does. -/
theorem LinearOk.answer (hok : LinearOk f k m start past n) {h : Held V} (hheld : n.held = some h) {reply : WriteReply V}
    {fate : Fate}
    (hon : h.req.flowId = f ∧ h.req.key = k → fate ≠ .refused ∧ ∀ value, Pending f k m (n.shard.entry f k) value (some h) →
      valueOf (n.shard.entry f k) = (execute value h.req.op).1 ∧
        (fate = .executed → reply.told = (execute value h.req.op).2) ∧
        (fate = .failed → ∃ e : ShardError, reply = .error e.text)) :
    LinearOk f k m start past (n.answer h.req reply fate) where
  minted := hok.minted
  waiting := hok.waiting
  held := fun _ h => by cases h
  apart := fun _ h => by cases h
  serial := by
    obtain ⟨log, hlog, hagrees, hpending⟩ := hok.serial
    refine ⟨log ++ [⟨h.req, reply, fate⟩], by simp [FlowNode.answer, hlog], ?_⟩
    rw [hheld] at hpending
    rw [List.filter_append]
    by_cases hkey : h.req.flowId = f ∧ h.req.key = k
    · obtain ⟨hfate, hresult⟩ := hon hkey
      obtain ⟨hvalue, htold, hfailed⟩ := hresult _ hpending
      have hlast : [(⟨h.req, reply, fate⟩ : Answer V)].filter (Answer.onKey f k) = [⟨h.req, reply, fate⟩] := by
        simp [Answer.onKey, hkey.1, hkey.2, hfate]
      rw [hlast]
      refine ⟨agrees_append.2 ⟨hagrees, htold, hfailed⟩, ?_⟩
      rw [valueAfter_append]
      exact hvalue
    · have hlast : [(⟨h.req, reply, fate⟩ : Answer V)].filter (Answer.onKey f k) = [] := by
        simp only [List.filter_eq_nil_iff, List.mem_singleton, Answer.onKey, forall_eq, Bool.and_eq_true, beq_iff_eq]
        tauto
      rw [hlast, List.append_nil]
      exact ⟨hagrees, (Pending.of_not_onKey hkey).1 hpending⟩

theorem LinearOk.frame (hok : LinearOk f k m start past n) {n' : FlowNode V} (hheld : n'.held = n.held)
    (hanswered : n'.answered = n.answered) (hentry : n'.shard.entry f k = n.shard.entry f k)
    (hwaiting : ∀ w ∈ n'.waiting, RequestOk f k m w.req ∧ w.ring.mIdx = w.req.mIdx) : LinearOk f k m start past n' where
  minted := by rw [hentry]; exact hok.minted
  waiting := hwaiting
  held := by rw [hheld]; exact hok.held
  apart := by rw [hheld]; exact hok.apart
  serial := by rw [hheld, hanswered, hentry]; exact hok.serial

theorem LinearOk.refused (hok : LinearOk f k m start past n) {n' : FlowNode V} (hheld : n'.held = n.held) {a : Answer V}
    (hanswered : n'.answered = n.answered ++ [a]) (hfate : a.fate = .refused)
    (hentry : n'.shard.entry f k = n.shard.entry f k) (hwaiting : ∀ w ∈ n'.waiting, w ∈ n.waiting) :
    LinearOk f k m start past n' where
  minted := by rw [hentry]; exact hok.minted
  waiting := fun w hw => hok.waiting w (hwaiting w hw)
  held := by rw [hheld]; exact hok.held
  apart := by rw [hheld]; exact hok.apart
  serial := by
    obtain ⟨log, hlog, hrest⟩ := hok.serial
    refine ⟨log ++ [a], by rw [hanswered, hlog, List.append_assoc], ?_⟩
    have hskip : (log ++ [a]).filter (Answer.onKey f k) = log.filter (Answer.onKey f k) := by
      simp [List.filter_append, Answer.onKey, hfate]
    rw [hskip, hheld, hentry]
    exact hrest

theorem plan_apart {h : Held V} (hreq : RequestOk f k m h.req) (hoff : ¬ (h.req.flowId = f ∧ h.req.key = k))
    {rank : String → ℕ} : ∀ effect ∈ (n.planOf h now stamp rank).effects, ¬ (effect.call h.req).request.Affects f k := by
  intro effect hmem haff
  cases effect with
  | put key prev entry =>
    obtain ⟨hflow, rfl⟩ : h.req.flowId = f ∧ key = k := haff
    obtain ⟨-, -, hkey | ⟨seconds, -, hop⟩⟩ := plan_put hmem
    · exact hoff ⟨hflow, hkey.symm⟩
    · exact (hreq hflow).1 seconds hop
  | clear =>
    have hflow : h.req.flowId = f := haff
    rcases plan_clear hmem with hop | ⟨seconds, -, hop⟩
    · exact (hreq hflow).2.1 hop
    · exact (hreq hflow).1 seconds hop

theorem LinearOk.plan (hok : LinearOk f k m start past n) {h : Held V} (hheld : n.held = some h)
    (hon : h.req.flowId = f ∧ h.req.key = k) (hlive : ∀ e, n.shard.entry f k = some e → isLive e now = true)
    (stamp : ℕ) (rank : String → ℕ) :
    let plan := n.planOf h now stamp rank
    plan.effects = [] ∧ execute (valueOf (n.shard.entry f k)) h.req.op = (valueOf (n.shard.entry f k), plan.reply.told) ∨
      Computes k m (valueOf (n.shard.entry f k)) h.req.op plan := by
  obtain ⟨rfl, rfl⟩ := hon
  obtain ⟨e, he, -⟩ := hok.minted
  obtain ⟨hreq, hring⟩ := hok.held h hheld
  obtain ⟨hop, hidx⟩ := (hreq rfl).2.2 rfl
  have hread : n.shard.getVersioned now h.req.flowId h.req.key = some e := by
    rw [Shard.getVersioned, he, Option.filter_some, hlive e he]
    rfl
  rw [he, FlowNode.planOf, hring, hidx]
  exact plan_computes hread hop

theorem LinearOk.restage (hok : LinearOk f k m start past n) {n' : FlowNode V} {h : Held V} (hheld : n.held = some h)
    {stage : Stage V} (hheld' : n'.held = some { h with stage }) (hanswered : n'.answered = n.answered)
    (hwaiting : n'.waiting = n.waiting) (hminted : ∃ e, n'.shard.entry f k = some e ∧ e.mIdx = m)
    (hoff : ¬ (h.req.flowId = f ∧ h.req.key = k) → n'.shard.entry f k = n.shard.entry f k ∧
      ∀ effect ∈ stage.effects, ¬ (effect.call h.req).request.Affects f k)
    (hon : h.req.flowId = f ∧ h.req.key = k → ∀ value, Pending f k m (n.shard.entry f k) value (some h) →
      Pending f k m (n'.shard.entry f k) value (some { h with stage })) : LinearOk f k m start past n' where
  minted := hminted
  waiting := by rw [hwaiting]; exact hok.waiting
  held := by
    rw [hheld']
    rintro _ ⟨rfl⟩
    exact hok.held h hheld
  apart := by
    rw [hheld']
    rintro _ ⟨rfl⟩ hkey
    exact (hoff hkey).2
  serial := by
    obtain ⟨log, hlog, hagrees, hpending⟩ := hok.serial
    refine ⟨log, hanswered.trans hlog, hagrees, ?_⟩
    rw [hheld] at hpending
    rw [hheld']
    by_cases hkey : h.req.flowId = f ∧ h.req.key = k
    · exact hon hkey _ hpending
    · have hsame : Pending f k m (n'.shard.entry f k) (valueAfter start (log.filter (Answer.onKey f k)))
          (some { h with stage }) ↔ valueOf (n'.shard.entry f k) = valueAfter start (log.filter (Answer.onKey f k)) :=
        Pending.of_not_onKey hkey
      rw [hsame, (hoff hkey).1]
      exact (Pending.of_not_onKey hkey).1 hpending

theorem Pending.reads {record : Option (Versioned V)} {value : Option V} {h : Held V} (hpending : Pending f k m record value (some h))
    (hon : h.req.flowId = f ∧ h.req.key = k) (hreads : h.Reads) : valueOf record = value := by
  rw [Pending.of_onKey hon] at hpending
  rcases hreads with ⟨hstage, -⟩ | hstage
  · rw [hstage] at hpending
    exact hpending
  · rw [hstage] at hpending
    exact hpending.elim

theorem linearOk_store (hok : LinearOk f k m start past n) {ring : Ring} {req : WriteReq V} {expiry : ℕ}
    {effect : Effect V} {rest : List (Effect V)} {reply : WriteReply V}
    (hheld : n.held = some ⟨ring, req, expiry, .planned ⟨effect :: rest, reply⟩⟩) :
    LinearOk f k m start past { n.onShard (.call now (effect.call req)) with
      held := some ⟨ring, req, expiry, .storing ⟨effect :: rest, reply⟩⟩ } := by
  have hentry : (n.traffic.step (.call now (effect.call req))).shard.entry f k =
      (effect.call req).request.effect f k (n.shard.entry f k) := effect.stored n.traffic now req
  by_cases hon : req.flowId = f ∧ req.key = k
  · -- the one effect of a call on the key is the entry it computed
    obtain ⟨log, -, -, hpending⟩ := hok.serial
    rw [hheld, Pending.of_onKey hon] at hpending
    obtain ⟨-, prev, entry, heffects, hm, -, -⟩ := hpending
    obtain ⟨rfl, rfl⟩ := List.cons.inj heffects
    have hstored : (n.traffic.step (.call now ((Effect.put k prev entry).call req))).shard.entry f k = some entry :=
      hentry.trans (if_pos ⟨hon.1, rfl⟩)
    refine hok.restage hheld rfl rfl rfl ⟨entry, hstored, hm⟩ (fun hoff => absurd hon hoff) fun _ value hpending => ?_
    rw [Pending.of_onKey hon] at hpending
    obtain ⟨-, prev', entry', heffects', hm', hvalue, htold⟩ := hpending
    cases heffects'
    refine (Pending.of_onKey hon).2 ⟨?_, prev, entry, rfl, hm', hvalue, htold⟩
    rw [← hvalue]
    exact congrArg valueOf hstored
  · have hsame : (n.traffic.step (.call now (effect.call req))).shard.entry f k = n.shard.entry f k := by
      rw [hentry, effect_of_not_affects (hok.apart _ hheld hon effect List.mem_cons_self)]
    refine hok.restage hheld rfl rfl rfl ?_ (fun _ => ⟨hsame, hok.apart _ hheld hon⟩) fun hkey => absurd hkey hon
    obtain ⟨e, he, hm⟩ := hok.minted
    exact ⟨e, hsame.trans he, hm⟩

/-- **Every step keeps the relation.** -/
theorem linearOk_step (hok : LinearOk f k m start past n) {move : FlowMove V} (hmove : move.Benign n f k m) :
    LinearOk f k m start past (n.step score move) := by
  have hstep := nodeStep score n move
  generalize n.step score move = n' at hstep ⊢
  cases hstep with
  | idle => exact hok
  | view | isolation => exact hok.frame rfl rfl rfl hok.waiting
  | refuse hadmit => exact hok.refused rfl rfl rfl rfl fun w hw => hw
  | @admitted req ring hadmit =>
    refine hok.frame rfl rfl rfl fun w hw => ?_
    rcases List.mem_append.1 hw with hw | hw
    · exact hok.waiting w hw
    · rw [List.mem_singleton.1 hw]
      exact ⟨hmove.request req rfl, (admitted_ok score n hadmit).2.1⟩
  | @adopt slot reached w hslot =>
    refine hok.frame rfl rfl rfl fun w' hw => ?_
    rcases List.mem_or_eq_of_mem_set hw with hw | rfl
    · exact hok.waiting w' hw
    · exact hok.waiting w (List.mem_of_getElem? hslot)
  | isolated hfree hslot =>
    exact hok.refused (a := ⟨_, _, _⟩) hfree.symm rfl rfl rfl fun w hw => List.mem_of_mem_eraseIdx hw
  | @lock slot now w hfree hslot =>
    -- a call that has just taken the lock has nothing pending
    obtain ⟨log, hlog, hagrees, hpending⟩ := hok.serial
    rw [hfree] at hpending
    refine ⟨hok.minted, fun w hw => hok.waiting w (List.mem_of_mem_eraseIdx hw), ?_, ?_, log, hlog, hagrees, ?_⟩
    · rintro h ⟨rfl⟩
      exact hok.waiting w (List.mem_of_getElem? hslot)
    · rintro h ⟨rfl⟩ _ effect hmem
      cases hmem
    · simp only [Pending, ite_self]
      exact hpending
  | @found now stamp rank h seconds hheld hstage hop hget =>
    have hoff := (hok.held h hheld).1.not_onKey (by rw [hop]; exact id)
    exact hok.restage hheld rfl rfl rfl hok.minted (fun _ => ⟨rfl, fun _ hmem => by cases hmem⟩) fun hon => absurd hon hoff
  | @absent now stamp rank h seconds hheld hstage hop hget =>
    have hoff := (hok.held h hheld).1.not_onKey (by rw [hop]; exact id)
    exact hok.answer hheld fun hon => absurd hon hoff
  | @plan now stamp rank h hheld hreads hne =>
    refine hok.restage hheld rfl rfl rfl hok.minted (fun hoff => ⟨rfl, plan_apart (hok.held h hheld).1 hoff⟩) ?_
    intro hon value hpending
    have hvalue := hpending.reads hon hreads
    have hplan := hok.plan hheld hon (hmove.live now stamp rank rfl) stamp rank
    rw [hvalue] at hplan
    exact (Pending.of_onKey (h := { h with stage := .planned (n.planOf h now stamp rank) }) hon).2
      ⟨hvalue, hplan.resolve_left fun hnone => hne hnone.1⟩
  | @done now stamp rank h hheld hreads hnone =>
    refine hok.answer hheld fun hon => ⟨by simp, fun value hpending => ?_⟩
    have hvalue := hpending.reads hon hreads
    have hplan := hok.plan hheld hon (hmove.live now stamp rank rfl) stamp rank
    rcases hplan with ⟨-, heq⟩ | ⟨_, _, heffects, -⟩
    · rw [hvalue] at heq ⊢
      rw [heq]
      exact ⟨rfl, fun _ => rfl, nofun⟩
    · rw [hnone] at heffects
      cases heffects
  | store hheld => exact linearOk_store hok hheld
  | @failed e ring req expiry effect rest reply hheld hdurable =>
    refine hok.answer hheld fun hon => ⟨by simp, fun value hpending => ?_⟩
    rw [Pending.of_onKey hon] at hpending
    exact ⟨hpending.1, nofun, fun _ => ⟨e, rfl⟩⟩
  | @next failure ring req expiry effect rest reply h hheld heq hne =>
    subst heq
    refine hok.restage hheld rfl rfl rfl hok.minted (fun hoff => ⟨rfl, fun effect' hmem =>
      hok.apart _ hheld hoff effect' (List.mem_cons_of_mem _ hmem)⟩) fun hon value hpending => ?_
    -- a call on the key has one effect
    rw [Pending.of_onKey hon] at hpending
    obtain ⟨-, _, _, heffects, -⟩ := hpending
    exact absurd (List.cons.inj heffects).2 hne
  | @last failure ring req expiry effect reply h hheld heq =>
    subst heq
    have hanswer : LinearOk f k m start past (n.answer req reply .executed) := by
      refine hok.answer hheld fun hon => ⟨by simp, fun value hpending => ?_⟩
      rw [Pending.of_onKey hon] at hpending
      obtain ⟨hvalue, _, _, -, -, -, htold⟩ := hpending
      exact ⟨hvalue, fun _ => htold, nofun⟩
    exact hanswer.frame rfl rfl rfl hok.waiting
  | @shard _ m' houtside =>
    obtain ⟨e, he, hm⟩ := hok.minted
    refine hok.frame rfl rfl ?_ hok.waiting
    have hsame := benign_leaves (hmove.outside m' houtside) he hm
    rw [FlowNode.shard, FlowNode.onShard, Traffic.entry_step, hsame, he]

/-- An increment, and a replica's older entry between its read and its write. -/
def incrBesideRepair : List (FlowMove (Option ℤ)) :=
  [.receive { flowId := "f", key := "k", op := .incr 5, mIdx := 1 }, .adopt 0 false, .lock 0 5, .read 5 5 fun _ => 0,
    .repair 5 "f" "k" { firstSet with mIdx := 0, v := 9 }, .store 5, .settle none]

end RiftCluster
