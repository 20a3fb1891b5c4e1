import RiftCluster.Model.Console
import RiftCluster.Proof.Replay

/-!
# A write reported done was done

An entry answered `Applied` was run, or is a replay of an earlier entry of its op id
(`succeeds_ran`). So a call that resolves had its own write applied as long as one key
stands for one write (`OneWrite`), and that is kept by every call that reuses a held
key only for the write it was lent to (`SameWrite`). The key policy does not see to
that: the key of a lost response goes to whatever call comes next.
-/

namespace RiftCluster.Console

open KV

variable {U : Upstream} {I : Uuids}

/-! ## Keys and op ids -/

def Key.opId (I : Uuids) (key : Key) : String := baseOpId I "" (some key.text)

@[simp] theorem baseOpId_key (key : Key) (v4 : String) : baseOpId I v4 (some key.text) = key.opId I := by
  have hkey := key.nonblank
  unfold Key.opId baseOpId
  rw [Option.map_some]
  cases htrim : Auth.trim key.text.toList with
  | nil => exact absurd htrim hkey
  | cons c rest => rfl

@[simp] theorem request_opId (write : Write) (base : String) (now : ℕ) : (write.request I base now).opId = base := rfl

@[simp] theorem request_carriedBy (write : Write) (base : String) (now : ℕ) :
    write.carriedBy I (write.request I base now) = true := by
  simp only [Write.carriedBy, beq_iff_eq]
  rfl

/-! ## Logs that grow -/

theorem ranAt_append {log : List Event} (more : List Event) {write : Write} {m : ℕ} (hm : m < log.length) :
    ranAt U I (log ++ more) write m = ranAt U I log write m := by
  unfold ranAt
  rw [List.getElem?_append_left hm, sAt_append hm.le]

theorem WasApplied.append {log : List Event} {write : Write} (h : WasApplied U I log write) (more : List Event) :
    WasApplied U I (log ++ more) write := by
  obtain ⟨m, hm, hran⟩ := h
  refine ⟨m, by rw [List.length_append]; omega, ?_⟩
  rwa [ranAt_append more hm]

theorem arrive_cases (sent : List Sent) (log : List Event) (a : Arrival) :
    arrive I sent log a = log ∨ (∃ ev, a = .other ev ∧ arrive I sent log a = log ++ [ev]) ∨
      ∃ s ∈ sent, ∃ d logId now,
        arrive I sent log a = log ++ [.entry d ⟨logId, .normal (s.write.request I (s.key.opId I) now)⟩] := by
  cases a with
  | other event => exact .inr (.inl ⟨event, rfl, rfl⟩)
  | own attempt degraded logId now v4 =>
    cases hsent : sent[attempt]? with
    | none => exact .inl (by simp only [arrive, hsent])
    | some s =>
      refine .inr (.inr ⟨s, List.mem_of_getElem? hsent, degraded, logId, now, ?_⟩)
      simp only [arrive, hsent, baseOpId_key]

theorem arrivals_append (sent : List Sent) (arrivals : List Arrival) (log : List Event) :
    ∃ more, arrivals.foldl (arrive I sent) log = log ++ more := by
  induction arrivals generalizing log with
  | nil => exact ⟨[], (List.append_nil _).symm⟩
  | cons a arrivals ih =>
    obtain ⟨more, hmore⟩ := ih (arrive I sent log a)
    rw [List.foldl_cons, hmore]
    rcases arrive_cases (I := I) sent log a with h | ⟨ev, -, h⟩ | ⟨s, -, d, logId, now, h⟩
    · exact ⟨more, by rw [h]⟩
    · exact ⟨[ev] ++ more, by rw [h, List.append_assoc]⟩
    · exact ⟨_, by rw [h, List.append_assoc]⟩

/-! ## One key, one write -/

def eventOpId : Event → Option String
  | .entry _ e =>
    match e.payload with
    | .normal request => some request.opId
    | _ => none
  | .sweep => none

def otherOpId : Arrival → Option String
  | .own _ _ _ _ _ => none
  | .other ev => eventOpId ev

/-- Every request of the log under an op id of the console's carries what it sent. -/
def Carries (I : Uuids) (sent : List Sent) (log : List Event) : Prop :=
  ∀ d e request, Event.entry d e ∈ log → e.payload = .normal request →
    ∀ s ∈ sent, request.opId = s.key.opId I → s.write.carriedBy I request = true

/-- One key stands for one write. -/
structure OneWrite (I : Uuids) (w : World) : Prop where
  one : ∀ s ∈ w.sent, ∀ s' ∈ w.sent, s.key.opId I = s'.key.opId I → s.write = s'.write
  held : ∀ key, w.held = some key → ∃ s ∈ w.sent, s.key = key
  carries : Carries I w.sent w.log

/-- Keys are unique: a minted key's op id is new, and nobody else uses the op ids of
the console's keys. -/
def Unique (I : Uuids) (w : World) (x : Attempt) : Prop :=
  (w.held = none → (∀ s ∈ w.sent, s.key.opId I ≠ x.exchange.mint.opId I) ∧
    ∀ ev ∈ w.log, eventOpId ev ≠ some (x.exchange.mint.opId I)) ∧
  ∀ a ∈ x.exchange.arrivals, ∀ s ∈ w.sent ++ [⟨w.held.getD x.exchange.mint, x.write⟩],
    otherOpId a ≠ some (s.key.opId I)

/-- A held key is used again only for the write it was used for. -/
def SameWrite (w : World) (x : Attempt) : Prop :=
  ∀ s ∈ w.sent, w.held = some s.key → s.write = x.write

instance (w : World) (x : Attempt) : Decidable (Unique I w x) := inferInstanceAs (Decidable (_ ∧ _))

instance (w : World) (x : Attempt) : Decidable (SameWrite w x) :=
  inferInstanceAs (Decidable (∀ s ∈ w.sent, w.held = some s.key → s.write = x.write))

theorem arrive_carries {sent : List Sent}
    (hone : ∀ s ∈ sent, ∀ s' ∈ sent, s.key.opId I = s'.key.opId I → s.write = s'.write) {log : List Event} (hlog : Carries I sent log) {a : Arrival}
    (hother : ∀ s ∈ sent, otherOpId a ≠ some (s.key.opId I)) :
    Carries I sent (arrive I sent log a) := by
  rcases arrive_cases (I := I) sent log a with h | ⟨ev, ha, h⟩ | ⟨s₀, hs₀, d₀, logId, now, h⟩
  · rw [h]; exact hlog
  · rw [h]
    intro d e request hmem hp s hs hop
    rcases List.mem_append.1 hmem with hold | hnew
    · exact hlog d e request hold hp s hs hop
    · obtain rfl := List.mem_singleton.1 hnew
      refine absurd ?_ (hother s hs)
      simp only [ha, otherOpId, eventOpId, hp, hop]
  · rw [h]
    intro d e request hmem hp s hs hop
    rcases List.mem_append.1 hmem with hold | hnew
    · exact hlog d e request hold hp s hs hop
    · -- the request of a sent write, under its own key's op id
      cases List.mem_singleton.1 hnew
      cases hp
      rw [request_opId] at hop
      rw [hone s hs s₀ hs₀ hop.symm]
      exact request_carriedBy _ _ _

theorem arrivals_carries {sent : List Sent}
    (hone : ∀ s ∈ sent, ∀ s' ∈ sent, s.key.opId I = s'.key.opId I → s.write = s'.write) (arrivals : List Arrival)
    {log : List Event} (hlog : Carries I sent log)
    (hother : ∀ a ∈ arrivals, ∀ s ∈ sent, otherOpId a ≠ some (s.key.opId I)) :
    Carries I sent (arrivals.foldl (arrive I sent) log) := by
  induction arrivals generalizing log with
  | nil => exact hlog
  | cons a arrivals ih =>
    rw [List.foldl_cons]
    apply ih
    · exact arrive_carries hone hlog (hother a List.mem_cons_self)
    · exact fun a ha => hother a (List.mem_cons_of_mem _ ha)

theorem oneWrite_call {w : World} (hw : OneWrite I w) {x : Attempt} (hunique : Unique I w x) (hsame : SameWrite w x) :
    OneWrite I (w.call U I x) := by
  obtain ⟨hfresh, hother⟩ := hunique
  set s₁ : Sent := ⟨w.held.getD x.exchange.mint, x.write⟩ with hs₁
  -- a key sent before that has the op id of this call's was used for this write
  have hnew : ∀ s ∈ w.sent, s.key.opId I = s₁.key.opId I → s.write = x.write := by
    intro s hs hop
    cases hheld : w.held with
    | none =>
      rw [hs₁, hheld] at hop
      exact absurd hop ((hfresh hheld).1 s hs)
    | some key =>
      obtain ⟨s₀, hs₀, hkey⟩ := hw.held key hheld
      rw [hs₁, hheld, Option.getD_some, ← hkey] at hop
      rw [hw.one s hs s₀ hs₀ hop]
      exact hsame s₀ hs₀ (by rw [hheld, hkey])
  have hone : ∀ s ∈ w.sent ++ [s₁], ∀ s' ∈ w.sent ++ [s₁], s.key.opId I = s'.key.opId I → s.write = s'.write := by
    intro s hs s' hs' hop
    rcases List.mem_append.1 hs with hs | hs
    · rcases List.mem_append.1 hs' with hs' | hs'
      · exact hw.one s hs s' hs' hop
      · obtain rfl := List.mem_singleton.1 hs'
        exact hnew s hs hop
    · obtain rfl := List.mem_singleton.1 hs
      rcases List.mem_append.1 hs' with hs' | hs'
      · exact (hnew s' hs' hop.symm).symm
      · obtain rfl := List.mem_singleton.1 hs'
        rfl
  -- the entries that were there carry it too, if any has its op id
  have hcarries : Carries I (w.sent ++ [s₁]) w.log := by
    intro d e request hmem hp s hs hop
    rcases List.mem_append.1 hs with hs | hs
    · exact hw.carries d e request hmem hp s hs hop
    · obtain rfl := List.mem_singleton.1 hs
      cases hheld : w.held with
      | none =>
        refine absurd ?_ ((hfresh hheld).2 _ hmem)
        rw [hs₁, hheld] at hop
        simp only [eventOpId, hp, hop, Option.getD_none]
      | some key =>
        obtain ⟨s₀, hs₀, hkey⟩ := hw.held key hheld
        have hop₀ : request.opId = s₀.key.opId I := by rw [hop, hs₁, hheld, Option.getD_some, hkey]
        have hwrite : s₀.write = s₁.write := hsame s₀ hs₀ (by rw [hheld, hkey])
        rw [← hwrite]
        exact hw.carries d e request hmem hp s₀ hs₀ hop₀
  refine ⟨hone, ?_, arrivals_carries hone x.exchange.arrivals hcarries hother⟩
  intro key hkey
  refine ⟨s₁, List.mem_append_right _ (List.mem_singleton_self _), ?_⟩
  simp only [World.call, keyedAttempt] at hkey
  split_ifs at hkey
  exact Option.some.inj hkey

/-! ## What a success stands for -/

theorem succeeds_entry {log : List Event} {key : Key} {write : Write} {position : ℕ}
    (h : succeeds U I log key write position = true) :
    ∃ d e request, log[position]? = some (.entry d e) ∧ e.payload = .normal request ∧ request.opId = key.opId I ∧
      write.carriedBy I request = true ∧ (applyOne U d (sAt U {} log position) e).reply.outcome = .applied := by
  cases hev : log[position]? with
  | none => simp [succeeds, hev] at h
  | some ev =>
    cases ev with
    | sweep => simp [succeeds, hev] at h
    | entry d e =>
      cases hp : e.payload with
      | blank => simp [succeeds, hev, hp] at h
      | membership m => simp [succeeds, hev, hp] at h
      | normal request =>
        simp only [succeeds, hev, hp, Bool.and_eq_true, beq_iff_eq, baseOpId_key] at h
        obtain ⟨⟨hop, hcarried⟩, houtcome⟩ := h
        exact ⟨d, e, request, rfl, hp, hop, hcarried, houtcome⟩

theorem ranAt_of_entry {log : List Event} {write : Write} {m : ℕ} {d : Bool} {e : Entry} {request : ControlRequest}
    (hev : log[m]? = some (.entry d e)) (hp : e.payload = .normal request) (hcarried : write.carriedBy I request = true)
    (hr : replayOf U ((sAt U {} log m).receive e) request = none)
    (houtcome : (applyOne U d (sAt U {} log m) e).reply.outcome = .applied) : WasApplied U I log write := by
  obtain ⟨hm, -⟩ := List.getElem?_eq_some_iff.1 hev
  refine ⟨m, hm, ?_⟩
  simp only [ranAt, hev, hp, hcarried, hr, houtcome, Option.isNone_none, Bool.and_self, beq_self_eq_true]

/-- **An entry answered `Applied` was run, or replays one of its op id that was.** -/
theorem succeeds_ran {sent : List Sent} {log : List Event} (hcarries : Carries I sent log) {s : Sent} (hs : s ∈ sent)
    {position : ℕ} (h : succeeds U I log s.key s.write position = true) : WasApplied U I log s.write := by
  obtain ⟨d, e, request, hev, hp, hop, hcarried, houtcome⟩ := succeeds_entry h
  obtain ⟨hlt, hget⟩ := List.getElem?_eq_some_iff.1 hev
  cases hr : replayOf U ((sAt U {} log position).receive e) request with
  | none => exact ranAt_of_entry hev hp hcarried hr houtcome
  | some previous =>
    obtain ⟨m, hm, d', e', request', ⟨hev', hp', hop', hr'⟩, rfl, -⟩ := replay_origin hlt hget hr
    have hreply : (applyOne U d (sAt U {} log position) e).reply = (applyOne U d' (sAt U {} log m) e').reply := by
      simp only [applyOne, hp, hr, recordedOutcome]
    have hcarried' : s.write.carriedBy I request' = true :=
      hcarries d' e' request' (List.mem_of_getElem? hev') hp' s hs (hop'.trans hop)
    rw [hreply] at houtcome
    exact ranAt_of_entry hev' hp' hcarried' hr' houtcome

/-! ## Whole runs -/

def Along (U : Upstream) (I : Uuids) (P : World → Attempt → Prop) : World → List Attempt → Prop
  | _, [] => True
  | w, x :: calls => P w x ∧ Along U I P (w.call U I x) calls

instance {P : World → Attempt → Prop} [∀ w x, Decidable (P w x)] : ∀ (w : World) (calls : List Attempt),
    Decidable (Along U I P w calls)
  | _, [] => .isTrue trivial
  | w, x :: calls =>
    have : Decidable (Along U I P (w.call U I x) calls) := instDecidableAlong (w.call U I x) calls
    inferInstanceAs (Decidable (P w x ∧ Along U I P (w.call U I x) calls))

/-- Every call that resolved had its write applied. -/
structure DoneApplied (U : Upstream) (I : Uuids) (w : World) : Prop where
  one : OneWrite I w
  length : w.settled.length = w.sent.length
  applied : ∀ i : ℕ, w.settled[i]? = some .resolved → ∃ s : Sent, w.sent[i]? = some s ∧ WasApplied U I w.log s.write

theorem doneApplied_call {w : World} (hw : DoneApplied U I w) {x : Attempt} (hunique : Unique I w x)
    (hsame : SameWrite w x) : DoneApplied U I (w.call U I x) := by
  have hone := oneWrite_call (U := U) hw.one hunique hsame
  refine ⟨hone, ?_, ?_⟩
  · simp only [World.call, keyedAttempt, List.length_append, hw.length, List.length_singleton]
  intro i hi
  obtain ⟨more, hmore⟩ := arrivals_append (I := I) (w.sent ++ [⟨w.held.getD x.exchange.mint, x.write⟩])
    x.exchange.arrivals w.log
  have hlog : (w.call U I x).log = w.log ++ more := hmore
  rcases Nat.lt_or_ge i w.settled.length with hlt | hge
  · -- a call before this one
    have hi' : w.settled[i]? = some .resolved := by
      rw [← hi]
      exact (List.getElem?_append_left hlt).symm
    obtain ⟨s, hs, happlied⟩ := hw.applied i hi'
    refine ⟨s, ?_, ?_⟩
    · exact (List.getElem?_append_left (hw.length ▸ hlt)).trans hs
    · rw [hlog]
      exact happlied.append more
  · -- this call
    have hlast : i = w.sent.length ∧
        x.exchange.ending.settles U I (w.call U I x).log (w.held.getD x.exchange.mint) x.write = .resolved := by
      have hi' : (w.settled ++ [x.exchange.ending.settles U I (w.call U I x).log (w.held.getD x.exchange.mint)
          x.write])[i]? = some .resolved := hi
      rw [List.getElem?_append_right hge, List.getElem?_singleton] at hi'
      split_ifs at hi' with h0
      exact ⟨by rw [← hw.length]; omega, Option.some.inj hi'⟩
    obtain ⟨rfl, hsettles⟩ := hlast
    refine ⟨⟨w.held.getD x.exchange.mint, x.write⟩, List.getElem?_concat_length, ?_⟩
    cases hending : x.exchange.ending with
    | refused => rw [hending] at hsettles; cases hsettles
    | lost => rw [hending] at hsettles; cases hsettles
    | answered position =>
      rw [hending] at hsettles
      simp only [Ending.settles] at hsettles
      split_ifs at hsettles with hsucceeds
      exact succeeds_ran (s := ⟨w.held.getD x.exchange.mint, x.write⟩) hone.carries
        (List.mem_append_right _ (List.mem_singleton_self _)) hsucceeds

theorem doneApplied_run (calls : List Attempt) {w : World} (hw : DoneApplied U I w)
    (hunique : Along U I (Unique I) w calls) (hsame : Along U I SameWrite w calls) :
    DoneApplied U I (w.run U I calls) := by
  induction calls generalizing w with
  | nil => exact hw
  | cons x calls ih => exact ih (doneApplied_call hw hunique.1 hsame.1) hunique.2 hsame.2

theorem doneApplied_empty : DoneApplied U I {} where
  one := ⟨by simp, by simp, by simp [Carries]⟩
  length := rfl
  applied := by simp

theorem run_log (calls : List Attempt) (w : World) : ∃ more, (w.run U I calls).log = w.log ++ more := by
  induction calls generalizing w with
  | nil => exact ⟨[], (List.append_nil _).symm⟩
  | cons x calls ih =>
    obtain ⟨more, hmore⟩ := ih (w.call U I x)
    obtain ⟨first, hfirst⟩ := arrivals_append (I := I) (w.sent ++ [⟨w.held.getD x.exchange.mint, x.write⟩])
      x.exchange.arrivals w.log
    have hlog : (w.call U I x).log = w.log ++ first := hfirst
    refine ⟨first ++ more, ?_⟩
    rw [← List.append_assoc, ← hlog]
    exact hmore

theorem run_writes (calls : List Attempt) (w : World) :
    (w.run U I calls).sent.map Sent.write = w.sent.map Sent.write ++ calls.map Attempt.write := by
  induction calls generalizing w with
  | nil => exact (List.append_nil _).symm
  | cons x calls ih =>
    rw [List.map_cons, List.append_cons]
    refine (ih (w.call U I x)).trans ?_
    congr 1
    exact List.map_append

theorem along_append {P : World → Attempt → Prop} (before after : List Attempt) (w : World) :
    Along U I P w (before ++ after) ↔ Along U I P w before ∧ Along U I P (w.run U I before) after := by
  induction before generalizing w with
  | nil => exact ⟨fun h => ⟨trivial, h⟩, fun h => h.2⟩
  | cons x before ih =>
    simp only [List.cons_append, Along, ih, and_assoc]
    rfl

/-! ## Bulk actions -/

def bulkCalls (write : Port → Write) (items : List (Port × Exchange)) : List Attempt :=
  items.map fun item => ⟨write item.1, item.2⟩

theorem runBulk_done (write : Port → Write) (items : List (Port × Exchange)) {w : World} (hw : DoneApplied U I w)
    (hunique : Along U I (Unique I) w (bulkCalls write items)) (hsame : Along U I SameWrite w (bulkCalls write items))
    {port : Port} (hport : (port, BulkItemOutcome.done) ∈ (runBulk U I write w items).2) :
    WasApplied U I (w.run U I (bulkCalls write items)).log (write port) := by
  induction items generalizing w with
  | nil => cases hport
  | cons item items ih =>
    obtain ⟨p, exchange⟩ := item
    have hcall := doneApplied_call hw hunique.1 hsame.1
    rcases List.mem_cons.1 hport with hhead | htail
    · -- the call of this item: its settling is the last one recorded
      set w' := w.call U I ⟨write p, exchange⟩ with hw'
      have hsettled : ∃ settled, w'.settled = w.settled ++ [settled] := ⟨_, rfl⟩
      obtain ⟨settled, hsettled⟩ := hsettled
      rw [hsettled, List.getLast?_concat, Option.getD_some] at hhead
      obtain ⟨rfl, hrun⟩ := Prod.mk.inj hhead
      have hresolved : settled = .resolved := by
        cases settled with
        | resolved => rfl
        | apiError => cases hrun
        | unknown => cases hrun
      obtain ⟨s, hs, happlied⟩ := hcall.applied w.settled.length (by
        rw [hsettled, hresolved, List.getElem?_concat_length])
      have hlast : w'.sent[w.settled.length]? = some ⟨w.held.getD exchange.mint, write port⟩ := by
        rw [hw.length]
        exact List.getElem?_concat_length
      rw [hlast] at hs
      cases hs
      obtain ⟨more, hmore⟩ := run_log (U := U) (I := I) (bulkCalls write items) w'
      have hlog : (w.run U I (bulkCalls write ((port, exchange) :: items))).log = w'.log ++ more := hmore
      rw [hlog]
      exact happlied.append more
    · exact ih hcall hunique.2 hsame.2 htail

/-- **A write the console reports as done was done**, by every run of calls through one
instance in which a held key is used again only for the write it was used for; and so
are the ports a bulk action among them reports. -/
theorem keyed_done_applied (U : Upstream) (I : Uuids) (calls : List Attempt) (hunique : Along U I (Unique I) {} calls)
    (hsame : Along U I SameWrite {} calls) :
    (∀ i : ℕ, (World.run U I {} calls).settled[i]? = some .resolved →
      ∃ x : Attempt, calls[i]? = some x ∧ WasApplied U I (World.run U I {} calls).log x.write) ∧
    ∀ (write : Port → Write) (before : List Attempt) (items : List (Port × Exchange)),
      calls = before ++ bulkCalls write items →
      ∀ port, (port, BulkItemOutcome.done) ∈ (runBulk U I write (World.run U I {} before) items).2 →
        WasApplied U I (World.run U I {} calls).log (write port) := by
  constructor
  · intro i hi
    obtain ⟨s, hs, happlied⟩ := (doneApplied_run calls doneApplied_empty hunique hsame).applied i hi
    have hwrites := run_writes (U := U) (I := I) calls {}
    have hwrite : (calls.map Attempt.write)[i]? = some s.write := by
      rw [← List.nil_append (calls.map Attempt.write), ← List.map_nil, ← hwrites, List.getElem?_map, hs, Option.map_some]
    rw [List.getElem?_map, Option.map_eq_some_iff] at hwrite
    obtain ⟨x, hx, hxs⟩ := hwrite
    exact ⟨x, hx, hxs ▸ happlied⟩
  · rintro write before items rfl port hport
    rw [along_append] at hunique hsame
    have hbefore := doneApplied_run before doneApplied_empty hunique.1 hsame.1
    have hdone := runBulk_done write items hbefore hunique.2 hsame.2 hport
    rwa [World.run, List.foldl_append]

/-! ## A key that goes to another port -/

def plainUuids : Uuids where
  parse := fun _ => none
  v5 := id
  v5Index := fun base index => base ++ toString index

def keyA : Key := ⟨"k-a", by decide⟩

def keyB : Key := ⟨"k-b", by decide⟩

def deleteWrite (port : Port) : Write := { op := .deleteImposter port }

/-- Two imposters, as the fleet has them before the console's call. -/
def twoImposters : List Arrival :=
  [.other (.entry false (requestAt 1 { opId := "op-1", op := .putImposter { httpImposter [] with port := some 4545 } none })),
    .other (.entry false (requestAt 2 { opId := "op-2", op := .putImposter { httpImposter [] with port := some 4546 } none }))]

def ownAt (attempt index : ℕ) : Arrival := .own attempt false (requestAt index firstPut).logId 0 ""

def lostDelete : Exchange := ⟨keyA, twoImposters ++ [ownAt 0 3], .lost⟩

def retriedDelete : List Attempt :=
  [⟨deleteWrite 4545, lostDelete⟩, ⟨deleteWrite 4545, ⟨keyB, [ownAt 1 4], .answered 3⟩⟩]

/-- The delete of two ports: the second call has the answer of its own entry. -/
def lossyBulk : List (Port × Exchange) := [(4545, lostDelete), (4546, ⟨keyB, [ownAt 1 4], .answered 3⟩)]

/-- A lost delete that is tried again for the same port is reported done, and was. -/
theorem retriedDelete_applied :
    (World.run jsonUpstream plainUuids {} retriedDelete).settled = [.unknown, .resolved] ∧
      WasApplied jsonUpstream plainUuids (World.run jsonUpstream plainUuids {} retriedDelete).log (deleteWrite 4545) := by
  have hsettled : (World.run jsonUpstream plainUuids {} retriedDelete).settled = [.unknown, .resolved] := by
    decide +kernel
  have hrun := keyed_done_applied jsonUpstream plainUuids retriedDelete (by decide +kernel) (by decide +kernel)
  obtain ⟨x, hx, happlied⟩ := hrun.1 1 (by rw [hsettled]; rfl)
  cases hx
  exact ⟨hsettled, happlied⟩

/-- **A bulk delete reports a port as done that it never deleted**: its call was lent
the key of the lost one before it, and is answered for that. -/
theorem lossyBulk_reports_undone :
    Along jsonUpstream plainUuids (Unique plainUuids) {} (bulkCalls deleteWrite lossyBulk) ∧
      (runBulk jsonUpstream plainUuids deleteWrite {} lossyBulk).2 = [(4545, .refused), (4546, .done)] ∧
      ¬ WasApplied jsonUpstream plainUuids (runBulk jsonUpstream plainUuids deleteWrite {} lossyBulk).1.log
        (deleteWrite 4546) ∧
      (sAt jsonUpstream {} (runBulk jsonUpstream plainUuids deleteWrite {} lossyBulk).1.log 4).tables.configs[4546]?.isSome =
        true := by
  refine ⟨?_, ?_, ?_, ?_⟩ <;> decide +kernel

end RiftCluster.Console
