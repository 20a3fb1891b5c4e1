import RiftCluster.Proof.ReplaceRows

/-!
# Retrying a replace

A retry's requests have the op ids of their positions, and so have those of the attempt
before it. The puts stand at the same positions in both lists. The deletes of the retry are
of the ports that are left, from the first position after the puts on; if the attempt
committed a delete, that is the position of its first delete (`retry_converges_iff`).
-/

namespace RiftCluster

open KV

variable {U : Upstream} {v5 : String → ℕ → String} {base : String} {now : ℕ → ℕ} {reconcile : Bool} {existing : List Port}
  {body : List ImposterConfig} {ops : List ControlOp}

/-! ## Positions and op ids -/

/-- No two of the ids that are derived from a base are the same. -/
structure IdsApart (v5 : String → ℕ → String) (base : String) : Prop where
  inj : Function.Injective (v5 base)
  ne : ∀ index, v5 base index ≠ base

/-- **An op id says its position**, whatever the number of requests. -/
theorem opIdFor_inj (hids : IdsApart v5 base) {i i' total total' : ℕ} (hi : i < total) (hi' : i' < total')
    (heq : opIdFor v5 base i total = opIdFor v5 base i' total') : i = i' := by
  unfold opIdFor at heq
  split at heq
  · split at heq
    · omega
    · exact absurd heq.symm (hids.ne i')
  · split at heq
    · exact absurd heq (hids.ne i)
    · exact hids.inj heq

theorem getElem?_mintAll (i : ℕ) : (mintAll v5 base now ops)[i]? =
    ops[i]?.map fun op => mintRequest (opIdFor v5 base i ops.length) op .unconditional (now i) := by
  rw [mintAll, List.getElem?_mapIdx]

theorem length_mintAll : (mintAll v5 base now ops).length = ops.length := by simp [mintAll]

theorem nodup_opIds (hids : IdsApart v5 base) : ((mintAll v5 base now ops).map (·.opId)).Nodup := by
  rw [List.nodup_iff_getElem?_ne_getElem?]
  intro i j hij hj heq
  rw [List.length_map, length_mintAll] at hj
  rw [List.getElem?_map, List.getElem?_map, getElem?_mintAll, getElem?_mintAll, List.getElem?_eq_getElem (by omega),
    List.getElem?_eq_getElem hj] at heq
  have := opIdFor_inj hids (by omega) hj (Option.some.inj heq)
  omega

theorem getElem?_replaceOps (hops : replaceOps reconcile existing body = .ok ops) (hne : body ≠ []) (i : ℕ) :
    ops[i]? = if i < body.length then body[i]?.map (ControlOp.putImposter · (restartOf reconcile))
      else (existing.filter (some · ∉ body.map ImposterConfig.port))[i - body.length]?.map ControlOp.deleteImposter := by
  rw [(replaceOps_ok hops hne).2, List.getElem?_append, List.length_map, List.getElem?_map, List.getElem?_map]

theorem sets_body (hops : replaceOps reconcile existing body = .ok ops) (hne : body ≠ [])
    (hports : (body.map ImposterConfig.port).Nodup) {op : ControlOp} (hop : op ∈ ops) {p : Port}
    {v : Option ImposterConfig} (hsets : op.sets? = some (p, v)) {config : ImposterConfig} (hconfig : config ∈ body)
    (hp : config.port = some p) : v = some config := by
  rcases (mem_replaceOps hops hne).1 hop with ⟨config', hconfig', rfl⟩ | ⟨q, -, hother, rfl⟩
  · obtain ⟨port, hport, heq⟩ := Option.map_eq_some_iff.1 hsets
    cases heq
    rw [List.inj_on_of_nodup_map hports hconfig' hconfig (hport.trans hp.symm)]
  · cases hsets
    exact absurd (List.mem_map.2 ⟨config, hconfig, hp⟩) hother

theorem sets_other (hops : replaceOps reconcile existing body = .ok ops) (hne : body ≠ []) {op : ControlOp} (hop : op ∈ ops)
    {p : Port} {v : Option ImposterConfig} (hsets : op.sets? = some (p, v)) (hp : some p ∉ body.map ImposterConfig.port) :
    op = .deleteImposter p ∧ v = none := by
  rcases (mem_replaceOps hops hne).1 hop with ⟨config, hconfig, rfl⟩ | ⟨q, -, -, rfl⟩
  · obtain ⟨port, hport, heq⟩ := Option.map_eq_some_iff.1 hsets
    cases heq
    exact absurd (List.mem_map.2 ⟨config, hconfig, hport⟩) hp
  · cases hsets
    exact ⟨rfl, rfl⟩

/-! ## The attempt and the retry -/

/-- An attempt to replace the imposters of a fleet of which a prefix is committed, and a retry,
built on the state the prefix leads to, of which all is committed. No other request is
applied, and the retry ends before an outcome of the attempt expires. -/
structure Retried (U : Upstream) (v5 : String → ℕ → String) (base : String) (body : List ImposterConfig) (s : State)
    (es : List Event) (committed : ℕ) (es' : List Event) : Prop where
  ids : IdsApart v5 base
  nonempty : body ≠ []
  ports : (body.map ImposterConfig.port).Nodup
  valid : ∀ config ∈ body, validate U (.putImposter config none) = .ok ()
  ok : StateOk U s
  /-- The key is new. -/
  fresh : ∀ index total, s.dedup[opIdFor v5 base index total]? = none
  /-- What the attempt was built on need not be current. -/
  attempt : ∃ reconcile existing ops now, replaceOps reconcile existing body = .ok ops ∧ committed ≤ ops.length ∧
    requestsOf es = (mintAll v5 base now ops).take committed
  retry : ∃ reconcile ops now, replaceOps reconcile (existingPorts (es.foldl (State.step U) s).tables) body = .ok ops ∧
    requestsOf es' = mintAll v5 base now ops
  lifetime : OutlivesRun U (es'.foldl (State.step U) (es.foldl (State.step U) s)).applied.logicalClockSecs s es

namespace Retried

variable {s : State} {es es' : List Event} {committed : ℕ}

theorem nodup_attempt (h : Retried U v5 base body s es committed es') : ((requestsOf es).map (·.opId)).Nodup := by
  obtain ⟨reconcile, existing, ops, now, -, -, hes⟩ := h.attempt
  rw [hes]
  exact (nodup_opIds h.ids).sublist ((List.take_sublist _ _).map _)

theorem fresh_attempt (h : Retried U v5 base body s es committed es') {request : ControlRequest}
    (hmem : request ∈ requestsOf es) : s.dedup[request.opId]? = none := by
  obtain ⟨reconcile, existing, ops, now, -, -, hes⟩ := h.attempt
  rw [hes] at hmem
  obtain ⟨i, op, -, rfl⟩ := mem_mintAll.1 (List.mem_of_mem_take hmem)
  exact h.fresh i ops.length

theorem replaces_attempt (h : Retried U v5 base body s es committed es') {request : ControlRequest}
    (hmem : request ∈ requestsOf es) : Replaces U request := by
  obtain ⟨reconcile, existing, ops, now, hops, -, hes⟩ := h.attempt
  rw [hes] at hmem
  exact replaces_mintAll hops h.nonempty h.valid (List.mem_of_mem_take hmem)

/-- **Before the retry every put that is committed has its config.** -/
theorem before_body (h : Retried U v5 base body s es committed es') {i : ℕ} (hi : i < committed) {config : ImposterConfig}
    (hconfig : body[i]? = some config) {p : Port} (hp : config.port = some p) :
    imposters U (es.foldl (State.step U) s) p = some config := by
  obtain ⟨reconcile, existing, ops, now, hops, hcommitted, hes⟩ := h.attempt
  have hbody : i < body.length := (List.getElem?_eq_some_iff.1 hconfig).1
  have hput : mintRequest (opIdFor v5 base i ops.length) (.putImposter config (restartOf reconcile)) .unconditional (now i) ∈
      requestsOf es := by
    rw [hes]
    refine List.mem_of_getElem? (i := i) ?_
    rw [List.getElem?_take, if_pos hi, getElem?_mintAll, getElem?_replaceOps hops h.nonempty, if_pos hbody, hconfig]
    rfl
  rw [run_imposters es s le_rfl h.nodup_attempt (fun _ hmem => h.replaces_attempt hmem)
    (fun _ hmem => .inl (h.fresh_attempt hmem)), assign_apply (v := some config), if_pos]
  · exact mem_freshSets_ports.2 ⟨_, hput, h.fresh_attempt hput, some config, by simp [mintRequest, ControlOp.sets?, hp]⟩
  · rintro ⟨q, v⟩ hmem rfl
    obtain ⟨request, hrequest, -, hsets⟩ := mem_freshSets.1 hmem
    rw [hes] at hrequest
    exact sets_body hops h.nonempty h.ports (op_mem_of_mem_mintAll (List.mem_of_mem_take hrequest)) hsets
      (List.mem_of_getElem? hconfig) hp

theorem before_none (h : Retried U v5 base body s es committed es') {i total : ℕ} (hi : i < total) (hlate : committed ≤ i) :
    (es.foldl (State.step U) s).dedup[opIdFor v5 base i total]? = none := by
  obtain ⟨reconcile, existing, ops, now, -, hcommitted, hes⟩ := h.attempt
  refine run_none es s (h.fresh i total) fun hmem => ?_
  obtain ⟨request, hmem, heq⟩ := List.mem_map.1 hmem
  rw [hes] at hmem
  obtain ⟨k, hk⟩ := List.mem_iff_getElem?.1 hmem
  rw [List.getElem?_take] at hk
  split at hk
  · rw [getElem?_mintAll, List.getElem?_eq_getElem (by omega), Option.map_some] at hk
    cases hk
    have := opIdFor_inj h.ids (by omega) hi heq
    omega
  · cases hk

/-- **An op id of the retry has no row, or one that outlives the retry.** -/
theorem before_rows (h : Retried U v5 base body s es committed es') (opId : String)
    (hfresh : s.dedup[opId]? = none) :
    (es.foldl (State.step U) s).dedup[opId]? = none ∨
      RecordedUntil U (es'.foldl (State.step U) (es.foldl (State.step U) s)).applied.logicalClockSecs
        (es.foldl (State.step U) s) opId := by
  by_cases hmem : opId ∈ (requestsOf es).map (·.opId)
  · obtain ⟨request, hrequest, rfl⟩ := List.mem_map.1 hmem
    exact .inr (run_records (clock_le_foldl _ es') h.lifetime h.nodup_attempt hrequest (h.fresh_attempt hrequest))
  · exact .inl (run_none es s hfresh hmem)

/-- Where both lists have more than one request, a position at which one is committed has an
op id with a row. -/
theorem before_recorded (h : Retried U v5 base body s es committed es') {i total : ℕ} (hi : i < committed) (hpos : 0 < i)
    (htotal : 1 < total) : (es.foldl (State.step U) s).dedup[opIdFor v5 base i total]? ≠ none := by
  obtain ⟨reconcile, existing, ops, now, -, hcommitted, hes⟩ := h.attempt
  have hlength : i < ops.length := by omega
  have hmem : mintRequest (opIdFor v5 base i ops.length) ops[i] .unconditional (now i) ∈ requestsOf es := by
    rw [hes]
    refine List.mem_of_getElem? (i := i) ?_
    rw [List.getElem?_take, if_pos hi, getElem?_mintAll, List.getElem?_eq_getElem hlength]
    rfl
  have hsame : opIdFor v5 base i total = opIdFor v5 base i ops.length := by
    simp only [opIdFor, if_neg (show total ≠ 1 by omega), if_neg (show ops.length ≠ 1 by omega)]
  obtain ⟨entry, hrow, -⟩ := run_records (clock_le_foldl _ es') h.lifetime h.nodup_attempt hmem (h.fresh_attempt hmem)
  rw [hsame]
  intro hnone
  have hrow' : (es.foldl (State.step U) s).dedup[opIdFor v5 base i ops.length]? = some (U.dedup.write entry) := hrow
  rw [hnone] at hrow'
  cases hrow'

/-- **What the retry does**: it assigns what finds no row. -/
theorem after_eq (h : Retried U v5 base body s es committed es') :
    imposters U (es'.foldl (State.step U) (es.foldl (State.step U) s)) =
      assign (imposters U (es.foldl (State.step U) s)) (freshSets (es.foldl (State.step U) s) (requestsOf es')) := by
  obtain ⟨reconcile, ops, now, hops, hes'⟩ := h.retry
  refine run_imposters es' _ le_rfl ?_ ?_ ?_
  · rw [hes']; exact nodup_opIds h.ids
  · intro request hmem
    rw [hes'] at hmem
    exact replaces_mintAll hops h.nonempty h.valid hmem
  · intro request hmem
    rw [hes'] at hmem
    obtain ⟨i, op, -, rfl⟩ := mem_mintAll.1 hmem
    exact h.before_rows _ (h.fresh i ops.length)

/-- **After the retry the body's ports have the body's configs**: a put that finds a row was
committed by the attempt. -/
theorem after_body (h : Retried U v5 base body s es committed es') {config : ImposterConfig} (hconfig : config ∈ body)
    {p : Port} (hp : config.port = some p) :
    imposters U (es'.foldl (State.step U) (es.foldl (State.step U) s)) p = some config := by
  obtain ⟨reconcile, ops, now, hops, hes'⟩ := h.retry
  rw [h.after_eq, assign_apply (v := some config)]
  · split
    · rfl
    · rename_i hnot
      obtain ⟨i, hi⟩ := List.mem_iff_getElem?.1 hconfig
      have hbody : i < body.length := (List.getElem?_eq_some_iff.1 hi).1
      have hop : ops[i]? = some (.putImposter config (restartOf reconcile)) := by
        rw [getElem?_replaceOps hops h.nonempty, if_pos hbody, hi]
        rfl
      have hlength : i < ops.length := (List.getElem?_eq_some_iff.1 hop).1
      have hput : mintRequest (opIdFor v5 base i ops.length) (.putImposter config (restartOf reconcile)) .unconditional (now i) ∈
          requestsOf es' := by
        rw [hes']
        exact mem_mintAll.2 ⟨i, _, hop, rfl⟩
      by_cases hlt : i < committed
      · exact h.before_body hlt hi hp
      · -- a position from which nothing is committed has no row, so the put ran
        refine absurd (mem_freshSets_ports.2 ⟨_, hput, ?_, some config, by simp [mintRequest, ControlOp.sets?, hp]⟩) hnot
        exact h.before_none hlength (Nat.le_of_not_lt hlt)
  · rintro ⟨q, v⟩ hmem rfl
    obtain ⟨request, hrequest, -, hsets⟩ := mem_freshSets.1 hmem
    rw [hes'] at hrequest
    exact sets_body hops h.nonempty h.ports (op_mem_of_mem_mintAll hrequest) hsets hconfig hp

/-- **Another port is gone after the retry exactly if it was before, or a delete of it finds no
row.** -/
theorem after_other (h : Retried U v5 base body s es committed es') {p : Port}
    (hp : some p ∉ body.map ImposterConfig.port) :
    imposters U (es'.foldl (State.step U) (es.foldl (State.step U) s)) p = none ↔
      imposters U (es.foldl (State.step U) s) p = none ∨
        ∃ request ∈ requestsOf es', (es.foldl (State.step U) s).dedup[request.opId]? = none ∧
          request.op = .deleteImposter p := by
  obtain ⟨reconcile, ops, now, hops, hes'⟩ := h.retry
  have hdeletes : ∀ request ∈ requestsOf es', ∀ v, request.op.sets? = some (p, v) →
      request.op = .deleteImposter p ∧ v = none := by
    intro request hmem v hsets
    rw [hes'] at hmem
    exact sets_other hops h.nonempty (op_mem_of_mem_mintAll hmem) hsets hp
  rw [h.after_eq, assign_apply (v := none)]
  · split
    · rename_i hmem
      obtain ⟨request, hrequest, hnone, v, hsets⟩ := mem_freshSets_ports.1 hmem
      exact iff_of_true rfl (.inr ⟨request, hrequest, hnone, (hdeletes request hrequest v hsets).1⟩)
    · rename_i hnot
      refine (or_iff_left ?_).symm
      rintro ⟨request, hrequest, hnone, hop⟩
      exact hnot (mem_freshSets_ports.2 ⟨request, hrequest, hnone, none, by rw [hop]; rfl⟩)
  · rintro ⟨q, v⟩ hmem rfl
    obtain ⟨request, hrequest, -, hsets⟩ := mem_freshSets.1 hmem
    exact (hdeletes request hrequest v hsets).2

end Retried

theorem mem_existingPorts {t : Tables} {p : Port} : p ∈ existingPorts t ↔ t.configs[p]?.isSome := mem_toList_keys

/-- **A retried replace converges exactly if the attempt committed no delete, or left none to be
made.** Take an attempt with a new key of which the first `committed` requests are applied,
and a retry with the same key and body that is built on the state after these and is applied
to its end, within the lifetime of the attempt's outcomes. The ports that are configured are
those of the body, each with the body's config, if and only if no more than the puts were
committed, or every port that is configured before the retry is one of the body. -/
theorem retry_converges_iff (U : Upstream) (v5 : String → ℕ → String) (base : String) (body : List ImposterConfig)
    (s : State) (es : List Event) (committed : ℕ) (es' : List Event) (h : Retried U v5 base body s es committed es') :
    let before := es.foldl (State.step U) s
    let after := es'.foldl (State.step U) before
    ((∀ p : Port, after.tables.configs[p]?.isSome ↔ some p ∈ body.map ImposterConfig.port) ∧
        ∀ config ∈ body, ∀ p, config.port = some p → storedConfig U after.tables p = some config) ↔
      committed ≤ body.length ∨
        ∀ p : Port, before.tables.configs[p]?.isSome → some p ∈ body.map ImposterConfig.port := by
  intro before after
  have hbefore : StateOk U before := stateOk_foldl h.ok es
  have hafter : StateOk U after := stateOk_foldl hbefore es'
  obtain ⟨reconcile, ops, now, hops, hes'⟩ := h.retry
  constructor
  · rintro ⟨hexact, -⟩
    by_contra hnot
    rw [not_or, Nat.not_le] at hnot
    obtain ⟨hcommitted, hleft⟩ := hnot
    -- the retry's first delete has the op id of the attempt's first delete
    set left := (existingPorts before.tables).filter (some · ∉ body.map ImposterConfig.port) with hleft'
    obtain ⟨p, hp⟩ : ∃ p, left[0]? = some p := by
      push Not at hleft
      obtain ⟨q, hq, hother⟩ := hleft
      have hmem : q ∈ left := List.mem_filter.2 ⟨mem_existingPorts.2 hq, decide_eq_true hother⟩
      exact ⟨_, List.getElem?_eq_getElem (List.length_pos_of_mem hmem)⟩
    obtain ⟨hconfigured, hother⟩ := List.mem_filter.1 (List.mem_of_getElem? hp)
    have hother : some p ∉ body.map ImposterConfig.port := of_decide_eq_true hother
    have hpos : 0 < body.length := List.length_pos_iff.2 h.nonempty
    have hgone : imposters U after p = none := by
      rw [← Option.not_isSome_iff_eq_none, imposters_isSome hafter]
      exact fun hsome => hother ((hexact p).1 hsome)
    rcases (h.after_other hother).1 hgone with hnone | ⟨request, hrequest, hfresh, hop⟩
    · rw [← Option.not_isSome_iff_eq_none, imposters_isSome hbefore] at hnone
      exact hnone (mem_existingPorts.1 hconfigured)
    · rw [hes'] at hrequest
      obtain ⟨i, op, hi, rfl⟩ := mem_mintAll.1 hrequest
      have hlength : i < ops.length := (List.getElem?_eq_some_iff.1 hi).1
      rw [getElem?_replaceOps hops h.nonempty] at hi
      cases hop
      split at hi
      · obtain ⟨_, _, heq⟩ := Option.map_eq_some_iff.1 hi
        cases heq
      · rename_i hge
        obtain ⟨q, hq, heq⟩ := Option.map_eq_some_iff.1 hi
        cases heq
        have hnodup : left.Nodup := (nodup_toList_keys _).filter _
        have hfirst : i - body.length = 0 :=
          (List.getElem?_inj (List.getElem?_eq_some_iff.1 hq).1 hnodup).1 (hq.trans hp.symm)
        exact h.before_recorded (by omega) (by omega) (by omega) hfresh
  · intro hcond
    refine ⟨fun p => ?_, fun config hconfig p hp => h.after_body hconfig hp⟩
    rw [← imposters_isSome hafter]
    by_cases hp : some p ∈ body.map ImposterConfig.port
    · obtain ⟨config, hconfig, hport⟩ := List.mem_map.1 hp
      have := h.after_body hconfig hport
      exact iff_of_true (by rw [this]; rfl) hp
    · refine iff_of_false ?_ hp
      rw [Option.not_isSome_iff_eq_none, h.after_other hp]
      by_cases hconfigured : before.tables.configs[p]?.isSome
      · -- the port is deleted by a request behind all that were committed
        refine .inr ?_
        have hcommitted : committed ≤ body.length := hcond.resolve_right fun hall => hp (hall p hconfigured)
        have hop : ControlOp.deleteImposter p ∈ ops :=
          (mem_replaceOps hops h.nonempty).2 (.inr ⟨p, mem_existingPorts.2 hconfigured, hp, rfl⟩)
        obtain ⟨i, hi⟩ := List.mem_iff_getElem?.1 hop
        have hlength : i < ops.length := (List.getElem?_eq_some_iff.1 hi).1
        have hlate : body.length ≤ i := by
          by_contra hlt
          rw [getElem?_replaceOps hops h.nonempty, if_pos (by omega)] at hi
          obtain ⟨_, _, heq⟩ := Option.map_eq_some_iff.1 hi
          cases heq
        refine ⟨mintRequest (opIdFor v5 base i ops.length) (.deleteImposter p) .unconditional (now i), ?_, ?_, rfl⟩
        · rw [hes']
          exact mem_mintAll.2 ⟨i, _, hi, rfl⟩
        · exact h.before_none hlength (hcommitted.trans hlate)
      · refine .inl ?_
        rw [← Option.not_isSome_iff_eq_none, imposters_isSome hbefore]
        exact hconfigured

/-- Ids that are apart: the base, and as many dots as the position says. -/
def dottedIds (base : String) (index : ℕ) : String := base ++ String.ofList (List.replicate (index + 1) '.')

theorem idsApart_dotted (base : String) : IdsApart dottedIds base where
  inj := by
    intro i j heq
    have hlength := congrArg String.length heq
    simp only [dottedIds, String.length_append, String.length_ofList, List.length_replicate] at hlength
    omega
  ne := by
    intro index heq
    have hlength := congrArg String.length heq
    simp only [dottedIds, String.length_append, String.length_ofList, List.length_replicate] at hlength
    omega

def twoPorts : List Event :=
  [.entry false (requestAt 1 { opId := "op-1", op := .putImposter { httpImposter [] with port := some 4546 } none }),
    .entry false (requestAt 2 { opId := "op-2", op := .putImposter { httpImposter [] with port := some 4547 } none })]

/-- A request of a replace with the key `k`, at a position. -/
def keyed (index : ℕ) (op : ControlOp) : ControlRequest := mintRequest (dottedIds "k" index) op .unconditional 0

def attemptPut : List Event := [.entry false (requestAt 3 (keyed 0 (.putImposter (httpImposter []) (some .imposter))))]

def retryPut : List Event :=
  [.entry false (requestAt 4 (keyed 0 (.putImposter (httpImposter []) (some .imposter)))),
    .entry false (requestAt 5 (keyed 1 (.deleteImposter 4546))),
    .entry false (requestAt 6 (keyed 2 (.deleteImposter 4547)))]

theorem retried_put : Retried jsonUpstream dottedIds "k" [httpImposter []] (twoPorts.foldl (State.step jsonUpstream) {})
    attemptPut 1 retryPut where
  ids := idsApart_dotted "k"
  nonempty := by decide
  ports := by decide
  valid := by
    intro config hconfig
    cases List.mem_singleton.1 hconfig
    decide +kernel
  ok := stateOk_foldl stateOk_empty twoPorts
  fresh := by
    intro index total
    refine run_none twoPorts {} (get_empty _) ?_
    have hother : ∀ id : String, id.toList.head? = some 'o' → opIdFor dottedIds "k" index total ≠ id := by
      rintro id hid rfl
      unfold opIdFor at hid
      split at hid
      · cases hid
      · simp [dottedIds] at hid
    simp only [requestsOf, twoPorts, requestAt, Event.request?, List.filterMap_cons, List.filterMap_nil, List.map_cons,
      List.map_nil, List.mem_cons, List.not_mem_nil, or_false, not_or]
    exact ⟨hother _ rfl, hother _ rfl⟩
  attempt := ⟨false, [4546, 4547], _, fun _ => 0, rfl, by decide, by decide +kernel⟩
  retry := by
    have hports : existingPorts (attemptPut.foldl (State.step jsonUpstream)
        (twoPorts.foldl (State.step jsonUpstream) {})).tables = [4545, 4546, 4547] := by
      decide +kernel
    rw [hports]
    exact ⟨false, _, fun _ => 0, rfl, by decide +kernel⟩
  lifetime := by
    intro m d e request he _
    cases m with
    | zero => cases he; decide +kernel
    | succ m => cases he

/-- When only the put was committed, the retry makes both deletes. -/
theorem retryPut_converges :
    existingPorts (retryPut.foldl (State.step jsonUpstream) (attemptPut.foldl (State.step jsonUpstream)
        (twoPorts.foldl (State.step jsonUpstream) {}))).tables = [4545] ∧
      storedConfig jsonUpstream (retryPut.foldl (State.step jsonUpstream) (attemptPut.foldl (State.step jsonUpstream)
        (twoPorts.foldl (State.step jsonUpstream) {}))).tables 4545 = some (httpImposter []) := by
  refine ⟨by decide +kernel, ?_⟩
  exact ((retry_converges_iff jsonUpstream dottedIds "k" [httpImposter []] _ attemptPut 1 retryPut retried_put).2
    (.inl le_rfl)).2 (httpImposter []) List.mem_cons_self 4545 rfl

def attemptDelete : List Event :=
  [.entry false (requestAt 3 (keyed 0 (.putImposter (httpImposter []) (some .imposter)))),
    .entry false (requestAt 4 (keyed 1 (.deleteImposter 4546)))]

def retryDelete : List Event :=
  [.entry false (requestAt 5 (keyed 0 (.putImposter (httpImposter []) (some .imposter)))),
    .entry false (requestAt 6 (keyed 1 (.deleteImposter 4547)))]

/-- **When one delete of two was committed, the retry is answered `Applied` and the second port
stays.** -/
theorem retryDelete_keeps_port :
    (replaceOps false (existingPorts (twoPorts.foldl (State.step jsonUpstream) {}).tables) [httpImposter []]).toOption.map
        (mintAll dottedIds "k" (fun _ => 0)) =
      some (requestsOf attemptDelete ++ [keyed 2 (.deleteImposter 4547)]) ∧
    (replaceOps false (existingPorts (attemptDelete.foldl (State.step jsonUpstream)
        (twoPorts.foldl (State.step jsonUpstream) {})).tables) [httpImposter []]).toOption.map
        (mintAll dottedIds "k" (fun _ => 0)) =
      some (requestsOf retryDelete) ∧
    (responses jsonUpstream (attemptDelete.foldl (State.step jsonUpstream)
        (twoPorts.foldl (State.step jsonUpstream) {})) retryDelete).map ControlResponse.outcome = [.applied, .applied] ∧
    existingPorts (retryDelete.foldl (State.step jsonUpstream) (attemptDelete.foldl (State.step jsonUpstream)
        (twoPorts.foldl (State.step jsonUpstream) {}))).tables = [4545, 4547] := by
  refine ⟨by decide +kernel, by decide +kernel, by decide +kernel, by decide +kernel⟩

end RiftCluster
