import RiftCluster.Model.FlowScope
import RiftCluster.Proof.OrphanSweep
import RiftCluster.Proof.RecordedIds

/-!
# Flow namespaces never collide

The scope in front of a flow id ends at its first colon, and the port before it is spelt in
digits, so it is read back whatever the flow id holds (`imposterPort_scoped`). The listing and the
clear of a scope therefore touch its own flows only.
-/

namespace RiftCluster

open KV ContextScope

variable {V : Type}

/-! ## Reading a scope back -/

theorem toList_scoped (port : Port) (id : String) :
    (imposter.scopedFlowId (some port) id).toList = 'i' :: (Nat.toDigits 10 port ++ (':' :: id.toList)) := by
  simp [scopedFlowId, prefixFor, Nat.repr, toString]

theorem digits_ne {port : ℕ} {c : Char} (hc : isAsciiDigit c = false) : ∀ d ∈ Nat.toDigits 10 port, d ≠ c := by
  rintro d hd rfl
  rw [List.all_eq_true.1 (all_digits port) d hd] at hc
  cases hc

theorem parsePort_toDigits {port : ℕ} (hport : port < 2 ^ 16) : parsePort (Nat.toDigits 10 port) = some port := by
  unfold parsePort
  split
  · rename_i rest h
    have hmem : '+' ∈ Nat.toDigits 10 port := by rw [h]; exact List.mem_cons_self
    exact absurd rfl (digits_ne rfl '+' hmem)
  · simpa [all_digits] using hport

/-- **The port of a scope is read back**, whatever the flow id holds. -/
theorem imposterPort_scoped (port : UInt16) (id : String) :
    imposterPort (imposter.scopedFlowId (some port.toNat) id) = some port.toNat := by
  unfold imposterPort
  rw [toList_scoped]
  have hsplit : splitOnce [':'] (Nat.toDigits 10 port.toNat ++ (':' :: id.toList)) =
      some (Nat.toDigits 10 port.toNat, id.toList) := splitOnce_append (digits_ne rfl) id.toList
  simp only [hsplit, Option.bind_some]
  exact parsePort_toDigits port.toNat_lt

theorem imposterPort_fleet (port : Option Port) (id : String) : imposterPort (fleet.scopedFlowId port id) = none := by
  have htext : (fleet.scopedFlowId port id).toList = 'f' :: ':' :: id.toList := by simp [scopedFlowId, prefixFor]
  unfold imposterPort
  rw [htext]
  rfl

theorem imposterPort_unresolved (id : String) : imposterPort (imposter.scopedFlowId none id) = none := by
  have htext : (imposter.scopedFlowId none id).toList = 'i' :: '?' :: ':' :: id.toList := by simp [scopedFlowId, prefixFor]
  have hsplit : splitOnce [':'] ('?' :: ':' :: id.toList) = some (['?'], id.toList) :=
    splitOnce_append (l := ['?']) (by simp) id.toList
  simp only [imposterPort, htext, hsplit, Option.bind_some]
  rfl

theorem scoped_inj_right {scope : ContextScope} {port : Option Port} {id id' : String}
    (h : scope.scopedFlowId port id = scope.scopedFlowId port id') : id = id' := by
  have htext := congrArg String.toList h
  simp only [scopedFlowId, String.toList_append, List.append_cancel_left_eq] at htext
  exact String.toList_injective htext

/-! ## The listing of a scope -/

theorem strip?_eq_some {scope text id : String} : Spec.strip? scope text = some id ↔ text = scope ++ id := by
  unfold Spec.strip?
  split
  · rename_i h
    obtain ⟨rest, hrest⟩ := List.isPrefixOf_iff_prefix.1 h
    rw [Option.some.injEq, ← hrest, List.drop_left]
    constructor
    · rintro rfl
      rw [← String.toList_inj, String.toList_append, String.toList_ofList, hrest]
    · rintro rfl
      rw [String.toList_append] at hrest
      rw [List.append_cancel_left hrest, String.ofList_toList]
  · rename_i h
    refine iff_of_false (by simp) ?_
    rintro rfl
    refine h (List.isPrefixOf_iff_prefix.2 ?_)
    rw [String.toList_append]
    exact List.prefix_append _ _

theorem ownedSpace_eq_some (ownerOf : String → Option ℕ) {entry row : String × ℕ} {scope : String} {me : ℕ}
    (h : (match Spec.strip? scope entry.1 with
      | some unscoped => if ownerOf entry.1 = some me then some (unscoped, entry.2) else none
      | none => none) = some row) :
    entry.1 = scope ++ row.1 ∧ entry.2 = row.2 ∧ ownerOf entry.1 = some me := by
  split at h
  · rename_i unscoped hstrip
    split at h
    · rename_i howner
      cases h
      exact ⟨strip?_eq_some.1 hstrip, rfl, howner⟩
    · cases h
  · cases h

/-- **The listing of a scope** has the flows of that scope which this node owns, under their own ids. -/
theorem mem_ownedSpaces {entries : List (String × ℕ)} {scope : String} {ownerOf : String → Option ℕ} {me : ℕ}
    {id : String} {count : ℕ} :
    (id, count) ∈ ownedSpaces entries scope ownerOf me ↔
      (scope ++ id, count) ∈ entries ∧ ownerOf (scope ++ id) = some me := by
  unfold ownedSpaces
  rw [List.mem_filterMap]
  constructor
  · rintro ⟨entry, hmem, h⟩
    obtain ⟨hid, hcount, howner⟩ := ownedSpace_eq_some ownerOf h
    rw [hid] at howner
    exact ⟨(Prod.ext hid hcount : entry = (scope ++ id, count)) ▸ hmem, howner⟩
  · rintro ⟨hmem, howner⟩
    refine ⟨_, hmem, ?_⟩
    rw [strip?_eq_some.2 rfl]
    exact if_pos howner

/-! ## The clear of scopes -/

def clearedBy (ports : Finset Port) (flowId : String) : Bool := (imposterPort flowId).any (· ∈ ports)

theorem send_queue_eq (s : Shard V) (requests : List (Mutation V)) :
    (s.send requests).queue = s.queue ++ if s.writer then requests else [] := by
  unfold Shard.send; split <;> simp

theorem clearIfScoped_spec (ports : Finset Port) (acc : Shard V × Table Port ℕ) (flowId : String) :
    (∀ f : String, (Shard.clearIfScoped ports acc flowId).1.memory[f]? =
      if flowId = f ∧ clearedBy ports f = true then none else acc.1.memory[f]?) ∧
    (Shard.clearIfScoped ports acc flowId).1.disk = acc.1.disk ∧
    (Shard.clearIfScoped ports acc flowId).1.writer = acc.1.writer ∧
    (Shard.clearIfScoped ports acc flowId).1.queue =
      acc.1.queue ++ if acc.1.writer then ([flowId].filter (clearedBy ports)).map .clearFlow else [] := by
  have hcases : (clearedBy ports flowId = true ∧ (Shard.clearIfScoped ports acc flowId).1 = acc.1.clearFlow flowId .async) ∨
      clearedBy ports flowId = false ∧ (Shard.clearIfScoped ports acc flowId).1 = acc.1 := by
    unfold Shard.clearIfScoped clearedBy
    cases imposterPort flowId with
    | none => exact .inr ⟨rfl, rfl⟩
    | some port => by_cases hmem : port ∈ ports <;> simp [hmem]
  rcases hcases with ⟨hcleared, heq⟩ | ⟨hkept, heq⟩
  · rw [heq]
    refine ⟨fun f => ?_, ?_, ?_, ?_⟩
    · simp only [Shard.clearFlow, Shard.send_memory, Shard.drop, get_erase]
      rcases eq_or_ne flowId f with rfl | hne
      · simp [hcleared]
      · simp [hne]
    · rw [Shard.clearFlow, Shard.send_disk, Shard.drop]
    · rw [Shard.clearFlow, Shard.send_writer, Shard.drop]
    · rw [Shard.clearFlow, send_queue_eq, List.filter_cons_of_pos hcleared]
      rfl
  · rw [heq]
    refine ⟨fun f => ?_, rfl, rfl, ?_⟩
    · rw [if_neg]
      rintro ⟨rfl, h⟩
      rw [hkept] at h
      cases h
    · simp [hkept]

/-- **What a clear of scopes does** with the flows it visits: those of its ports leave the memory,
and the writer is told so. -/
theorem clearScopes_fold (ports : Finset Port) (flows : List String) : ∀ acc : Shard V × Table Port ℕ,
    (∀ f : String, (flows.foldl (Shard.clearIfScoped ports) acc).1.memory[f]? =
      if f ∈ flows ∧ clearedBy ports f = true then none else acc.1.memory[f]?) ∧
    (flows.foldl (Shard.clearIfScoped ports) acc).1.disk = acc.1.disk ∧
    (flows.foldl (Shard.clearIfScoped ports) acc).1.queue =
      acc.1.queue ++ if acc.1.writer then (flows.filter (clearedBy ports)).map .clearFlow else [] := by
  induction flows with
  | nil => intro acc; simp
  | cons flowId flows ih =>
    intro acc
    obtain ⟨hmemory, hdisk, hqueue⟩ := ih (Shard.clearIfScoped ports acc flowId)
    obtain ⟨hmemory', hdisk', hwriter', hqueue'⟩ := clearIfScoped_spec ports acc flowId
    rw [List.foldl_cons]
    refine ⟨fun f => ?_, hdisk.trans hdisk', ?_⟩
    · rw [hmemory f, hmemory' f]
      by_cases hf : clearedBy ports f = true
      · by_cases hmem : f ∈ flows
        · simp [hf, hmem]
        · simp [hf, hmem, eq_comm]
      · simp [hf]
    · rw [hqueue, hqueue', hwriter', List.append_assoc]
      cases acc.1.writer with
      | false => rfl
      | true =>
        simp only [if_true]
        rw [← List.map_append, ← List.filter_append]
        rfl

theorem commitBatch_clears (now : ℕ) (flows : List String) : ∀ (d : Disk V) (f k : String),
    (commitBatch now d (flows.map .clearFlow)).flowKv[(f, k)]? = if f ∈ flows then none else d.flowKv[(f, k)]? := by
  induction flows with
  | nil => intro d f k; simp [commitBatch]
  | cons flowId flows ih =>
    intro d f k
    have hone : (Disk.apply now d (.clearFlow flowId)).flowKv[(f, k)]? =
        if flowId = f then none else d.flowKv[(f, k)]? := by
      simp only [Disk.apply, get_retain]
      rcases eq_or_ne flowId f with rfl | hne
      · cases d.flowKv[(flowId, k)]? <;> simp
      · cases d.flowKv[(f, k)]? <;> simp [hne, hne.symm]
    rw [List.map_cons, commitBatch, List.foldl_cons, ← commitBatch, ih, hone]
    by_cases hmem : f ∈ flows
    · simp [hmem]
    · simp [hmem, eq_comm]

def InScope (ports : Finset Port) (scope : ContextScope) (port : Option UInt16) : Prop :=
  scope = imposter ∧ ∃ p, port = some p ∧ p.toNat ∈ ports

theorem clearedBy_scoped (ports : Finset Port) (scope : ContextScope) (port : Option UInt16) (id : String) :
    clearedBy ports (scope.scopedFlowId (port.map UInt16.toNat) id) = true ↔ InScope ports scope port := by
  unfold clearedBy
  cases scope with
  | fleet =>
    rw [imposterPort_fleet]
    exact iff_of_false Bool.false_ne_true fun h => nomatch h.1
  | imposter =>
    cases port with
    | none =>
      rw [Option.map_none, imposterPort_unresolved]
      exact iff_of_false Bool.false_ne_true fun ⟨_, _, h, _⟩ => nomatch h
    | some p =>
      rw [Option.map_some, imposterPort_scoped]
      simp [InScope]

theorem clearScopes_eq (s : Shard V) (ports : Finset Port) :
    s.clearImposterScopes ports = s.flowIds.foldl (Shard.clearIfScoped ports) (s, ∅) := by
  unfold Shard.clearImposterScopes
  split
  · rename_i hempty
    have hskip : Shard.clearIfScoped ports = fun (acc : Shard V × Table Port ℕ) _ => acc := by
      funext acc flowId
      unfold Shard.clearIfScoped
      split
      · rfl
      · rw [hempty, if_neg (Finset.notMem_empty _)]
    rw [hskip, List.foldl_const]
    induction s.flowIds with
    | nil => rfl
    | cons _ flows ih => exact ih
  · rfl

/-- **Flow namespaces never collide.** A scoped id spells its scope, its port and the flow id, whatever
characters the flow id has: two are the same only if all of these are; the port is read back from
an imposter's id, and none from a fleet's or one without a port; a listing under a scope has exactly
the flows of the scope that this node owns, under their own ids; and a clear of ports takes from
the memory, and once the writer is through from the file, the flows held under one of them and no
other. -/
theorem flow_namespaces_disjoint (V : Type) :
    (∀ (p q : UInt16) (id id' : String),
      imposter.scopedFlowId (some p.toNat) id = imposter.scopedFlowId (some q.toNat) id' → p = q ∧ id = id') ∧
    (∀ (p q : Option Port) (id id' : String), fleet.scopedFlowId p id = fleet.scopedFlowId q id' → id = id') ∧
    (∀ (p q : Option Port) (id id' : String), imposter.scopedFlowId p id ≠ fleet.scopedFlowId q id') ∧
    (∀ (p : UInt16) (id : String), imposterPort (imposter.scopedFlowId (some p.toNat) id) = some p.toNat) ∧
    (∀ (p : Option Port) (id : String), imposterPort (fleet.scopedFlowId p id) = none) ∧
    (∀ id : String, imposterPort (imposter.scopedFlowId none id) = none) ∧
    (∀ (scope : ContextScope) (port : Option Port) (entries : List (String × ℕ)) (ownerOf : String → Option ℕ) (me : ℕ)
      (id : String) (count : ℕ), (id, count) ∈ ownedSpaces entries (scope.prefixFor port) ownerOf me ↔
        (scope.scopedFlowId port id, count) ∈ entries ∧ ownerOf (scope.scopedFlowId port id) = some me) ∧
    ∀ (s : Shard V) (ports : Finset Port) (scope : ContextScope) (port : Option UInt16) (id flowId : String),
      flowId = scope.scopedFlowId (port.map UInt16.toNat) id →
      ((InScope ports scope port → (s.clearImposterScopes ports).1.memory[flowId]? = none) ∧
        (¬ InScope ports scope port → (s.clearImposterScopes ports).1.memory[flowId]? = s.memory[flowId]?)) ∧
      ∀ (now : ℕ) (key : String),
        (commitBatch now (s.clearImposterScopes ports).1.disk (s.clearImposterScopes ports).1.queue).flowKv[(flowId, key)]? =
          if s.writer = true ∧ flowId ∈ s.flowIds ∧ clearedBy ports flowId = true then none
          else (commitBatch now s.disk s.queue).flowKv[(flowId, key)]? := by
  refine ⟨?_, ?_, ?_, imposterPort_scoped, imposterPort_fleet, imposterPort_unresolved, ?_, ?_⟩
  · intro p q id id' h
    have hport : p.toNat = q.toNat := by
      have := imposterPort_scoped p id
      rw [h, imposterPort_scoped] at this
      exact (Option.some.inj this).symm
    rw [hport] at h
    exact ⟨UInt16.toNat_inj.1 hport, scoped_inj_right h⟩
  · intro p q id id' h
    have hsame : fleet.scopedFlowId p id = fleet.scopedFlowId p id' := h
    exact scoped_inj_right hsame
  · intro p q id id' h
    have hfirst := congrArg (fun t => t.toList.head?) h
    cases p <;> simp [scopedFlowId, prefixFor] at hfirst
  · intro scope port entries ownerOf me id count
    exact mem_ownedSpaces
  · rintro s ports scope port id flowId hflow
    obtain ⟨hmemory, hdisk, hqueue⟩ := clearScopes_fold ports s.flowIds (s, ∅)
    rw [← clearScopes_eq] at hmemory hdisk hqueue
    have hscope : clearedBy ports flowId = true ↔ InScope ports scope port := by
      rw [hflow]
      exact clearedBy_scoped ports scope port id
    refine ⟨⟨fun hin => ?_, fun hout => ?_⟩, fun now key => ?_⟩
    · rw [hmemory]
      split
      · rfl
      · -- a flow that is not visited is not held
        rename_i hnot
        have habsent : flowId ∉ s.flowIds := fun hmem => hnot ⟨hmem, hscope.2 hin⟩
        rw [Shard.flowIds, mem_toList_keys, Bool.not_eq_true, Option.isSome_eq_false_iff, Option.isNone_iff_eq_none] at habsent
        exact habsent
    · rw [hmemory, if_neg fun h => hout (hscope.1 h.2)]
    · rw [hdisk, hqueue]
      cases hw : s.writer with
      | false => simp
      | true =>
        rw [if_pos rfl, commitBatch, List.foldl_append, ← commitBatch, ← commitBatch, commitBatch_clears]
        simp only [List.mem_filter, true_and]

end RiftCluster
