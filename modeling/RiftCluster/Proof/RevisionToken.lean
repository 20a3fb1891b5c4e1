import RiftCluster.Model.Mutation
import RiftCluster.Model.Reads
import RiftCluster.Proof.RecordedIds
import RiftCluster.Proof.Revisions

/-!
# The revision token of a write

* `parseIfMatch_revisionHeader`: the front reads back the token it writes.
* `requestsOf_portWrite`: a mutation on a port is one operation on it, and the gates keep that.
* `written_revision_iff`: the row a write leaves carries the write's log index, unless the write is
  a clear that strips nothing.
* `revision_token_usable_iff`: so the token of the reply is the row's, and lets the next write pass,
  exactly then.
-/

namespace RiftCluster.Front

open KV

open Auth (parseSecs)

variable {U : Upstream} {D : Doors} {G : Scripts} {es : List Event} {p : Port} {t : Tables}

/-! ## The token's text -/

theorem digit_ne {n : ℕ} {c d : Char} (hc : c ∈ Nat.toDigits 10 n) (hd : isAsciiDigit d = false) : c ≠ d := by
  rintro rfl
  rw [List.all_eq_true.1 (all_digits n) c hc] at hd
  cases hd

theorem parseSecs_toDigits {n : ℕ} (hn : n < 2 ^ 64) : parseSecs (Nat.toDigits 10 n) = some n := by
  have hempty : (Nat.toDigits 10 n).isEmpty = false := by simp
  unfold parseSecs
  split
  · rename_i rest hplus
    exact absurd rfl (digit_ne (n := n) (c := '+') (by rw [hplus]; exact List.mem_cons_self) rfl)
  · simp only [hempty, all_digits, parseU64_toDigits hn]
    rfl

theorem toList_revisionHeader (p : Port) (r : ℕ) :
    (revisionHeader (some p) r).toList = Nat.toDigits 10 p ++ (['@'] ++ Nat.toDigits 10 r) := by
  simp [revisionHeader, Nat.repr, toString]

theorem trim_revisionHeader (p : Port) (r : ℕ) :
    Auth.trim (revisionHeader (some p) r).toList = Nat.toDigits 10 p ++ (['@'] ++ Nat.toDigits 10 r) := by
  have hspace : ∀ c ∈ Nat.toDigits 10 p ++ (['@'] ++ Nat.toDigits 10 r), isWhitespace c = false := by
    intro c hc
    have hdigit : ∀ n, c ∈ Nat.toDigits 10 n → isWhitespace c = false := by
      intro n hn
      have hd := List.all_eq_true.1 (all_digits n) c hn
      simp only [isAsciiDigit, Bool.and_eq_true, decide_eq_true_eq, Char.le_def, UInt32.le_iff_toNat_le] at hd
      have h48 : 48 ≤ c.toNat := hd.1
      have h57 : c.toNat ≤ 57 := hd.2
      simp only [isWhitespace, Bool.or_eq_false_iff, Bool.and_eq_false_iff, decide_eq_false_iff_not, beq_eq_false_iff_ne]
      omega
    rcases List.mem_append.1 hc with hc | hc
    · exact hdigit p hc
    · rcases List.mem_append.1 hc with hc | hc
      · cases List.mem_singleton.1 hc
        rfl
      · exact hdigit r hc
  rw [toList_revisionHeader, Auth.trim]
  set text := Nat.toDigits 10 p ++ (['@'] ++ Nat.toDigits 10 r)
  have hdrop : text.dropWhile isWhitespace = text :=
    List.dropWhile_eq_self_iff.2 fun hl => by simp [hspace _ (List.getElem_mem hl)]
  rw [hdrop]
  exact List.rdropWhile_eq_self_iff.2 fun hl => by simp [hspace _ (List.getLast_mem hl)]

/-- **The front reads back the token it writes.** -/
theorem parseIfMatch_revisionHeader {r : ℕ} (hp : p < 65536) (hr : r < 2 ^ 64) :
    parseIfMatch (revisionHeader (some p) r) (some p) = .ok r := by
  obtain ⟨c, rest, hdigits⟩ : ∃ c rest, Nat.toDigits 10 p = c :: rest := List.exists_cons_of_ne_nil Nat.toDigits_ne_nil
  have hc : c ∈ Nat.toDigits 10 p := by rw [hdigits]; exact List.mem_cons_self
  have hquote : unquote (Nat.toDigits 10 p ++ (['@'] ++ Nat.toDigits 10 r)) =
      Nat.toDigits 10 p ++ (['@'] ++ Nat.toDigits 10 r) := by
    unfold unquote
    split
    · rename_i _ heq
      rw [hdigits] at heq
      exact absurd (List.cons.inj heq).1 (digit_ne hc rfl)
    · rfl
  have hbare : parseSecs (Nat.toDigits 10 p ++ (['@'] ++ Nat.toDigits 10 r)) = none := by
    unfold parseSecs
    split
    · rename_i _ heq
      rw [hdigits] at heq
      exact absurd (List.cons.inj heq).1 (digit_ne hc rfl)
    · have hall : (Nat.toDigits 10 p ++ (['@'] ++ Nat.toDigits 10 r)).all isAsciiDigit = false := by
        simp [show isAsciiDigit '@' = false from rfl]
      simp only [hall, Bool.and_false]
      rfl
  have hsplit : splitOnce ['@'] (Nat.toDigits 10 p ++ (['@'] ++ Nat.toDigits 10 r)) =
      some (Nat.toDigits 10 p, Nat.toDigits 10 r) :=
    splitOnce_append (fun c' hc' => digit_ne hc' rfl) _
  have hport : parsePort (String.ofList (Nat.toDigits 10 p)) = some p := by
    simp [parsePort, parseSecs_toDigits (hp.trans (by decide)), hp]
  unfold parseIfMatch
  simp only [trim_revisionHeader, hquote, hbare, hsplit, hport, parseSecs_toDigits hr, decide_true, if_true, Option.elim]

/-! ## Operations on one port -/

/-- The operations that a mutation on a port commits. -/
inductive PortWrite (p : Port) : ControlOp → Prop
  | put {config : ImposterConfig} {restart : Option Restart} (hport : config.port = some p) :
    PortWrite p (.putImposter config restart)
  | patch (edit : StubEditScript) : PortWrite p (.patchStubs p edit)
  | toggle (enabled : Bool) : PortWrite p (.setEnabled p enabled)
  | delete : PortWrite p (.deleteImposter p)
  | clear : PortWrite p (.proxyRecordedClear p)

theorem PortWrite.target {op : ControlOp} (h : PortWrite p op) :
    preconditionTarget op = if op = .proxyRecordedClear p then none else some (.imposter p) := by
  cases h with
  | put hport => simp [preconditionTarget, hport]
  | patch edit => simp [preconditionTarget]
  | toggle enabled => simp [preconditionTarget]
  | delete => simp [preconditionTarget]
  | clear => simp [preconditionTarget]

theorem committedConfig_port (hok : TablesOk U t) {q : Port} {config : ImposterConfig}
    (h : committedConfig U t q = .ok config) : config.port = some q := by
  unfold committedConfig at h
  cases hrow : t.configs[q]? with
  | none => rw [hrow] at h; cases h
  | some row =>
    obtain ⟨r, rfl, hport⟩ := hok.configs q row hrow
    rw [hrow] at h
    simp only [Row.text, Upstream.read_imposterRow, Upstream.config_read_write] at h
    cases h
    exact hport

theorem mapError_ok {ε ε' α : Type} {f : ε → ε'} {x : Except ε α} {a : α} (h : x.mapError f = .ok a) : x = .ok a := by
  cases x with
  | error e => cases h
  | ok b => cases h; rfl

theorem map_ok {ε α β : Type} {f : α → β} {x : Except ε α} {b : β} (h : x.map f = .ok b) : ∃ a, x = .ok a ∧ f a = b := by
  cases x with
  | error e => cases h
  | ok a => exact ⟨a, rfl, Except.ok.inj h⟩

theorem bind_ok {ε α β : Type} {f : α → Except ε β} {x : Except ε α} {b : β} (h : x.bind f = .ok b) :
    ∃ a, x = .ok a ∧ f a = .ok b := by
  cases x with
  | error e => cases h
  | ok a => exact ⟨a, rfl, h⟩

/-- **A mutation on a port is one operation on it.** -/
theorem buildMutation_portWrite {s : BuildState} (hok : TablesOk U s.tables) {body : List UInt8} {kind : Terminated}
    {mutation : Mutation} (h : buildMutation U D s body kind = .ok mutation) (hport : mutation.port = some p) :
    ∃ op, mutation.ops = [op] ∧ PortWrite p op := by
  have hput : ∀ {q : Port} {config : ImposterConfig} {admission : Admit} {restart : Option Restart},
      mutation = putConfigMutation q config admission restart → config.port = some q →
      ∃ op, mutation.ops = [op] ∧ PortWrite p op := by
    rintro q config admission restart rfl hq
    cases hport
    exact ⟨_, rfl, .put hq⟩
  have hpatch : ∀ {q : Port} {edit : StubEditScript} {admission : Admit},
      mutation = .single q admission (.patchStubs q edit) → ∃ op, mutation.ops = [op] ∧ PortWrite p op := by
    rintro q edit admission rfl
    cases hport
    exact ⟨_, rfl, .patch edit⟩
  cases kind with
  | create =>
    obtain ⟨config, -, h⟩ := bind_ok h
    cases hq : config.port with
    | none => simp only [hq] at h; cases h
    | some q => simp only [hq] at h; exact hput (Except.ok.inj h).symm hq
  | replaceAllImposters =>
    obtain ⟨imposters, -, h⟩ := bind_ok h
    obtain ⟨ops, -, h⟩ := bind_ok h
    cases h
    cases hport
  | deleteAllImposters => cases h; cases hport
  | deleteImposter q =>
    simp only [buildMutation] at h
    split at h
    · cases h
    · cases h; cases hport; exact ⟨_, rfl, .delete⟩
  | addStub q =>
    obtain ⟨pair, -, h⟩ := bind_ok h
    exact hpatch (Except.ok.inj h).symm
  | replaceStubs q =>
    obtain ⟨stubs, -, h⟩ := bind_ok h
    obtain ⟨config, hconfig, h⟩ := bind_ok h
    have hq := committedConfig_port hok hconfig
    exact hput (Except.ok.inj h).symm hq
  | replaceStubAt q raw =>
    obtain ⟨config, hconfig, h⟩ := bind_ok h
    cases hindex : stubPosition raw config.stubs.length with
    | none => simp only [hindex] at h; cases h
    | some index =>
      simp only [hindex] at h
      obtain ⟨stub, -, h⟩ := bind_ok h
      have hq := committedConfig_port hok hconfig
      exact hput (Except.ok.inj h).symm hq
  | deleteStubAt q raw =>
    obtain ⟨config, hconfig, h⟩ := bind_ok h
    cases hindex : stubPosition raw config.stubs.length with
    | none => simp only [hindex] at h; cases h
    | some index =>
      simp only [hindex] at h
      have hq := committedConfig_port hok hconfig
      exact hput (Except.ok.inj h).symm hq
  | replaceStubById q id =>
    obtain ⟨stub, -, h⟩ := bind_ok h
    exact hpatch (Except.ok.inj h).symm
  | deleteStubById q id => exact hpatch (Except.ok.inj h).symm
  | setEnabled q enabled => cases h; cases hport; exact ⟨_, rfl, .toggle enabled⟩
  | clearSavedProxyResponses q => cases h; cases hport; exact ⟨_, rfl, .clear⟩
  | addSpaceStub q flow =>
    obtain ⟨reason, -, h⟩ := bind_ok h
    cases reason with
    | some reason => cases h
    | none =>
      obtain ⟨stub, -, h⟩ := bind_ok h
      exact hpatch (Except.ok.inj h).symm
  | putRoutes => obtain ⟨table, -, h⟩ := bind_ok h; cases h; cases hport
  | deleteRoute id =>
    simp only [buildMutation] at h
    split at h
    · cases h
    · split at h
      · cases h; cases hport
      · cases h
  | fleetNamePut => obtain ⟨name, -, h⟩ := bind_ok h; cases h; cases hport
  | spaceTeardown | spacesList | tryImposter | specCompile => cases h

theorem mem_of_mapM {ε α β : Type} {f : α → Except ε β} {l : List α} {l' : List β} (h : l.mapM f = .ok l') :
    ∀ b ∈ l', ∃ a ∈ l, f a = .ok b := by
  induction l generalizing l' with
  | nil => cases h; exact fun _ hmem => nomatch hmem
  | cons a rest ih =>
    rw [List.mapM_cons] at h
    obtain ⟨b, hb, h⟩ := bind_ok h
    obtain ⟨bs, hbs, h⟩ := bind_ok h
    cases h
    refine List.forall_mem_cons.2 ⟨⟨a, List.mem_cons_self, hb⟩, fun b' hmem => ?_⟩
    obtain ⟨a', ha', hb'⟩ := ih hbs b' hmem
    exact ⟨a', List.mem_cons_of_mem _ ha', hb'⟩

theorem resolveOpScripts_portWrite {s : GateState} {op op' : ControlOp} {index : Option ℕ} (hop : PortWrite p op)
    (h : resolveOpScripts U G s op index = .ok op') : PortWrite p op' := by
  cases hop with
  | put hport =>
    obtain ⟨config', hconfig, rfl⟩ := map_ok h
    exact .put ((G.resolve_port (mapError_ok hconfig)).trans hport)
  | patch edit =>
    simp only [resolveOpScripts] at h
    split at h
    · obtain ⟨config, -, h⟩ := bind_ok h
      obtain ⟨edit', -, h⟩ := bind_ok h
      cases h
      exact .patch edit'
    · cases h
      exact .patch edit
  | toggle enabled => cases h; exact .toggle enabled
  | delete => cases h; exact .delete
  | clear => cases h; exact .clear

theorem gatedOps_mem {s : GateState} {mutation : Mutation} {ops : List ControlOp} (h : gatedOps U G s mutation = .ok ops) :
    ∀ op' ∈ ops, ∃ op ∈ mutation.ops, ∃ index, resolveOpScripts U G s op index = .ok op' := by
  obtain ⟨-, -, h⟩ := bind_ok h
  obtain ⟨-, -, h⟩ := bind_ok h
  obtain ⟨-, -, h⟩ := bind_ok h
  obtain ⟨resolved, hresolved, h⟩ := bind_ok h
  obtain ⟨-, -, h⟩ := bind_ok h
  obtain ⟨-, -, h⟩ := bind_ok h
  obtain ⟨-, -, h⟩ := bind_ok h
  cases h
  intro op' hmem
  obtain ⟨⟨op, index⟩, hpair, hop⟩ := mem_of_mapM hresolved op' hmem
  exact ⟨op, (List.of_mem_zip hpair).1, index, hop⟩

theorem requestsOf_mem {s : GateState} {mutation : Mutation} {requests : List ControlRequest}
    (h : requestsOf U G s mutation = .ok requests) : ∃ ops precondition, gatedOps U G s mutation = .ok ops ∧
      preconditionOf s mutation = .ok precondition ∧ ∀ request ∈ requests, ∃ op ∈ ops, ∃ opId now,
        request = mintRequest opId op precondition now := by
  obtain ⟨ops, hops, h⟩ := bind_ok h
  obtain ⟨precondition, hpre, h⟩ := bind_ok h
  obtain ⟨-, -, h⟩ := bind_ok h
  cases h
  refine ⟨ops, precondition, hops, hpre, fun request hmem => ?_⟩
  obtain ⟨i, hi, rfl⟩ := List.mem_mapIdx.1 hmem
  exact ⟨ops[i], List.getElem_mem hi, _, _, rfl⟩

/-- **Every request of a mutation on a port writes the port.** -/
theorem requestsOf_portWrite {s : BuildState} (hok : TablesOk U s.tables) {body : List UInt8} {kind : Terminated}
    {mutation : Mutation} (h : buildMutation U D s body kind = .ok mutation) (hport : mutation.port = some p)
    {gate : GateState} {requests : List ControlRequest} (hrequests : requestsOf U G gate mutation = .ok requests) :
    ∀ request ∈ requests, PortWrite p request.op := by
  obtain ⟨op, hops, hop⟩ := buildMutation_portWrite hok h hport
  obtain ⟨ops, precondition, hgated, -, hmem⟩ := requestsOf_mem hrequests
  intro request hrequest
  obtain ⟨op', hop', opId, now, rfl⟩ := hmem request hrequest
  obtain ⟨op'', hop'', index, hresolve⟩ := gatedOps_mem hgated op' hop'
  rw [hops] at hop''
  cases List.mem_singleton.1 hop''
  exact resolveOpScripts_portWrite hop hresolve

/-! ## The row -/

/-- Whether a clear finds a response of a proxy in the port's stubs. -/
def clearsSomething (U : Upstream) (t : Tables) (p : Port) : Bool :=
  (storedConfig U t p).any fun config => (stripProxyResponses config.stubs).2

theorem storedConfig_text {r : Row} (hrow : t.configs[p]? = some (r.text U)) : storedConfig U t p = some r.config := by
  simp [storedConfig, hrow, Row.text, Except.toOption]

theorem PortWrite.stores (hok : TablesOk U t) {op : ControlOp} (hop : PortWrite p op) (hclear : op ≠ .proxyRecordedClear p)
    (hdelete : op ≠ .deleteImposter p) {index : ℕ} {d : Bool} {actions : List EngineAction}
    (hrun : (mutateTables U t op index d).2 = .ok actions) :
    ∃ r : Row, r.revision = index ∧ (mutateTables U t op index d).1.configs[p]? = some (r.text U) := by
  cases hop with
  | put hport =>
    simp only [mutateTables, putImposter_tables hport]
    exact ⟨⟨_, _, index⟩, rfl, by rw [store_get, if_pos rfl, Row.text]⟩
  | patch edit =>
    simp only [mutateTables, patchStubs] at hrun ⊢
    rcases storedImposter_cases hok p with ⟨-, hstored⟩ | ⟨r, -, -, hstored⟩
    · rw [hstored] at hrun; cases hrun
    · simp only [hstored] at hrun ⊢
      cases hedit : applyEdit U r.config.stubs edit with
      | error reason => simp only [hedit] at hrun; cases hrun
      | ok stubs =>
        refine ⟨⟨{ r.config with stubs }, r.enabled, index⟩, rfl, ?_⟩
        change (t.store U p { r.config with stubs } r.enabled index).configs[p]? = _
        rw [store_get, if_pos rfl, Row.text]
  | toggle enabled =>
    simp only [mutateTables, setEnabled] at hrun ⊢
    rcases storedImposter_cases hok p with ⟨-, hstored⟩ | ⟨r, -, -, hstored⟩
    · rw [hstored] at hrun; cases hrun
    · simp only [hstored]
      exact ⟨⟨_, _, index⟩, rfl, by rw [store_get, if_pos rfl, Row.text]⟩
  | delete => exact absurd rfl hdelete
  | clear => exact absurd rfl hclear

/-- **When the row a write leaves carries its index.** -/
theorem written_revision_iff (hok : TablesOk U t) {op : ControlOp} (hop : PortWrite p op) {index : ℕ} {d : Bool}
    (hold : ∀ row, t.configs[p]? = some row → rowRevision U row ≠ some index) {actions : List EngineAction}
    (hrun : (mutateTables U t op index d).2 = .ok actions) {row : String}
    (hrow : (mutateTables U t op index d).1.configs[p]? = some row) :
    rowRevision U row = some index ↔ (op = .proxyRecordedClear p → clearsSomething U t p = true) := by
  by_cases hclear : op = .proxyRecordedClear p
  · subst hclear
    simp only [true_implies]
    rcases storedImposter_cases hok p with ⟨hnone, hstored⟩ | ⟨r, hstored, -⟩
    · -- without a row before there is none after
      have hafter : (mutateTables U t (.proxyRecordedClear p) index d).1.configs[p]? = none := by
        simp only [mutateTables, proxyRecordedClear]
        rw [storedImposter_none (t := t.forgetPort p) hnone]
        exact hnone
      rw [hafter] at hrow
      cases hrow
    · have htables : (mutateTables U t (.proxyRecordedClear p) index d).1 = _ := proxyRecordedClear_tables hstored index d
      rw [htables] at hrow
      rw [clearsSomething, storedConfig_text hstored, Option.any_some]
      by_cases hstrip : (stripProxyResponses r.config.stubs).2 = true
      · rw [if_pos hstrip, store_get, if_pos rfl] at hrow
        cases hrow
        simp only [hstrip, iff_true]
        exact rowRevision_text ⟨_, _, index⟩
      · rw [if_neg hstrip] at hrow
        exact iff_of_false (hold row hrow) hstrip
  · refine iff_of_true ?_ fun h => absurd h hclear
    by_cases hdelete : op = .deleteImposter p
    · subst hdelete
      have hafter : (mutateTables U t (.deleteImposter p) index d).1.configs[p]? = none := by
        cases d <;> simp [mutateTables, deleteImposter, Tables.forgetPort]
      rw [hafter] at hrow
      cases hrow
    · obtain ⟨r, hr, hafter⟩ := hop.stores hok hclear hdelete hrun
      rw [hafter] at hrow
      cases hrow
      rw [rowRevision_text, hr]

/-! ## A write, and the next -/

/-- A write on a port through a front: a route's mutation, built on the applied state of the
front's own node, that has passed the gates. -/
structure FrontWrite (U : Upstream) (D : Doors) (G : Scripts) (p : Port) where
  own : List Event
  position : ℕ
  build : BuildState
  reads : build.tables = (sAt U {} own position).tables
  body : List UInt8
  kind : Terminated
  mutation : Mutation
  built : buildMutation U D build body kind = .ok mutation
  port : mutation.port = some p
  gate : GateState
  requests : List ControlRequest
  gated : requestsOf U G gate mutation = .ok requests
  request : ControlRequest
  mem : request ∈ requests

theorem FrontWrite.portWrite (w : FrontWrite U D G p) : PortWrite p w.request.op := by
  have hok : TablesOk U w.build.tables := by
    rw [w.reads]
    exact (stateOk_run stateOk_empty w.own w.position).tables
  exact requestsOf_portWrite hok w.built w.port w.gated w.request w.mem

theorem FrontWrite.expects (w : FrontWrite U D G p) (hp : p < 65536) {r : ℕ} (hr : r < 2 ^ 64)
    (h : w.gate.ifMatch = some (revisionHeader (some p) r)) :
    w.request.expectedRevision = some r ∧ w.request.expectAbsent = false := by
  obtain ⟨ops, precondition, -, hpre, hmem⟩ := requestsOf_mem w.gated
  obtain ⟨op, -, opId, now, hrequest⟩ := hmem w.request w.mem
  have hport : preconditionPort w.mutation = .ok (some p) := by simp only [preconditionPort, w.port]
  simp only [preconditionOf, h, hport, parseIfMatch_revisionHeader hp hr, bind, Except.bind, pure, Except.pure] at hpre
  cases hpre
  rw [hrequest]
  exact ⟨rfl, rfl⟩

theorem tables_quiet {n m : ℕ} (hnm : n < m) (hm : m ≤ es.length)
    (hquiet : ∀ j, n < j → j < m → ∀ d e request, es[j]? = some (.entry d e) → e.payload ≠ .normal request) :
    (sAt U {} es m).tables = (sAt U {} es (n + 1)).tables := by
  induction m with
  | zero => omega
  | succ m ih =>
    rcases Nat.eq_or_lt_of_le (Nat.le_of_lt_succ hnm) with rfl | hlt
    · rfl
    · rw [← ih hlt (by omega) fun j h1 h2 => hquiet j h1 (by omega), sAt_succ hm]
      rcases step_tables (U := U) (sAt U {} es m) es[m] with h | ⟨d, e, request, hev, hpay, -⟩
      · exact h
      · exact absurd hpay (hquiet m hlt (Nat.lt_succ_self m) d e request (by rw [List.getElem?_eq_getElem hm, hev]))

theorem expects_passes_iff (hok : TablesOk U t) {row : String} (hrow : t.configs[p]? = some row) {request : ControlRequest}
    (hop : PortWrite p request.op) {r : ℕ} (hexp : request.expectedRevision = some r) (habs : request.expectAbsent = false) :
    checkPreconditions U t request = .ok () ↔ request.op ≠ .proxyRecordedClear p ∧ rowRevision U row = some r := by
  obtain ⟨w, rfl, -⟩ := hok.configs p row hrow
  simp only [checkPreconditions, hexp, habs, checkExpectedRevision, hop.target]
  by_cases hclear : request.op = .proxyRecordedClear p
  · simp [hclear]
  · have hread : U.imposter.read (w.text U) = .ok ⟨U.config.write w.config, w.enabled, w.revision⟩ :=
      Upstream.read_imposterRow U ..
    rw [if_neg hclear, rowRevision_text]
    dsimp only
    rw [hrow]
    simp only [hread]
    by_cases hw : w.revision = r <;> simp [hw, hclear]

/-- **When the token of a write is usable.** Take a write on a port that is answered with success,
is no replay, and leaves a row. The row carries the revision of the reply's token if and only
if the write is no clear that finds nothing to strip. A next write with the token as its `If-Match`
and no other write in between passes its precondition if and only if, besides, it is no clear
itself. -/
theorem revision_token_usable_iff (U : Upstream) (D : Doors) (G : Scripts) (es : List Event) (hlog : Increasing es)
    (n : ℕ) (d : Bool) (e : Entry) (hentry : es[n]? = some (.entry d e)) (p : Port) (hp : p < 65536)
    (w : FrontWrite U D G p) (hpayload : e.payload = .normal w.request)
    (hreplay : replayOf U ((sAt U {} es n).receive e) w.request = none)
    (happlied : (applyOne U d (sAt U {} es n) e).reply.outcome = .applied) (row : String)
    (hrow : (sAt U {} es (n + 1)).tables.configs[p]? = some row) :
    (rowRevision U row = some (applyOne U d (sAt U {} es n) e).reply.revision ↔
        (w.request.op = .proxyRecordedClear p → clearsSomething U (sAt U {} es n).tables p = true)) ∧
      ∀ m, n < m → m ≤ es.length →
        (∀ j, n < j → j < m → ∀ d e request, es[j]? = some (.entry d e) → e.payload ≠ .normal request) →
        ∀ next : FrontWrite U D G p,
          next.gate.ifMatch = some (revisionHeader w.mutation.port (applyOne U d (sAt U {} es n) e).reply.revision) →
          (checkPreconditions U (sAt U {} es m).tables next.request = .ok () ↔
            next.request.op ≠ .proxyRecordedClear p ∧
              (w.request.op = .proxyRecordedClear p → clearsSomething U (sAt U {} es n).tables p = true)) := by
  obtain ⟨hn, hev⟩ := List.getElem?_eq_some_iff.1 hentry
  have hok := (stateOk_run (U := U) stateOk_empty es n).tables
  obtain ⟨-, ⟨actions, hrun⟩, htables⟩ := applied_runs hpayload hreplay happlied
  have hrevision : (applyOne U d (sAt U {} es n) e).reply.revision = e.logId.index := by
    rcases entry_runs (U := U) (sAt U {} es n) d e with ⟨-, -, hfailed⟩ | ⟨request, hp', -, -, -, -, hreply, -⟩
    · obtain ⟨reason, hreason⟩ := hfailed _ hpayload hreplay
      rw [hreason] at happlied
      cases happlied
    · rw [hpayload] at hp'
      cases hp'
      rw [hreply, hrun]
      rfl
  -- a row from before was written by an earlier entry, so at a lower index
  have hold : ∀ row, (sAt U {} es n).tables.configs[p]? = some row → rowRevision U row ≠ some e.logId.index := by
    intro row hbefore hsame
    obtain ⟨k, hk, ⟨d', e', hek, hrev⟩, -⟩ := row_written (by omega) hbefore
    rw [hrev] at hsame
    exact absurd (Option.some.inj hsame) (hlog.lt hk hek hentry).ne
  have hafter : (mutateTables U (sAt U {} es n).tables w.request.op e.logId.index d).1.configs[p]? = some row := by
    rw [← htables, ← hrow, sAt_succ hn, hev]
    rfl
  have hiff := written_revision_iff hok w.portWrite hold hrun hafter
  rw [hrevision]
  refine ⟨hiff, fun m hnm hm hquiet next hmatch => ?_⟩
  rw [w.port] at hmatch
  obtain ⟨hexp, habs⟩ := next.expects hp e.logId.index_lt hmatch
  rw [tables_quiet hnm hm hquiet, expects_passes_iff (stateOk_run (U := U) stateOk_empty es (n + 1)).tables hrow
    next.portWrite hexp habs, hiff]

def noDoors : Doors where
  config := fun _ => .error "EOF"
  batch := fun _ => .error "EOF"
  stub := fun _ => .error "EOF"
  addStub := fun _ => .error "EOF"
  stubs := fun _ => .error "EOF"
  notAStub := fun _ => .error "EOF"
  fleetName := fun _ => .error "EOF"
  routes := fun _ => .error "EOF"

def noScripts : Scripts where
  usesScript := fun _ => false
  resolveConfig := .ok
  resolveStub := fun _ => .ok
  checkLookups := fun _ => .ok ()
  validateStubs := fun _ => .ok ()
  validateStub := fun _ _ => .ok ()
  entrySize := fun _ => 0
  resolve_port := fun h => by cases h; rfl

def freshBuild : BuildState := { tables := {}, missing := fun _ => false, reconcile := false }

def gateOf (base : String) (ifMatch : Option String) : GateState where
  tables := {}
  allowInjection := true
  isBatch := false
  createOnly := false
  ifMatch := ifMatch
  base := base
  v5 := fun base index => base ++ toString index
  now := fun _ => 0

def requestOf? (kind : Terminated) (base : String) (ifMatch : Option String) : Option ControlRequest :=
  (buildMutation jsonUpstream noDoors freshBuild [] kind).toOption.bind fun mutation =>
    (requestsOf jsonUpstream noScripts (gateOf base ifMatch) mutation).toOption.bind List.head?

def pauseRequest : ControlRequest := { opId := "op-2", op := .setEnabled 4545 false }

def resumeRequest : ControlRequest := { opId := "op-3", expectedRevision := some 2, op := .setEnabled 4545 true }

/-- An imposter is paused, and resumed with the token of the pause. -/
def pauseThenResume : List Event :=
  [.entry false (requestAt 1 firstPut), .entry false (requestAt 2 pauseRequest), .entry false (requestAt 3 resumeRequest)]

def pauseWrite : FrontWrite jsonUpstream noDoors noScripts 4545 where
  own := []
  position := 0
  build := freshBuild
  reads := rfl
  body := []
  kind := .setEnabled 4545 false
  mutation := .single 4545 .nothing (.setEnabled 4545 false)
  built := rfl
  port := rfl
  gate := gateOf "op-2" none
  requests := [pauseRequest]
  gated := rfl
  request := pauseRequest
  mem := List.mem_cons_self

def resumeWrite : FrontWrite jsonUpstream noDoors noScripts 4545 where
  own := []
  position := 0
  build := freshBuild
  reads := rfl
  body := []
  kind := .setEnabled 4545 true
  mutation := .single 4545 .nothing (.setEnabled 4545 true)
  built := rfl
  port := rfl
  gate := gateOf "op-3" (some "4545@2")
  requests := [resumeRequest]
  gated := by rfl
  request := resumeRequest
  mem := List.mem_cons_self

/-- The pause's row is at its token's revision, and the resume passes with the token. -/
theorem pause_token_usable : (sAt jsonUpstream {} pauseThenResume 2).tables.configs[(4545 : Port)]?.bind
      (rowRevision jsonUpstream) = some 2 ∧
    checkPreconditions jsonUpstream (sAt jsonUpstream {} pauseThenResume 2).tables resumeRequest = .ok () := by
  obtain ⟨row, hrow⟩ : ∃ row, (sAt jsonUpstream {} pauseThenResume 2).tables.configs[(4545 : Port)]? = some row :=
    Option.isSome_iff_exists.1 (by decide +kernel)
  have hreply : (applyOne jsonUpstream false (sAt jsonUpstream {} pauseThenResume 1) (requestAt 2 pauseRequest)).reply =
      ⟨2, .applied⟩ := by
    decide +kernel
  have h := revision_token_usable_iff jsonUpstream noDoors noScripts pauseThenResume (by simp [Increasing, pauseThenResume,
    requestAt]) 1 false (requestAt 2 pauseRequest) rfl 4545 (by decide) pauseWrite rfl (by decide +kernel)
    (by rw [hreply]) row hrow
  rw [hreply] at h
  have hpause : pauseWrite.request.op ≠ .proxyRecordedClear 4545 := by decide
  have hresume : resumeWrite.request.op ≠ .proxyRecordedClear 4545 := by decide
  refine ⟨?_, ?_⟩
  · rw [hrow]
    exact h.1.2 fun hclear => absurd hclear hpause
  · refine (h.2 2 (by decide) (by decide) (fun j h1 h2 => ?_) resumeWrite (by decide +kernel)).2
      ⟨hresume, fun hclear => absurd hclear hpause⟩
    omega

def clearRequest : ControlRequest := { opId := "op-2", op := .proxyRecordedClear 4545 }

/-- An imposter without recordings is cleared, and paused with the token of the clear. -/
def clearThenPause : List Event :=
  [.entry false (requestAt 1 firstPut), .entry false (requestAt 2 clearRequest),
    .entry false (requestAt 3 { opId := "op-3", expectedRevision := some 2, op := .setEnabled 4545 false })]

/-- **The token of a clear that strips nothing.** The clear is answered with revision 2, the row
stays at revision 1, and a write with the token `4545@2` is refused. -/
theorem emptyClear_token_refused :
    requestOf? (.clearSavedProxyResponses 4545) "op-2" none = some clearRequest ∧
      revisionHeader (some 4545) 2 = "4545@2" ∧
      requestOf? (.setEnabled 4545 false) "op-3" (some "4545@2") =
        some { opId := "op-3", expectedRevision := some 2, op := .setEnabled 4545 false } ∧
      responses jsonUpstream {} clearThenPause = [⟨1, .applied⟩, ⟨2, .applied⟩,
        ⟨3, .failed "revision conflict: expected revision 2, stored revision 1 on port 4545"⟩] := by
  refine ⟨by decide +kernel, by decide +kernel, by decide +kernel, by decide +kernel⟩

end RiftCluster.Front
