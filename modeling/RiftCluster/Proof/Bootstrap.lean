import RiftCluster.Model.Bootstrap
import RiftCluster.Proof.RevisionToken

/-!
# What a bootstrap submits, and what a restart changes

A document is judged before any of its imposters is submitted, but documents and
the checks on single imposters are taken in turn with the submits, so a refusal
decided on this node submits nothing only when it is met first
(`local_refusal_submits_nothing_iff`). A submitted put carries an op id derived
from its document, and has no precondition: on a later boot it leaves the configs
alone exactly while the state machine remembers the op id
(`restart_keeps_configs_iff`).
-/

namespace RiftCluster

open KV

variable {U : Upstream} {H : BootstrapHost}

/-! ## The loop -/

section UntilError

variable {σ α ε : Type} {f : σ → α → σ × Except ε Unit}

theorem untilError_inv {P : σ → Prop} : ∀ (as : List α) (s : σ), (∀ s, ∀ a ∈ as, P s → P (f s a).1) → P s →
    P (untilError f s as).1 := by
  intro as
  induction as with
  | nil => intro s _ hs; exact hs
  | cons a as ih =>
    intro s hf hs
    have hstep := hf s a List.mem_cons_self hs
    unfold untilError
    cases h : f s a with
    | mk s' r =>
      rw [h] at hstep
      cases r with
      | error e => exact hstep
      | ok _ => exact ih s' (fun s a ha => hf s a (List.mem_cons_of_mem _ ha)) hstep

theorem untilError_error {Q : ε → Prop} {e : ε} : ∀ (as : List α) (s : σ),
    (∀ s, ∀ a ∈ as, ∀ e, (f s a).2 = .error e → Q e) → (untilError f s as).2 = .error e → Q e := by
  intro as
  induction as with
  | nil => intro s _ h; cases h
  | cons a as ih =>
    intro s hf h
    have hstep := hf s a List.mem_cons_self
    unfold untilError at h
    cases hone : f s a with
    | mk s' r =>
      rw [hone] at h hstep
      cases r with
      | error e' => exact hstep e h
      | ok _ => exact ih s' (fun s a ha => hf s a (List.mem_cons_of_mem _ ha)) h

theorem untilError_cons_error {s s' : σ} {a : α} {as : List α} {e : ε} (h : f s a = (s', .error e)) :
    untilError f s (a :: as) = (s', .error e) := by
  simp only [untilError, h]

theorem untilError_cons_ok {s s' : σ} {a : α} {as : List α} (h : f s a = (s', .ok ())) :
    untilError f s (a :: as) = untilError f s' as := by
  simp only [untilError, h]

end UntilError

/-! ## One imposter -/

/-- A put a bootstrap mints: unconditional, validated, under the op id of its document. -/
structure Mints (U : Upstream) (H : BootstrapHost) (uri digest : String) (config : ImposterConfig) (port : Port)
    (request : ControlRequest) : Prop where
  hasPort : config.port = some port
  opId : request.opId = H.bootstrapOpId uri port digest
  op : request.op = .putImposter config none
  expectedRevision : request.expectedRevision = none
  expectAbsent : request.expectAbsent = false
  valid : validate U request.op = .ok ()

theorem prepare_mints {uri digest : String} {now : ℕ} {config : ImposterConfig} {port : Port} {request : ControlRequest}
    (h : H.prepare U uri digest now config = .ok (port, request)) : Mints U H uri digest config port request := by
  unfold BootstrapHost.prepare at h
  cases hport : config.port with
  | none => rw [hport] at h; cases h
  | some p =>
    rw [hport] at h
    simp only at h
    split at h
    · cases h
    · rename_i hvalid
      split at h
      · cases h
      · cases h
        exact ⟨hport, rfl, rfl, rfl, rfl, hvalid⟩

/-- What importing one imposter comes to. -/
inductive ImportStep (U : Upstream) (H : BootstrapHost) (uri digest : String) (b : Bootstrap) (config : ImposterConfig) :
    Bootstrap × Except BootstrapError Unit → Prop
  | refused {e : BootstrapError} (hprep : H.prepare U uri digest (H.now b.submitted.length) config = .error e) :
      ImportStep U H uri digest b config (b, .error e)
  | unled {e : BootstrapError} (he : e.isLocal = false) : ImportStep U H uri digest b config (b, .error e)
  | submitted {port : Port} {request : ControlRequest} {answer : Except BootstrapError Unit}
      (hprep : H.prepare U uri digest (H.now b.submitted.length) config = .ok (port, request))
      (hanswer : ∀ e, answer = .error e → e.isLocal = false) :
      ImportStep U H uri digest b config (⟨true, b.submitted ++ [request]⟩, answer)

theorem awaitBootstrapLeader_error {w : LeaderWait} {e : BootstrapError} (h : awaitBootstrapLeader w = .error e) :
    e.isLocal = false := by
  cases w with
  | elected => cases h
  | timeout => cases h; rfl
  | shuttingDown => cases h; rfl

theorem importOne_step (uri digest : String) (b : Bootstrap) (config : ImposterConfig) :
    ImportStep U H uri digest b config (H.importOne U uri digest b config) := by
  unfold BootstrapHost.importOne
  cases hprep : H.prepare U uri digest (H.now b.submitted.length) config with
  | error e => exact .refused hprep
  | ok minted =>
    obtain ⟨port, request⟩ := minted
    simp only
    cases hwait : (if b.leaderAwaited then .ok () else awaitBootstrapLeader H.awaitLeader : Except BootstrapError Unit) with
    | error e =>
      refine .unled (e := e) ?_
      split at hwait
      · cases hwait
      · exact awaitBootstrapLeader_error hwait
    | ok _ =>
      simp only
      cases hsubmit : H.submit b.submitted.length request with
      | error _ => exact .submitted hprep fun e he => by cases he; rfl
      | ok response =>
        cases houtcome : response.outcome with
        | applied => simp only [houtcome]; exact .submitted hprep fun e he => by cases he
        | failed reason => simp only [houtcome]; exact .submitted hprep fun e he => by cases he; rfl

/-! ## What a refusal names -/

theorem toString_string (s : String) : toString s = s := rfl

theorem BootstrapError.text_names {e : BootstrapError} {uri : String} (h : e.about = some uri) :
    ∃ before after, e.text = before ++ uri ++ after := by
  cases e <;> cases h <;> unfold BootstrapError.text <;> simp only [toString_string, String.append_assoc]
  case unreadable => exact ⟨"reading --imposters ", "", by rw [String.append_empty]⟩
  case unhashed => exact ⟨"hashing the document at --imposters ", "", by rw [String.append_empty]⟩
  all_goals exact ⟨_, _, rfl⟩

theorem admitDocument_about {uri : String} {e : BootstrapError} : ∀ {configs : List ImposterConfig},
    admitDocument U uri configs = .error e → e.about = some uri := by
  intro configs
  induction configs with
  | nil => intro h; cases h
  | cons config configs ih =>
    intro h
    unfold admitDocument at h
    cases hcheck : U.admissionCheck config with
    | error reason => rw [hcheck] at h; cases h; rfl
    | ok _ => rw [hcheck] at h; exact ih h

theorem readDocument_about {uri : String} {e : BootstrapError} (h : H.readDocument U uri = .error e) :
    e.about = some uri := by
  unfold BootstrapHost.readDocument at h
  simp only at h
  split_ifs at h
  · cases h; rfl
  · split at h
    · cases h; rfl
    · split at h
      · cases h; rfl
      · split_ifs at h
        · cases h; rfl
        · cases h; rfl
        · split at h
          · cases h; rfl
          · split at h
            · cases h
              exact admitDocument_about ‹_›
            · cases h

theorem prepare_about {uri digest : String} {now : ℕ} {config : ImposterConfig} {e : BootstrapError}
    (h : H.prepare U uri digest now config = .error e) : e.about = some uri := by
  unfold BootstrapHost.prepare at h
  split at h
  · cases h; rfl
  · simp only at h
    split at h
    · cases h; rfl
    · split at h
      · cases h; rfl
      · cases h

/-- **A refusal of this node names one of the documents it was given.** -/
theorem local_refusal_names_document {refs : List String} {e : BootstrapError}
    (hend : (H.bootstrapImposters U refs).2 = .error e) (hlocal : e.isLocal = true) :
    ∃ uri ∈ refs, ∃ before after, e.text = before ++ uri ++ after := by
  suffices h : e.isLocal = true → ∃ uri ∈ refs, e.about = some uri by
    obtain ⟨uri, huri, habout⟩ := h hlocal
    exact ⟨uri, huri, BootstrapError.text_names habout⟩
  refine untilError_error (f := H.importDocument U)
    (Q := fun e : BootstrapError => e.isLocal = true → ∃ uri ∈ refs, e.about = some uri) refs {} ?_ hend
  intro b uri huri e hdoc hlocal
  refine ⟨uri, huri, ?_⟩
  unfold BootstrapHost.importDocument at hdoc
  cases hread : H.readDocument U uri with
  | error e' =>
    rw [hread] at hdoc
    cases hdoc
    exact readDocument_about hread
  | ok document =>
    rw [hread] at hdoc
    refine untilError_error (Q := fun e : BootstrapError => e.isLocal = true → e.about = some uri) document.1 b ?_ hdoc hlocal
    intro b config _ e hone hlocal
    have hstep := importOne_step (U := U) (H := H) uri document.2 b config
    generalize H.importOne U uri document.2 b config = r at hstep hone
    cases hstep with
    | refused hprep =>
      cases hone
      exact prepare_about hprep
    | unled hnot =>
      cases hone
      rw [hnot] at hlocal
      cases hlocal
    | submitted _ hanswer =>
      rw [hanswer e hone] at hlocal
      cases hlocal

/-! ## Refusals -/

/-- The run is refused at the first thing it judges: every document before is empty,
and the next one, or its first imposter, is refused. -/
inductive RefusedFirst (U : Upstream) (H : BootstrapHost) (e : BootstrapError) : List String → Prop
  | document {uri : String} {refs : List String} (hread : H.readDocument U uri = .error e) :
      RefusedFirst U H e (uri :: refs)
  | imposter {uri digest : String} {refs : List String} {config : ImposterConfig} {configs : List ImposterConfig}
      (hread : H.readDocument U uri = .ok (config :: configs, digest))
      (hprep : H.prepare U uri digest (H.now 0) config = .error e) : RefusedFirst U H e (uri :: refs)
  | later {uri digest : String} {refs : List String} (hread : H.readDocument U uri = .ok ([], digest))
      (hrest : RefusedFirst U H e refs) : RefusedFirst U H e (uri :: refs)

theorem importOne_submitted_ne {uri digest : String} (b : Bootstrap) (config : ImposterConfig)
    (hb : b.submitted ≠ []) : (H.importOne U uri digest b config).1.submitted ≠ [] := by
  have hstep := importOne_step (U := U) (H := H) uri digest b config
  generalize H.importOne U uri digest b config = r at hstep ⊢
  cases hstep with
  | refused _ => exact hb
  | unled _ => exact hb
  | submitted _ _ => simp

theorem importDocument_submitted_ne (b : Bootstrap) (uri : String) (hb : b.submitted ≠ []) :
    (H.importDocument U b uri).1.submitted ≠ [] := by
  unfold BootstrapHost.importDocument
  cases H.readDocument U uri with
  | error e => exact hb
  | ok document => exact untilError_inv _ _ (fun b config _ => importOne_submitted_ne b config) hb

theorem import_configs_none {uri digest : String} {b b' : Bootstrap} {config : ImposterConfig}
    {rest : List ImposterConfig} {answer : Except BootstrapError Unit} (hb : b.submitted = [])
    (hrun : untilError (H.importOne U uri digest) b (config :: rest) = (b', answer)) (hnone : b'.submitted = []) :
    ∃ e, answer = .error e ∧ (H.prepare U uri digest (H.now 0) config = .error e ∨ e.isLocal = false) := by
  have hstep := importOne_step (U := U) (H := H) uri digest b config
  generalize hone : H.importOne U uri digest b config = r at hstep
  cases hstep with
  | refused hprep =>
    rw [untilError_cons_error hone] at hrun
    cases hrun
    rw [hb] at hprep
    exact ⟨_, rfl, .inl hprep⟩
  | unled hnot =>
    rw [untilError_cons_error hone] at hrun
    cases hrun
    exact ⟨_, rfl, .inr hnot⟩
  | @submitted _ request first _ _ =>
    -- what is submitted stays submitted
    cases first with
    | error e =>
      rw [untilError_cons_error hone] at hrun
      cases hrun
      simp at hnone
    | ok _ =>
      rw [untilError_cons_ok hone] at hrun
      have hinv := untilError_inv (f := H.importOne U uri digest) (P := fun b => b.submitted ≠ []) rest
        ⟨true, b.submitted ++ [request]⟩ (fun b config _ => importOne_submitted_ne b config) (by simp)
      rw [hrun] at hinv
      exact absurd hnone hinv

theorem refusedFirst_of_none {e : BootstrapError} (he : e.isLocal = true) {b b' : Bootstrap} (refs : List String)
    (hb : b.submitted = []) (hrun : untilError (H.importDocument U) b refs = (b', .error e))
    (hnone : b'.submitted = []) : RefusedFirst U H e refs := by
  induction refs generalizing b with
  | nil => cases hrun
  | cons uri refs ih =>
    cases hread : H.readDocument U uri with
    | error e' =>
      have hdoc : H.importDocument U b uri = (b, .error e') := by simp only [BootstrapHost.importDocument, hread]
      rw [untilError_cons_error hdoc] at hrun
      cases hrun
      exact .document hread
    | ok document =>
      obtain ⟨configs, digest⟩ := document
      have hdoc : H.importDocument U b uri = untilError (H.importOne U uri digest) b configs := by
        simp only [BootstrapHost.importDocument, hread]
      cases configs with
      | nil =>
        rw [untilError_cons_ok hdoc] at hrun
        exact .later hread (ih hb hrun)
      | cons config rest =>
        cases hconfigs : untilError (H.importOne U uri digest) b (config :: rest) with
        | mk b₁ answer =>
          rw [hconfigs] at hdoc
          cases answer with
          | ok _ =>
            -- the document went through, so its first imposter is in the log
            rw [untilError_cons_ok hdoc] at hrun
            have hne : b₁.submitted ≠ [] := by
              intro hb₁
              obtain ⟨_, h, -⟩ := import_configs_none hb hconfigs hb₁
              cases h
            have hinv := untilError_inv (f := H.importDocument U) (P := fun b => b.submitted ≠ []) refs b₁
              (fun b uri _ => importDocument_submitted_ne b uri) hne
            rw [hrun] at hinv
            exact absurd hnone hinv
          | error e' =>
            rw [untilError_cons_error hdoc] at hrun
            cases hrun
            obtain ⟨_, h, hprep | hnot⟩ := import_configs_none hb hconfigs hnone
            · cases h
              exact .imposter hread hprep
            · cases h
              rw [hnot] at he
              cases he

theorem RefusedFirst.submits_none {e : BootstrapError} {refs : List String} (h : RefusedFirst U H e refs)
    {b : Bootstrap} (hb : b.submitted = []) : untilError (H.importDocument U) b refs = (b, .error e) := by
  induction h with
  | document hread =>
    apply untilError_cons_error
    simp only [BootstrapHost.importDocument, hread]
  | imposter hread hprep =>
    apply untilError_cons_error
    simp only [BootstrapHost.importDocument, hread]
    apply untilError_cons_error
    simp only [BootstrapHost.importOne, hb, List.length_nil, hprep]
  | later hread _ ih =>
    rw [untilError_cons_ok, ih]
    simp only [BootstrapHost.importDocument, hread, untilError]

/-- **A bootstrap that ends in a refusal of this node has submitted nothing iff it was
refused at the first thing it judged.** -/
theorem local_refusal_submits_nothing_iff (U : Upstream) (H : BootstrapHost) (refs : List String) {e : BootstrapError}
    (hend : (H.bootstrapImposters U refs).2 = .error e) (hlocal : e.isLocal = true) :
    (H.bootstrapImposters U refs).1.submitted = [] ↔ RefusedFirst U H e refs := by
  constructor
  · intro hnone
    exact refusedFirst_of_none hlocal refs rfl (Prod.ext rfl hend) hnone
  · intro hfirst
    rw [BootstrapHost.bootstrapImposters, hfirst.submits_none rfl]

/-- A host whose one provider serves `file:` URIs, on a fleet that applies everything. -/
def fileHost (documents : List (String × SourceDocument)) (now : ℕ) : BootstrapHost where
  scheme := fun uri => String.ofList (uri.toList.takeWhile (· ≠ ':'))
  provider := fun scheme => if scheme = "file" then some fun uri => documents.lookup uri else none
  schemes := ["file"]
  documentDigest := fun configs => some (toString configs.length)
  uuidV5 := id
  scripts := Front.noScripts
  now := fun _ => now
  awaitLeader := .elected
  submit := fun index _ => .ok (.ofApplied index)

theorem retired_scheme_refused_first :
    ((fileHost [] 0).bootstrapImposters jsonUpstream ["S3://bucket/mocks.json"]).2 =
        .error (.retiredScheme "S3://bucket/mocks.json" "S3") ∧
      ((fileHost [] 0).bootstrapImposters jsonUpstream ["S3://bucket/mocks.json"]).1.submitted = [] :=
  ⟨rfl, (local_refusal_submits_nothing_iff jsonUpstream (fileHost [] 0) ["S3://bucket/mocks.json"] rfl rfl).2
    (.document rfl)⟩

def secondPortless : SourceDocument where
  configs := [httpImposter [], { port := none, protocol := "http" }]

/-- **The first imposter is in the log when the second one is refused.** -/
theorem portless_refused_after_submit :
    let run := (fileHost [("file:mocks.json", secondPortless)] 0).bootstrapImposters jsonUpstream ["file:mocks.json"]
    run.2 = .error (.noPort "file:mocks.json") ∧ (BootstrapError.noPort "file:mocks.json").isLocal = true ∧
      run.1.submitted.map ControlRequest.op = [.putImposter (httpImposter []) none] := by
  refine ⟨?_, rfl, ?_⟩ <;> rfl

/-! ## Restarts -/

/-- The put of an imposter of one of the documents, as it is read now. -/
def Imported (U : Upstream) (H : BootstrapHost) (refs : List String) (request : ControlRequest) : Prop :=
  ∃ uri ∈ refs, ∃ configs digest, H.readDocument U uri = .ok (configs, digest) ∧
    ∃ config ∈ configs, ∃ port, Mints U H uri digest config port request

theorem submitted_imported (refs : List String) :
    ∀ request ∈ (H.bootstrapImposters U refs).1.submitted, Imported U H refs request := by
  refine untilError_inv (P := fun b : Bootstrap => ∀ request ∈ b.submitted, Imported U H refs request) refs {} ?_ (by simp)
  intro b uri huri hb
  unfold BootstrapHost.importDocument
  cases hread : H.readDocument U uri with
  | error e => exact hb
  | ok document =>
    refine untilError_inv (P := fun b : Bootstrap => ∀ request ∈ b.submitted, Imported U H refs request) document.1 b ?_ hb
    intro b config hconfig hb
    have hstep := importOne_step (U := U) (H := H) uri document.2 b config
    generalize H.importOne U uri document.2 b config = r at hstep
    cases hstep with
    | refused _ => exact hb
    | unled _ => exact hb
    | submitted hprep _ =>
      intro request hrequest
      rcases List.mem_append.1 hrequest with hold | hnew
      · exact hb request hold
      · obtain rfl := List.mem_singleton.1 hnew
        exact ⟨uri, huri, document.1, document.2, hread, config, hconfig, _, prepare_mints hprep⟩

theorem Mints.put_row {uri digest : String} {config : ImposterConfig} {port : Port} {request : ControlRequest}
    (h : Mints U H uri digest config port request) {s : State} {d : Bool} {e : Entry}
    (hp : e.payload = .normal request) (hr : replayOf U (s.receive e) request = none) :
    (applyOne U d s e).state.tables.configs[port]? = some (Row.text U ⟨config, config.enabled, e.logId.index⟩) := by
  have hpre : checkPreconditions U s.tables request = .ok () := by
    simp only [checkPreconditions, h.expectedRevision, h.expectAbsent]
  have hrun : runOp U s.tables request e.logId.index d = putImposter U s.tables config none e.logId.index d := by
    simp only [runOp, h.valid, hpre]
    rw [h.op, mutateTables]
  have happly : applyOne U d s e = commitOp U (s.receive e) request e.logId.index d := by
    simp only [applyOne, hp, hr]
  have htables : (applyOne U d s e).state.tables = (putImposter U s.tables config none e.logId.index d).1 := by
    rw [happly, ← hrun]
    rfl
  rw [htables, putImposter_tables h.hasPort, store_get, if_pos rfl]

theorem row_older {es : List Event} (hlog : Increasing es) {n : ℕ} {d : Bool} {e : Entry}
    (he : es[n]? = some (.entry d e)) {p : Port} {row : String}
    (hrow : (sAt U {} es n).tables.configs[p]? = some row) : rowRevision U row ≠ some e.logId.index := by
  obtain ⟨hn, -⟩ := List.getElem?_eq_some_iff.1 he
  obtain ⟨k, hk, ⟨d', e', hk', hrev⟩, -⟩ := row_written hn.le hrow
  intro hsame
  rw [hrev] at hsame
  exact (hlog.lt hk hk' he).ne (Option.some.inj hsame)

/-- **A restart's put leaves the configs as it finds them iff its op id is
remembered**: an entry of the op id was run, and the log's clock has not moved a
dedup lifetime past it. Otherwise it writes its document's imposter over whatever
was made of the port since. -/
theorem restart_keeps_configs_iff (U : Upstream) (H : BootstrapHost) (refs : List String) {request : ControlRequest}
    (hrequest : request ∈ (H.bootstrapImposters U refs).1.submitted) {es : List Event} (hlog : Increasing es) {n : ℕ}
    (hn : n < es.length) {d : Bool} {e : Entry} (he : es[n] = .entry d e) (hp : e.payload = .normal request) :
    Imported U H refs request ∧
      ((sAt U {} es (n + 1)).tables.configs = (sAt U {} es n).tables.configs ↔ Remembered U es request.opId n) := by
  have himported := submitted_imported refs request hrequest
  refine ⟨himported, ?_⟩
  obtain ⟨uri, -, configs, digest, -, config, -, port, hmints⟩ := himported
  have hstep : sAt U {} es (n + 1) = (applyOne U d (sAt U {} es n) e).state := by rw [sAt_succ hn, he]; rfl
  rw [← replay_iff_remembered hn he request, hstep]
  constructor
  · intro hsame
    cases hr : replayOf U ((sAt U {} es n).receive e) request with
    | some previous => exact ⟨previous, rfl⟩
    | none =>
      -- it is run, and writes a row newer than any the state holds
      have hrow := hmints.put_row (d := d) hp hr
      rw [hsame] at hrow
      have hget : es[n]? = some (.entry d e) := by rw [List.getElem?_eq_getElem hn, he]
      exact absurd (rowRevision_text _) (row_older hlog hget hrow)
  · rintro ⟨previous, hr⟩
    have happly : applyOne U d (sAt U {} es n) e = ⟨(sAt U {} es n).receive e, previous.response, []⟩ := by
      simp only [applyOne, hp, hr]
    rw [happly]
    rfl

def oneImposter : SourceDocument where
  configs := [httpImposter []]

def mocksHost (now : ℕ) : BootstrapHost := fileHost [("file:mocks.json", oneImposter)] now

def mocksPut (now : ℕ) : ControlRequest where
  opId := (mocksHost now).bootstrapOpId "file:mocks.json" 4545 "1"
  issuedAtSecs := now
  op := .putImposter (httpImposter []) none

def removeImposter : ControlRequest := { opId := "op-delete", op := .deleteImposter 4545 }

/-- The import, a delete through the admin API, and a restart's import at a time. -/
def importDeleteRestart (now : ℕ) : List Event :=
  [.entry false (requestAt 1 (mocksPut 0)), .entry false (requestAt 2 removeImposter),
    .entry false (requestAt 3 (mocksPut now))]

theorem restart_within_ttl :
    ((mocksHost 3600).bootstrapImposters jsonUpstream ["file:mocks.json"]).1.submitted = [mocksPut 3600] ∧
      (sAt jsonUpstream {} (importDeleteRestart 3600) 3).tables.configs =
        (sAt jsonUpstream {} (importDeleteRestart 3600) 2).tables.configs := by
  have hsubmitted : ((mocksHost 3600).bootstrapImposters jsonUpstream ["file:mocks.json"]).1.submitted =
      [mocksPut 3600] := by decide +kernel
  have hremembered : Remembered jsonUpstream (importDeleteRestart 3600) (mocksPut 3600).opId 2 :=
    ⟨0, by decide, ⟨false, requestAt 1 (mocksPut 0), mocksPut 0, rfl, rfl, rfl, by decide +kernel⟩, by decide +kernel⟩
  have hmem : mocksPut 3600 ∈ ((mocksHost 3600).bootstrapImposters jsonUpstream ["file:mocks.json"]).1.submitted := by
    rw [hsubmitted]
    exact List.mem_singleton_self _
  have hlog : Increasing (importDeleteRestart 3600) := by unfold Increasing; decide
  have hrestart := restart_keeps_configs_iff jsonUpstream (mocksHost 3600) ["file:mocks.json"] hmem hlog (n := 2)
    (by decide) rfl rfl
  exact ⟨hsubmitted, hrestart.2.2 hremembered⟩

/-- **A restart a day of log time later puts back what was deleted.** -/
theorem restart_undoes_delete :
    (mocksPut 86400).opId = (mocksPut 0).opId ∧
      ((mocksHost 86400).bootstrapImposters jsonUpstream ["file:mocks.json"]).1.submitted = [mocksPut 86400] ∧
      (sAt jsonUpstream {} (importDeleteRestart 86400) 2).tables.configs[4545]? = none ∧
      (sAt jsonUpstream {} (importDeleteRestart 86400) 3).tables.configs[4545]?.isSome = true := by
  refine ⟨rfl, ?_, ?_, ?_⟩ <;> decide +kernel

end RiftCluster
