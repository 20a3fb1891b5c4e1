import RiftCluster.Proof.Drive

/-!
# Agreement of the engine with the tables

`AgreeAt`: what a port's row asks of what the port serves. An admitted row asks for
its config, no row for nothing served, and a refused row for nothing in particular.

`driveSync_spec`: after a whole-set drive every port agrees or has failed, and a
refused port serves what it served; unless the engine refused the set whole, which
is recorded under port 0.
-/

namespace RiftCluster

open KV

variable {U : Upstream} {F : Calls} {n n' : Engine} {p : Port} {t : Tables}

/-! ## Agreement -/

def AgreeAt (U : Upstream) (t : Tables) (n : Engine) (p : Port) : Prop :=
  match t.configs[p]? with
  | none => n.served[p]? = none
  | some row => ∀ config, admitRow U row = .ok config → n.served[p]? = some config

def Refused (U : Upstream) (t : Tables) (p : Port) : Prop :=
  ∃ row, t.configs[p]? = some row ∧ ∀ config, admitRow U row ≠ .ok config

theorem admitRow_text (r : Row) (config : ImposterConfig) :
    admitRow U (r.text U) = .ok config ↔ U.admits r.config = true ∧ config = r.config := by
  rw [admits_iff]
  simp only [admitRow, Row.text, Upstream.read_imposterRow, Upstream.config_read_write]
  cases U.admissionVerdict r.config with
  | error e => simp
  | ok u => simp [eq_comm]

theorem agreeAt_none (h : t.configs[p]? = none) : AgreeAt U t n p ↔ n.served[p]? = none := by
  unfold AgreeAt
  rw [h]

theorem agreeAt_row {r : Row} (h : t.configs[p]? = some (r.text U)) :
    AgreeAt U t n p ↔ (U.admits r.config = true → n.served[p]? = some r.config) := by
  unfold AgreeAt
  simp only [h, admitRow_text]
  constructor
  · exact fun hc ha => hc _ ⟨ha, rfl⟩
  · rintro hc config ⟨ha, rfl⟩; exact hc ha

theorem AgreeAt.congr (h : AgreeAt U t n p) {t' : Tables} (ht : t'.configs[p]? = t.configs[p]?)
    (hn : n'.served[p]? = n.served[p]?) : AgreeAt U t' n' p := by
  unfold AgreeAt at h ⊢
  rw [ht, hn]
  exact h

theorem refused_row {r : Row} (h : t.configs[p]? = some (r.text U)) : Refused U t p ↔ U.admits r.config = false := by
  unfold Refused
  simp only [h, Option.some.injEq, exists_eq_left', ne_eq, admitRow_text]
  cases hv : U.admits r.config with
  | true => simp
  | false => simp

/-! ## Settling several ports -/

/-- Each port of `wants` serves what it asks for, or the report names it failed; no
other port is touched. -/
structure Settles (wants : List (Port × Option ImposterConfig)) (n : Engine) (r : Engine × ApplyReport) : Prop where
  failures : r.1.applyFailures = n.applyFailures
  settled : ∀ p want, (p, want) ∈ wants → (∃ e, (p, e) ∈ r.2.failed) ∨ r.1.served[p]? = want
  frame : ∀ p, p ∉ wants.map Prod.fst → r.1.served[p]? = n.served[p]?

theorem Settles.nil : Settles [] n (n, {}) := ⟨rfl, by simp, fun _ _ => rfl⟩

theorem OnlyServes.settles {want : Option ImposterConfig} {report : ApplyReport} (h : OnlyServes p n n')
    (hp : (∃ e, (p, e) ∈ report.failed) ∨ n'.served[p]? = want) : Settles [(p, want)] n (n', report) := by
  refine ⟨h.failures, fun q w hq => ?_, fun q hq => h.served q (by simpa using hq)⟩
  obtain ⟨rfl, rfl⟩ := Prod.mk.inj (List.mem_singleton.1 hq)
  exact hp

theorem Settles.append {w w' : List (Port × Option ImposterConfig)} {r r' : Engine × ApplyReport} (h : Settles w n r)
    (h' : Settles w' r.1 r') (hd : ∀ p ∈ w.map Prod.fst, p ∉ w'.map Prod.fst) :
    Settles (w ++ w') n (r'.1, r.2.append r'.2) := by
  refine ⟨h'.failures.trans h.failures, fun p want hp => ?_, fun p hp => ?_⟩
  · rcases List.mem_append.1 hp with hp | hp
    · rcases h.settled p want hp with ⟨e, he⟩ | hs
      · exact .inl ⟨e, List.mem_append_left _ he⟩
      · refine .inr ?_
        rw [h'.frame p (hd p (List.mem_map_of_mem hp))]
        exact hs
    · exact (h'.settled p want hp).imp (fun ⟨e, he⟩ => ⟨e, List.mem_append_right _ he⟩) id
  · rw [List.map_append, List.mem_append, not_or] at hp
    exact (h'.frame p hp.2).trans (h.frame p hp.1)

theorem Settles.cons {want : Option ImposterConfig} {rest : List (Port × Option ImposterConfig)} {report : ApplyReport}
    {r' : Engine × ApplyReport} (h : Settles [(p, want)] n (n', report)) (h' : Settles rest n' r')
    (hd : p ∉ rest.map Prod.fst) : Settles ((p, want) :: rest) n (r'.1, report.append r'.2) :=
  h.append h' (by simpa using hd)

theorem settleAll_settles (call : Call) (wants : List (Port × Option ImposterConfig)) :
    ∀ n : Engine, (wants.map Prod.fst).Nodup → Settles wants n (n.settleAll call wants) := by
  induction wants with
  | nil => exact fun n _ => .nil
  | cons pw rest ih =>
    intro n hd
    rw [List.map_cons, List.nodup_cons] at hd
    exact ((onlyServes_settle _ _).settles (settle_served _ _)).cons (ih _ hd.2) hd.1

theorem deleteStale_settles (ports : List Port) :
    ∀ n : Engine, ports.Nodup → Settles (ports.map fun p => (p, none)) n (n.deleteStale F ports) := by
  induction ports with
  | nil => exact fun n _ => .nil
  | cons p ports ih =>
    intro n hd
    rw [List.nodup_cons] at hd
    have hone := deleteImposter_spec (F := F) (n := n) (p := p)
    refine Settles.cons (hone.1.settles ?_) (ih _ hd.2) (by simpa [Function.comp_def] using hd.1)
    rcases hone.2 with ⟨e, he⟩ | hs
    · rw [he]; exact .inl ⟨.other e, List.mem_singleton.2 rfl⟩
    · exact .inr hs

theorem applyEach_settles (configs : List (Port × ImposterConfig)) : ∀ n : Engine, (configs.map Prod.fst).Nodup →
    Settles (configs.map fun pc => (pc.1, some pc.2)) n (n.applyEach F configs) := by
  induction configs with
  | nil => exact fun n _ => .nil
  | cons pc configs ih =>
    intro n hd
    rw [List.map_cons, List.nodup_cons] at hd
    have hone := applyOne_spec (F := F) (n := n) (p := pc.1) pc.2
    refine Settles.cons (hone.1.settles ?_) (ih _ hd.2) (by simpa [Function.comp_def] using hd.1)
    rcases hone.2 with ⟨e, he⟩ | ⟨report, hr, -, hs⟩
    · rw [he]; exact .inl ⟨e, List.mem_singleton.2 rfl⟩
    · rw [hr]; exact hs

/-! ## The set a drive is given -/

theorem mem_held : p ∈ (desiredConfigs U t.configs).held ↔ t.configs[p]?.isSome = true := mem_toList_keys

theorem mem_admitted (hok : TablesOk U t) {config : ImposterConfig} :
    (p, config) ∈ byPort (desiredConfigs U t.configs).admitted ↔
      ∃ row, t.configs[p]? = some row ∧ admitRow U row = .ok config := by
  have hport : ∀ (q : Port) row c, t.configs[q]? = some row → admitRow U row = .ok c → c.port = some q := by
    intro q row c hrow hc
    obtain ⟨r, rfl, hr⟩ := hok.configs q row hrow
    rw [admitRow_text] at hc
    rw [hc.2, hr]
  unfold byPort desiredConfigs
  simp only [List.mem_filterMap, Option.map_eq_some_iff, Prod.mk.injEq]
  constructor
  · rintro ⟨c, ⟨⟨q, row⟩, hq, hc⟩, p', hp', rfl, rfl⟩
    have hc' : admitRow U row = .ok c := by
      cases h : admitRow U row with
      | error e => rw [h] at hc; cases hc
      | ok c' => rw [h] at hc; cases hc; rfl
    rw [hport q row c (mem_toList.1 hq) hc'] at hp'
    cases hp'
    exact ⟨row, mem_toList.1 hq, hc'⟩
  · rintro ⟨row, hrow, hc⟩
    exact ⟨config, ⟨(p, row), mem_toList.2 hrow, by rw [hc]; rfl⟩, p, hport p row config hrow hc, rfl, rfl⟩

theorem nodup_admitted (hok : TablesOk U t) : ((byPort (desiredConfigs U t.configs).admitted).map Prod.fst).Nodup := by
  have hsub : ∀ rows : List (Port × String),
      (∀ kv ∈ rows, ∀ c, admitRow U kv.2 = .ok c → c.port = some kv.1) →
      ((byPort (rows.filterMap fun kv => (admitRow U kv.2).toOption)).map Prod.fst).Sublist (rows.map Prod.fst) := by
    intro rows
    induction rows with
    | nil => exact fun _ => .slnil
    | cons kv rows ih =>
      intro h
      have hrest := ih fun kv' hkv' => h kv' (List.mem_cons_of_mem _ hkv')
      cases hc : admitRow U kv.2 with
      | error e => simpa [hc, Except.toOption] using hrest.cons kv.1
      | ok c => simpa [hc, Except.toOption, byPort, h kv List.mem_cons_self c hc] using hrest.cons_cons kv.1
  refine (hsub _ fun kv hkv c hc => ?_).nodup (nodup_toList_keys t.configs)
  obtain ⟨r, hr, hport⟩ := hok.configs kv.1 kv.2 (mem_toList.1 hkv)
  rw [hr, admitRow_text] at hc
  rw [hc.2, hport]

theorem refused_nil_iff : (desiredConfigs U t.configs).refused = [] ↔ ∀ p, ¬ Refused U t p := by
  unfold desiredConfigs Refused
  simp only [List.filterMap_eq_nil_iff]
  constructor
  · rintro h p ⟨row, hrow, hno⟩
    have := h (p, row) (mem_toList.2 hrow)
    cases hc : admitRow U row with
    | ok c => exact hno c hc
    | error e => simp [hc] at this
  · rintro h ⟨p, row⟩ hm
    cases hc : admitRow U row with
    | ok c => rfl
    | error e => exact absurd ⟨row, mem_toList.1 hm, fun c => by simp [hc]⟩ (h p)

/-! ## The whole-set drive -/

theorem wants_keys (stale : List Port) (admitted : List (Port × ImposterConfig)) :
    (wants stale admitted).map Prod.fst = stale ++ admitted.map Prod.fst := by
  simp [wants, Function.comp_def]

/-- What a settled set means for agreement: `stale` holds every served port without a
row and no port with one. -/
theorem Settles.agree (hok : TablesOk U t) {stale : List Port} {r : Engine × ApplyReport}
    (hstale : ∀ p, t.configs[p]? = none → n.served[p]?.isSome = true → p ∈ stale)
    (h : Settles (wants stale (byPort (desiredConfigs U t.configs).admitted)) n r) (p : Port) :
    (∃ e, (p, e) ∈ r.2.failed) ∨ AgreeAt U t r.1 p := by
  cases hrow : t.configs[p]? with
  | none =>
    simp only [agreeAt_none hrow]
    by_cases hs : n.served[p]?.isSome = true
    · exact h.settled p none (List.mem_append_left _ (List.mem_map.2 ⟨p, hstale p hrow hs, rfl⟩))
    · by_cases hw : p ∈ stale
      · exact h.settled p none (List.mem_append_left _ (List.mem_map.2 ⟨p, hw, rfl⟩))
      · refine .inr ((h.frame p ?_).trans (Option.not_isSome_iff_eq_none.1 hs))
        rw [wants_keys, List.mem_append, not_or]
        refine ⟨hw, fun hm => ?_⟩
        obtain ⟨⟨q, c⟩, hq, rfl⟩ := List.mem_map.1 hm
        obtain ⟨row, hrow', -⟩ := (mem_admitted hok).1 hq
        rw [hrow] at hrow'
        cases hrow'
  | some row =>
    obtain ⟨rw', rfl, -⟩ := hok.configs p row hrow
    rw [agreeAt_row hrow]
    cases ha : U.admits rw'.config with
    | false => exact .inr fun h => by cases h
    | true =>
      have hm : (p, rw'.config) ∈ byPort (desiredConfigs U t.configs).admitted :=
        (mem_admitted hok).2 ⟨_, hrow, (admitRow_text _ _).2 ⟨ha, rfl⟩⟩
      exact (h.settled p _ (List.mem_append_right _ (List.mem_map.2 ⟨_, hm, rfl⟩))).imp id fun hs _ => hs

theorem nodup_wants (hok : TablesOk U t) {stale : List Port} (hd : stale.Nodup)
    (hno : ∀ p ∈ stale, p ∉ (byPort (desiredConfigs U t.configs).admitted).map Prod.fst) :
    ((wants stale (byPort (desiredConfigs U t.configs).admitted)).map Prod.fst).Nodup := by
  rw [wants_keys]
  exact List.nodup_append.2 ⟨hd, nodup_admitted hok, fun a ha b hb hab => hno a ha (hab ▸ hb)⟩

theorem mem_admitted_keys (hok : TablesOk U t) :
    p ∈ (byPort (desiredConfigs U t.configs).admitted).map Prod.fst ↔
      ∃ row config, t.configs[p]? = some row ∧ admitRow U row = .ok config := by
  simp only [List.mem_map]
  constructor
  · rintro ⟨⟨q, c⟩, hq, rfl⟩
    obtain ⟨row, h⟩ := (mem_admitted hok).1 hq
    exact ⟨row, c, h⟩
  · rintro ⟨row, c, h⟩
    exact ⟨(p, c), (mem_admitted hok).2 ⟨row, h⟩, rfl⟩

theorem applyConfig_settles (hok : TablesOk U t) (report : ApplyReport)
    (h : (n.applyConfig F (byPort (desiredConfigs U t.configs).admitted)).2 = .ok report) (p : Port) :
    (∃ e, (p, e) ∈ report.failed) ∨
      AgreeAt U t (n.applyConfig F (byPort (desiredConfigs U t.configs).admitted)).1 p := by
  unfold Engine.applyConfig at h ⊢
  dsimp only at h ⊢
  cases hr : (F n.calls).refuses with
  | some e => rw [hr] at h; cases h
  | none =>
    rw [hr] at h
    cases h
    refine (settleAll_settles _ _ _ (nodup_wants hok ((nodup_toList_keys _).filter _) fun q hq => ?_)).agree hok
      (fun q hrow hs => ?_) p
    · simpa using (List.mem_filter.1 hq).2
    · refine List.mem_filter.2 ⟨mem_toList_keys.2 hs, ?_⟩
      simp only [Bool.not_eq_true', List.contains_eq_mem, decide_eq_false_iff_not, mem_admitted_keys hok]
      rintro ⟨row, c, hr, -⟩
      rw [hrow] at hr
      cases hr

theorem applyAdmitted_settles (hok : TablesOk U t) (p : Port) :
    ((∃ e, (p, e) ∈ (n.applyAdmitted F (byPort (desiredConfigs U t.configs).admitted)
          (desiredConfigs U t.configs).held).2.failed) ∨
        AgreeAt U t (n.applyAdmitted F (byPort (desiredConfigs U t.configs).admitted)
          (desiredConfigs U t.configs).held).1 p) ∧
      (Refused U t p → (n.applyAdmitted F (byPort (desiredConfigs U t.configs).admitted)
        (desiredConfigs U t.configs).held).1.served[p]? = n.served[p]?) := by
  have hstale : ∀ q ∈ (n.served.toList.map Prod.fst).filter fun p => !(desiredConfigs U t.configs).held.contains p,
      t.configs[q]? = none := by
    intro q hq
    have := (List.mem_filter.1 hq).2
    simpa [mem_held] using this
  have h : Settles (wants _ _) _ _ := (deleteStale_settles (F := F) _ n ((nodup_toList_keys n.served).filter fun p =>
    !(desiredConfigs U t.configs).held.contains p)).append (applyEach_settles (F := F) _ _ (nodup_admitted hok)) ?_
  · refine ⟨h.agree hok (fun q hrow hs => List.mem_filter.2 ⟨mem_toList_keys.2 hs, ?_⟩) p, ?_⟩
    · simp [mem_held, hrow]
    · rintro ⟨row, hrow, hno⟩
      refine h.frame p ?_
      rw [wants_keys, List.mem_append, not_or]
      refine ⟨fun hm => ?_, fun hm => ?_⟩
      · rw [hstale p hm] at hrow; cases hrow
      · obtain ⟨row', c, hr, hc⟩ := (mem_admitted_keys hok).1 hm
        rw [hrow] at hr
        cases hr
        exact hno c hc
  · intro q hq hm
    simp only [List.map_map, Function.comp_def, List.map_id'] at hq hm
    obtain ⟨row, c, hr, -⟩ := (mem_admitted_keys hok).1 hm
    rw [hstale q hq] at hr
    cases hr

/-- **The whole-set drive.** Every port agrees with the tables or has failed, unless the
engine refused the set whole; and a refused port serves what it served. -/
theorem driveSync_spec (hok : TablesOk U t) :
    ((n.driveSync F (desiredConfigs U t.configs)).Failing 0 ∨
        ∀ p, (n.driveSync F (desiredConfigs U t.configs)).Failing p ∨
          AgreeAt U t (n.driveSync F (desiredConfigs U t.configs)) p) ∧
      ∀ p, Refused U t p → (n.driveSync F (desiredConfigs U t.configs)).served[p]? = n.served[p]? := by
  unfold Engine.driveSync
  dsimp only
  set m := n.applyHolding (byPort (desiredConfigs U t.configs).admitted) (desiredConfigs U t.configs).held with hm
  have hserved : m.served = n.served := rfl
  by_cases hnone : (desiredConfigs U t.configs).refused = []
  · simp only [if_pos hnone]
    rw [refused_nil_iff] at hnone
    refine ⟨?_, fun p hp => absurd hp (hnone p)⟩
    have h := applyConfig_settles (F := F) (n := m) hok
    generalize m.applyConfig F (byPort (desiredConfigs U t.configs).admitted) = r at h ⊢
    obtain ⟨m', outcome⟩ := r
    cases outcome with
    | error e => exact .inl (failing_fail e)
    | ok report =>
      refine .inr fun p => (h report rfl p).imp (fun ⟨e, he⟩ => ?_) fun ha => ha.congr rfl rfl
      exact (isSome_load _ _ _).2 (.inl ⟨e, he⟩)
  · simp only [if_neg hnone]
    have h := applyAdmitted_settles (F := F) (n := m) hok
    rw [hserved] at h
    refine ⟨.inr fun p => ((h p).1).imp (fun ⟨e, he⟩ => ?_) fun ha => ha.congr rfl rfl, fun p hp => (h p).2 hp⟩
    exact (isSome_load _ _ _).2 (.inl ⟨e, he⟩)

end RiftCluster
