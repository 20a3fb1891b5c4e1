import RiftCluster.Model.Session
import RiftCluster.Proof.Auth
import RiftCluster.Proof.Revisions

/-!
# How long a session lives

* `verify_mint`: a minted token is accepted under its own key until it expires.
* `accepted_minted`: an accepted token whose signature is not forged is one that was minted
  under a key of the same material, revision and api key.
* `sessionRow_written`, `sessionRow_after`: a key record carries the log index of the
  `SessionKeyPut` that wrote it, and later records carry later ones.
* `session_lives_with_its_keys`: the three together.
-/

namespace RiftCluster.Session

open KV

open Auth (utf8 utf8_inj)

variable {C : SessionCodec} {U : Upstream} {es : List Event}

/-! ## Tokens -/

theorem toList_mint (key : SigningKey) (now ttl : ℕ) : (mint C key now ttl).toList =
    signedSpan C key now ttl ++ '.' :: C.base64 (signature C key.macKey (signedSpan C key now ttl)) :=
  String.toList_ofList

theorem splitOn_mint (key : SigningKey) (now ttl : ℕ) : (mint C key now ttl).toList.splitOn '.' =
    [formatTag, C.base64 (C.toJson { pid := subject, iat := now, exp := saturatingAdd now ttl, kr := key.revision }),
      C.base64 (signature C key.macKey (signedSpan C key now ttl))] := by
  rw [toList_mint]
  refine Eq.trans ?_ (List.splitOn_intercalate '.' ?_ (by simp))
  · simp [signedSpan, List.intercalate, List.intersperse]
  · intro part hmem
    simp only [List.mem_cons, List.not_mem_nil, or_false] at hmem
    rcases hmem with rfl | rfl | rfl
    · decide
    · exact C.dot_not_mem _
    · exact C.dot_not_mem _

theorem eq_of_splitOn {token : String} {tag payload sig : List Char}
    (h : token.toList.splitOn '.' = [tag, payload, sig]) : token.toList = (tag ++ '.' :: payload) ++ '.' :: sig := by
  have hjoin : ['.'].intercalate (token.toList.splitOn '.') = token.toList := List.intercalate_splitOn '.'
  rw [h] at hjoin
  rw [← hjoin]
  simp [List.intercalate, List.intersperse]

/-- **A minted token is accepted under its own key, until it expires.** -/
theorem verify_mint (key : SigningKey) (now ttl later : ℕ) :
    verify C key (mint C key now ttl) later = if saturatingAdd now ttl < later then .error .expired else .ok () := by
  simp only [verify, splitOn_mint, C.unbase64_base64]
  rw [if_neg (by simp), if_neg (by simp [signedSpan])]
  simp only [Option.bind_some, C.fromJson_toJson, checkClaims]
  simp

theorem derive_inj {record record' : SessionKey} {apiKey apiKey' : String} {key key' : SigningKey}
    (h : derive C record apiKey = .ok key) (h' : derive C record' apiKey' = .ok key') (hmac : key.macKey = key'.macKey) :
    keyBytes record = keyBytes record' ∧ apiKey = apiKey' := by
  unfold derive at h h'
  cases hbytes : keyBytes record with
  | none => rw [hbytes] at h; cases h
  | some bytes =>
    cases hbytes' : keyBytes record' with
    | none => rw [hbytes'] at h'; cases h'
    | some bytes' =>
      rw [hbytes] at h
      rw [hbytes'] at h'
      cases h
      cases h'
      obtain ⟨rfl, hkeys⟩ := C.hmac_inj hmac
      exact ⟨rfl, utf8_inj (List.append_cancel_left hkeys)⟩

theorem derive_revision {record : SessionKey} {apiKey : String} {key : SigningKey} (h : derive C record apiKey = .ok key) :
    key.revision = record.revision := by
  unfold derive at h
  split at h
  · cases h; rfl
  · cases h

theorem derive_congr {record record' : SessionKey} (hbytes : keyBytes record = keyBytes record')
    (hrevision : record.revision = record'.revision) (apiKey : String) :
    derive C record apiKey = derive C record' apiKey := by
  simp only [derive, hbytes, hrevision]

theorem token_minted {call : MintCall} {token : String} (h : call.token? C = some token) :
    ∃ key, derive C call.record call.apiKey = .ok key ∧ mint C key call.now call.ttl = token := by
  unfold MintCall.token? at h
  cases hkey : derive C call.record call.apiKey with
  | error e => rw [hkey] at h; cases h
  | ok key => rw [hkey] at h; exact ⟨key, rfl, Option.some.inj h⟩

theorem verify_ok {key : SigningKey} {token : String} {now : ℕ} (h : verify C key token now = .ok ()) :
    ∃ payload sig claims, token.toList.splitOn '.' = [formatTag, payload, sig] ∧
      C.unbase64 sig = some (signature C key.macKey (formatTag ++ '.' :: payload)) ∧
      (C.unbase64 payload).bind C.fromJson = some claims ∧ claims.kr = key.revision ∧ now ≤ claims.exp := by
  unfold verify at h
  split at h
  · rename_i tag payload sig hparts
    split at h
    · cases h
    · rename_i htag
      cases not_not.1 htag
      split at h
      · cases h
      · rename_i provided hprovided
        split at h
        · cases h
        · rename_i hsignature
          split at h
          · cases h
          · rename_i claims hclaims
            unfold checkClaims at h
            split at h
            · cases h
            · split at h
              · cases h
              · rename_i hrevision
                split at h
                · cases h
                · rename_i hexp
                  rw [not_not.1 hsignature] at hprovided
                  exact ⟨payload, sig, claims, hparts, hprovided, hclaims, not_not.1 hrevision, Nat.le_of_not_lt hexp⟩
  · cases h

/-- **An accepted token that is not forged was minted**, under a key of the same material,
revision and api key, and has not expired. -/
theorem accepted_minted {minted : Set MintCall} {record : SessionKey} {apiKey : String} {key : SigningKey} {token : String}
    {now : ℕ} (hkey : derive C record apiKey = .ok key) (hforged : Unforged C minted token)
    (h : verify C key token now = .ok ()) :
    ∃ call ∈ minted, keyBytes call.record = keyBytes record ∧ call.record.revision = record.revision ∧
      call.apiKey = apiKey ∧ call.token? C = some token ∧ now ≤ saturatingAdd call.now call.ttl := by
  obtain ⟨payload, sig, claims, hparts, hsig, hclaims, hrevision, hexp⟩ := verify_ok h
  obtain ⟨call, hcall, key', hkey', hmac, hspan⟩ := hforged sig key.macKey _ (by rw [hparts]; rfl) hsig
  obtain ⟨hbytes, hapi⟩ := derive_inj hkey' hkey hmac
  -- the payload that was signed is the one that is presented
  have hpayload : payload = C.base64 (C.toJson
      { pid := subject, iat := call.now, exp := saturatingAdd call.now call.ttl, kr := key'.revision }) :=
    (List.cons.inj (List.append_cancel_left hspan)).2.symm
  rw [hpayload, C.unbase64_base64, Option.bind_some, C.fromJson_toJson] at hclaims
  cases hclaims
  refine ⟨call, hcall, hbytes, ?_, hapi, ?_, hexp⟩
  · rw [← derive_revision hkey', ← derive_revision hkey]; exact hrevision
  · rw [MintCall.token?, hkey']
    refine congrArg some (String.toList_inj.1 ?_)
    rw [toList_mint, hspan, hmac, eq_of_splitOn hparts, C.eq_base64 hsig]

theorem unforged_mint {minted : Set MintCall} {call : MintCall} (hcall : call ∈ minted) {token : String}
    (h : call.token? C = some token) : Unforged C minted token := by
  obtain ⟨key, hkey, rfl⟩ := token_minted h
  intro sig macKey span hsig hmac
  rw [splitOn_mint] at hsig
  cases hsig
  rw [C.unbase64_base64] at hmac
  obtain ⟨hmacKey, hspan⟩ := C.hmac_inj (Option.some.inj hmac)
  exact ⟨call, hcall, key, hkey, hmacKey, String.ofList_injective (utf8_inj hspan)⟩

theorem minted_refused {record record' : SessionKey} {apiKey apiKey' : String} {key key' : SigningKey}
    (hkey : derive C record apiKey = .ok key) (hkey' : derive C record' apiKey' = .ok key')
    (hne : record'.revision ≠ record.revision ∨ apiKey' ≠ apiKey) (now ttl later : ℕ) :
    (verify C key (mint C key' now ttl) later).isOk = false := by
  by_contra hok
  have haccepted : verify C key (mint C key' now ttl) later = .ok () := by
    cases hverify : verify C key (mint C key' now ttl) later with
    | ok _ => rfl
    | error e => rw [hverify] at hok; exact absurd rfl hok
  -- the only signature the token carries is its own
  have hforged : Unforged C {⟨record', apiKey', now, ttl⟩} (mint C key' now ttl) := by
    intro sig macKey span hsig hmac
    rw [splitOn_mint] at hsig
    cases hsig
    rw [C.unbase64_base64] at hmac
    obtain ⟨hmac, hspan⟩ := C.hmac_inj (Option.some.inj hmac)
    refine ⟨_, rfl, key', hkey', hmac, ?_⟩
    have := utf8_inj hspan
    rwa [← String.toList_inj, String.toList_ofList, String.toList_ofList] at this
  obtain ⟨call, hcall, -, hrevision, hapi, -⟩ := accepted_minted hkey hforged haccepted
  cases hcall
  rcases hne with hne | hne
  · exact hne hrevision
  · exact hne hapi

/-! ## The key record of a run -/

theorem putForgets_sessionKey (t : Tables) (p : Port) (config : ImposterConfig) (restart : Option Restart) :
    (putForgets U t p config restart).sessionKey = t.sessionKey := by
  have hreplaced : (t.forgetReplaced U p config).sessionKey = t.sessionKey := by
    unfold Tables.forgetReplaced
    split
    · split <;> rfl
    · rfl
  unfold putForgets
  split <;> exact hreplaced

/-- **What an operation does to the key record**: only a `SessionKeyPut` touches it. -/
theorem mutate_sessionKey (t : Tables) (op : ControlOp) (index : ℕ) (degraded : Bool) :
    (mutateTables U t op index degraded).1.sessionKey = t.sessionKey ∨ ∃ key, op = .sessionKeyPut key ∧
      (mutateTables U t op index degraded).1.sessionKey =
        t.sessionKey.insert sessionKeyRow (U.sessionKey.write { key, revision := index }) := by
  cases op with
  | sessionKeyPut key => exact .inr ⟨key, rfl, rfl⟩
  | putImposter config restart =>
    left
    simp only [mutateTables]
    cases hport : config.port with
    | none => simp only [putImposter, hport]
    | some q => rw [putImposter_tables hport]; exact putForgets_sessionKey t q config restart
  | patchStubs q edit =>
    left
    simp only [mutateTables, patchStubs]
    split
    · rfl
    · split <;> rfl
  | deleteImposter q => cases degraded <;> exact .inl rfl
  | deleteAll => exact .inl rfl
  | setEnabled q enabled => left; simp only [mutateTables, setEnabled]; split <;> rfl
  | putRoutes table => exact .inl rfl
  | deleteRoute id => exact .inl rfl
  | fleetNamePut name => exact .inl rfl
  | proxyRecorded q h resp stub =>
    left
    simp only [mutateTables, proxyRecorded]
    split
    · rfl
    · split
      · rfl
      · split
        · rfl
        · split
          · rfl
          · -- whatever the drive is, and whether the marker is written
            split <;> dsimp only <;> split <;> rfl
  | proxyRecordedClear q =>
    left
    simp only [mutateTables, proxyRecordedClear]
    split
    · rfl
    · split <;> dsimp only <;> split <;> rfl

/-- The key record of a state was written by the `SessionKeyPut` whose log index it carries. -/
theorem sessionRow_written {n : ℕ} (hn : n ≤ es.length) {row : String}
    (h : (sAt U {} es n).tables.sessionKey[sessionKeyRow]? = some row) :
    ∃ k < n, ∃ key d e, es[k]? = some (.entry d e) ∧ row = U.sessionKey.write { key, revision := e.logId.index } := by
  obtain ⟨k, hk, hkn, hnot, hmade, -⟩ :=
    sAt_origin (fun s => s.tables.sessionKey[sessionKeyRow]? = some row) (by simp) hn h
  refine ⟨k, hkn, ?_⟩
  rcases step_tables (U := U) (sAt U {} es k) es[k] with h' | ⟨d, e, request, hev, -, -, -, -, h', -⟩
  · rw [h'] at hmade
    exact absurd hmade hnot
  · rw [h'] at hmade
    rcases mutate_sessionKey (U := U) (sAt U {} es k).tables request.op e.logId.index d with hkeep | ⟨key, -, hput⟩
    · rw [hkeep] at hmade
      exact absurd hmade hnot
    · rw [hput, get_insert, if_pos rfl] at hmade
      exact ⟨key, d, e, by rw [List.getElem?_eq_getElem hk, hev], (Option.some.inj hmade).symm⟩

/-- A `SessionKeyPut` that is run and applied, at a position of the log. -/
structure Rotated (U : Upstream) (es : List Event) (k : ℕ) : Prop where
  put : ∃ d e request key, es[k]? = some (.entry d e) ∧ e.payload = .normal request ∧ request.op = .sessionKeyPut key ∧
    replayOf U ((sAt U {} es k).receive e) request = none ∧ (applyOne U d (sAt U {} es k) e).reply.outcome = .applied

theorem sessionRow_after {k m : ℕ} (h : Rotated U es k) (hkm : k < m) (hm : m ≤ es.length) :
    ∃ j ≥ k, j < m ∧ ∃ key d e, es[j]? = some (.entry d e) ∧
      (sAt U {} es m).tables.sessionKey[sessionKeyRow]? =
        some (U.sessionKey.write { key, revision := e.logId.index }) := by
  induction m with
  | zero => omega
  | succ m ih =>
    rw [sAt_succ hm]
    rcases Nat.eq_or_lt_of_le (Nat.le_of_lt_succ hkm) with rfl | hlt
    · obtain ⟨d, e, request, key, hek, hp, hop, hreplay, happlied⟩ := h.put
      have hev : es[k] = .entry d e := by
        rw [List.getElem?_eq_getElem hm] at hek
        exact Option.some.inj hek
      obtain ⟨-, -, htables⟩ := applied_runs hp hreplay happlied
      refine ⟨k, le_rfl, Nat.lt_succ_self k, key, d, e, hek, ?_⟩
      rw [hev, State.step, htables, hop]
      exact (get_insert _ _ _ _).trans (if_pos rfl)
    · obtain ⟨j, hj, hjm, key, d, e, hej, hrow⟩ := ih hlt (by omega)
      rcases step_tables (U := U) (sAt U {} es m) es[m] with h' | ⟨d', e', request, hev, -, -, -, -, h', -⟩
      · exact ⟨j, hj, by omega, key, d, e, hej, by rw [h']; exact hrow⟩
      · rw [h']
        rcases mutate_sessionKey (U := U) (sAt U {} es m).tables request.op e'.logId.index d' with hkeep | ⟨key', -, hput⟩
        · exact ⟨j, hj, by omega, key, d, e, hej, by rw [hkeep]; exact hrow⟩
        · refine ⟨m, by omega, Nat.lt_succ_self m, key', d', e', by rw [List.getElem?_eq_getElem hm, hev], ?_⟩
          rw [hput, get_insert, if_pos rfl]

theorem sessionRecord_of_row {t : Tables} {record : SessionKey}
    (h : t.sessionKey[sessionKeyRow]? = some (U.sessionKey.write record)) : sessionRecord U t = .ok (some record) := by
  simp only [sessionRecord, h, U.sessionKey_read, Except.map]

/-- The first `n` events of a node hold only entries from before a position of the log `es`. -/
def AppliedBefore (es' : List Event) (n : ℕ) (es : List Event) (k : ℕ) : Prop :=
  ∀ i < n, ∀ d e d' e', es'[i]? = some (.entry d e) → es[k]? = some (.entry d' e') → e.logId.index < e'.logId.index

theorem appliedBefore_self (hlog : Increasing es) {n k : ℕ} (hnk : n ≤ k) : AppliedBefore es n es k :=
  fun _ hi _ _ _ _ hei hek => hlog.lt (by omega) hei hek

/-- **A record that is read before a rotation is older than one that is read after it.** -/
theorem revision_lt {es' : List Event} (hlog : Increasing es) {n k m : ℕ} (hn : n ≤ es'.length)
    (hbefore : AppliedBefore es' n es k) (hkm : k < m) (hm : m ≤ es.length) (hrotated : Rotated U es k) {record : SessionKey}
    (hrecord : sessionRecord U (sAt U {} es' n).tables = .ok (some record)) :
    ∃ record', sessionRecord U (sAt U {} es m).tables = .ok (some record') ∧ record.revision < record'.revision := by
  obtain ⟨j, hkj, hjm, key, d, e, hej, hrow⟩ := sessionRow_after hrotated hkm hm
  refine ⟨_, sessionRecord_of_row hrow, ?_⟩
  cases hold : (sAt U {} es' n).tables.sessionKey[sessionKeyRow]? with
  | none => simp only [sessionRecord, hold] at hrecord; cases hrecord
  | some row =>
    obtain ⟨i, hi, key', d', e', hei, rfl⟩ := sessionRow_written hn hold
    rw [sessionRecord_of_row hold] at hrecord
    cases hrecord
    obtain ⟨dk, ek, -, -, hek, -⟩ := hrotated.put
    have hput : e'.logId.index < ek.logId.index := hbefore i hi d' e' dk ek hei hek
    rcases Nat.eq_or_lt_of_le hkj with rfl | hlt
    · rw [hek] at hej
      cases hej
      exact hput
    · exact hput.trans (hlog.lt hlt hek hej)

/-- **A session lives exactly as long as its keys.** Under the key that is derived from a record
and an api key, a token that carries no forged signature is accepted if and only if it was
minted under the same key material, the same revision and the same api key, at a time and with
a lifetime that reach to now. So a node that has applied a `SessionKeyPut` refuses, from then on,
every token a node minted before it had applied the put, whatever the api key; and a node
refuses every token that was minted under another api key than its own. -/
theorem session_lives_with_its_keys (C : SessionCodec) (U : Upstream) :
    (∀ (minted : Set MintCall) (record : SessionKey) (apiKey : String) (key : SigningKey) (token : String) (now : ℕ),
        derive C record apiKey = .ok key → Unforged C minted token →
        (verify C key token now = .ok () ↔ ∃ call ∈ minted, keyBytes call.record = keyBytes record ∧
          call.record.revision = record.revision ∧ call.apiKey = apiKey ∧ call.token? C = some token ∧
          now ≤ saturatingAdd call.now call.ttl)) ∧
      (∀ (es es' : List Event) (n k m : ℕ) (call : MintCall) (token apiKey : String) (now : ℕ), Increasing es →
        k < m → m ≤ es.length → Rotated U es k → n ≤ es'.length → AppliedBefore es' n es k →
        sessionRecord U (sAt U {} es' n).tables = .ok (some call.record) → call.token? C = some token →
        resolveCookie C U (sAt U {} es m).tables apiKey (some token) now = .ok false) ∧
      ∀ (es : List Event) (m : ℕ) (call : MintCall) (token apiKey : String) (now : ℕ), m ≤ es.length →
        call.apiKey ≠ apiKey → call.token? C = some token →
        resolveCookie C U (sAt U {} es m).tables apiKey (some token) now = .ok false := by
  refine ⟨?_, ?_, ?_⟩
  · intro minted record apiKey key token now hkey hforged
    refine ⟨accepted_minted hkey hforged, ?_⟩
    rintro ⟨call, -, hbytes, hrevision, rfl, hminted, hnow⟩
    obtain ⟨key', hkey', rfl⟩ := token_minted hminted
    rw [derive_congr hbytes hrevision, hkey] at hkey'
    cases hkey'
    rw [verify_mint, if_neg (Nat.not_lt.2 hnow)]
  · intro es es' n k m call token apiKey now hlog hkm hm hrotated hn hbefore hrecord hminted
    obtain ⟨key', hkey', rfl⟩ := token_minted hminted
    obtain ⟨record, hrecord', hlt⟩ := revision_lt hlog hn hbefore hkm hm hrotated hrecord
    simp only [resolveCookie, hrecord']
    cases hkey : derive C record apiKey with
    | error e => rfl
    | ok key => exact congrArg Except.ok (minted_refused hkey hkey' (.inl hlt.ne) _ _ _)
  · intro es m call token apiKey now hm hne hminted
    obtain ⟨key', hkey', rfl⟩ := token_minted hminted
    simp only [resolveCookie]
    cases hrow : (sAt U {} es m).tables.sessionKey[sessionKeyRow]? with
    | none => simp only [sessionRecord, hrow]
    | some row =>
      obtain ⟨-, -, key, d, e, -, rfl⟩ := sessionRow_written hm hrow
      simp only [sessionRecord_of_row hrow]
      cases hderive : derive C { key, revision := e.logId.index } apiKey with
      | error e => rfl
      | ok key => exact congrArg Except.ok (minted_refused hderive hkey' (.inr hne) _ _ _)

def keyOf (digit : Char) : String := String.ofList (List.replicate 64 digit)

def rotateOnce : List Event :=
  [.entry false (requestAt 1 { opId := "op-1", op := .sessionKeyPut (keyOf 'a') }),
    .entry false (requestAt 2 { opId := "op-2", op := .sessionKeyPut (keyOf 'b') })]

def firstLogin : MintCall := ⟨⟨keyOf 'a', 1⟩, "secret", 1000, 60⟩

def firstToken : String := ((firstLogin.token? letterCodec).getD "")

/-- The token of the login is accepted to its last second, refused after the rotation, and
refused by a node with another api key. -/
theorem rotateOnce_ends_the_session :
    sessionRecord jsonUpstream (sAt jsonUpstream {} rotateOnce 1).tables = .ok (some firstLogin.record) ∧
      (∃ key, derive letterCodec firstLogin.record "secret" = .ok key ∧ verify letterCodec key firstToken 1060 = .ok ()) ∧
      resolveCookie letterCodec jsonUpstream (sAt jsonUpstream {} rotateOnce 2).tables "secret" (some firstToken) 1030 =
        .ok false ∧
      resolveCookie letterCodec jsonUpstream (sAt jsonUpstream {} rotateOnce 1).tables "other" (some firstToken) 1030 =
        .ok false := by
  have hrecord : sessionRecord jsonUpstream (sAt jsonUpstream {} rotateOnce 1).tables = .ok (some firstLogin.record) := by
    decide +kernel
  have htoken : firstLogin.token? letterCodec = some firstToken := by rfl
  have hlog : Increasing rotateOnce := by simp [Increasing, rotateOnce, requestAt]
  have hrotated : Rotated jsonUpstream rotateOnce 1 :=
    ⟨false, _, _, _, rfl, rfl, rfl, by decide +kernel, by decide +kernel⟩
  obtain ⟨haccepted, hrefused, hother⟩ := session_lives_with_its_keys letterCodec jsonUpstream
  obtain ⟨key, hkey, -⟩ := token_minted htoken
  refine ⟨hrecord, ⟨key, hkey, ?_⟩, ?_, ?_⟩
  · exact (haccepted {firstLogin} _ _ key firstToken 1060 hkey (unforged_mint (Set.mem_singleton _) htoken)).2
      ⟨firstLogin, rfl, rfl, rfl, rfl, htoken, by decide⟩
  · exact hrefused rotateOnce rotateOnce 1 1 2 firstLogin firstToken "secret" 1030 hlog (by decide) (by decide) hrotated
      (by decide) (appliedBefore_self hlog le_rfl) hrecord htoken
  · exact hother rotateOnce 1 firstLogin firstToken "other" 1030 (by decide) (by decide) htoken

end RiftCluster.Session
