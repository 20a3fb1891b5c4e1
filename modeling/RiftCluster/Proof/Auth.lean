import RiftCluster.Model.Auth

/-!
# A credential is genuine, and accepted once

* `canonical_inj`: the bytes the MAC covers determine the timestamp, the nonce and the
  request, since each field stands behind its length.
* `accepted_genuine_once`: so a MAC that only a key holder can have made shows what was
  signed. And a nonce leaves the cache only when its timestamp is more than twice the skew
  back, at a clock from which a later one is at most the skew behind; by then the timestamp check
  refuses it. For a skew of `2 ^ 63` seconds or more the time to keep a nonce saturates, and a
  credential is accepted again (`wideSkew_accepts_twice`).
-/

namespace RiftCluster.Auth

open KV

/-! ## What the MAC covers -/

theorem utf8_inj {s s' : String} (h : utf8 s = utf8 s') : s = s' := by
  have harray : s.toUTF8.data = s'.toUTF8.data := Array.toList_inj.1 h
  exact String.toByteArray_inj.1 (ByteArray.ext harray)

theorem length_utf8 (s : String) : (utf8 s).length = s.utf8ByteSize := by simp [utf8]

theorem utf8Len_le (cs : List Char) : String.utf8Len cs ≤ 4 * cs.length := by
  induction cs with
  | nil => simp
  | cons c cs ih =>
    have hc := Char.utf8Size_le_four c
    rw [String.utf8Len_cons, List.length_cons]
    omega

theorem length_utf8_toString {ts : ℕ} (h : ts < 2 ^ 64) : (utf8 (toString ts)).length < 2 ^ 64 := by
  have hdigits : (Nat.repr ts).length ≤ 20 := Nat.repr_length ts 20 (by decide) (lt_trans h (by decide))
  have hlen : (Nat.repr ts).utf8ByteSize ≤ 4 * (Nat.repr ts).length := by
    have hle := utf8Len_le (Nat.repr ts).toList
    rwa [← String.utf8ByteSize_ofList, String.ofList_toList, String.length_toList] at hle
  have hts : (utf8 (toString ts)).length = (Nat.repr ts).utf8ByteSize := length_utf8 _
  omega

/-- **What is signed is read back from the bytes the MAC covers.** -/
theorem canonical_inj {s s' : Signed} (h : canonical s.ts s.nonce s.req = canonical s'.ts s'.nonce s'.req) : s = s' := by
  have hfits : ∀ s : Signed, ∀ f ∈ [utf8 (toString s.ts), utf8 s.nonce, utf8 s.req.method, utf8 s.req.path, s.req.body],
      f.length < 256 ^ 8 := by
    intro s f hf
    rw [show (256 : ℕ) ^ 8 = 2 ^ 64 by norm_num]
    simp only [List.mem_cons, List.not_mem_nil, or_false] at hf
    rcases hf with rfl | rfl | rfl | rfl | rfl
    · exact length_utf8_toString s.ts_lt
    · rw [length_utf8]; exact s.nonce_fits
    · rw [length_utf8]; exact s.req.method_fits
    · rw [length_utf8]; exact s.req.path_fits
    · exact s.req.body_fits
  have hfields := Frame.fields_inj (by rfl) (hfits s) (hfits s') h
  simp only [List.cons.injEq, and_true] at hfields
  obtain ⟨hts, hnonce, hmethod, hpath, hbody⟩ := hfields
  obtain ⟨ts, nonce, ⟨method, path, body, _, _, _⟩, _, _⟩ := s
  obtain ⟨ts', nonce', ⟨method', path', body', _, _, _⟩, _, _⟩ := s'
  obtain rfl : ts = ts' := Nat.repr_inj.1 (utf8_inj hts)
  obtain rfl := utf8_inj hnonce
  obtain rfl := utf8_inj hmethod
  obtain rfl := utf8_inj hpath
  obtain rfl : body = body' := hbody
  rfl

/-! ## What a header says -/

theorem sublist_of_mem_splitOn {part s : List Char} (h : part ∈ s.splitOn ',') : part.Sublist s := by
  have hsub : ∀ (sep : List Char) (parts : List (List Char)), part ∈ parts → part.Sublist (sep.intercalate parts) := by
    intro sep parts hmem
    refine List.sublist_flatten_of_mem ?_
    induction parts with
    | nil => cases hmem
    | cons q qs ih =>
      cases qs with
      | nil => simpa using hmem
      | cons r rs =>
        rw [List.intersperse_cons_cons]
        rcases List.mem_cons.1 hmem with rfl | hmem
        · exact List.mem_cons_self
        · exact List.mem_cons_of_mem _ (List.mem_cons_of_mem _ (ih hmem))
  have hjoin := hsub [','] (s.splitOn ',') h
  rwa [List.intercalate_splitOn] at hjoin

theorem splitOnce_sublist {pat s : List Char} {p : List Char × List Char} (h : splitOnce pat s = some p) :
    p.2.Sublist s := by
  induction s generalizing p with
  | nil =>
    rw [splitOnce] at h
    split at h
    · cases h; exact List.Sublist.refl _
    · cases h
  | cons c cs ih =>
    rw [splitOnce] at h
    split at h
    · cases h; exact List.drop_sublist _ _
    · obtain ⟨q, hq, rfl⟩ := Option.map_eq_some_iff.1 h
      exact (ih hq).cons c

theorem trim_sublist (s : List Char) : (trim s).Sublist s :=
  (List.rdropWhile_prefix _ _).sublist.trans (List.dropWhile_suffix _).sublist

theorem parseSecs_lt {s : List Char} {ts : ℕ} (h : parseSecs s = some ts) : ts < 2 ^ 64 := by
  unfold parseSecs parseU64 at h
  simp only [Option.ite_none_right_eq_some] at h
  obtain ⟨-, hlt, hts⟩ := h
  cases hts
  exact hlt

/-- What has been read of a header is of its text, and its timestamp is a `u64`. -/
structure PartsOk (header : List Char) (parts : HeaderParts) : Prop where
  ts : ∀ ts ∈ parts.ts, ts < 2 ^ 64
  nonce : ∀ nonce ∈ parts.nonce, nonce.Sublist header

theorem partsOk_read {header part : List Char} {parts parts' : HeaderParts} (hpart : part.Sublist header)
    (hok : PartsOk header parts) (h : parts.read part = .ok parts') : PartsOk header parts' := by
  unfold HeaderParts.read at h
  split at h
  · cases h
  · rename_i key value hsplit
    have hvalue : (trim value).Sublist header := (trim_sublist value).trans ((splitOnce_sublist hsplit).trans hpart)
    split at h
    · cases h
      exact ⟨fun ts hts => parseSecs_lt hts, hok.nonce⟩
    · split at h
      · cases h
        refine ⟨hok.ts, fun nonce hnonce => ?_⟩
        cases hnonce
        exact hvalue
      · split at h
        · cases hdec : hexDecode (trim value) with
          | error fault => rw [hdec] at h; cases h
          | ok mac =>
            rw [hdec] at h
            cases h
            exact ⟨hok.ts, hok.nonce⟩
        · cases h

theorem partsOk_readAll {header : List Char} {ps : List (List Char)} (hps : ∀ p ∈ ps, p.Sublist header)
    {parts parts' : HeaderParts} (hok : PartsOk header parts) (h : ps.foldlM HeaderParts.read parts = .ok parts') :
    PartsOk header parts' := by
  induction ps generalizing parts with
  | nil => cases h; exact hok
  | cons p ps ih =>
    rw [List.foldlM_cons] at h
    cases hp : parts.read p with
    | error fault => rw [hp] at h; cases h
    | ok next =>
      rw [hp] at h
      have hnext := partsOk_read (hps p List.mem_cons_self) hok hp
      exact ih (fun q hq => hps q (List.mem_cons_of_mem _ hq)) hnext h

theorem utf8Len_le_of_sublist {cs ds : List Char} (h : cs.Sublist ds) : String.utf8Len cs ≤ String.utf8Len ds := by
  induction h with
  | slnil => exact le_rfl
  | cons c _ ih => rw [String.utf8Len_cons]; omega
  | cons_cons c _ ih => rw [String.utf8Len_cons, String.utf8Len_cons]; omega

theorem parse_fits {header : String} {cred : Credential} (h : parse header = .ok cred) :
    cred.ts < 2 ^ 64 ∧ cred.nonce.utf8ByteSize ≤ header.utf8ByteSize := by
  unfold parse at h
  split at h
  · cases h
  · rename_i ts nonce mac hread
    have hok : PartsOk header.toList ⟨some ts, some nonce, some mac⟩ := by
      refine partsOk_readAll (fun p hp => sublist_of_mem_splitOn hp) ?_ hread
      constructor
      · intro ts hts; cases hts
      · intro nonce hnonce; cases hnonce
    split at h
    · cases h
    · cases h
      refine ⟨hok.ts ts rfl, ?_⟩
      have hle := utf8Len_le_of_sublist (hok.nonce nonce rfl)
      rwa [← String.utf8ByteSize_ofList, ← String.utf8ByteSize_ofList, String.ofList_toList] at hle
  · cases h

/-! ## One call -/

variable {v : Verifier} {tag : List UInt8 → List UInt8} {seen : Table String ℕ} {call : VerifyCall}

theorem ttlSecs_pos : 0 < v.ttlSecs := by
  unfold Verifier.ttlSecs saturatingAdd saturatingMul u64Max
  omega

theorem makeRoom_keeps {nonce : String} {signed now : ℕ} (h : seen[nonce]? = some signed) :
    (v.makeRoom seen now)[nonce]? = some signed ∨ signed + v.ttlSecs ≤ now := by
  have hpos : 0 < v.ttlSecs := ttlSecs_pos
  unfold Verifier.makeRoom
  split
  · rw [get_retain, h]
    by_cases httl : now - signed < v.ttlSecs
    · left; simpa using httl
    · right; omega
  · exact .inl h

theorem admitNonce_keeps {nonce other : String} {signedAt now signed : ℕ} (h : seen[other]? = some signed) :
    (v.admitNonce seen nonce signedAt now).2[other]? = some signed ∨ signed + v.ttlSecs ≤ now := by
  unfold Verifier.admitNonce
  split
  · exact .inl h
  · rename_i hfresh
    have hne : nonce ≠ other := by
      rintro rfl
      exact hfresh (by rw [h]; rfl)
    rcases makeRoom_keeps (v := v) h with hkept | hpast
    · left
      split
      · exact hkept
      · rw [get_insert, if_neg hne]; exact hkept
    · exact .inr hpast

theorem admitNonce_accepted {nonce : String} {signedAt now : ℕ} (h : (v.admitNonce seen nonce signedAt now).1 = .accepted) :
    seen[nonce]? = none ∧ (v.admitNonce seen nonce signedAt now).2[nonce]? = some signedAt := by
  unfold Verifier.admitNonce at h ⊢
  by_cases hfresh : seen[nonce]?.isSome
  · rw [if_pos hfresh] at h; cases h
  by_cases hfull : v.capacity ≤ (v.makeRoom seen now).size
  · rw [if_neg hfresh, if_pos hfull] at h; cases h
  rw [if_neg hfresh, if_neg hfull]
  exact ⟨by simpa using hfresh, by rw [get_insert, if_pos rfl]⟩

/-- **What an accepted call shows.** -/
theorem accepted_inv (h : (v.verifyAt tag seen call).1 = .accepted) :
    ∃ header cred, call.header = some header ∧ parse header = .ok cred ∧ absDiff call.now cred.ts ≤ v.skewSecs ∧
      mac tag cred.ts cred.nonce call.req = cred.mac ∧ seen[cred.nonce]? = none ∧
      (v.verifyAt tag seen call).2[cred.nonce]? = some cred.ts := by
  cases hheader : call.header with
  | none =>
    rw [Verifier.verifyAt, hheader] at h
    cases h
  | some header =>
    cases hparse : parse header with
    | error fault =>
      rw [Verifier.verifyAt, hheader] at h
      simp only [Option.elim_some, hparse] at h
      cases fault <;> cases h
    | ok cred =>
      have heq : v.verifyAt tag seen call =
          if v.skewSecs < absDiff call.now cred.ts then (.refused .staleTimestamp, seen)
          else if mac tag cred.ts cred.nonce call.req ≠ cred.mac then (.refused .badMac, seen)
          else v.admitNonce seen cred.nonce cred.ts call.now := by
        rw [Verifier.verifyAt, hheader]
        simp only [Option.elim_some, hparse]
      rw [heq] at h ⊢
      by_cases hskew : v.skewSecs < absDiff call.now cred.ts
      · rw [if_pos hskew] at h; cases h
      rw [if_neg hskew] at h ⊢
      by_cases hmac : mac tag cred.ts cred.nonce call.req ≠ cred.mac
      · rw [if_pos hmac] at h; cases h
      rw [if_neg hmac] at h ⊢
      obtain ⟨hfresh, hstored⟩ := admitNonce_accepted h
      exact ⟨header, cred, rfl, hparse, by omega, not_not.1 hmac, hfresh, hstored⟩

theorem verifyAt_keeps {nonce : String} {signed : ℕ} (h : seen[nonce]? = some signed) :
    (v.verifyAt tag seen call).2[nonce]? = some signed ∨ signed + v.ttlSecs ≤ call.now := by
  unfold Verifier.verifyAt
  split
  · exact .inl h
  · exact .inl h
  · split
    · exact .inl h
    · split
      · exact .inl h
      · exact admitNonce_keeps h

/-! ## A run of calls -/

variable {calls : List VerifyCall}

theorem seenAt_succ {n : ℕ} (hcall : calls[n]? = some call) :
    v.seenAt tag calls (n + 1) = (v.verifyAt tag (v.seenAt tag calls n) call).2 := by
  obtain ⟨hn, rfl⟩ := List.getElem?_eq_some_iff.1 hcall
  exact Trace.stateAt_succ hn

/-- A nonce that was accepted is in the cache, or there was a call whose clock is past its time. -/
theorem seenAt_keeps {j k : ℕ} {nonce : String} {signed : ℕ} (hjk : j ≤ k) (hk : k ≤ calls.length)
    (h : (v.seenAt tag calls j)[nonce]? = some signed) :
    (v.seenAt tag calls k)[nonce]? = some signed ∨
      ∃ m c, m < k ∧ calls[m]? = some c ∧ signed + v.ttlSecs ≤ c.now := by
  induction k, hjk using Nat.le_induction with
  | base => exact .inl h
  | succ k hjk ih =>
    have hcall : calls[k]? = some calls[k] := List.getElem?_eq_getElem (by omega)
    rcases ih (by omega) with hkept | ⟨m, c, hm, hc, hpast⟩
    · have hstep : (v.verifyAt tag (v.seenAt tag calls k) calls[k]).2[nonce]? = some signed ∨
          signed + v.ttlSecs ≤ calls[k].now := verifyAt_keeps hkept
      rcases hstep with hkept' | hpast
      · rw [seenAt_succ hcall]; exact .inl hkept'
      · exact .inr ⟨k, calls[k], by omega, hcall, hpast⟩
    · exact .inr ⟨m, c, by omega, hc, hpast⟩

theorem ttlSecs_eq (h : v.skewSecs < 2 ^ 63) : v.ttlSecs = 2 * v.skewSecs + 1 := by
  unfold Verifier.ttlSecs saturatingAdd saturatingMul u64Max
  omega

/-- The call at position `n` is accepted, with a credential. -/
def Verifier.Accepts (v : Verifier) (tag : List UInt8 → List UInt8) (calls : List VerifyCall) (n : ℕ) (call : VerifyCall)
    (cred : Credential) : Prop :=
  calls[n]? = some call ∧ v.outcomeAt tag calls n = some .accepted ∧ ∃ header, call.header = some header ∧ parse header = .ok cred

theorem Verifier.Accepts.inv {n : ℕ} {cred : Credential} (h : v.Accepts tag calls n call cred) :
    absDiff call.now cred.ts ≤ v.skewSecs ∧ mac tag cred.ts cred.nonce call.req = cred.mac ∧
      (v.seenAt tag calls n)[cred.nonce]? = none ∧ (v.seenAt tag calls (n + 1))[cred.nonce]? = some cred.ts := by
  obtain ⟨hcall, hout, header, hheader, hparse⟩ := h
  rw [Verifier.outcomeAt, hcall] at hout
  obtain ⟨header', cred', hheader', hparse', hskew, hmac, hfresh, hstored⟩ := accepted_inv (Option.some.inj hout)
  cases hheader.symm.trans hheader'
  cases hparse.symm.trans hparse'
  rw [seenAt_succ hcall]
  exact ⟨hskew, hmac, hfresh, hstored⟩

/-- **Authenticated, and at most once.** Let the tag be injective, and let every tag that a
header carries be one of a tuple in `signed`, those the key holder signed. Take any sequence
of calls on one verifier whose clock never falls more than the skew below an earlier one, for
a skew below `2 ^ 63` seconds. Every accepted call's timestamp, nonce and request were
signed together, with the timestamp within the skew of the call's clock; and no two accepted
calls carry the same timestamp and nonce. -/
theorem accepted_genuine_once (v : Verifier) (hskew : v.skewSecs < 2 ^ 63) (tag : List UInt8 → List UInt8)
    (htag : Function.Injective tag) (signed : Set Signed) (calls : List VerifyCall)
    (hforge : ∀ call ∈ calls, ∀ header cred, call.header = some header → parse header = .ok cred →
      cred.mac ∈ Set.range tag → ∃ s ∈ signed, cred.mac = mac tag s.ts s.nonce s.req)
    (hclock : ∀ (j k : ℕ) (c c' : VerifyCall), j < k → calls[j]? = some c → calls[k]? = some c' →
      c.now ≤ c'.now + v.skewSecs) :
    (∀ n call cred, v.Accepts tag calls n call cred →
      absDiff call.now cred.ts ≤ v.skewSecs ∧
        ∃ s ∈ signed, s.ts = cred.ts ∧ s.nonce = cred.nonce ∧ s.req = call.req) ∧
    ∀ j k call call' cred cred', j < k → v.Accepts tag calls j call cred → v.Accepts tag calls k call' cred' →
      ¬ (cred.ts = cred'.ts ∧ cred.nonce = cred'.nonce) := by
  constructor
  · intro n call cred hacc
    obtain ⟨hwithin, hmac, -, -⟩ := hacc.inv
    obtain ⟨hcall, -, header, hheader, hparse⟩ := hacc
    refine ⟨hwithin, ?_⟩
    obtain ⟨s, hs, hsmac⟩ := hforge call (List.mem_of_getElem? hcall) header cred hheader hparse ⟨_, hmac⟩
    -- the tag is of the credential's own bytes, and these are of one tuple only
    have hbytes : canonical s.ts s.nonce s.req = canonical cred.ts cred.nonce call.req := htag (hsmac.symm.trans hmac.symm)
    obtain ⟨hts, hnonce⟩ := parse_fits hparse
    have hfits : cred.nonce.utf8ByteSize < 2 ^ 64 := lt_of_le_of_lt hnonce (call.header_fits header hheader)
    have heq : s = ⟨cred.ts, cred.nonce, call.req, hts, hfits⟩ := canonical_inj hbytes
    exact ⟨s, hs, by rw [heq], by rw [heq], by rw [heq]⟩
  · rintro j k call call' cred cred' hjk hacc hacc' ⟨hts, hnonce⟩
    obtain ⟨-, -, -, hstored⟩ := hacc.inv
    obtain ⟨hwithin, -, hfresh, -⟩ := hacc'.inv
    have hk : k < calls.length := (List.getElem?_eq_some_iff.1 hacc'.1).1
    -- the cache has lost the nonce, so some clock was past its time; the clock of `k` is not far behind
    rcases seenAt_keeps (show j + 1 ≤ k from hjk) hk.le hstored with hkept | ⟨m, c, hm, hc, hpast⟩
    · rw [hnonce, hfresh] at hkept
      cases hkept
    · have hlate := hclock m k c call' hm hc hacc'.1
      rw [ttlSecs_eq hskew] at hpast
      unfold absDiff at hwithin
      omega

def ping : SignedRequest := ⟨"GET", "/ping", [], by decide, by decide, by decide⟩

def pingAt (ts : ℕ) (nonce : String) (hts : ts < 2 ^ 64) (hfits : nonce.utf8ByteSize < 2 ^ 64) : Signed :=
  ⟨ts, nonce, ping, hts, hfits⟩

/-- A signed request arrives, with the header its sender gave it. -/
def arrives (now : ℕ) (s : Signed) (hnow : now < 2 ^ 64) (hfits : (headerAt id s).utf8ByteSize < 2 ^ 64) : VerifyCall :=
  ⟨now, some (headerAt id s), s.req, hnow, by simpa using hfits⟩

def sentTwice : List VerifyCall :=
  [arrives 100 (pingAt 100 "n1" (by decide) (by decide)) (by decide) (by decide +kernel),
    arrives 110 (pingAt 100 "n1" (by decide) (by decide)) (by decide) (by decide +kernel)]

/-- The first is what was signed; the second is refused. -/
theorem sentTwice_accepted_once :
    Verifier.default.outcomeAt id sentTwice 0 = some .accepted ∧
      Verifier.default.outcomeAt id sentTwice 1 = some (.refused .replayedNonce) ∧
      ∃ s ∈ ({pingAt 100 "n1" (by decide) (by decide)} : Set Signed), s.ts = 100 ∧ s.nonce = "n1" ∧ s.req = ping := by
  have hparse : parse (headerAt id (pingAt 100 "n1" (by decide) (by decide))) =
      .ok ⟨100, "n1", mac id 100 "n1" ping⟩ := by
    decide +kernel
  have hheader : ∀ call ∈ sentTwice, call.header = some (headerAt id (pingAt 100 "n1" (by decide) (by decide))) := by
    intro call hcall
    simp only [sentTwice, List.mem_cons, List.not_mem_nil, or_false] at hcall
    rcases hcall with rfl | rfl <;> rfl
  have hfirst : Verifier.default.outcomeAt id sentTwice 0 = some .accepted := by decide +kernel
  refine ⟨hfirst, by decide +kernel, ?_⟩
  refine ((accepted_genuine_once Verifier.default (by decide) id Function.injective_id
    {pingAt 100 "n1" (by decide) (by decide)} sentTwice (fun call hcall header cred hh hp _ => ?_)
    (fun j k c c' hjk hc hc' => ?_)).1 0 _ ⟨100, "n1", mac id 100 "n1" ping⟩ ⟨rfl, hfirst, _, rfl, hparse⟩).2
  · cases (hheader call hcall).symm.trans hh
    cases hparse.symm.trans hp
    exact ⟨_, rfl, rfl⟩
  · have hk : k < 2 := (List.getElem?_eq_some_iff.1 hc').1
    obtain ⟨rfl, rfl⟩ : j = 0 ∧ k = 1 := by omega
    cases hc
    cases hc'
    decide

/-- With a skew of `2 ^ 64 - 1` seconds and room for two nonces. -/
def wideVerifier : Verifier := ⟨2 ^ 64 - 1, 2, by decide⟩

/-- Two requests at time `0`; one at the end of time, which takes the room of both; and the
first of them again. -/
def wideSkew : List VerifyCall :=
  [arrives 0 (pingAt 0 "x" (by decide) (by decide)) (by decide) (by decide +kernel),
    arrives 0 (pingAt 0 "w" (by decide) (by decide)) (by decide) (by decide +kernel),
    arrives (2 ^ 64 - 1) (pingAt (2 ^ 64 - 1) "y" (by decide) (by decide)) (by decide) (by decide +kernel),
    arrives (2 ^ 64 - 1) (pingAt 0 "x" (by decide) (by decide)) (by decide) (by decide +kernel)]

/-- **The first request is accepted twice.** The time to keep a nonce is `2 ^ 64 - 1` seconds,
and not twice the skew. -/
theorem wideSkew_accepts_twice :
    wideSkew.map (·.now) = [0, 0, 2 ^ 64 - 1, 2 ^ 64 - 1] ∧
      wideVerifier.ttlSecs = 2 ^ 64 - 1 ∧
      wideSkew[0]?.map (·.header) = wideSkew[3]?.map (·.header) ∧
      wideVerifier.outcomeAt id wideSkew 0 = some .accepted ∧
      wideVerifier.outcomeAt id wideSkew 3 = some .accepted := by
  exact ⟨rfl, by decide, rfl, by decide +kernel, by decide +kernel⟩

end RiftCluster.Auth
