import RiftCluster.Model.SnapshotFetch

/-!
# A snapshot fetch resumes without corruption

* `ReceiveStep`, `receive_step`: how an attempt can end, with what it asks for and what it leaves.
* `receivingOk_step`, `receivingOk_at`: while the leader streams the offered file, the working file
  is a prefix of it after every attempt.
* `receive_ok_iff`: such an attempt succeeds exactly if the file is complete and its fetch ended.
* `settled_ok`, `corrupt_kept`, `corrupt_discarded`: with arbitrary bytes, what is accepted matches
  the offer, and what a corrupt file of full length can survive.
-/

namespace RiftCluster

variable {sha256 : Bytes → String} {offer : SnapshotOffer} {file : Option Bytes} {a : ReceiveAttempt}

/-- What an attempt starts from: a file that is too long is emptied. -/
def heldBytes (offer : SnapshotOffer) (file : Option Bytes) : Bytes :=
  if offer.size < (file.getD []).length then [] else file.getD []

def ReceiveAttempt.endsAt (a : ReceiveAttempt) (offset : ℕ) : Bool :=
  match a.fetch offset with
  | .ok body => body.stop = .ended
  | .error _ => false

def ReceiveAttempt.arrived (a : ReceiveAttempt) (offset : ℕ) : Bytes :=
  match a.fetch offset with
  | .ok body => body.chunks.flatten
  | .error _ => []

theorem fetched_eq (id : String) (a : ReceiveAttempt) (offset : ℕ) :
    (fetched id (a.fetch offset)).1 = a.arrived offset ∧
      ((fetched id (a.fetch offset)).2 = .ok () ↔ a.endsAt offset = true) := by
  unfold fetched ReceiveAttempt.arrived ReceiveAttempt.endsAt
  cases a.fetch offset with
  | error e => simp
  | ok body =>
    obtain ⟨chunks, stop⟩ := body
    cases stop <;> simp

/-- How an attempt ends. -/
inductive ReceiveStep (sha256 : Bytes → String) (offer : SnapshotOffer) (file : Option Bytes) (a : ReceiveAttempt) :
    Received → Prop
  /-- The id is refused, and no file is touched. -/
  | unusable (hid : snapshotIdIsSafe offer.id = false) :
      ReceiveStep sha256 offer file a ⟨file, none, .error (.unusableId offer.id)⟩
  /-- The disk fails before a fetch; the file is as it was, or opened, or emptied. -/
  | stopped (after : Option Bytes) (hid : snapshotIdIsSafe offer.id = true) (hio : a.io.sound = false)
      (hafter : after = file ∨ after = some (file.getD []) ∨ after = some (heldBytes offer file)) :
      ReceiveStep sha256 offer file a ⟨after, none, .error (.io offer.id)⟩
  /-- The fetch or a write of it fails, and what arrived is kept. -/
  | broken (taken : Bytes) (e : ReceiveError) (hid : snapshotIdIsSafe offer.id = true)
      (hshort : (heldBytes offer file).length < offer.size)
      (htaken : taken <+: a.arrived (heldBytes offer file).length)
      (hfail : a.io.sound = false ∨ a.endsAt (heldBytes offer file).length = false) :
      ReceiveStep sha256 offer file a
        ⟨some (heldBytes offer file ++ taken), some (heldBytes offer file).length, .error e⟩
  /-- The fetch ends, and the file is checked. -/
  | ended (hid : snapshotIdIsSafe offer.id = true) (hshort : (heldBytes offer file).length < offer.size)
      (hend : a.endsAt (heldBytes offer file).length = true) :
      ReceiveStep sha256 offer file a (settleReceived sha256 offer a.io
        (heldBytes offer file ++ a.arrived (heldBytes offer file).length) (some (heldBytes offer file).length))
  /-- The file was complete already, and is checked. -/
  | complete (hid : snapshotIdIsSafe offer.id = true) (hfull : offer.size ≤ (heldBytes offer file).length) :
      ReceiveStep sha256 offer file a (settleReceived sha256 offer a.io (heldBytes offer file) none)

theorem fetchRest_step (sha256 : Bytes → String) (file : Option Bytes) (a : ReceiveAttempt) (hid : snapshotIdIsSafe offer.id = true) :
    ReceiveStep sha256 offer file a (fetchRest sha256 offer (heldBytes offer file) a) := by
  unfold fetchRest
  by_cases hshort : (heldBytes offer file).length < offer.size
  · rw [if_pos hshort]
    cases hseek : a.io.seek with
    | false => exact .stopped _ hid (by simp [ReceiveIo.sound, hseek]) (Or.inr (Or.inr rfl))
    | true =>
      obtain ⟨harrived, hends⟩ := fetched_eq offer.id a (heldBytes offer file).length
      generalize fetched offer.id (a.fetch (heldBytes offer file).length) = answer at harrived hends
      obtain ⟨arrived, result⟩ := answer
      simp only at harrived hends
      subst harrived
      cases htorn : a.io.torn with
      | some n => exact .broken _ _ hid hshort (List.take_prefix _ _) (Or.inl (by simp [ReceiveIo.sound, htorn]))
      | none =>
        cases result with
        | error e =>
          have hend : a.endsAt (heldBytes offer file).length = false := by
            rw [← Bool.not_eq_true, ← hends]
            simp
          exact .broken _ _ hid hshort List.prefix_rfl (Or.inr hend)
        | ok u => exact .ended hid hshort (hends.1 rfl)
  · rw [if_neg hshort]
    cases htorn : a.io.torn with
    | some n => exact .stopped _ hid (by simp [ReceiveIo.sound, htorn]) (Or.inr (Or.inr rfl))
    | none => exact .complete hid (Nat.le_of_not_lt hshort)

/-- **How an attempt can end.** -/
theorem receive_step (sha256 : Bytes → String) (offer : SnapshotOffer) (file : Option Bytes) (a : ReceiveAttempt) :
    ReceiveStep sha256 offer file a (receiveSnapshot sha256 offer file a) := by
  unfold receiveSnapshot
  cases hid : snapshotIdIsSafe offer.id with
  | false => exact .unusable hid
  | true =>
    cases hopens : a.io.opens with
    | false => exact .stopped _ hid (by simp [ReceiveIo.sound, hopens]) (Or.inl rfl)
    | true =>
      cases hmeta : a.io.metadata with
      | false => exact .stopped _ hid (by simp [ReceiveIo.sound, hmeta]) (Or.inr (Or.inl rfl))
      | true =>
        have hrest := fetchRest_step sha256 file a hid
        by_cases hlong : offer.size < (file.getD []).length
        · cases hset : a.io.setLen with
          | false =>
            simp only [Bool.not_true, Bool.false_eq_true, if_false, if_pos hlong, Bool.not_false, if_true]
            exact .stopped _ hid (by simp [ReceiveIo.sound, hset]) (Or.inr (Or.inl rfl))
          | true => simpa [hlong, heldBytes] using hrest
        · simpa [hlong, heldBytes] using hrest

/-! ## The check -/

theorem settled_ok {io : ReceiveIo} {bytes : Bytes} {asked : Option ℕ} :
    (settleReceived sha256 offer io bytes asked).result = .ok () ↔
      io.digest = true ∧ bytes.length = offer.size ∧ sha256 bytes = offer.digest := by
  unfold settleReceived
  cases io.digest with
  | false => simp
  | true =>
    by_cases hshort : bytes.length < offer.size
    · simp [hshort, hshort.ne]
    · by_cases hbad : bytes.length ≠ offer.size ∨ sha256 bytes ≠ offer.digest
      · simp only [Bool.not_true, Bool.false_eq_true, if_false, if_neg hshort, if_pos hbad, reduceCtorEq, false_iff]
        tauto
      · simp only [Bool.not_true, Bool.false_eq_true, if_false, if_neg hshort, if_neg hbad, true_iff]
        tauto

theorem settled_file (sha256 : Bytes → String) (offer : SnapshotOffer) (io : ReceiveIo) (bytes : Bytes)
    (asked : Option ℕ) :
    (settleReceived sha256 offer io bytes asked).file = some bytes ∨
      (settleReceived sha256 offer io bytes asked).file = discard io bytes ∧
        (bytes.length ≠ offer.size ∨ sha256 bytes ≠ offer.digest) := by
  unfold settleReceived
  split
  · exact Or.inl rfl
  · split
    · exact Or.inl rfl
    · split
      · rename_i hbad
        exact Or.inr ⟨rfl, hbad⟩
      · exact Or.inl rfl

theorem settled_asked {io : ReceiveIo} {bytes : Bytes} {asked : Option ℕ} :
    (settleReceived sha256 offer io bytes asked).asked = asked := by
  unfold settleReceived
  split
  · rfl
  · split
    · rfl
    · split <;> rfl

theorem settled_corrupt {io : ReceiveIo} {bytes : Bytes} {asked : Option ℕ} (hio : io.digest = true)
    (hlen : bytes.length = offer.size) (hsha : sha256 bytes ≠ offer.digest) :
    settleReceived sha256 offer io bytes asked =
      ⟨discard io bytes, asked, .error (.mismatch offer.id bytes.length (sha256 bytes) offer.size offer.digest)⟩ := by
  simp [settleReceived, hio, hlen, hsha]

theorem discard_some {io : ReceiveIo} {bytes kept : Bytes} (h : discard io bytes = some kept) : io.remove = false := by
  unfold discard at h
  cases hremove : io.remove with
  | false => rfl
  | true =>
    rw [hremove] at h
    cases h

theorem sound_digest {io : ReceiveIo} (h : io.sound = true) : io.digest = true := by
  simp only [ReceiveIo.sound, Bool.and_eq_true] at h
  exact h.2

/-! ## Streams of the offered file -/

/-- Whatever offset the attempt fetches from, it is sent bytes of the offered file from there on. -/
def Streams (offered : Bytes) (a : ReceiveAttempt) : Prop :=
  ∀ offset, a.arrived offset <+: offered.drop offset

/-- The working file is a part of the offered one; an id that names no file has none. -/
structure ReceivingOk (offer : SnapshotOffer) (offered : Bytes) (file : Option Bytes) : Prop where
  part : file.getD [] <+: offered
  unusable : snapshotIdIsSafe offer.id = false → file = none

variable {offered : Bytes}

/-- The offer is for these bytes. -/
structure OfferOf (sha256 : Bytes → String) (offer : SnapshotOffer) (offered : Bytes) : Prop where
  size : offer.size = offered.length
  digest : offer.digest = sha256 offered

theorem ReceivingOk.held (ho : OfferOf sha256 offer offered) (h : ReceivingOk offer offered file) :
    heldBytes offer file = file.getD [] := by
  have := h.part.length_le
  rw [← ho.size] at this
  exact if_neg (Nat.not_lt.2 this)

theorem append_part {held taken : Bytes} (hheld : held <+: offered) (htaken : taken <+: offered.drop held.length) :
    held ++ taken <+: offered := by
  obtain ⟨rest, rfl⟩ := hheld
  rw [List.drop_left] at htaken
  exact (List.prefix_append_right_inj held).2 htaken

theorem settled_part {io : ReceiveIo} {bytes : Bytes} {asked : Option ℕ} (hpart : bytes <+: offered) :
    (settleReceived sha256 offer io bytes asked).file.getD [] <+: offered := by
  rcases settled_file sha256 offer io bytes asked with hkept | ⟨hdis, -⟩
  · rw [hkept]
    exact hpart
  · rw [hdis, discard]
    split
    · exact List.nil_prefix
    · split
      · exact List.nil_prefix
      · exact hpart

theorem receivingOk_step (ho : OfferOf sha256 offer offered) (ha : Streams offered a)
    (h : ReceivingOk offer offered file) : ReceivingOk offer offered (receiveSnapshot sha256 offer file a).file := by
  have hheld := h.held ho
  have harrived := append_part h.part (ha (file.getD []).length)
  have hstep := receive_step sha256 offer file a
  generalize receiveSnapshot sha256 offer file a = r at hstep ⊢
  cases hstep with
  | unusable hid => exact h
  | stopped after hid hio hafter =>
    refine ⟨?_, fun hbad => by rw [hid] at hbad; cases hbad⟩
    rw [hheld] at hafter
    rcases hafter with rfl | rfl | rfl
    · exact h.part
    · exact h.part
    · exact h.part
  | broken taken e hid hshort htaken hfail =>
    refine ⟨?_, fun hbad => by rw [hid] at hbad; cases hbad⟩
    rw [hheld] at htaken ⊢
    exact append_part h.part (htaken.trans (ha _))
  | ended hid hshort hend =>
    refine ⟨?_, fun hbad => by rw [hid] at hbad; cases hbad⟩
    rw [hheld]
    exact settled_part harrived
  | complete hid hfull =>
    refine ⟨?_, fun hbad => by rw [hid] at hbad; cases hbad⟩
    rw [hheld]
    exact settled_part h.part

/-- **The working file is a part of the offered one after every attempt.** -/
theorem receivingOk_at (ho : OfferOf sha256 offer offered) {attempts : List ReceiveAttempt}
    (ha : ∀ a ∈ attempts, Streams offered a) (k : ℕ) :
    ReceivingOk offer offered (receivingAt sha256 offer attempts k) := by
  refine Trace.stateAt_inv ⟨List.nil_prefix, fun _ => rfl⟩ ?_ k
  intro file a hmem hok
  exact receivingOk_step ho (ha a hmem) hok

theorem receive_asks (ho : OfferOf sha256 offer offered) (h : ReceivingOk offer offered file) {offset : ℕ}
    (hasked : (receiveSnapshot sha256 offer file a).asked = some offset) :
    offset = (file.getD []).length ∧ offset < offer.size := by
  have hheld := h.held ho
  have hstep := receive_step sha256 offer file a
  generalize receiveSnapshot sha256 offer file a = r at hstep hasked
  cases hstep with
  | unusable hid => cases hasked
  | stopped after hid hio hafter => cases hasked
  | broken taken e hid hshort htaken hfail =>
    cases hasked
    exact ⟨by rw [hheld], hshort⟩
  | ended hid hshort hend =>
    rw [settled_asked] at hasked
    cases hasked
    exact ⟨by rw [hheld], hshort⟩
  | complete hid hfull =>
    rw [settled_asked] at hasked
    cases hasked

theorem settled_complete (ho : OfferOf sha256 offer offered) {io : ReceiveIo} (hio : io.digest = true) {bytes : Bytes}
    (hpart : bytes <+: offered) (asked : Option ℕ) :
    (settleReceived sha256 offer io bytes asked).result = .ok () ↔
      (settleReceived sha256 offer io bytes asked).file = some offered := by
  by_cases hfull : bytes = offered
  · subst hfull
    refine iff_of_true (settled_ok.2 ⟨hio, ho.size.symm, ho.digest.symm⟩) ?_
    rcases settled_file sha256 offer io bytes asked with hkept | ⟨-, hbad⟩
    · exact hkept
    · rcases hbad with hbad | hbad
      · exact absurd ho.size.symm hbad
      · exact absurd ho.digest.symm hbad
  · have hshort : bytes.length < offer.size := by
      rw [ho.size]
      exact lt_of_le_of_ne hpart.length_le fun heq => hfull (hpart.eq_of_length heq)
    have hended : settleReceived sha256 offer io bytes asked =
        ⟨some bytes, asked, .error (.endedAt offer.id bytes.length offer.size)⟩ := by
      simp [settleReceived, hio, hshort]
    rw [hended]
    simp [hfull]

/-- **An attempt on a sound disk succeeds exactly if the file is complete and its fetch ended.** -/
theorem receive_ok_iff (ho : OfferOf sha256 offer offered) (ha : Streams offered a)
    (h : ReceivingOk offer offered file) (hio : a.io.sound = true) :
    (receiveSnapshot sha256 offer file a).result = .ok () ↔
      (receiveSnapshot sha256 offer file a).file = some offered ∧
        ∀ offset, (receiveSnapshot sha256 offer file a).asked = some offset → a.endsAt offset = true := by
  have hheld := h.held ho
  have harrived := append_part h.part (ha (file.getD []).length)
  have hstep := receive_step sha256 offer file a
  generalize receiveSnapshot sha256 offer file a = r at hstep ⊢
  cases hstep with
  | unusable hid =>
    rw [h.unusable hid]
    simp
  | stopped after hid hio' hafter =>
    rw [hio] at hio'
    cases hio'
  | broken taken e hid hshort htaken hfail =>
    have hnot : a.endsAt (heldBytes offer file).length = false := by
      rcases hfail with hfail | hfail
      · rw [hio] at hfail
        cases hfail
      · exact hfail
    simp [hnot]
  | ended hid hshort hend =>
    rw [hheld] at hend
    rw [settled_asked, hheld, settled_complete ho (sound_digest hio) harrived]
    simp [hend]
  | complete hid hfull =>
    rw [settled_asked, hheld, settled_complete ho (sound_digest hio) h.part]
    simp

/-! ## Arbitrary bytes -/

theorem receive_ok_matches (hok : (receiveSnapshot sha256 offer file a).result = .ok ()) :
    ∃ bytes, (receiveSnapshot sha256 offer file a).file = some bytes ∧ bytes.length = offer.size ∧
      sha256 bytes = offer.digest := by
  have hsettled : ∀ bytes asked, (settleReceived sha256 offer a.io bytes asked).result = .ok () →
      ∃ kept, (settleReceived sha256 offer a.io bytes asked).file = some kept ∧ kept.length = offer.size ∧
        sha256 kept = offer.digest := by
    intro bytes asked hok
    obtain ⟨-, hlen, hsha⟩ := settled_ok.1 hok
    rcases settled_file sha256 offer a.io bytes asked with hkept | ⟨-, hbad⟩
    · exact ⟨bytes, hkept, hlen, hsha⟩
    · rcases hbad with hbad | hbad
      · exact absurd hlen hbad
      · exact absurd hsha hbad
  have hstep := receive_step sha256 offer file a
  generalize receiveSnapshot sha256 offer file a = r at hstep hok ⊢
  cases hstep with
  | unusable hid => cases hok
  | stopped after hid hio hafter => cases hok
  | broken taken e hid hshort htaken hfail => cases hok
  | ended hid hshort hend => exact hsettled _ _ hok
  | complete hid hfull => exact hsettled _ _ hok

/-- A full-length file that does not match is left by an attempt that failed before the check, or
that could not remove it. -/
theorem corrupt_kept {bytes : Bytes} (hid : snapshotIdIsSafe offer.id = true)
    (hkept : (receiveSnapshot sha256 offer file a).file = some bytes) (hlen : bytes.length = offer.size)
    (hsha : sha256 bytes ≠ offer.digest) :
    (∃ offset, (receiveSnapshot sha256 offer file a).asked = some offset ∧ a.endsAt offset = false) ∨
      a.io.sound = false ∨ a.io.remove = false := by
  have hsettled : ∀ held asked, (settleReceived sha256 offer a.io held asked).file = some bytes →
      a.io.sound = false ∨ a.io.remove = false := by
    intro held asked hfile
    by_cases hio : a.io.sound = true
    · rcases settled_file sha256 offer a.io held asked with hsame | ⟨hdis, -⟩
      · rw [hsame, Option.some.injEq] at hfile
        subst hfile
        rw [settled_corrupt (sound_digest hio) hlen hsha] at hsame
        exact Or.inr (discard_some hsame)
      · rw [hdis] at hfile
        exact Or.inr (discard_some hfile)
    · exact Or.inl (by simpa using hio)
  have hstep := receive_step sha256 offer file a
  generalize receiveSnapshot sha256 offer file a = r at hstep hkept ⊢
  cases hstep with
  | unusable hid' =>
    rw [hid] at hid'
    cases hid'
  | stopped after hid' hio hafter => exact Or.inr (Or.inl hio)
  | broken taken e hid' hshort htaken hfail =>
    rcases hfail with hfail | hfail
    · exact Or.inr (Or.inl hfail)
    · exact Or.inl ⟨_, rfl, hfail⟩
  | ended hid' hshort hend => exact Or.inr (hsettled _ _ hkept)
  | complete hid' hfull => exact Or.inr (hsettled _ _ hkept)

theorem corrupt_discarded {bytes : Bytes} (hid : snapshotIdIsSafe offer.id = true) (hio : a.io.sound = true)
    (hlen : bytes.length = offer.size) (hsha : sha256 bytes ≠ offer.digest) :
    receiveSnapshot sha256 offer (some bytes) a =
      ⟨discard a.io bytes, none,
        .error (.mismatch offer.id bytes.length (sha256 bytes) offer.size offer.digest)⟩ := by
  simp only [ReceiveIo.sound, Bool.and_eq_true, Option.isNone_iff_eq_none] at hio
  obtain ⟨⟨⟨⟨⟨hopens, hmeta⟩, -⟩, -⟩, htorn⟩, hdigest⟩ := hio
  have hrest : fetchRest sha256 offer bytes a = settleReceived sha256 offer a.io bytes none := by
    simp [fetchRest, hlen, htorn]
  rw [← settled_corrupt hdigest hlen hsha, ← hrest]
  simp [receiveSnapshot, hid, hopens, hmeta, hlen]

/-! ## The run -/

theorem receivingAt_succ {attempts : List ReceiveAttempt} {k : ℕ} (hk : k < attempts.length) :
    receivingAt sha256 offer attempts (k + 1) =
      (receiveSnapshot sha256 offer (receivingAt sha256 offer attempts k) attempts[k]).file :=
  Trace.stateAt_succ hk

/-- **A snapshot fetch resumes without corruption.** If every attempt is streamed bytes of the
offered file from the offset it asks for, then after every attempt the working file is a part of
the offered one, an attempt asks from the first byte it does not hold, one that succeeds has the
whole file, and on a sound disk it succeeds exactly if the file is complete and its fetch, if it
made one, ended.

Whatever is streamed and whatever file is there, a success has the offered length and digest. A
file of the offered length with another digest outlives an attempt only if that attempt's fetch
failed, its disk failed or the file could not be removed; the next attempt on a sound disk fetches
nothing and discards it. -/
theorem snapshot_fetch_resumes (sha256 : Bytes → String) (offer : SnapshotOffer) :
    (∀ offered, OfferOf sha256 offer offered → ∀ attempts : List ReceiveAttempt, (∀ a ∈ attempts, Streams offered a) →
      (∀ k, (receivingAt sha256 offer attempts k).getD [] <+: offered) ∧
      ∀ k (hk : k < attempts.length),
        let before := receivingAt sha256 offer attempts k
        let after := receivingAt sha256 offer attempts (k + 1)
        let received := receiveSnapshot sha256 offer before attempts[k]
        (∀ offset, received.asked = some offset → offset = (before.getD []).length ∧ offset < offer.size) ∧
        (received.result = .ok () → after = some offered) ∧
        (attempts[k].io.sound = true → (received.result = .ok () ↔
          after = some offered ∧ ∀ offset, received.asked = some offset → attempts[k].endsAt offset = true))) ∧
    (∀ (file : Option Bytes) (a : ReceiveAttempt),
      let received := receiveSnapshot sha256 offer file a
      (received.result = .ok () →
        ∃ bytes, received.file = some bytes ∧ bytes.length = offer.size ∧ sha256 bytes = offer.digest) ∧
      ∀ bytes, snapshotIdIsSafe offer.id = true → received.file = some bytes → bytes.length = offer.size →
        sha256 bytes ≠ offer.digest →
        ((∃ offset, received.asked = some offset ∧ a.endsAt offset = false) ∨ a.io.sound = false ∨
          a.io.remove = false) ∧
        ∀ b : ReceiveAttempt, b.io.sound = true →
          (receiveSnapshot sha256 offer received.file b).asked = none ∧
          (receiveSnapshot sha256 offer received.file b).file = discard b.io bytes) := by
  refine ⟨?_, ?_⟩
  · intro offered ho attempts hall
    have hok := receivingOk_at ho hall
    refine ⟨fun k => (hok k).part, ?_⟩
    intro k hk
    have ha := hall _ (List.getElem_mem hk)
    simp only [receivingAt_succ hk]
    refine ⟨fun offset hasked => receive_asks ho (hok k) hasked, ?_, receive_ok_iff ho ha (hok k)⟩
    intro hres
    obtain ⟨bytes, hfile, hlen, -⟩ := receive_ok_matches hres
    have hpart := (receivingOk_step ho ha (hok k)).part
    rw [hfile] at hpart ⊢
    rw [ho.size] at hlen
    exact congrArg some (List.IsPrefix.eq_of_length hpart hlen)
  · intro file a
    refine ⟨receive_ok_matches, ?_⟩
    intro bytes hid hkept hlen hsha
    refine ⟨corrupt_kept hid hkept hlen hsha, ?_⟩
    intro b hio
    rw [hkept, corrupt_discarded hid hio hlen hsha]
    exact ⟨rfl, rfl⟩

def spelled (bytes : Bytes) : String := String.ofList (bytes.map fun b => Char.ofNat b.toNat)

def brokenTail (bytes : Bytes) : ReceiveAttempt := { fetch := fun offset => .ok ⟨[bytes.drop offset], .broke "reset"⟩ }

/-- A stream that breaks off after its last byte: with the offered bytes the attempt fails on a
complete file, and with others the corrupt file stays. -/
theorem brokenTail_fails_complete :
    Streams [1, 2] (brokenTail [1, 2]) ∧
    (receiveSnapshot spelled ⟨"1-1-1", 2, spelled [1, 2]⟩ none (brokenTail [1, 2])).file = some [1, 2] ∧
    (receiveSnapshot spelled ⟨"1-1-1", 2, spelled [1, 2]⟩ none (brokenTail [1, 2])).result =
      .error (.brokeOff "1-1-1" "reset") ∧
    (receiveSnapshot spelled ⟨"1-1-1", 2, spelled [1, 2]⟩ none (brokenTail [3, 4])).file = some [3, 4] ∧
    (receiveSnapshot spelled ⟨"1-1-1", 2, spelled [1, 2]⟩ none (brokenTail [3, 4])).result =
      .error (.brokeOff "1-1-1" "reset") ∧
    spelled [3, 4] ≠ spelled [1, 2] := by
  refine ⟨?_, by decide +kernel, by rfl, by decide +kernel, by rfl, by decide +kernel⟩
  intro offset
  simp [ReceiveAttempt.arrived, brokenTail]

end RiftCluster
