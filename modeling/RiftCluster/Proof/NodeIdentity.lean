import RiftCluster.Model.NodeIdentity

/-!
# When an identity is final

`identity_final_iff`: the id in the file is the one every later start returns exactly if the rename
is on the disk. A start that reads the file does not sync it. So a process that ends between the
rename and the sync leaves an id that the next start returns and a power loss takes back.
-/

namespace RiftCluster.NodeIdentity

/-- The disk has the file as it is seen, or none. -/
theorem durable_fileAfter (fates : List Fate) :
    (fileAfter {} fates).durable = none ∨ (fileAfter {} fates).durable = (fileAfter {} fates).seen := by
  refine List.foldlRecOn (motive := fun f : IdFile => f.durable = none ∨ f.durable = f.seen) fates _ (.inl rfl) ?_
  intro f hf fate _
  cases fate with
  | powerLoss kept => cases kept <;> exact .inr rfl
  | start proposed reach =>
    cases hseen : f.seen with
    | some existing => simpa [step, loadOrMint, hseen] using hf
    | none =>
      have hdurable : f.durable = none := hf.elim id fun h => h.trans hseen
      cases reach with
      | written => exact .inl (by simp [step, loadOrMint, hseen, hdurable])
      | renamed => exact .inl (by simp [step, loadOrMint, hseen, hdurable])
      | returned => exact .inr (by simp [step, loadOrMint, hseen])

theorem ids_of_durable {id : ℕ} (fates : List Fate) : ∀ id' ∈ ids ⟨some id, some id⟩ fates, id' = id := by
  induction fates with
  | nil => exact nofun
  | cons fate fates ih =>
    have hstep : (step ⟨some id, some id⟩ fate).1 = ⟨some id, some id⟩ ∧
        ∀ id' ∈ (step ⟨some id, some id⟩ fate).2, id' = id := by
      cases fate with
      | powerLoss kept => exact ⟨by cases kept <;> rfl, nofun⟩
      | start proposed reach => exact ⟨rfl, fun id' hid' => (Option.some.inj hid').symm⟩
    intro id' hid'
    rw [ids, hstep.1] at hid'
    rcases List.mem_append.1 hid' with hid' | hid'
    · exact hstep.2 id' (Option.mem_toList.1 hid')
    · exact ih id' hid'

/-- **An identity is final exactly if its rename is on the disk.** After any run of starts, of
processes that end on the way and of power losses, let a start find `id`. Every later start returns
`id`, whatever happens, if and only if a power loss leaves it. -/
theorem identity_final_iff (fates : List Fate) {id : ℕ} (hseen : (fileAfter {} fates).seen = some id) :
    (∀ more, ∀ id' ∈ ids (fileAfter {} fates) more, id' = id) ↔ (fileAfter {} fates).durable = some id := by
  have hdurable := durable_fileAfter fates
  generalize fileAfter {} fates = f at hseen hdurable ⊢
  obtain ⟨seen, durable⟩ := f
  obtain rfl : seen = some id := hseen
  constructor
  · intro hstable
    refine hdurable.resolve_left fun hnone => ?_
    obtain rfl : durable = none := hnone
    -- the power fails, and the node is started with another proposal
    have hother := hstable [.powerLoss false, .start (if id = 0 then 1 else 0) .returned] (if id = 0 then 1 else 0)
      (by simp [ids, step, loadOrMint])
    split_ifs at hother with hzero <;> omega
  · rintro rfl
    exact ids_of_durable

/-- Node 7 is killed before the sync, comes back as 7, loses power and comes back as 9. -/
theorem killed_before_sync :
    ids {} [.start 7 .renamed, .start 8 .returned, .powerLoss false, .start 9 .returned] = [7, 9] ∧
      ¬ ∀ more, ∀ id' ∈ ids (fileAfter {} [.start 7 .renamed]) more, id' = 7 :=
  ⟨rfl, fun h => nomatch (identity_final_iff [.start 7 .renamed] rfl).1 h⟩

end RiftCluster.NodeIdentity
