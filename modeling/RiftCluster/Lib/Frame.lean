import Mathlib

/-!
# Length-prefixed fields

Fields of bytes, one after the other, each behind its length in `w` little-endian bytes.
As long as the lengths fit, nothing else reads as the same bytes (`fields_inj`): a length
says where its field ends, so no boundary can shift.
-/

namespace Frame

def leBytes : ℕ → ℕ → List UInt8
  | 0, _ => []
  | w + 1, n => UInt8.ofNat (n % 256) :: leBytes w (n / 256)

@[simp] theorem length_leBytes (w n : ℕ) : (leBytes w n).length = w := by
  induction w generalizing n with
  | zero => rfl
  | succ w ih => simp [leBytes, ih]

theorem leBytes_inj {w n m : ℕ} (hn : n < 256 ^ w) (hm : m < 256 ^ w) (h : leBytes w n = leBytes w m) : n = m := by
  induction w generalizing n m with
  | zero =>
    rw [pow_zero] at hn hm
    omega
  | succ w ih =>
    obtain ⟨hlow, hrest⟩ := List.cons.inj h
    have hdigit : n % 256 = m % 256 := by
      have hnat := congrArg UInt8.toNat hlow
      simpa using hnat
    have hhigh : n / 256 = m / 256 := by
      refine ih ?_ ?_ hrest
      · exact Nat.div_lt_of_lt_mul (by rw [pow_succ'] at hn; exact hn)
      · exact Nat.div_lt_of_lt_mul (by rw [pow_succ'] at hm; exact hm)
    omega

def field (w : ℕ) (f : List UInt8) : List UInt8 := leBytes w f.length ++ f

def fields (w : ℕ) (fs : List (List UInt8)) : List UInt8 := fs.flatMap (field w)

variable {w : ℕ} {f g rest rest' : List UInt8}

theorem field_append_inj (hf : f.length < 256 ^ w) (hg : g.length < 256 ^ w)
    (h : field w f ++ rest = field w g ++ rest') : f = g ∧ rest = rest' := by
  rw [field, field, List.append_assoc, List.append_assoc] at h
  obtain ⟨hlen, htail⟩ := List.append_inj h (by simp)
  have hlength : f.length = g.length := leBytes_inj hf hg hlen
  exact List.append_inj htail hlength

/-- **Fields are read back from their bytes**, when the lengths fit. -/
theorem fields_inj {fs gs : List (List UInt8)} (hlen : fs.length = gs.length) (hfs : ∀ f ∈ fs, f.length < 256 ^ w)
    (hgs : ∀ g ∈ gs, g.length < 256 ^ w) (h : fields w fs = fields w gs) : fs = gs := by
  induction fs generalizing gs with
  | nil => exact (List.length_eq_zero_iff.1 hlen.symm).symm
  | cons f fs ih =>
    cases gs with
    | nil => cases hlen
    | cons g gs =>
      rw [fields, fields, List.flatMap_cons, List.flatMap_cons] at h
      obtain ⟨rfl, hrest⟩ := field_append_inj (hfs f List.mem_cons_self) (hgs g List.mem_cons_self) h
      have htail : fs = gs := by
        refine ih (Nat.succ.inj hlen) ?_ ?_ hrest
        · intro f' hf'; exact hfs f' (List.mem_cons_of_mem _ hf')
        · intro g' hg'; exact hgs g' (List.mem_cons_of_mem _ hg')
      rw [htail]

end Frame
