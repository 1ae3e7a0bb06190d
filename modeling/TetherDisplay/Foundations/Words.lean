import Mathlib.Order.MinMax

/-!
# Bounds on 32-bit words

The least, the greatest and the clamped of 32-bit words, read as natural numbers.
-/

namespace Words

/-- `std::clamp`. -/
def clamp (v lo hi : UInt32) : UInt32 := if v < lo then lo else if hi < v then hi else v

variable {v lo hi : UInt32}

/-- The greater of two words. -/
theorem toNat_max (a b : UInt32) : (max a b).toNat = max a.toNat b.toNat := by
  have hif : (max a b).toNat = if a ≤ b then b.toNat else a.toNat :=
    apply_ite UInt32.toNat (a ≤ b) b a
  simp only [hif, max_def, UInt32.le_iff_toNat_le]

/-- The lesser of two words. -/
theorem toNat_min (a b : UInt32) : (min a b).toNat = min a.toNat b.toNat := by
  have hif : (min a b).toNat = if a ≤ b then a.toNat else b.toNat :=
    apply_ite UInt32.toNat (a ≤ b) a b
  simp only [hif, min_def, UInt32.le_iff_toNat_le]

/-- A word that is clamped. -/
theorem toNat_clamp (h : lo ≤ hi) :
    (clamp v lo hi).toNat = max lo.toNat (min hi.toNat v.toNat) := by
  simp only [clamp, UInt32.lt_iff_toNat_lt, UInt32.le_iff_toNat_le] at h ⊢
  split_ifs with hlow hhigh <;> omega

theorem le_clamp (h : lo ≤ hi) : lo ≤ clamp v lo hi := by
  rw [UInt32.le_iff_toNat_le, toNat_clamp h]
  exact le_max_left _ _

theorem clamp_le (h : lo ≤ hi) : clamp v lo hi ≤ hi := by
  rw [UInt32.le_iff_toNat_le] at h ⊢
  rw [toNat_clamp (UInt32.le_iff_toNat_le.mpr h)]
  exact max_le h (min_le_left _ _)

end Words
