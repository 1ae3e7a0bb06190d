import Mathlib.Algebra.Order.Ring.Nat
import Mathlib.Tactic.Set

/-!
# Additive increase, multiplicative decrease

A rate between a floor and a cap is scaled down by `num / den` when the link is congested and
raised by a fixed step while it is not.  Over the natural numbers, with the division rounded
down, both moves stay between the bounds, and repeating either of them is a closed form:
climbing is one addition of all the steps (`increase_iterate`), and backing off is bounded by
one scaling by all the factors (`decrease_iterate_le`).  How many moves reach a bound follows by
arithmetic.
-/

namespace Aimd

variable {num den step floor cap c : ℕ}

/-- Multiplicative decrease. -/
def decrease (num den floor c : ℕ) : ℕ := max floor (num * c / den)

/-- Additive increase. -/
def increase (cap step c : ℕ) : ℕ := min cap (c + step)

/-- A decrease stays above the floor. -/
theorem floor_le_decrease : floor ≤ decrease num den floor c := le_max_left _ _

/-- An increase stays below the cap. -/
theorem increase_le_cap : increase cap step c ≤ cap := min_le_left _ _

/-- A decrease does not increase. -/
theorem decrease_le (h : num ≤ den) (hfloor : floor ≤ c) : decrease num den floor c ≤ c :=
  max_le hfloor (Nat.div_le_of_le_mul (Nat.mul_le_mul_right c h))

/-- An increase does not decrease. -/
theorem le_increase (hcap : c ≤ cap) : c ≤ increase cap step c :=
  le_min hcap (Nat.le_add_right c step)

/-- Climbing is one addition of all the steps. -/
theorem increase_iterate (hcap : c ≤ cap) (n : ℕ) :
    (increase cap step)^[n] c = min cap (c + n * step) := by
  induction n with
  | zero => simp [hcap]
  | succ n ih =>
      rw [Function.iterate_succ_apply', ih, increase, Nat.succ_mul]
      omega

/-- Backing off stays below one scaling by all the factors, or at the floor. -/
theorem decrease_iterate_le (hfactor : num ≤ den) (n : ℕ) :
    (decrease num den floor)^[n] c ≤ max floor (num ^ n * c / den ^ n) := by
  induction n with
  | zero => simp
  | succ n ih =>
      rw [Function.iterate_succ_apply']
      set y := num ^ n * c / den ^ n with hy
      have hscaled : num * y / den ≤ num ^ (n + 1) * c / den ^ (n + 1) :=
        calc num * y / den ≤ num * (num ^ n * c) / den ^ n / den :=
              Nat.div_le_div_right (Nat.mul_div_le_mul_div_assoc num (num ^ n * c) (den ^ n))
          _ = num ^ (n + 1) * c / den ^ (n + 1) := by
              rw [Nat.div_div_eq_div_mul, pow_succ, pow_succ, ← Nat.mul_assoc, Nat.mul_comm num]
      -- One more move starts at or below the larger of the floor and the bound so far.
      have hmove : decrease num den floor ((decrease num den floor)^[n] c) ≤
          max floor (num * max floor y / den) :=
        max_le_max le_rfl (Nat.div_le_div_right (Nat.mul_le_mul_left num ih))
      refine hmove.trans (max_le (le_max_left _ _) ?_)
      rcases le_total floor y with hle | hle
      · rw [max_eq_right hle]
        exact hscaled.trans (le_max_right _ _)
      · rw [max_eq_left hle]
        exact (Nat.div_le_of_le_mul (Nat.mul_le_mul_right floor hfactor)).trans (le_max_left _ _)

/-- Enough increases reach the cap. -/
theorem increase_iterate_eq_cap {n : ℕ} (hcap : c ≤ cap) (h : cap ≤ c + n * step) :
    (increase cap step)^[n] c = cap := by
  rw [increase_iterate hcap, min_eq_left h]

theorem floor_le_iterate_decrease (hfloor : floor ≤ c) (n : ℕ) :
    floor ≤ (decrease num den floor)^[n] c := by
  induction n with
  | zero => exact hfloor
  | succ n ih =>
      rw [Function.iterate_succ_apply']
      exact floor_le_decrease

/-- Enough decreases reach the floor. -/
theorem decrease_iterate_eq_floor {n : ℕ} (hfactor : num ≤ den) (hfloor : floor ≤ c)
    (h : num ^ n * c < den ^ n) : (decrease num den floor)^[n] c = floor := by
  apply le_antisymm _ (floor_le_iterate_decrease hfloor n)
  calc (decrease num den floor)^[n] c ≤ max floor (num ^ n * c / den ^ n) :=
        decrease_iterate_le hfactor n
    _ = floor := by rw [Nat.div_eq_of_lt h, max_eq_left (Nat.zero_le floor)]

end Aimd
