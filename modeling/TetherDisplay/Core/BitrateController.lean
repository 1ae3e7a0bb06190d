import Mathlib.Tactic.NormNum
import TetherDisplay.Foundations.Aimd
import TetherDisplay.Foundations.Runs
import TetherDisplay.Foundations.Words

/-!
# The bitrate controller

`BitrateController` adapts the bitrate in 32-bit arithmetic: `OnCongestion` forms `current * 7`
and `OnHealthy` forms `current + step` before the result is brought back between the floor and
the cap.  `Aimd` is the same law over the natural numbers.

A call is the mathematical one exactly when its intermediate value does not wrap, or wraps where
the floor covers it (`exact_iff_fits`).  A run of such calls stays between the bounds and keeps
`Aimd`'s laws (`lawful_of_admits`), so how fast it reaches a bound is `Aimd`'s closed form.  Under
a cap whose sevenfold fits into 32 bits every run is such a one (`lawful_of_cap_lt`).  With the cap
near `2 ^ 32`, one healthy interval at the cap falls back to a few
kbit/s, below the floor.
-/

namespace TetherDisplay.Core

/-- `std::clamp` in the constructor asks for `floor_ ≤ cap_`. -/
structure BitrateController where
  floor_ : UInt32
  cap_ : UInt32
  current_ : UInt32
  floor_le_cap : floor_ ≤ cap_

namespace BitrateController

/-- The constructor. -/
def make (start_kbps floor_kbps cap_kbps : UInt32) (h : floor_kbps ≤ cap_kbps) :
    BitrateController where
  floor_ := floor_kbps
  cap_ := cap_kbps
  current_ := Words.clamp start_kbps floor_kbps cap_kbps
  floor_le_cap := h

/-- `current()`. -/
def current (c : BitrateController) : UInt32 := c.current_

/-- A frame could not be sent in time. -/
def onCongestion (c : BitrateController) : BitrateController :=
  { c with current_ := max c.floor_ (c.current_ * 7 / 10) }

/-- About a twentieth of the cap. -/
def step (c : BitrateController) : UInt32 := max 1 (c.cap_ / 20)

/-- An interval passed without congestion. -/
def onHealthy (c : BitrateController) : BitrateController :=
  { c with current_ := min c.cap_ (c.current_ + c.step) }

/-- What the controller is told. -/
inductive Call where
  | onCongestion
  | onHealthy
  deriving DecidableEq

/-- One call. -/
def call (c : BitrateController) : Call → BitrateController
  | .onCongestion => c.onCongestion
  | .onHealthy => c.onHealthy

variable {c : BitrateController}

@[simp] theorem call_floor (k : Call) : (c.call k).floor_ = c.floor_ := by
  cases k <;> rfl

@[simp] theorem call_cap (k : Call) : (c.call k).cap_ = c.cap_ := by
  cases k <;> rfl

@[simp] theorem exec_floor (calls : List Call) : (Runs.exec call c calls).floor_ = c.floor_ :=
  Runs.exec_preserves (P := fun d : BitrateController => d.floor_ = c.floor_)
    (fun _ k h => (call_floor k).trans h) rfl calls

@[simp] theorem exec_cap (calls : List Call) : (Runs.exec call c calls).cap_ = c.cap_ :=
  Runs.exec_preserves (P := fun d : BitrateController => d.cap_ = c.cap_)
    (fun _ k h => (call_cap k).trans h) rfl calls

/-! ## The law over the natural numbers -/

/-- What a call should give: seven tenths, or a twentieth of the cap more. -/
def lawOf (floor cap current : ℕ) : Call → ℕ
  | .onCongestion => Aimd.decrease 7 10 floor current
  | .onHealthy => Aimd.increase cap (max 1 (cap / 20)) current

/-- The call gives what it should. -/
def Exact (c : BitrateController) (k : Call) : Prop :=
  (c.call k).current.toNat = lawOf c.floor_.toNat c.cap_.toNat c.current.toNat k

/-- **The invariant**: the bitrate is between the floor and the cap. -/
def InRange (c : BitrateController) : Prop := c.floor_ ≤ c.current ∧ c.current ≤ c.cap_

/-- The intermediate value of the call stays below `2 ^ 32`, or the floor is larger than what it
should have become. -/
def Fits (c : BitrateController) : Call → Prop
  | .onCongestion => 7 * c.current.toNat < 2 ^ 32 ∨ 7 * c.current.toNat / 10 ≤ c.floor_.toNat
  | .onHealthy => c.current.toNat + max 1 (c.cap_.toNat / 20) < 2 ^ 32

@[simp] theorem toNat_onCongestion : c.onCongestion.current.toNat =
    max c.floor_.toNat (7 * c.current.toNat % 2 ^ 32 / 10) := by
  simp [onCongestion, current, Words.toNat_max, Nat.mul_comm]

@[simp] theorem toNat_step : c.step.toNat = max 1 (c.cap_.toNat / 20) := by
  simp [step, Words.toNat_max]

@[simp] theorem toNat_onHealthy : c.onHealthy.current.toNat =
    min c.cap_.toNat ((c.current.toNat + max 1 (c.cap_.toNat / 20)) % 2 ^ 32) := by
  simp [onHealthy, current, Words.toNat_min]

theorem make_inRange (start_kbps floor_kbps cap_kbps : UInt32) (h : floor_kbps ≤ cap_kbps) :
    (make start_kbps floor_kbps cap_kbps h).InRange :=
  ⟨Words.le_clamp h, Words.clamp_le h⟩

theorem inRange_iff : c.InRange ↔
    c.floor_.toNat ≤ c.current.toNat ∧ c.current.toNat ≤ c.cap_.toNat := by
  simp only [InRange, UInt32.le_iff_toNat_le]

/-! ## One call -/

/-- **A call is exact** when its intermediate value fits, and not otherwise. -/
theorem exact_iff_fits (h : c.InRange) (k : Call) : c.Exact k ↔ c.Fits k := by
  obtain ⟨-, hcap⟩ := inRange_iff.mp h
  have hlt := c.cap_.toNat_lt
  cases k with
  | onCongestion =>
      simp only [Exact, call, lawOf, Aimd.decrease, Fits, toNat_onCongestion]
      rcases Nat.lt_or_ge (7 * c.current.toNat) (2 ^ 32) with hfits | hwraps
      · rw [Nat.mod_eq_of_lt hfits]
        exact iff_of_true rfl (Or.inl hfits)
      · -- A wrapped product is smaller by at least `2 ^ 32`, which the division by 10 still shows.
        have hsmaller : 7 * c.current.toNat % 2 ^ 32 + 2 ^ 32 ≤ 7 * c.current.toNat := by omega
        have hdiv : 7 * c.current.toNat % 2 ^ 32 / 10 < 7 * c.current.toNat / 10 := by omega
        omega
  | onHealthy =>
      simp only [Exact, call, lawOf, Aimd.increase, Fits, toNat_onHealthy]
      omega

/-- An exact call keeps to the bounds. -/
theorem InRange.call (h : c.InRange) {k : Call} (hexact : c.Exact k) : (c.call k).InRange := by
  obtain ⟨hfloor, hcap⟩ := inRange_iff.mp h
  rw [inRange_iff, call_floor, call_cap, hexact]
  cases k with
  | onCongestion => exact ⟨Aimd.floor_le_decrease, (Aimd.decrease_le (by decide) hfloor).trans hcap⟩
  | onHealthy => exact ⟨hfloor.trans (Aimd.le_increase hcap), Aimd.increase_le_cap⟩

/-- A call that the guard admits is exact, and keeps to the bounds. -/
theorem InRange.step (h : c.InRange) {k : Call} (hfits : c.Fits k) : (c.call k).InRange :=
  h.call ((exact_iff_fits h k).mpr hfits)

/-! ## Runs -/

/-- What the controller promises of a run of calls. -/
structure Lawful (c : BitrateController) (calls : List Call) : Prop where
  inRange : ∀ front back, calls = front ++ back → (Runs.exec call c front).InRange
  exact : ∀ front k back, calls = front ++ k :: back → (Runs.exec call c front).Exact k
  never_raises : ∀ front back, calls = front ++ .onCongestion :: back →
    (Runs.exec call c front).onCongestion.current ≤ (Runs.exec call c front).current
  never_lowers : ∀ front back, calls = front ++ .onHealthy :: back →
    (Runs.exec call c front).current ≤ (Runs.exec call c front).onHealthy.current
  reaches_cap : ∀ front n back, 39 ≤ n → calls = front ++ List.replicate n .onHealthy ++ back →
    (Runs.exec call c (front ++ List.replicate n .onHealthy)).current = c.cap_
  reaches_floor : ∀ front n back, 63 ≤ n →
    calls = front ++ List.replicate n .onCongestion ++ back →
    (Runs.exec call c (front ++ List.replicate n .onCongestion)).current = c.floor_

/-- A call repeated is its law repeated. -/
theorem exec_replicate (h : c.InRange) (k : Call) {n : ℕ}
    (hadmits : Runs.Admits call Fits c (List.replicate n k)) :
    (Runs.exec call c (List.replicate n k)).current.toNat =
      (fun x => lawOf c.floor_.toNat c.cap_.toNat x k)^[n] c.current.toNat := by
  induction n generalizing c with
  | zero => rfl
  | succ n ih =>
      obtain ⟨hfits, hrest⟩ := hadmits
      have hexact : c.Exact k := (exact_iff_fits h k).mpr hfits
      rw [List.replicate_succ, Runs.exec_cons, ih (h.step hfits) hrest,
        Function.iterate_succ_apply, call_floor, call_cap, hexact]

/-- At least a twentieth less one of the cap at a time: thirty-nine steps climb all of it. -/
theorem cap_le_climb (cap current : ℕ) {n : ℕ} (hn : 39 ≤ n) :
    cap ≤ current + n * max 1 (cap / 20) :=
  calc cap ≤ 39 * max 1 (cap / 20) := by omega
    _ ≤ n * max 1 (cap / 20) := Nat.mul_le_mul_right _ hn
    _ ≤ current + n * max 1 (cap / 20) := Nat.le_add_left _ _

/-- Sixty-three factors of seven tenths leave less than one of a 32-bit value. -/
theorem decay_lt {current n : ℕ} (hlt : current < 2 ^ 32) (hn : 63 ≤ n) :
    7 ^ n * current < 10 ^ n := by
  obtain ⟨m, rfl⟩ := Nat.exists_eq_add_of_le hn
  calc 7 ^ (63 + m) * current ≤ 7 ^ (63 + m) * 2 ^ 32 := Nat.mul_le_mul_left _ hlt.le
    _ = 7 ^ 63 * 2 ^ 32 * 7 ^ m := by rw [pow_add, Nat.mul_right_comm]
    _ < 10 ^ 63 * 7 ^ m := Nat.mul_lt_mul_of_pos_right (by norm_num) (Nat.pow_pos (by decide))
    _ ≤ 10 ^ 63 * 10 ^ m := Nat.mul_le_mul_left _ (Nat.pow_le_pow_left (by decide) m)
    _ = 10 ^ (63 + m) := (pow_add 10 63 m).symm

/-- Enough healthy reports in a row reach the cap. -/
theorem exec_replicate_onHealthy (h : c.InRange) {n : ℕ} (hn : 39 ≤ n)
    (hadmits : Runs.Admits call Fits c (List.replicate n .onHealthy)) :
    (Runs.exec call c (List.replicate n .onHealthy)).current = c.cap_ := by
  apply UInt32.toNat_inj.mp
  rw [exec_replicate h .onHealthy hadmits]
  exact Aimd.increase_iterate_eq_cap (inRange_iff.mp h).2 (cap_le_climb _ _ hn)

/-- Enough congested reports in a row reach the floor. -/
theorem exec_replicate_onCongestion (h : c.InRange) {n : ℕ} (hn : 63 ≤ n)
    (hadmits : Runs.Admits call Fits c (List.replicate n .onCongestion)) :
    (Runs.exec call c (List.replicate n .onCongestion)).current = c.floor_ := by
  apply UInt32.toNat_inj.mp
  rw [exec_replicate h .onCongestion hadmits]
  exact Aimd.decrease_iterate_eq_floor (by decide) (inRange_iff.mp h).1
    (decay_lt c.current.toNat_lt hn)

/-- **A run whose calls all fit is lawful.** -/
theorem lawful_of_admits (h : c.InRange) {calls : List Call}
    (hadmits : Runs.Admits call Fits c calls) : c.Lawful calls := by
  have hfront : ∀ front back, calls = front ++ back → Runs.Admits call Fits c front :=
    fun front back hcalls => Runs.Admits.front (hcalls ▸ hadmits)
  have hinRange : ∀ front back, calls = front ++ back → (Runs.exec call c front).InRange :=
    fun front back hcalls => Runs.exec_invariant (fun _ _ hs hfits => hs.step hfits) h
      (hfront front back hcalls)
  have hexact : ∀ front k back, calls = front ++ k :: back → (Runs.exec call c front).Exact k :=
    fun front k back hcalls => (exact_iff_fits (hinRange front _ hcalls) k).mpr
      (Runs.admits_iff.mp hadmits front k back hcalls)
  refine ⟨hinRange, hexact, ?_, ?_, ?_, ?_⟩
  · intro front back hcalls
    have hlaw := hexact front .onCongestion back hcalls
    rw [UInt32.le_iff_toNat_le]
    exact hlaw.trans_le (Aimd.decrease_le (by decide) (inRange_iff.mp (hinRange _ _ hcalls)).1)
  · intro front back hcalls
    have hlaw := hexact front .onHealthy back hcalls
    rw [UInt32.le_iff_toNat_le]
    exact (Aimd.le_increase (inRange_iff.mp (hinRange _ _ hcalls)).2).trans_eq hlaw.symm
  · intro front n back hn hcalls
    have hback := (hfront _ back hcalls).back
    rw [List.append_assoc] at hcalls
    rw [Runs.exec_append, exec_replicate_onHealthy (hinRange front _ hcalls) hn hback, exec_cap]
  · intro front n back hn hcalls
    have hback := (hfront _ back hcalls).back
    rw [List.append_assoc] at hcalls
    rw [Runs.exec_append, exec_replicate_onCongestion (hinRange front _ hcalls) hn hback,
      exec_floor]

/-- Under a cap whose sevenfold fits, every call fits: the USB-2 ceiling is far below. -/
theorem lawful_of_cap_lt (h : c.InRange) (hcap : 7 * c.cap_.toNat < 2 ^ 32)
    (calls : List Call) : c.Lawful calls := by
  have hfits : ∀ d : BitrateController, d.InRange ∧ d.cap_ = c.cap_ → ∀ k, d.Fits k := by
    rintro d ⟨hd, hdcap⟩ k
    have hle := (inRange_iff.mp hd).2
    rw [hdcap] at hle
    cases k with
    | onCongestion => exact Or.inl (by omega)
    | onHealthy =>
        simp only [Fits, hdcap]
        omega
  refine lawful_of_admits h (Runs.admits_iff.mpr fun front k back _ => hfits _ ?_ k)
  refine Runs.exec_preserves (P := fun d : BitrateController => d.InRange ∧ d.cap_ = c.cap_) ?_
    ⟨h, rfl⟩ front
  intro d k hd
  exact ⟨hd.1.step (hfits d hd k), (call_cap k).trans hd.2⟩

/-- **The controller's law holds of exactly the runs whose calls all fit.** -/
theorem lawful_iff_fits (start_kbps floor_kbps cap_kbps : UInt32) (h : floor_kbps ≤ cap_kbps)
    (calls : List Call) : (make start_kbps floor_kbps cap_kbps h).Lawful calls ↔
      Runs.Admits call Fits (make start_kbps floor_kbps cap_kbps h) calls := by
  constructor
  · intro hlawful
    refine Runs.admits_iff.mpr fun front k back hcalls => ?_
    exact (exact_iff_fits (hlawful.inRange front _ hcalls) k).mp (hlawful.exact front k back hcalls)
  · exact lawful_of_admits (make_inRange start_kbps floor_kbps cap_kbps h)

/-- The law at the tests' bounds. -/
theorem lawful_iff_fits_usb2 : (10000 : UInt32) ≤ 80000 ∧
    ((make 50000 10000 80000 (by decide)).Lawful [.onCongestion, .onHealthy, .onHealthy] ↔
      Runs.Admits call Fits (make 50000 10000 80000 (by decide))
        [.onCongestion, .onHealthy, .onHealthy]) :=
  ⟨by decide, lawful_iff_fits 50000 10000 80000 (by decide) _⟩

/-- A healthy interval at a cap of `2 ^ 32 - 1` wraps, and the bitrate drops below the floor. -/
theorem not_lawful_onHealthy :
    ¬ (make 4294967295 1000000000 4294967295 (by decide)).Lawful [.onHealthy] := by
  intro h
  have hfloor := (h.inRange [.onHealthy] [] rfl).1
  revert hfloor
  decide +kernel

end BitrateController

end TetherDisplay.Core
