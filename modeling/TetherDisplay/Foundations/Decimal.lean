import Mathlib.Data.List.DropRight
import Mathlib.Data.Nat.Digits.Defs
import Mathlib.Tactic.IntervalCases

/-!
# Decimal numerals

Numbers as ASCII text: printing one (`numeral`, `intNumeral`) and reading the longest run of
digits at the front of a text, as `std::from_chars` does (`fromChars`, `fromCharsSigned`).  A
reader that then insists on the whole text accepts exactly the numerals in its range
(`fromChars_whole_iff`, `fromCharsSigned_whole_iff`), and what was printed is read back.
-/

namespace Decimal

/-- A decimal digit. -/
def isDigit (b : UInt8) : Bool := 48 ≤ b && b ≤ 57

/-- The value of a digit. -/
def digitVal (b : UInt8) : ℕ := b.toNat - 48

/-- The digit of a value. -/
def digit (n : ℕ) : UInt8 := UInt8.ofNat (48 + n)

/-- The number that a text of digits stands for. -/
def value (ds : List UInt8) : ℕ := ds.foldl (fun v d => 10 * v + digitVal d) 0

/-- A text of digits, at least one. -/
def IsNumeral (s : List UInt8) : Prop := s ≠ [] ∧ ∀ b ∈ s, isDigit b

instance : DecidablePred IsNumeral := fun s =>
  inferInstanceAs (Decidable (s ≠ [] ∧ ∀ b ∈ s, isDigit b))

/-- The decimal text of a number. -/
def numeral (n : ℕ) : List UInt8 :=
  if n = 0 then [48] else ((Nat.digits 10 n).map digit).reverse

/-! ## Printing -/

theorem isDigit_digit {n : ℕ} (h : n < 10) : isDigit (digit n) := by
  interval_cases n <;> decide

theorem digitVal_digit {n : ℕ} (h : n < 10) : digitVal (digit n) = n := by
  interval_cases n <;> rfl

/-- The value is that of the digits. -/
theorem value_eq_ofDigits (ds : List UInt8) :
    value ds = Nat.ofDigits 10 (ds.map digitVal).reverse := by
  rw [Nat.ofDigits_eq_foldr, List.foldr_reverse, List.foldl_map]
  simp only [value, Nat.cast_id, Nat.add_comm]

/-- What is printed is a numeral. -/
theorem isNumeral_numeral (n : ℕ) : IsNumeral (numeral n) := by
  rw [numeral]
  split_ifs with hn
  · refine ⟨List.cons_ne_nil _ _, fun b hb => ?_⟩
    rw [List.mem_singleton.mp hb]
    rfl
  · refine ⟨by simpa [Nat.digits_ne_nil_iff_ne_zero] using hn, fun b hb => ?_⟩
    obtain ⟨d, hd, rfl⟩ := List.mem_map.mp (List.mem_reverse.mp hb)
    exact isDigit_digit (Nat.digits_lt_base (by decide) hd)

/-- What is printed has the value. -/
@[simp] theorem value_numeral (n : ℕ) : value (numeral n) = n := by
  rw [numeral]
  split_ifs with hn
  · rw [hn]
    rfl
  · have hmap : ((Nat.digits 10 n).map digit).map digitVal = Nat.digits 10 n := by
      rw [List.map_map]
      refine (List.map_congr_left fun d hd => ?_).trans (List.map_id _)
      exact digitVal_digit (Nat.digits_lt_base (by decide) hd)
    rw [value_eq_ofDigits, List.map_reverse, List.reverse_reverse, hmap, Nat.ofDigits_digits]

/-! ## Reading -/

/-- The longest run of digits, where there is one and its value is in range, and the rest. -/
def fromChars (max : ℕ) (s : List UInt8) : Option (ℕ × List UInt8) :=
  let ds := s.takeWhile isDigit
  if ds = [] then none
  else if value ds ≤ max then some (value ds, s.dropWhile isDigit) else none

/-- Nothing is left of the text exactly when all of it was digits. -/
theorem fromChars_whole_iff {max v : ℕ} {s : List UInt8} :
    fromChars max s = some (v, []) ↔ IsNumeral s ∧ value s ≤ max ∧ value s = v := by
  have hall : s.dropWhile isDigit = [] ↔ ∀ b ∈ s, isDigit b := List.dropWhile_eq_nil_iff
  constructor
  · intro h
    simp only [fromChars] at h
    split_ifs at h with hnil hmax
    cases hdrop : s.dropWhile isDigit with
    | cons b t => simp [hdrop] at h
    | nil =>
        have htake : s.takeWhile isDigit = s := List.takeWhile_eq_self_iff.mpr (hall.mp hdrop)
        rw [htake] at h hnil hmax
        refine ⟨⟨hnil, hall.mp hdrop⟩, hmax, ?_⟩
        simpa [hdrop] using h
  · rintro ⟨⟨hnil, hdigits⟩, hmax, rfl⟩
    have htake : s.takeWhile isDigit = s := List.takeWhile_eq_self_iff.mpr hdigits
    simp only [fromChars, htake, if_neg hnil, if_pos hmax, hall.mpr hdigits]

/-! ## Signed numerals -/

/-- The minus sign. -/
def minus : UInt8 := 45

/-- The decimal text of an integer. -/
def intNumeral (z : ℤ) : List UInt8 :=
  if z < 0 then minus :: numeral z.natAbs else numeral z.natAbs

/-- `fromChars` for a signed type of `bits + 1` bits. -/
def fromCharsSigned (bits : ℕ) : List UInt8 → Option (ℤ × List UInt8)
  | [] => none
  | b :: t =>
      if b = minus then (fromChars (2 ^ bits) t).map fun r => (-(r.1 : ℤ), r.2)
      else (fromChars (2 ^ bits - 1) (b :: t)).map fun r => ((r.1 : ℤ), r.2)

/-- The text is a numeral of the integer, with or without a sign. -/
inductive IsIntNumeral : List UInt8 → ℤ → Prop
  | nonneg {s : List UInt8} (h : IsNumeral s) : IsIntNumeral s (value s)
  | neg {s : List UInt8} (h : IsNumeral s) : IsIntNumeral (minus :: s) (-(value s : ℤ))

theorem IsNumeral.ne_minus {b : UInt8} {s : List UInt8} (h : IsNumeral (b :: s)) : b ≠ minus := by
  rintro rfl
  exact absurd (h.2 minus (List.mem_cons_self ..)) (by decide)

/-- A whole text is read as a number that fits. -/
theorem fromCharsSigned_whole_iff {bits : ℕ} {s : List UInt8} {z : ℤ} :
    fromCharsSigned bits s = some (z, []) ↔
      IsIntNumeral s z ∧ -2 ^ bits ≤ z ∧ z < 2 ^ bits := by
  have hpow : ((2 ^ bits : ℕ) : ℤ) = 2 ^ bits := by push_cast; rfl
  have hpos : 0 < 2 ^ bits := Nat.two_pow_pos bits
  constructor
  · intro h
    cases s with
    | nil => cases h
    | cons b t =>
        simp only [fromCharsSigned] at h
        split_ifs at h with hb
        · obtain ⟨⟨v, rest⟩, hread, hz⟩ := Option.map_eq_some_iff.mp h
          cases hz
          obtain ⟨hnumeral, hmax, rfl⟩ := fromChars_whole_iff.mp hread
          subst hb
          exact ⟨.neg hnumeral, by omega, by omega⟩
        · obtain ⟨⟨v, rest⟩, hread, hz⟩ := Option.map_eq_some_iff.mp h
          cases hz
          obtain ⟨hnumeral, hmax, rfl⟩ := fromChars_whole_iff.mp hread
          exact ⟨.nonneg hnumeral, by omega, by omega⟩
  · rintro ⟨hnumeral, hlow, hhigh⟩
    cases hnumeral with
    | nonneg h =>
        cases s with
        | nil => exact absurd rfl h.1
        | cons b t =>
            have hread : fromChars (2 ^ bits - 1) (b :: t) = some (value (b :: t), []) :=
              fromChars_whole_iff.mpr ⟨h, by omega, rfl⟩
            rw [fromCharsSigned, if_neg h.ne_minus, hread]
            rfl
    | @neg s h =>
        have hread : fromChars (2 ^ bits) s = some (value s, []) :=
          fromChars_whole_iff.mpr ⟨h, by omega, rfl⟩
        rw [fromCharsSigned, if_pos rfl, hread]
        rfl

/-- The integer of a text, of any size, where it is a numeral of one. -/
def intValue : List UInt8 → Option ℤ
  | [] => none
  | b :: t =>
      if b = minus then if IsNumeral t then some (-(value t : ℤ)) else none
      else if IsNumeral (b :: t) then some (value (b :: t)) else none

/-- The value of a numeral with a sign. -/
theorem intValue_eq_some_iff {s : List UInt8} {z : ℤ} : intValue s = some z ↔ IsIntNumeral s z := by
  constructor
  · intro h
    cases s with
    | nil => cases h
    | cons b t =>
        simp only [intValue] at h
        split_ifs at h with hb ht ht
        · cases h
          exact hb ▸ .neg ht
        · cases h
          exact .nonneg ht
  · rintro (h | h)
    · cases s with
      | nil => exact absurd rfl h.1
      | cons b t => rw [intValue, if_neg h.ne_minus, if_pos h]
    · rw [intValue, if_pos rfl, if_pos h]

/-- What is printed is such a numeral. -/
theorem isIntNumeral_intNumeral (z : ℤ) : IsIntNumeral (intNumeral z) z := by
  rw [intNumeral]
  split_ifs with hz
  · have h := IsIntNumeral.neg (isNumeral_numeral z.natAbs)
    rwa [value_numeral, show -(z.natAbs : ℤ) = z by omega] at h
  · have h := IsIntNumeral.nonneg (isNumeral_numeral z.natAbs)
    rwa [value_numeral, show (z.natAbs : ℤ) = z by omega] at h

end Decimal
