import TetherDisplay.Foundations.Selection
import Mathlib.Algebra.Ring.Int.Defs
import Mathlib.Algebra.Ring.Nat
import Mathlib.Data.Prod.Lex

/-!
# Choosing a display mode

`PickBestMode` goes through three tiers: the desired mode itself, else the desired resolution with
the nearest refresh rate, else the closest fit by aspect ratio, pixel area and refresh rate.  The
comparisons of the last two are done in 64 bits on 32-bit fields.  As long as no product of a width
and a height overflows they are the order of a key over the integers (`nearer_compares`,
`fits_compares`), so each loop finds an `argmin` and the result is an optimum whatever the order of
the list (`pickBestMode_optimal`).
-/

namespace TetherDisplay.Vdisplay

open Selection (Compares)

/-- A mode of a display. -/
structure DisplayMode where
  width : UInt32 := 0
  height : UInt32 := 0
  refreshHz : UInt32 := 0
  deriving DecidableEq, Repr

/-! ## The source -/

/-- `static_cast<std::int64_t>`. -/
def toI64 (v : UInt32) : Int64 := Int64.ofNat v.toNat

/-- `Area`. -/
def area (m : DisplayMode) : Int64 := toI64 m.width * toI64 m.height

/-- The aspect ratios are compared by multiplying crosswise. -/
def sameAspect (a b : DisplayMode) : Bool :=
  toI64 a.width * toI64 b.height == toI64 b.width * toI64 a.height

/-- `std::llabs`. -/
def llabs (x : Int64) : Int64 := if x < 0 then -x else x

/-- `RefreshDiff`. -/
def refreshDiff (a b : DisplayMode) : Int64 := llabs (toI64 a.refreshHz - toI64 b.refreshHz)

/-- Is `a` a better fit for `desired` than `b`? -/
def betterFit (a b desired : DisplayMode) : Bool :=
  let aa := sameAspect a desired
  let ba := sameAspect b desired
  if aa != ba then aa
  else
    let ad := llabs (area a - area desired)
    let bd := llabs (area b - area desired)
    if ad != bd then ad < bd else a.refreshHz > b.refreshHz

/-- Is `a` nearer to the desired refresh rate than `b`?  The higher rate wins ties. -/
def nearerRefresh (a b desired : DisplayMode) : Bool :=
  refreshDiff a desired < refreshDiff b desired ||
    (refreshDiff a desired == refreshDiff b desired && a.refreshHz > b.refreshHz)

/-- `PickBestMode`. -/
def pickBestMode (desired : DisplayMode) (supported : List DisplayMode) : Option DisplayMode :=
  match supported with
  | [] => none
  | front :: rest =>
      -- Tier 1: the mode itself.
      match supported.find? (· = desired) with
      | some m => some m
      | none =>
          -- Tier 2: the resolution, with the nearest refresh rate.
          match Selection.scan (fun m => m.width = desired.width ∧ m.height = desired.height)
            (fun m best => nearerRefresh m best desired) supported with
          | some best => some best
          | none =>
              -- Tier 3: the closest fit.
              some (Selection.keep (fun m best => betterFit m best desired) front rest)

/-! ## The order that is meant -/

namespace DisplayMode

variable (desired a b : DisplayMode)

/-- The pixels of a mode. -/
def pixels : ℕ := a.width.toNat * a.height.toNat

/-- The same width and height. -/
def SameResolution : Prop := a.width = b.width ∧ a.height = b.height

/-- The same ratio of width to height. -/
def SameAspect : Prop := a.width.toNat * b.height.toNat = b.width.toNat * a.height.toNat

instance : Decidable (SameResolution a b) :=
  inferInstanceAs (Decidable (a.width = b.width ∧ a.height = b.height))

instance : Decidable (SameAspect a b) :=
  inferInstanceAs (Decidable (a.width.toNat * b.height.toNat = b.width.toNat * a.height.toNat))

/-- How far the pixel areas are apart. -/
def pixelsApart : ℕ := ((a.pixels : ℤ) - b.pixels).natAbs

/-- How far the refresh rates are apart. -/
def hertzApart : ℕ := ((a.refreshHz.toNat : ℤ) - b.refreshHz.toNat).natAbs

/-- `a` is the better one of two modes with the desired resolution. -/
def Nearer : Prop :=
  hertzApart a desired < hertzApart b desired ∨
    hertzApart a desired = hertzApart b desired ∧ b.refreshHz < a.refreshHz

/-- `a` is the better fit of two modes. -/
def Fitter : Prop :=
  (SameAspect a desired ∧ ¬ SameAspect b desired) ∨
    ((SameAspect a desired ↔ SameAspect b desired) ∧
      (pixelsApart a desired < pixelsApart b desired ∨
        pixelsApart a desired = pixelsApart b desired ∧ b.refreshHz < a.refreshHz))

/-- Nothing tells the two apart. -/
def Tied : Prop :=
  (SameAspect a desired ↔ SameAspect b desired) ∧
    pixelsApart a desired = pixelsApart b desired ∧ a.refreshHz = b.refreshHz

/-- Every product of a width and a height of these modes is below `2 ^ 62`. -/
def CrossBelow (modes : List DisplayMode) : Prop :=
  ∀ a ∈ modes, ∀ b ∈ modes, a.width.toNat * b.height.toNat < 2 ^ 62

instance (modes : List DisplayMode) : Decidable (CrossBelow modes) :=
  inferInstanceAs (Decidable (∀ a ∈ modes, ∀ b ∈ modes, _ < _))

/-- **An optimum** of the three tiers. -/
structure Optimal (desired : DisplayMode) (supported : List DisplayMode) (m : DisplayMode) :
    Prop where
  listed : m ∈ supported
  exact : desired ∈ supported → m = desired
  nearest : desired ∉ supported → (∃ a ∈ supported, SameResolution a desired) →
    SameResolution m desired ∧ ∀ a ∈ supported, SameResolution a desired → ¬ Nearer desired a m
  fittest : (∀ a ∈ supported, ¬ SameResolution a desired) →
    ∀ a ∈ supported, ¬ Fitter desired a m

/-! ## The order is that of a key -/

/-- Of one resolution, the nearest refresh rate is best, and the higher of two as near. -/
def refreshKey (a : DisplayMode) : ℕ ×ₗ ℕᵒᵈ :=
  toLex (hertzApart a desired, OrderDual.toDual a.refreshHz.toNat)

/-- The same ratio first, then the nearest size, then the higher refresh rate. -/
def fitKey (a : DisplayMode) : Bool ×ₗ ℕ ×ₗ ℕᵒᵈ :=
  toLex (!decide (SameAspect a desired),
    toLex (pixelsApart a desired, OrderDual.toDual a.refreshHz.toNat))

variable {desired a b}

/-- Nearer is the order of the keys. -/
theorem nearer_iff : Nearer desired a b ↔ refreshKey desired a < refreshKey desired b := by
  rw [refreshKey, refreshKey, Prod.Lex.toLex_lt_toLex]
  simp only [OrderDual.toDual_lt_toDual, Nearer, UInt32.lt_iff_toNat_lt]

/-- Fitter is the order of the keys. -/
theorem fitter_iff : Fitter desired a b ↔ fitKey desired a < fitKey desired b := by
  rw [fitKey, fitKey, Prod.Lex.toLex_lt_toLex, Prod.Lex.toLex_lt_toLex]
  simp only [OrderDual.toDual_lt_toDual, Fitter, UInt32.lt_iff_toNat_lt]
  by_cases ha : SameAspect a desired <;> by_cases hb : SameAspect b desired <;> simp [ha, hb]

/-- Tied is the equality of the keys. -/
theorem tied_iff : Tied desired a b ↔ fitKey desired a = fitKey desired b := by
  simp only [Tied, fitKey, EmbeddingLike.apply_eq_iff_eq, Prod.mk.injEq, UInt32.toNat_inj]
  by_cases ha : SameAspect a desired <;> by_cases hb : SameAspect b desired <;> simp [ha, hb]

end DisplayMode

/-! ## The 64-bit arithmetic -/

open DisplayMode

theorem toI64_toInt (v : UInt32) : (toI64 v).toInt = v.toNat :=
  Int64.toInt_ofNat_of_lt (v.toNat_lt.trans (by decide))

theorem bmod_eq_self {x : ℤ} (hlow : -2 ^ 63 ≤ x) (hhigh : x < 2 ^ 63) : x.bmod (2 ^ 64) = x :=
  Int.bmod_eq_of_le (by simpa using hlow) (by simpa using hhigh)

/-- A product of two fields, as long as it is small. -/
theorem toI64_mul_toInt {v w : UInt32} (h : v.toNat * w.toNat < 2 ^ 62) :
    (toI64 v * toI64 w).toInt = ((v.toNat * w.toNat : ℕ) : ℤ) := by
  have hcast : (v.toNat : ℤ) * w.toNat = ((v.toNat * w.toNat : ℕ) : ℤ) := by push_cast; rfl
  rw [Int64.toInt_mul, toI64_toInt, toI64_toInt, hcast, bmod_eq_self] <;> omega

/-- The absolute value of a difference that does not overflow. -/
theorem llabs_sub_toInt {x y : Int64} {n k : ℕ} (hx : x.toInt = n) (hy : y.toInt = k)
    (hn : n < 2 ^ 62) (hk : k < 2 ^ 62) :
    (llabs (x - y)).toInt = (((n : ℤ) - k).natAbs : ℤ) := by
  have hsub : (x - y).toInt = (n : ℤ) - k := by
    rw [Int64.toInt_sub, hx, hy, bmod_eq_self] <;> omega
  have hlt : x - y < 0 ↔ (n : ℤ) - k < 0 := by rw [Int64.lt_iff_toInt_lt, hsub, Int64.toInt_zero]
  rw [llabs]
  split_ifs with hneg
  · have hneg := hlt.mp hneg
    rw [Int64.toInt_neg, hsub, bmod_eq_self] <;> omega
  · have hneg := mt hlt.mpr hneg
    rw [hsub]
    omega

/-- `RefreshDiff` does not wrap. -/
theorem refreshDiff_toInt (a b : DisplayMode) : (refreshDiff a b).toInt = hertzApart a b :=
  llabs_sub_toInt (toI64_toInt _) (toI64_toInt _) (a.refreshHz.toNat_lt.trans (by decide))
    (b.refreshHz.toNat_lt.trans (by decide))

/-- The difference of two areas does not wrap. -/
theorem areaDiff_toInt {a b : DisplayMode} (ha : a.pixels < 2 ^ 62) (hb : b.pixels < 2 ^ 62) :
    (llabs (area a - area b)).toInt = pixelsApart a b :=
  llabs_sub_toInt (toI64_mul_toInt ha) (toI64_mul_toInt hb) ha hb

/-- The products do not wrap. -/
theorem sameAspect_iff {a b : DisplayMode} (hab : a.width.toNat * b.height.toNat < 2 ^ 62)
    (hba : b.width.toNat * a.height.toNat < 2 ^ 62) : sameAspect a b = true ↔ SameAspect a b := by
  rw [sameAspect, beq_iff_eq, ← Int64.toInt_inj, toI64_mul_toInt hab, toI64_mul_toInt hba,
    Int.ofNat_inj, SameAspect]

section Loops

variable {desired : DisplayMode} {supported : List DisplayMode}

/-- The comparison of the loop is that of the rates. -/
theorem nearerRefresh_iff (a b : DisplayMode) :
    nearerRefresh a b desired = true ↔ Nearer desired a b := by
  simp only [nearerRefresh, Nearer, Bool.or_eq_true, Bool.and_eq_true, decide_eq_true_eq,
    beq_iff_eq, Int64.lt_iff_toInt_lt, ← Int64.toInt_inj, refreshDiff_toInt, Int.ofNat_lt,
    Int.ofNat_inj, gt_iff_lt]

/-- **The second loop** compares by `refreshKey`. -/
theorem nearer_compares (l : List DisplayMode) :
    Compares (fun m best => nearerRefresh m best desired) (refreshKey desired) l :=
  fun a _ b _ => (nearerRefresh_iff a b).trans nearer_iff

/-- **The third loop** compares by `fitKey`, where no product overflows. -/
theorem fits_compares (hsmall : CrossBelow (desired :: supported)) :
    Compares (fun m best => betterFit m best desired) (fitKey desired) supported := by
  intro a ha b hb
  have hd : desired ∈ desired :: supported := List.mem_cons_self
  replace ha := List.mem_cons_of_mem desired ha
  replace hb := List.mem_cons_of_mem desired hb
  have haspect := sameAspect_iff (hsmall a ha _ hd) (hsmall _ hd a ha)
  have hbspect := sameAspect_iff (hsmall b hb _ hd) (hsmall _ hd b hb)
  have hafar := areaDiff_toInt (hsmall a ha a ha) (hsmall _ hd _ hd)
  have hbfar := areaDiff_toInt (hsmall b hb b hb) (hsmall _ hd _ hd)
  rw [← fitter_iff]
  simp only [betterFit]
  -- The two areas are compared as integers, the two ratios as truth values.
  have hlt : llabs (area a - area desired) < llabs (area b - area desired) ↔
      pixelsApart a desired < pixelsApart b desired := by
    rw [Int64.lt_iff_toInt_lt, hafar, hbfar, Int.ofNat_lt]
  have heq : llabs (area a - area desired) = llabs (area b - area desired) ↔
      pixelsApart a desired = pixelsApart b desired := by
    rw [← Int64.toInt_inj, hafar, hbfar, Int.ofNat_inj]
  cases hsa : sameAspect a desired <;> cases hsb : sameAspect b desired <;>
    rw [hsa] at haspect <;> rw [hsb] at hbspect <;>
    by_cases hfar : pixelsApart a desired = pixelsApart b desired <;>
    simp [Fitter, ← haspect, ← hbspect, hlt, heq, hfar]

/-! ## The three tiers -/

/-- The listed modes with the desired resolution. -/
def ofResolution (desired : DisplayMode) (supported : List DisplayMode) : List DisplayMode :=
  supported.filter (fun m => SameResolution m desired)

theorem mem_ofResolution {m : DisplayMode} :
    m ∈ ofResolution desired supported ↔ m ∈ supported ∧ SameResolution m desired := by
  rw [ofResolution, List.mem_filter, decide_eq_true_eq]

theorem ofResolution_eq_nil :
    ofResolution desired supported = [] ↔ ∀ m ∈ supported, ¬ SameResolution m desired := by
  rw [ofResolution, List.filter_eq_nil_iff]
  simp only [decide_eq_true_eq]

theorem find?_desired (l : List DisplayMode) :
    l.find? (· = desired) = if desired ∈ l then some desired else none := by
  cases hfind : l.find? (· = desired) with
  | none =>
      have hnone := List.find?_eq_none.mp hfind
      rw [if_neg]
      intro hmem
      exact hnone desired hmem (by simp)
  | some m =>
      have heq : m = desired := by simpa using List.find?_some hfind
      have hmem : m ∈ l := List.mem_of_find?_eq_some hfind
      rw [← heq, if_pos hmem]

/-- **What is chosen**: the desired mode if it is listed, else the best one of its resolution, else
the best one of all. -/
theorem pickBestMode_eq (hsmall : CrossBelow (desired :: supported)) :
    pickBestMode desired supported =
      if desired ∈ supported then some desired
      else
        if ofResolution desired supported = [] then supported.argmin (fitKey desired)
        else (ofResolution desired supported).argmin (refreshKey desired) := by
  cases supported with
  | nil => rfl
  | cons front rest =>
      have hscan : Selection.scan (fun m => m.width = desired.width ∧ m.height = desired.height)
          (fun m best => nearerRefresh m best desired) (front :: rest) =
            (ofResolution desired (front :: rest)).argmin (refreshKey desired) :=
        Selection.scan_eq (nearer_compares _)
      have hkeep := Selection.keep_eq (fits_compares hsmall)
      rw [pickBestMode, find?_desired, hscan, hkeep]
      by_cases hlisted : desired ∈ front :: rest
      · rw [if_pos hlisted, if_pos hlisted]
      · rw [if_neg hlisted, if_neg hlisted]
        cases hbest : (ofResolution desired (front :: rest)).argmin (refreshKey desired) with
        | none => rw [if_pos (List.argmin_eq_none.mp hbest)]
        | some best =>
            rw [if_neg]
            intro hnil
            rw [hnil] at hbest
            cases hbest

/-- A mode is picked if there is one. -/
theorem pickBestMode_eq_none (hsmall : CrossBelow (desired :: supported)) :
    pickBestMode desired supported = none ↔ supported = [] := by
  rw [pickBestMode_eq hsmall]
  split_ifs with hlisted hres
  · simp [List.ne_nil_of_mem hlisted]
  · rw [List.argmin_eq_none]
  · have hne : supported ≠ [] := by
      rintro rfl
      exact hres rfl
    rw [List.argmin_eq_none]
    exact iff_of_false hres hne

/-- **The chosen mode is an optimum.** -/
theorem optimal_of_pickBestMode (hsmall : CrossBelow (desired :: supported)) {m : DisplayMode}
    (hm : pickBestMode desired supported = some m) : Optimal desired supported m := by
  rw [pickBestMode_eq hsmall] at hm
  split_ifs at hm with hlisted hres
  · cases hm
    exact ⟨hlisted, fun _ => rfl, fun h => absurd hlisted h,
      fun h => absurd ⟨rfl, rfl⟩ (h _ hlisted)⟩
  · have hnone := ofResolution_eq_nil.mp hres
    refine ⟨List.argmin_mem hm, fun h => absurd h hlisted, fun _ h => ?_, fun _ a ha hfit => ?_⟩
    · obtain ⟨a, ha, hsame⟩ := h
      exact absurd hsame (hnone a ha)
    · exact List.not_lt_of_mem_argmin ha hm (fitter_iff.mp hfit)
  · obtain ⟨hmem, hsame⟩ := mem_ofResolution.mp (List.argmin_mem hm)
    refine ⟨hmem, fun h => absurd h hlisted, fun _ _ => ⟨hsame, fun a ha hasame hnear => ?_⟩,
      fun h => absurd hsame (h m hmem)⟩
    exact List.not_lt_of_mem_argmin (mem_ofResolution.mpr ⟨ha, hasame⟩) hm
      (nearer_iff.mp hnear)

/-- Of one resolution, the key leaves no choice. -/
theorem eq_of_refreshKey {a b : DisplayMode} (ha : SameResolution a desired)
    (hb : SameResolution b desired) (hkey : refreshKey desired a = refreshKey desired b) :
    a = b := by
  obtain ⟨haw, hah⟩ := ha
  obtain ⟨hbw, hbh⟩ := hb
  simp only [refreshKey, EmbeddingLike.apply_eq_iff_eq, Prod.mk.injEq, UInt32.toNat_inj] at hkey
  cases a
  cases b
  simp_all

/-- **The order of the list** matters only among modes that nothing tells apart. -/
theorem tied_of_perm (hsmall : CrossBelow (desired :: supported)) {supported' : List DisplayMode}
    (hperm : supported.Perm supported') {m m' : DisplayMode}
    (hm : pickBestMode desired supported = some m)
    (hm' : pickBestMode desired supported' = some m') :
    Tied desired m m' ∧ ((∃ a ∈ supported, SameResolution a desired) → m = m') := by
  have hsmall' : CrossBelow (desired :: supported') := by
    intro a ha b hb
    exact hsmall a ((hperm.cons _).mem_iff.mpr ha) b ((hperm.cons _).mem_iff.mpr hb)
  have hres := hperm.filter (fun m => SameResolution m desired)
  rw [← ofResolution, ← ofResolution] at hres
  have hnil : ofResolution desired supported = [] ↔ ofResolution desired supported' = [] := by
    rw [← List.length_eq_zero_iff, hres.length_eq, List.length_eq_zero_iff]
  rw [pickBestMode_eq hsmall] at hm
  rw [pickBestMode_eq hsmall'] at hm'
  simp only [← hperm.mem_iff, ← hnil] at hm'
  split_ifs at hm hm' with hlisted hnone
  · cases hm
    cases hm'
    exact ⟨tied_iff.mpr rfl, fun _ => rfl⟩
  · refine ⟨tied_iff.mpr (Selection.key_eq_of_perm hperm hm hm'), fun h => ?_⟩
    obtain ⟨a, ha, hsame⟩ := h
    exact absurd hsame (ofResolution_eq_nil.mp hnone a ha)
  · have heq : m = m' :=
      eq_of_refreshKey (mem_ofResolution.mp (List.argmin_mem hm)).2
        (mem_ofResolution.mp (List.argmin_mem hm')).2 (Selection.key_eq_of_perm hres hm hm')
    rw [heq]
    exact ⟨tied_iff.mpr rfl, fun _ => rfl⟩

end Loops

/-- **Choosing a mode.**  Nothing is returned exactly for the empty list, what is returned is an
optimum of the three tiers, and another order of the list can only change the result among modes
that are tied, not at all if the desired resolution is listed. -/
theorem pickBestMode_optimal (desired : DisplayMode) (supported : List DisplayMode)
    (hsmall : CrossBelow (desired :: supported)) :
    (pickBestMode desired supported = none ↔ supported = []) ∧
    (∀ m, pickBestMode desired supported = some m → Optimal desired supported m) ∧
    ∀ supported', supported.Perm supported' →
      ∀ m m', pickBestMode desired supported = some m →
        pickBestMode desired supported' = some m' →
        Tied desired m m' ∧ ((∃ a ∈ supported, SameResolution a desired) → m = m') := by
  refine ⟨pickBestMode_eq_none hsmall, fun m hm => optimal_of_pickBestMode hsmall hm, ?_⟩
  intro supported' hperm m m' hm hm'
  exact tied_of_perm hsmall hperm hm hm'

/-- No 1920 x 1080 is listed and two modes of 16:9 are as far away: the faster one is chosen. -/
theorem pickBestMode_two_ratios :
    pickBestMode ⟨1920, 1080, 60⟩ [⟨1024, 768, 60⟩, ⟨1280, 720, 60⟩, ⟨1280, 720, 75⟩] =
        some ⟨1280, 720, 75⟩ ∧
      Optimal ⟨1920, 1080, 60⟩ [⟨1024, 768, 60⟩, ⟨1280, 720, 60⟩, ⟨1280, 720, 75⟩]
        ⟨1280, 720, 75⟩ := by
  have hpick : pickBestMode ⟨1920, 1080, 60⟩
      [⟨1024, 768, 60⟩, ⟨1280, 720, 60⟩, ⟨1280, 720, 75⟩] = some ⟨1280, 720, 75⟩ := by
    decide +kernel
  exact ⟨hpick, (pickBestMode_optimal _ _ (by decide +kernel)).2.1 _ hpick⟩

end TetherDisplay.Vdisplay
