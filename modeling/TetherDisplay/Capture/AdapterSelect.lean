import TetherDisplay.Foundations.Selection
import Mathlib.Data.Prod.Lex

/-!
# Choosing the encoder's adapter

`adapter_select.cpp`: NVENC runs on the adapter that is NVIDIA's, and among adapters of one rank on
the one with the most memory.  The loop is the `argmin` of a key (`prefers_compares`), so it finds
an adapter that none is preferred to, and the first of these in the list
(`selectEncoderAdapter_optimal`).
-/

namespace TetherDisplay.Capture

open Selection (Compares)

/-- A Windows LUID. -/
structure AdapterId where
  low : UInt32 := 0
  high : Int32 := 0
  deriving DecidableEq, Repr

/-- What is known of an adapter. -/
structure AdapterInfo where
  id : AdapterId := {}
  /-- The PCI vendor id. -/
  vendorId : UInt32 := 0
  /-- Bytes. -/
  dedicatedVram : UInt64 := 0
  deriving DecidableEq, Repr

/-- The PCI vendor id of NVIDIA. -/
def kVendorNvidia : UInt32 := 0x10DE

/-- What is captured on one adapter has to be copied to another. -/
def needsCrossAdapterCopy (capture encoder : AdapterId) : Bool := !(capture == encoder)

/-- NVIDIA first, then anything else. -/
def preferenceRank (a : AdapterInfo) : ℕ := if a.vendorId = kVendorNvidia then 1 else 0

/-- Does `a` take the place of `best`? -/
def prefers (a best : AdapterInfo) : Bool :=
  if preferenceRank a ≠ preferenceRank best then preferenceRank a > preferenceRank best
  else a.dedicatedVram > best.dedicatedVram

/-- The adapter to encode on: the first of those that no other is preferred to. -/
def selectEncoderAdapter (adapters : List AdapterInfo) : Option AdapterInfo :=
  Selection.scan (fun _ => true) prefers adapters

/-! ## The order that is meant -/

namespace AdapterInfo

/-- `a` is to run the encoder rather than `b`. -/
def Preferred (a b : AdapterInfo) : Prop :=
  (a.vendorId = kVendorNvidia ∧ b.vendorId ≠ kVendorNvidia) ∨
    ((a.vendorId = kVendorNvidia ↔ b.vendorId = kVendorNvidia) ∧
      b.dedicatedVram < a.dedicatedVram)

instance (a b : AdapterInfo) : Decidable (Preferred a b) :=
  inferInstanceAs (Decidable (_ ∨ _))

/-- No adapter is preferred to this one, and the adapters before it are not as good. -/
structure Optimal (adapters : List AdapterInfo) (m : AdapterInfo) : Prop where
  listed : m ∈ adapters
  best : ∀ a ∈ adapters, ¬ Preferred a m
  first : ∀ a ∈ adapters, ¬ Preferred m a → adapters.idxOf m ≤ adapters.idxOf a

/-- Preferred is what comes first by rank, and then by memory. -/
def rankKey (a : AdapterInfo) : ℕᵒᵈ ×ₗ ℕᵒᵈ :=
  toLex (OrderDual.toDual (preferenceRank a), OrderDual.toDual a.dedicatedVram.toNat)

/-- The preference is the order of the keys. -/
theorem preferred_iff {a b : AdapterInfo} : Preferred a b ↔ rankKey a < rankKey b := by
  rw [rankKey, rankKey, Prod.Lex.toLex_lt_toLex]
  simp only [OrderDual.toDual_lt_toDual, EmbeddingLike.apply_eq_iff_eq, Preferred,
    UInt64.lt_iff_toNat_lt, preferenceRank]
  by_cases ha : a.vendorId = kVendorNvidia <;> by_cases hb : b.vendorId = kVendorNvidia <;>
    simp [ha, hb]

end AdapterInfo

open AdapterInfo

/-- The loop's comparison is the preference. -/
theorem prefers_iff (a b : AdapterInfo) : prefers a b = true ↔ Preferred a b := by
  unfold prefers preferenceRank Preferred
  by_cases ha : a.vendorId = kVendorNvidia <;> by_cases hb : b.vendorId = kVendorNvidia <;>
    simp [ha, hb]

/-- The loop compares by `rankKey`. -/
theorem prefers_compares (l : List AdapterInfo) : Compares prefers rankKey l :=
  fun a _ b _ => (prefers_iff a b).trans preferred_iff

theorem selectEncoderAdapter_eq (adapters : List AdapterInfo) :
    selectEncoderAdapter adapters = adapters.argmin rankKey := by
  have hscan := Selection.scan_eq (prefers_compares (adapters.filter fun _ => true))
  rwa [List.filter_true] at hscan

/-- **The adapter that is chosen** is the first of the best, whatever the list. -/
theorem selectEncoderAdapter_optimal (adapters : List AdapterInfo) (m : AdapterInfo) :
    selectEncoderAdapter adapters = some m ↔ Optimal adapters m := by
  rw [selectEncoderAdapter_eq, List.argmin_eq_some_iff]
  constructor
  · rintro ⟨hmem, hle, hfirst⟩
    exact ⟨hmem, fun a ha hpref => absurd (hle a ha) (not_le.mpr (preferred_iff.mp hpref)),
      fun a ha hpref => hfirst a ha (not_lt.mp fun hlt => hpref (preferred_iff.mpr hlt))⟩
  · rintro ⟨hmem, hbest, hfirst⟩
    exact ⟨hmem, fun a ha => not_lt.mp fun hlt => hbest a ha (preferred_iff.mpr hlt),
      fun a ha hle => hfirst a ha fun hpref => absurd (preferred_iff.mp hpref) (not_lt.mpr hle)⟩

end TetherDisplay.Capture
