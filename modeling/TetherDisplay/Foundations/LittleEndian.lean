import Mathlib.Data.Nat.Bitwise
import Mathlib.Tactic.Ring

/-!
# Little-endian byte strings

Fixed-width integers as byte strings, lowest byte first.  `leBytes n v` is the
low `n` bytes of `v` and `leNat` reads a byte string back; on strings of length
`n` and values below `256 ^ n` the two are inverse to each other
(`leNat_leBytes`, `leBytes_leNat`), so a fixed-width field is recovered from its
bytes and the bytes from the field.

Machine code writes the bytes with shifts and masks and reads them with shifts
and bitwise *or*.  `or_shiftLeft_eq_add` is the one fact that turns such a loop
into the arithmetic of `leNat`: the pieces of an *or* of shifted bytes do not
overlap, so the *or* is a sum.
-/

namespace LittleEndian

/-- The low `n` bytes of `v`, lowest byte first. -/
def leBytes : ℕ → ℕ → List UInt8
  | 0, _ => []
  | n + 1, v => UInt8.ofNat v :: leBytes n (v / 256)

/-- The value of a byte string, lowest byte first. -/
def leNat : List UInt8 → ℕ
  | [] => 0
  | b :: bs => b.toNat + 256 * leNat bs

@[simp] theorem leNat_nil : leNat [] = 0 := rfl

@[simp] theorem leNat_cons (b : UInt8) (bs : List UInt8) :
    leNat (b :: bs) = b.toNat + 256 * leNat bs := rfl

@[simp] theorem length_leBytes (n v : ℕ) : (leBytes n v).length = n := by
  induction n generalizing v with
  | zero => rfl
  | succ n ih => simp [leBytes, ih]

/-- So many bytes hold no more. -/
theorem leNat_lt (bs : List UInt8) : leNat bs < 256 ^ bs.length := by
  induction bs with
  | nil => simp
  | cons b bs ih =>
      have hb : b.toNat < 256 := b.toNat_lt
      simp only [leNat_cons, List.length_cons, pow_succ]
      omega

/-- Reading the low `n` bytes of a value gives the value modulo `256 ^ n`. -/
theorem leNat_leBytes_mod (n v : ℕ) : leNat (leBytes n v) = v % 256 ^ n := by
  induction n generalizing v with
  | zero => simp [leBytes, Nat.mod_one]
  | succ n ih =>
      have hlow : (UInt8.ofNat v).toNat = v % 256 := by simp
      rw [leBytes, leNat_cons, ih, hlow, pow_succ, Nat.mul_comm (256 ^ n) 256,
        Nat.mod_mul]

/-- What is written is read. -/
theorem leNat_leBytes {n v : ℕ} (h : v < 256 ^ n) : leNat (leBytes n v) = v := by
  rw [leNat_leBytes_mod, Nat.mod_eq_of_lt h]

/-- A byte string is recovered from its length and its value. -/
theorem leBytes_leNat (bs : List UInt8) : leBytes bs.length (leNat bs) = bs := by
  induction bs with
  | nil => rfl
  | cons b bs ih =>
      have hb : b.toNat < 256 := b.toNat_lt
      have hlow : UInt8.ofNat (b.toNat + 256 * leNat bs) = b := by
        apply UInt8.toNat_inj.mp
        simp only [UInt8.toNat_ofNat']
        omega
      have hhigh : (b.toNat + 256 * leNat bs) / 256 = leNat bs := by omega
      rw [List.length_cons, leNat_cons, leBytes, hlow, hhigh, ih]

/-! ### One more byte on top

Loops that write or read a field go from the low byte to the high one, so their
step adds a byte at the end. -/

/-- The last byte is the highest. -/
theorem leBytes_succ_last (n v : ℕ) :
    leBytes (n + 1) v = leBytes n v ++ [UInt8.ofNat (v / 256 ^ n)] := by
  induction n generalizing v with
  | zero => simp [leBytes]
  | succ n ih =>
      rw [leBytes, ih, leBytes, List.cons_append, Nat.div_div_eq_div_mul, pow_succ,
        Nat.mul_comm 256]

/-- What follows counts more. -/
theorem leNat_append (front back : List UInt8) :
    leNat (front ++ back) = leNat front + 256 ^ front.length * leNat back := by
  induction front with
  | nil => simp
  | cons b front ih =>
      simp only [List.cons_append, leNat_cons, ih, List.length_cons, pow_succ]
      ring

/-- **An *or* with a shifted value is a sum** when the unshifted part fits below
the shift. -/
theorem or_shiftLeft_eq_add {low k : ℕ} (high : ℕ) (fits : low < 2 ^ k) :
    low ||| high <<< k = low + 2 ^ k * high := by
  have hsum : high <<< k + low = high <<< k ||| low :=
    Nat.shiftLeft_add_eq_or_of_lt fits high
  calc low ||| high <<< k = high <<< k ||| low := Nat.or_comm _ _
    _ = high <<< k + low := hsum.symm
    _ = low + 2 ^ k * high := by rw [Nat.shiftLeft_eq]; ring

end LittleEndian
