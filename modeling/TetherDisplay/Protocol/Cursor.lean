import TetherDisplay.Foundations.LittleEndian
import TetherDisplay.Protocol.Message

/-!
# Byte cursors

`ByteWriter` and `ByteReader` of `wire.cpp`: the little-endian cursors every
message layout is written and read with.  The definitions keep the source's
loops of shifts, masks and *or*s at their machine width.

Two facts about them are all that the layouts use.

* **Written, then read.**  A reader whose unread bytes begin with what a writer
  put down for `v` reads `v` and stands behind it.
* **A read moves the cursor and nothing else.**  `ByteReader.Moves` is that move:
  past the field when enough bytes are left, and into the latched error otherwise.
  Moves add up (`ByteReader.Moves.trans`), so whether a whole layout can be read is
  one comparison with its width.

`Layout` carries both as fields.  The four integer widths are layouts, and so is
one layout after another (`Layout.pair`), so the layout of a record is assembled
from its fields with nothing left to prove.
-/

namespace TetherDisplay.Protocol

open LittleEndian

/-! ## Little-endian integers at machine width -/

/-- `p[0] | (p[1] << 8)`. -/
def loadU16 (p : Bytes) : UInt16 :=
  (p.getD 0 0).toUInt16 ||| ((p.getD 1 0).toUInt16 <<< 8)

/-- `v |= static_cast<std::uint32_t>(p[i]) << (8 * i)` for `i < 4`. -/
def loadU32 (p : Bytes) : UInt32 :=
  (List.range 4).foldl
    (fun v i => v ||| ((p.getD i 0).toUInt32 <<< UInt32.ofNat (8 * i))) 0

/-- `v |= static_cast<std::uint64_t>(p[i]) << (8 * i)` for `i < 8`. -/
def loadU64 (p : Bytes) : UInt64 :=
  (List.range 8).foldl
    (fun v i => v ||| ((p.getD i 0).toUInt64 <<< UInt64.ofNat (8 * i))) 0

theorem leBytes_one (v : UInt8) : leBytes 1 v.toNat = [v] := by
  simp [leBytes]

/-- The value of the first `n + 1` bytes: the byte at `n` on top of those below. -/
theorem leNat_take_succ {p : Bytes} {n : ℕ} (h : n < p.length) :
    leNat (p.take (n + 1)) = leNat (p.take n) + 2 ^ (8 * n) * (p.getD n 0).toNat := by
  have hpow : 256 ^ n = 2 ^ (8 * n) := by rw [pow_mul]; rfl
  rw [List.take_add_one, List.getElem?_eq_getElem h, leNat_append, List.length_take,
    Nat.min_eq_left h.le, hpow, List.getD_eq_getElem _ _ h]
  simp [leNat]

/-- So many bytes fit into a word. -/
theorem leNat_take_lt {p : Bytes} {n : ℕ} (h : n ≤ p.length) :
    leNat (p.take n) < 2 ^ (8 * n) := by
  have hlt := leNat_lt (p.take n)
  rw [List.length_take, Nat.min_eq_left h] at hlt
  rwa [pow_mul, show 2 ^ 8 = 256 by norm_num]

/-- A byte shifted to its place stays within the width it is read into. -/
theorem byte_shiftLeft_mod {b n w : ℕ} (hb : b < 2 ^ 8) (hw : 8 * n + 8 ≤ w) :
    b <<< (8 * n) % 2 ^ w = b <<< (8 * n) := by
  refine Nat.mod_eq_of_lt ?_
  calc b <<< (8 * n) = b * 2 ^ (8 * n) := Nat.shiftLeft_eq _ _
    _ < 2 ^ 8 * 2 ^ (8 * n) := Nat.mul_lt_mul_of_pos_right hb (Nat.two_pow_pos _)
    _ = 2 ^ (8 + 8 * n) := (pow_add 2 8 (8 * n)).symm
    _ ≤ 2 ^ w := Nat.pow_le_pow_right (by norm_num) (by omega)

/-- The two-byte read is the little-endian value. -/
theorem loadU16_toNat {p : Bytes} (h : 2 ≤ p.length) :
    (loadU16 p).toNat = leNat (p.take 2) := by
  have h₀ : (p.getD 0 0).toNat < 2 ^ 8 := (p.getD 0 0).toNat_lt
  have h₁ : (p.getD 1 0).toNat < 2 ^ 8 := (p.getD 1 0).toNat_lt
  have hfit := byte_shiftLeft_mod (n := 1) (w := 16) h₁ (by norm_num)
  rw [leNat_take_succ (by omega), leNat_take_succ (by omega)]
  simp only [loadU16, UInt16.toNat_or, UInt16.toNat_shiftLeft, UInt8.toNat_toUInt16]
  rw [show (8 : UInt16).toNat % 16 = 8 * 1 from rfl, hfit, or_shiftLeft_eq_add _ h₀]
  simp

/-- The invariant of the four-byte loop: after `n` rounds the accumulator is the
value of the first `n` bytes. -/
theorem loadU32_loop {p : Bytes} {n : ℕ} (hn : n ≤ 4) (hp : n ≤ p.length) :
    ((List.range n).foldl
      (fun v i => v ||| ((p.getD i 0).toUInt32 <<< UInt32.ofNat (8 * i))) 0).toNat =
      leNat (p.take n) := by
  induction n with
  | zero => simp
  | succ n ih =>
      have hbyte : (p.getD n 0).toNat < 2 ^ 8 := (p.getD n 0).toNat_lt
      have hshift : (UInt32.ofNat (8 * n)).toNat % 32 = 8 * n := by
        rw [UInt32.toNat_ofNat']; omega
      rw [List.range_succ, List.foldl_append, List.foldl_cons, List.foldl_nil,
        UInt32.toNat_or, UInt32.toNat_shiftLeft, UInt8.toNat_toUInt32, hshift,
        byte_shiftLeft_mod hbyte (by omega), ih (by omega) (by omega),
        or_shiftLeft_eq_add _ (leNat_take_lt (by omega)), leNat_take_succ (by omega)]

/-- The loop of `u32` loads the number. -/
theorem loadU32_toNat {p : Bytes} (h : 4 ≤ p.length) :
    (loadU32 p).toNat = leNat (p.take 4) := loadU32_loop le_rfl h

/-- The invariant of the eight-byte loop. -/
theorem loadU64_loop {p : Bytes} {n : ℕ} (hn : n ≤ 8) (hp : n ≤ p.length) :
    ((List.range n).foldl
      (fun v i => v ||| ((p.getD i 0).toUInt64 <<< UInt64.ofNat (8 * i))) 0).toNat =
      leNat (p.take n) := by
  induction n with
  | zero => simp
  | succ n ih =>
      have hbyte : (p.getD n 0).toNat < 2 ^ 8 := (p.getD n 0).toNat_lt
      have hshift : (UInt64.ofNat (8 * n)).toNat % 64 = 8 * n := by
        rw [UInt64.toNat_ofNat']; omega
      rw [List.range_succ, List.foldl_append, List.foldl_cons, List.foldl_nil,
        UInt64.toNat_or, UInt64.toNat_shiftLeft, UInt8.toNat_toUInt64, hshift,
        byte_shiftLeft_mod hbyte (by omega), ih (by omega) (by omega),
        or_shiftLeft_eq_add _ (leNat_take_lt (by omega)), leNat_take_succ (by omega)]

/-- The loop of `u64` loads the number. -/
theorem loadU64_toNat {p : Bytes} (h : 8 ≤ p.length) :
    (loadU64 p).toNat = leNat (p.take 8) := loadU64_loop le_rfl h

/-! ## The writer -/

/-- Little-endian writer onto a byte vector. -/
structure ByteWriter where
  out : Bytes
  deriving DecidableEq, Repr

namespace ByteWriter

/-- `out_.push_back(v)`. -/
def u8 (w : ByteWriter) (v : UInt8) : ByteWriter := ⟨w.out ++ [v]⟩

/-- Two bytes, the low one first. -/
def u16 (w : ByteWriter) (v : UInt16) : ByteWriter :=
  (w.u8 (v &&& 0xFF).toUInt8).u8 ((v >>> 8) &&& 0xFF).toUInt8

/-- Four bytes, the low one first. -/
def u32 (w : ByteWriter) (v : UInt32) : ByteWriter :=
  (List.range 4).foldl
    (fun w i => w.u8 ((v >>> UInt32.ofNat (8 * i)) &&& 0xFF).toUInt8) w

/-- Eight bytes, the low one first. -/
def u64 (w : ByteWriter) (v : UInt64) : ByteWriter :=
  (List.range 8).foldl
    (fun w i => w.u8 ((v >>> UInt64.ofNat (8 * i)) &&& 0xFF).toUInt8) w

/-- The bytes as they are. -/
def bytes (w : ByteWriter) (b : Bytes) : ByteWriter := ⟨w.out ++ b⟩

@[simp] theorem u8_out (w : ByteWriter) (v : UInt8) :
    (w.u8 v).out = w.out ++ leBytes 1 v.toNat := by
  rw [leBytes_one]; rfl

@[simp] theorem bytes_out (w : ByteWriter) (b : Bytes) :
    (w.bytes b).out = w.out ++ b := rfl

@[simp] theorem u16_out (w : ByteWriter) (v : UInt16) :
    (w.u16 v).out = w.out ++ leBytes 2 v.toNat := by
  have hlow : (v &&& 0xFF).toUInt8 = UInt8.ofNat v.toNat := by
    apply UInt8.toNat_inj.mp
    rw [UInt16.toNat_toUInt8, UInt16.toNat_and]
    simp [Nat.and_two_pow_sub_one_eq_mod _ 8]
  have hhigh : ((v >>> 8) &&& 0xFF).toUInt8 = UInt8.ofNat (v.toNat / 256) := by
    apply UInt8.toNat_inj.mp
    rw [UInt16.toNat_toUInt8, UInt16.toNat_and, UInt16.toNat_shiftRight,
      Nat.shiftRight_eq_div_pow]
    simp [Nat.and_two_pow_sub_one_eq_mod _ 8]
  simp [u16, u8, hlow, hhigh, leBytes]

/-- The invariant of the four-byte loop: `n` rounds have written the low `n`
bytes. -/
theorem u32_loop (w : ByteWriter) (v : UInt32) {n : ℕ} (hn : n ≤ 4) :
    ((List.range n).foldl
      (fun w i => w.u8 ((v >>> UInt32.ofNat (8 * i)) &&& 0xFF).toUInt8) w).out =
      w.out ++ leBytes n v.toNat := by
  induction n with
  | zero => simp [leBytes]
  | succ n ih =>
      have hshift : (UInt32.ofNat (8 * n)).toNat % 32 = 8 * n := by
        rw [UInt32.toNat_ofNat']; omega
      have hbyte : ((v >>> UInt32.ofNat (8 * n)) &&& 0xFF).toUInt8 =
          UInt8.ofNat (v.toNat / 256 ^ n) := by
        apply UInt8.toNat_inj.mp
        rw [UInt32.toNat_toUInt8, UInt32.toNat_and, UInt32.toNat_shiftRight, hshift,
          Nat.shiftRight_eq_div_pow, pow_mul]
        simp [Nat.and_two_pow_sub_one_eq_mod _ 8]
      rw [List.range_succ, List.foldl_append, List.foldl_cons, List.foldl_nil, u8,
        ih (by omega), hbyte, leBytes_succ_last, List.append_assoc]

@[simp] theorem u32_out (w : ByteWriter) (v : UInt32) :
    (w.u32 v).out = w.out ++ leBytes 4 v.toNat := u32_loop w v le_rfl

/-- The invariant of the eight-byte loop. -/
theorem u64_loop (w : ByteWriter) (v : UInt64) {n : ℕ} (hn : n ≤ 8) :
    ((List.range n).foldl
      (fun w i => w.u8 ((v >>> UInt64.ofNat (8 * i)) &&& 0xFF).toUInt8) w).out =
      w.out ++ leBytes n v.toNat := by
  induction n with
  | zero => simp [leBytes]
  | succ n ih =>
      have hshift : (UInt64.ofNat (8 * n)).toNat % 64 = 8 * n := by
        rw [UInt64.toNat_ofNat']; omega
      have hbyte : ((v >>> UInt64.ofNat (8 * n)) &&& 0xFF).toUInt8 =
          UInt8.ofNat (v.toNat / 256 ^ n) := by
        apply UInt8.toNat_inj.mp
        rw [UInt64.toNat_toUInt8, UInt64.toNat_and, UInt64.toNat_shiftRight, hshift,
          Nat.shiftRight_eq_div_pow, pow_mul]
        simp [Nat.and_two_pow_sub_one_eq_mod _ 8]
      rw [List.range_succ, List.foldl_append, List.foldl_cons, List.foldl_nil, u8,
        ih (by omega), hbyte, leBytes_succ_last, List.append_assoc]

@[simp] theorem u64_out (w : ByteWriter) (v : UInt64) :
    (w.u64 v).out = w.out ++ leBytes 8 v.toNat := u64_loop w v le_rfl

end ByteWriter

/-! ## The reader -/

/-- Bounds-checked little-endian reader.  The first failed read latches `error`;
all subsequent reads are no-ops returning 0, so callers can read then check once. -/
structure ByteReader where
  data : Bytes
  pos : ℕ := 0
  error : Bool := false
  deriving DecidableEq, Repr

namespace ByteReader

/-- Whether `n` more bytes may be read; if not, the error is latched. -/
def ensure (r : ByteReader) (n : ℕ) : Bool × ByteReader :=
  if r.error then (false, r)
  else if r.data.length - r.pos < n then (false, { r with error := true })
  else (true, r)

/-- The read of a field of `n` bytes: nothing and `zero` when it is not all there,
else the field as `load` makes it out at the cursor, and the cursor behind it. -/
def field {ω : Type} (r : ByteReader) (n : ℕ) (zero : ω) (load : Bytes → ω) :
    ω × ByteReader :=
  match r.ensure n with
  | (false, r) => (zero, r)
  | (true, r) => (load (r.data.drop r.pos), { r with pos := r.pos + n })

/-- One byte, or 0. -/
def u8 (r : ByteReader) : UInt8 × ByteReader := r.field 1 0 fun p => p.getD 0 0

/-- Two bytes, the low one first, or 0. -/
def u16 (r : ByteReader) : UInt16 × ByteReader := r.field 2 0 loadU16

/-- Four bytes, the low one first, or 0. -/
def u32 (r : ByteReader) : UInt32 × ByteReader := r.field 4 0 loadU32

/-- Eight bytes, the low one first, or 0. -/
def u64 (r : ByteReader) : UInt64 × ByteReader := r.field 8 0 loadU64

/-- The next `n` bytes, or none. -/
def take (r : ByteReader) (n : ℕ) : Bytes × ByteReader := r.field n [] fun p => p.take n

/-- How much is left. -/
def remaining (r : ByteReader) : ℕ := if r.error then 0 else r.data.length - r.pos

end ByteReader

/-! ## Fixed layouts

A fixed layout is a run of fields of fixed width.  Every message body begins with
one, and most consist of nothing else. -/

/-- The move of a read of width `n`: from `r` to `r'` past the field when `n` more
bytes are there, and into the latched error otherwise. -/
def ByteReader.Moves (r : ByteReader) (n : ℕ) (r' : ByteReader) : Prop :=
  (r.error = false → n ≤ r.data.length - r.pos → r' = { r with pos := r.pos + n }) ∧
    (r.error = true ∨ r.data.length - r.pos < n → r'.error = true)

/-- **Moves add up.**  Two reads in a row succeed exactly when their joint width is
there, because a failed read is latched. -/
theorem ByteReader.Moves.trans {r r' r'' : ByteReader} {a b : ℕ} (h : r.Moves a r')
    (h' : r'.Moves b r'') : r.Moves (a + b) r'' := by
  refine ⟨fun herr hab => ?_, fun hbad => ?_⟩
  · obtain rfl := h.1 herr (by omega)
    rw [h'.1 herr (show b ≤ r.data.length - (r.pos + a) by omega), Nat.add_assoc]
  · by_cases hr : r.error = true ∨ r.data.length - r.pos < a
    · exact h'.2 (Or.inl (h.2 hr))
    · simp only [not_or, Bool.not_eq_true] at hr
      obtain rfl := h.1 hr.1 (by omega)
      refine h'.2 (Or.inr ?_)
      have hshort : r.data.length - r.pos < a + b := hbad.resolve_left (by simp [hr.1])
      show r.data.length - (r.pos + a) < b
      omega

/-- A reader that has gone past `front` and has `rest` left. -/
def ByteReader.reading (front rest : Bytes) : ByteReader :=
  ⟨front ++ rest, front.length, false⟩

namespace ByteReader

@[simp] theorem reading_error (front rest : Bytes) : (reading front rest).error = false := rfl

@[simp] theorem reading_remaining (front rest : Bytes) :
    (reading front rest).remaining = rest.length := by
  simp [reading, remaining]

/-- Reading the field the unread bytes begin with. -/
theorem field_reading {ω : Type} (front bytes rest : Bytes) (zero : ω)
    (load : Bytes → ω) :
    (reading front (bytes ++ rest)).field bytes.length zero load =
      (load (bytes ++ rest), reading (front ++ bytes) rest) := by
  simp [field, ensure, reading]

/-- A field moves the cursor by its size, or not at all. -/
theorem field_moves {ω : Type} (r : ByteReader) (n : ℕ) (zero : ω) (load : Bytes → ω) :
    r.Moves n (r.field n zero load).2 := by
  refine ⟨fun herr hlen => ?_, fun hbad => ?_⟩
  · simp [field, ensure, herr, Nat.not_lt.mpr hlen]
  · by_cases herr : r.error
    · simp [field, ensure, herr]
    · simp [field, ensure, herr, hbad.resolve_left herr]

/-- The next bytes are taken. -/
theorem take_reading (front bytes rest : Bytes) :
    (reading front (bytes ++ rest)).take bytes.length =
      (bytes, reading (front ++ bytes) rest) := by
  rw [take, field_reading, List.take_left]

end ByteReader

open ByteReader (reading)

/-- **A fixed layout**: what is written for a value, the read that gets it back, and
the four facts that make the two inverse to each other. -/
structure Layout (α : Type) where
  width : ℕ
  write : α → Bytes
  read : ByteReader → α × ByteReader
  length_write : ∀ a, (write a).length = width
  /-- Written, then read. -/
  read_reading : ∀ front a rest, read (reading front (write a ++ rest)) =
    (a, reading (front ++ write a) rest)
  /-- A read moves the cursor by the width and does nothing else. -/
  read_moves : ∀ r : ByteReader, r.Moves width (read r).2
  /-- Every byte string that is long enough begins with a written value. -/
  exists_write : ∀ {s : Bytes}, width ≤ s.length → ∃ a t, s = write a ++ t

namespace Layout

variable {α β : Type}

/-- Any bytes are a number. -/
theorem exists_leBytes {s : Bytes} {n : ℕ} (h : n ≤ s.length) :
    ∃ v < 256 ^ n, ∃ t, s = leBytes n v ++ t := by
  have hlen : (s.take n).length = n := by rw [List.length_take, Nat.min_eq_left h]
  refine ⟨leNat (s.take n), ?_, s.drop n, ?_⟩
  · have hlt := leNat_lt (s.take n)
    rwa [hlen] at hlt
  · have hback := leBytes_leNat (s.take n)
    rw [hlen] at hback
    rw [hback, List.take_append_drop]

/-- The layout of a machine word of `n` bytes. -/
def word {ω : Type} (n : ℕ) (zero : ω) (load : Bytes → ω) (toNat : ω → ℕ)
    (ofNat : ℕ → ω) (toNat_lt : ∀ v, toNat v < 256 ^ n)
    (ofNat_toNat : ∀ v, ofNat (toNat v) = v)
    (toNat_ofNat : ∀ {k}, k < 256 ^ n → toNat (ofNat k) = k)
    (load_toNat : ∀ {p : Bytes}, n ≤ p.length → toNat (load p) = leNat (p.take n)) :
    Layout ω where
  width := n
  write v := leBytes n (toNat v)
  read r := r.field n zero load
  length_write v := length_leBytes n _
  read_reading front v rest := by
    have hload : toNat (load (leBytes n (toNat v) ++ rest)) = toNat v := by
      rw [load_toNat (by simp), List.take_left' (length_leBytes n _),
        leNat_leBytes (toNat_lt v)]
    have hvalue : load (leBytes n (toNat v) ++ rest) = v := by
      rw [← ofNat_toNat (load _), hload, ofNat_toNat]
    have hread := ByteReader.field_reading front (leBytes n (toNat v)) rest zero load
    rwa [length_leBytes, hvalue] at hread
  read_moves r := r.field_moves n zero load
  exists_write h := by
    obtain ⟨k, hk, t, rfl⟩ := exists_leBytes h
    exact ⟨ofNat k, t, by rw [toNat_ofNat hk]⟩

/-- A byte. -/
def u8 : Layout UInt8 :=
  word 1 0 (fun p => p.getD 0 0) UInt8.toNat UInt8.ofNat (fun v => v.toNat_lt)
    (fun _ => UInt8.ofNat_toNat) (fun h => UInt8.toNat_ofNat_of_lt' h) fun h => by
      rw [leNat_take_succ (by omega)]
      simp

/-- A word of two bytes. -/
def u16 : Layout UInt16 :=
  word 2 0 loadU16 UInt16.toNat UInt16.ofNat (fun v => v.toNat_lt)
    (fun _ => UInt16.ofNat_toNat) (fun h => UInt16.toNat_ofNat_of_lt' h) loadU16_toNat

/-- A word of four bytes. -/
def u32 : Layout UInt32 :=
  word 4 0 loadU32 UInt32.toNat UInt32.ofNat (fun v => v.toNat_lt)
    (fun _ => UInt32.ofNat_toNat) (fun h => UInt32.toNat_ofNat_of_lt' h) loadU32_toNat

/-- A word of eight bytes. -/
def u64 : Layout UInt64 :=
  word 8 0 loadU64 UInt64.toNat UInt64.ofNat (fun v => v.toNat_lt)
    (fun _ => UInt64.ofNat_toNat) (fun h => UInt64.toNat_ofNat_of_lt' h) loadU64_toNat

/-- One layout after another. -/
def pair (A : Layout α) (B : Layout β) : Layout (α × β) where
  width := A.width + B.width
  write p := A.write p.1 ++ B.write p.2
  read r :=
    let (a, r) := A.read r
    let (b, r) := B.read r
    ((a, b), r)
  length_write p := by simp [A.length_write, B.length_write]
  read_reading front p rest := by
    simp only [List.append_assoc, A.read_reading, B.read_reading]
  read_moves r := (A.read_moves r).trans (B.read_moves _)
  exists_write {s} h := by
    obtain ⟨a, t, rfl⟩ := A.exists_write (show A.width ≤ s.length by omega)
    obtain ⟨b, t, rfl⟩ := B.exists_write (s := t) (by
      rw [List.length_append, A.length_write] at h
      omega)
    exact ⟨(a, b), t, (List.append_assoc _ _ _).symm⟩

/-- A layout of the fields of a record, as a layout of the record. -/
def record (A : Layout α) (make : α → β) (fields : β → α)
    (make_fields : ∀ b, make (fields b) = b) (fields_make : ∀ a, fields (make a) = a) :
    Layout β where
  width := A.width
  write b := A.write (fields b)
  read r := (make (A.read r).1, (A.read r).2)
  length_write b := A.length_write _
  read_reading front b rest := by simp only [A.read_reading, make_fields]
  read_moves r := A.read_moves r
  exists_write h := by
    obtain ⟨a, t, rfl⟩ := A.exists_write h
    exact ⟨make a, t, by rw [fields_make]⟩

/-- A body shorter than the layout fails to be read. -/
theorem read_short (A : Layout α) {s : Bytes} (h : s.length < A.width) :
    (A.read ⟨s, 0, false⟩).2.error = true :=
  (A.read_moves ⟨s, 0, false⟩).2 (Or.inr (by simpa using h))

/-- Reading a body from its start. -/
theorem read_start (A : Layout α) (a : α) (rest : Bytes) :
    A.read ⟨A.write a ++ rest, 0, false⟩ = (a, reading (A.write a) rest) :=
  A.read_reading [] a rest

/-- What is written determines the value. -/
theorem write_injective (A : Layout α) : Function.Injective A.write := by
  intro a b h
  have ha := A.read_start a []
  rw [h, A.read_start b []] at ha
  exact (congrArg Prod.fst ha).symm

end Layout

end TetherDisplay.Protocol
