import TetherDisplay.Protocol.Message
import Mathlib.Data.List.GetD
import Mathlib.Tactic.Common

/-!
# Splitting an Annex-B buffer

`splitNALUnits` of the iPad's decoder goes through the buffer byte by byte and recognises start
codes of three and of four bytes.  A zero byte more than that in front of a start code, or behind
the last unit, is none of its business: it stays with the unit before it (`splitNALUnits_stream`).
So the units come back as they were exactly if there is no such byte (`splitNALUnits_eq_iff`).
-/

namespace TetherDisplay.Client

/-! ## The scanner -/

/-- The start code at `p`, by its length; zero if there is none. -/
def startCodeLen (b : Bytes) (p : ℕ) : ℕ :=
  if p + 3 < b.length ∧ b.getD p 0 = 0 ∧ b.getD (p + 1) 0 = 0 ∧ b.getD (p + 2) 0 = 0 ∧
      b.getD (p + 3) 0 = 1 then 4
  else if p + 2 < b.length ∧ b.getD p 0 = 0 ∧ b.getD (p + 1) 0 = 0 ∧ b.getD (p + 2) 0 = 1 then 3
  else 0

/-- `Data(b[start..<stop])`. -/
def slice (b : Bytes) (start stop : ℕ) : Bytes := (b.drop start).take (stop - start)

/-- `nals.append`, for a unit that has begun and is not empty. -/
def appendUnit (b : Bytes) (nalStart : Option ℕ) (stop : ℕ) (nals : List Bytes) : List Bytes :=
  match nalStart with
  | none => nals
  | some start => if start < stop then nals ++ [slice b start stop] else nals

/-- The loop.  `nalStart` is `none` while the source has `-1` in it. -/
def scanNALUnits (b : Bytes) (i : ℕ) (nalStart : Option ℕ) (nals : List Bytes) : List Bytes :=
  if i < b.length then
    if 0 < startCodeLen b i then
      scanNALUnits b (i + startCodeLen b i) (some (i + startCodeLen b i))
        (appendUnit b nalStart i nals)
    else scanNALUnits b (i + 1) nalStart nals
  else appendUnit b nalStart b.length nals
termination_by b.length - i

/-- `splitNALUnits`. -/
def splitNALUnits (data : Bytes) : List Bytes := scanNALUnits data 0 none []

section Scan

variable {b : Bytes} {i m : ℕ} {nalStart : Option ℕ} {nals : List Bytes}

/-- A start code ends the unit before it. -/
theorem scan_code (hi : i < b.length) (hcode : 0 < startCodeLen b i) :
    scanNALUnits b i nalStart nals =
      scanNALUnits b (i + startCodeLen b i) (some (i + startCodeLen b i))
        (appendUnit b nalStart i nals) := by
  rw [scanNALUnits, if_pos hi, if_pos hcode]

/-- The end of the data ends the last unit. -/
theorem scan_end (hi : b.length ≤ i) :
    scanNALUnits b i nalStart nals = appendUnit b nalStart b.length nals := by
  rw [scanNALUnits, if_neg (by omega)]

/-- The loop goes over a stretch in which no start code begins. -/
theorem scan_skip (hno : ∀ k < m, startCodeLen b (i + k) = 0) (hm : i + m ≤ b.length) :
    scanNALUnits b i nalStart nals = scanNALUnits b (i + m) nalStart nals := by
  induction m generalizing i with
  | zero => rfl
  | succ m ih =>
      have hnone : ¬ 0 < startCodeLen b i := by
        have hzero := hno 0 (Nat.succ_pos m)
        rw [Nat.add_zero] at hzero
        omega
      have hrest : ∀ k < m, startCodeLen b (i + 1 + k) = 0 := by
        intro k hk
        have hzero := hno (k + 1) (Nat.succ_lt_succ hk)
        rwa [← Nat.add_assoc, Nat.add_right_comm] at hzero
      rw [scanNALUnits, if_pos (by omega), if_neg hnone, ih hrest (by omega), Nat.add_assoc,
        Nat.add_comm 1 m]

/-- No empty unit is appended. -/
theorem appendUnit_nonempty (hi : i ≤ b.length) (hnals : ∀ nal ∈ nals, nal ≠ []) :
    ∀ nal ∈ appendUnit b nalStart i nals, nal ≠ [] := by
  cases nalStart with
  | none => exact hnals
  | some start =>
      rw [appendUnit]
      split_ifs with hstart
      · intro nal hnal
        rcases List.mem_append.mp hnal with hnal | hnal
        · exact hnals nal hnal
        · rw [List.mem_singleton.mp hnal, ← List.length_pos_iff, slice, List.length_take,
            List.length_drop]
          omega
      · exact hnals

/-- No unit is empty. -/
theorem scan_nonempty (hnals : ∀ nal ∈ nals, nal ≠ []) :
    ∀ nal ∈ scanNALUnits b i nalStart nals, nal ≠ [] := by
  fun_induction scanNALUnits b i nalStart nals with
  | case1 i nalStart nals hi hcode ih => exact ih (appendUnit_nonempty (Nat.le_of_lt hi) hnals)
  | case2 i nalStart nals hi hcode ih => exact ih hnals
  | case3 i nalStart nals hi => exact appendUnit_nonempty (Nat.le_refl _) hnals

end Scan

/-- No unit is empty, whatever the buffer. -/
theorem splitNALUnits_nonempty (data : Bytes) : ∀ nal ∈ splitNALUnits data, nal ≠ [] :=
  scan_nonempty (List.forall_mem_nil _)

/-! ## Where start codes are -/

section StartCode

variable {b t : Bytes} {p : ℕ}

theorem getD_of_drop {x : UInt8} {k : ℕ} (hdrop : b.drop p = t) (hx : t[k]? = some x) :
    p + k < b.length ∧ b.getD (p + k) 0 = x := by
  have hget : b[p + k]? = some x := by rw [← List.getElem?_drop, hdrop, hx]
  refine ⟨(List.getElem?_eq_some_iff.mp hget).1, ?_⟩
  rw [List.getD_eq_getElem?_getD, hget]
  rfl

theorem startCodeLen_four (hdrop : b.drop p = 0 :: 0 :: 0 :: 1 :: t) : startCodeLen b p = 4 := by
  obtain ⟨-, h₀⟩ := getD_of_drop (k := 0) hdrop rfl
  obtain ⟨-, h₁⟩ := getD_of_drop (k := 1) hdrop rfl
  obtain ⟨-, h₂⟩ := getD_of_drop (k := 2) hdrop rfl
  obtain ⟨hlen, h₃⟩ := getD_of_drop (k := 3) hdrop rfl
  exact if_pos ⟨hlen, h₀, h₁, h₂, h₃⟩

theorem startCodeLen_three (hdrop : b.drop p = 0 :: 0 :: 1 :: t) : startCodeLen b p = 3 := by
  obtain ⟨-, h₀⟩ := getD_of_drop (k := 0) hdrop rfl
  obtain ⟨-, h₁⟩ := getD_of_drop (k := 1) hdrop rfl
  obtain ⟨hlen, h₂⟩ := getD_of_drop (k := 2) hdrop rfl
  rw [startCodeLen, if_neg, if_pos ⟨hlen, h₀, h₁, h₂⟩]
  rintro ⟨-, -, -, hzero, -⟩
  rw [h₂] at hzero
  exact absurd hzero (by decide)

theorem drop_eq_cons (hp : p < b.length) : b.drop p = b.getD p 0 :: b.drop (p + 1) := by
  rw [List.drop_eq_getElem_cons hp, List.getD_eq_getElem _ _ hp]

/-- What a start code looks like. -/
theorem startCode_cases (h : startCodeLen b p ≠ 0) :
    ∃ c t, b.drop p = 0 :: 0 :: c :: t ∧ (c = 1 ∨ c = 0 ∧ ∃ t', t = 1 :: t') := by
  rw [startCodeLen] at h
  split_ifs at h with hfour hthree
  · obtain ⟨hlen, h₀, h₁, h₂, h₃⟩ := hfour
    refine ⟨0, b.drop (p + 3), ?_, Or.inr ⟨rfl, b.drop (p + 4), ?_⟩⟩
    · rw [drop_eq_cons (by omega), drop_eq_cons (by omega), drop_eq_cons (by omega), h₀, h₁, h₂]
    · rw [drop_eq_cons hlen, h₃]
  · obtain ⟨hlen, h₀, h₁, h₂⟩ := hthree
    refine ⟨1, b.drop (p + 3), ?_, Or.inl rfl⟩
    rw [drop_eq_cons (by omega), drop_eq_cons (by omega), drop_eq_cons hlen, h₀, h₁, h₂]
  · exact absurd rfl h

/-- Four zero bytes begin no start code. -/
theorem startCodeLen_zeros (hdrop : b.drop p = 0 :: 0 :: 0 :: 0 :: t) : startCodeLen b p = 0 := by
  by_contra hcode
  obtain ⟨c, t', hcode, hc⟩ := startCode_cases hcode
  rw [hdrop] at hcode
  injection hcode with _ hcode
  injection hcode with _ hcode
  injection hcode with hzero hcode
  rcases hc with rfl | ⟨-, t'', rfl⟩
  · exact absurd hzero (by decide)
  · injection hcode with hone
    exact absurd hone (by decide)

/-- Nor do zero bytes at the end of the buffer. -/
theorem startCodeLen_trailing {n : ℕ} (hdrop : b.drop p = List.replicate n 0) :
    startCodeLen b p = 0 := by
  by_contra hcode
  obtain ⟨c, t, hcode, hc⟩ := startCode_cases hcode
  rw [hdrop] at hcode
  have hzero : ∀ x ∈ (0 :: 0 :: c :: t : Bytes), x = 0 := by
    intro x hx
    rw [← hcode] at hx
    exact List.eq_of_mem_replicate hx
  rcases hc with rfl | ⟨-, t', rfl⟩
  · exact absurd (hzero 1 (by simp)) (by decide)
  · exact absurd (hzero 1 (by simp)) (by decide)

end StartCode

/-! ## Byte streams -/

/-- A unit as HEVC puts it into a byte stream: emulation prevention has left no triple in it that
could be mistaken for a start code, and it does not end in a zero byte. -/
structure NALUnit where
  bytes : Bytes
  nonempty : bytes ≠ []
  escaped : ∀ (k : ℕ) (c : UInt8), bytes[k]? = some 0 → bytes[k + 1]? = some 0 →
    bytes[k + 2]? = some c → 2 < c
  last : bytes.getLast? ≠ some 0

/-- `n` zero bytes: `leading_zero_8bits`, `zero_byte` or `trailing_zero_8bits`. -/
abbrev zeros (n : ℕ) : Bytes := List.replicate n 0

/-- Every unit behind its start code, with some zero bytes in front of that, and some at the
end. -/
def stream : List (ℕ × NALUnit) → ℕ → Bytes
  | [], trailing => zeros trailing
  | (z, u) :: parts, trailing => zeros z ++ 0 :: 0 :: 1 :: (u.bytes ++ stream parts trailing)

/-- A unit and those after it, with the zero bytes that stay with each. -/
def padded : NALUnit → List (ℕ × NALUnit) → ℕ → List Bytes
  | u, [], trailing => [u.bytes ++ zeros trailing]
  | u, (z, v) :: parts, trailing => (u.bytes ++ zeros (z - 1)) :: padded v parts trailing

section Stream

variable {b w : Bytes} {i : ℕ} {nalStart : Option ℕ} {nals : List Bytes}

/-- **No start code begins inside a unit**, whatever follows it. -/
theorem startCodeLen_unit {u : NALUnit} {k : ℕ} (hk : k < u.bytes.length)
    (hdrop : b.drop i = u.bytes.drop k ++ w) : startCodeLen b i = 0 := by
  have hlast : (u.bytes.drop k).getLast? ≠ some 0 := by
    rw [List.getLast?_drop, if_neg (by omega)]
    exact u.last
  have hescaped : ∀ c, (u.bytes.drop k)[0]? = some 0 → (u.bytes.drop k)[1]? = some 0 →
      (u.bytes.drop k)[2]? = some c → 2 < c := by
    intro c h₀ h₁ h₂
    rw [List.getElem?_drop] at h₀ h₁ h₂
    exact u.escaped k c h₀ h₁ h₂
  have hne : u.bytes.drop k ≠ [] := by
    intro hnil
    rw [List.drop_eq_nil_iff] at hnil
    omega
  by_contra hcode
  obtain ⟨c, t, hcode, hc⟩ := startCode_cases hcode
  rw [hdrop] at hcode
  generalize u.bytes.drop k = x at hlast hescaped hne hcode
  rcases x with _ | ⟨x₀, _ | ⟨x₁, _ | ⟨x₂, x⟩⟩⟩
  · exact hne rfl
  · injection hcode with hzero
    exact hlast (congrArg some hzero)
  · injection hcode with _ hcode
    injection hcode with hzero
    exact hlast (congrArg some hzero)
  · injection hcode with h₀ hcode
    injection hcode with h₁ hcode
    injection hcode with h₂
    have hlt : 2 < x₂ := hescaped x₂ (congrArg some h₀) (congrArg some h₁) rfl
    rw [h₂] at hlt
    rcases hc with rfl | ⟨rfl, -⟩
    · exact absurd hlt (by decide)
    · exact absurd hlt (by decide)

theorem le_length_of_drop {v : Bytes} (hv : v ≠ []) (hdrop : b.drop i = v ++ w) :
    i + v.length ≤ b.length := by
  have hpos := List.length_pos_iff.mpr hv
  have hlen := congrArg List.length hdrop
  rw [List.length_drop, List.length_append] at hlen
  omega

/-- The loop goes over a unit. -/
theorem scan_unit (u : NALUnit) (hdrop : b.drop i = u.bytes ++ w) :
    scanNALUnits b i nalStart nals = scanNALUnits b (i + u.bytes.length) nalStart nals := by
  apply scan_skip
  · intro k hk
    apply startCodeLen_unit hk
    rw [← List.drop_drop, hdrop, List.drop_append_of_le_length (Nat.le_of_lt hk)]
  · exact le_length_of_drop u.nonempty hdrop

/-- The loop goes over zero bytes up to the last that belongs to a start code, and behind that. -/
theorem scan_zeros {z : ℕ} (hdrop : b.drop i = zeros z ++ 0 :: 0 :: 1 :: w) :
    ∃ j, b.drop j = w ∧ scanNALUnits b i nalStart nals =
      scanNALUnits b j (some j) (appendUnit b nalStart (i + (z - 1)) nals) := by
  have hrest : ∀ k ≤ z, b.drop (i + k) = zeros (z - k) ++ 0 :: 0 :: 1 :: w := by
    intro k hk
    rw [← List.drop_drop, hdrop, List.drop_append_of_le_length (by simpa using hk),
      List.drop_replicate]
  have hlen : i + (z + 3) ≤ b.length := by
    have hsplit : b.drop i = (zeros z ++ [0, 0, 1]) ++ w := by rw [hdrop, List.append_assoc]; rfl
    have hle := le_length_of_drop (by simp) hsplit
    simpa using hle
  have hskip : scanNALUnits b i nalStart nals = scanNALUnits b (i + (z - 1)) nalStart nals := by
    apply scan_skip
    · intro k hk
      obtain ⟨n, hn⟩ : ∃ n, z - k = n + 2 := ⟨z - k - 2, by omega⟩
      have hzeros := hrest k (by omega)
      rw [hn] at hzeros
      cases n with
      | zero => exact startCodeLen_zeros hzeros
      | succ n =>
          cases n with
          | zero => exact startCodeLen_zeros hzeros
          | succ n => exact startCodeLen_zeros hzeros
    · omega
  have hcode := hrest (z - 1) (Nat.sub_le z 1)
  rw [hskip]
  cases z with
  | zero =>
      have hthree : startCodeLen b (i + (0 - 1)) = 3 := startCodeLen_three hcode
      refine ⟨i + (0 - 1) + 3, ?_, ?_⟩
      · rw [← List.drop_drop, hcode]
        rfl
      · rw [scan_code (by omega) (by omega), hthree]
  | succ z =>
      have hone : z + 1 - (z + 1 - 1) = 1 := by omega
      rw [hone] at hcode
      have hfour : startCodeLen b (i + (z + 1 - 1)) = 4 := startCodeLen_four hcode
      refine ⟨i + (z + 1 - 1) + 4, ?_, ?_⟩
      · rw [← List.drop_drop, hcode]
        rfl
      · rw [scan_code (by omega) (by omega), hfour]

/-- The loop goes over zero bytes at the end. -/
theorem scan_trailing {n : ℕ} (hdrop : b.drop i = zeros n) (hi : i ≤ b.length) :
    scanNALUnits b i nalStart nals = appendUnit b nalStart b.length nals := by
  have hlen : b.length - i = n := by rw [← List.length_drop, hdrop, List.length_replicate]
  have hskip : scanNALUnits b i nalStart nals = scanNALUnits b (i + n) nalStart nals := by
    apply scan_skip
    · intro k hk
      apply startCodeLen_trailing (n := n - k)
      rw [← List.drop_drop, hdrop, List.drop_replicate]
    · omega
  rw [hskip, scan_end (by omega)]

/-- The unit that is appended is what stands between two start codes. -/
theorem appendUnit_slice {stop : ℕ} {v : Bytes} (hv : v ≠ []) (hdrop : b.drop i = v ++ w)
    (hstop : stop = i + v.length) : appendUnit b (some i) stop nals = nals ++ [v] := by
  have hpos := List.length_pos_iff.mpr hv
  have hslice : slice b i stop = v := by
    rw [slice, hdrop, hstop, Nat.add_sub_cancel_left, List.take_left]
  rw [appendUnit, if_pos (by omega), hslice]

/-- **From a unit on**, the loop appends the units with the zero bytes that stay with them. -/
theorem scan_stream (u : NALUnit) (parts : List (ℕ × NALUnit)) (trailing : ℕ)
    (hdrop : b.drop i = u.bytes ++ stream parts trailing) :
    scanNALUnits b i (some i) nals = nals ++ padded u parts trailing := by
  induction parts generalizing i u nals with
  | nil =>
      have hle := le_length_of_drop u.nonempty hdrop
      have hend : b.drop (i + u.bytes.length) = zeros trailing := by
        rw [← List.drop_drop, hdrop, List.drop_left]
        rfl
      have hlast : b.drop i = u.bytes ++ zeros trailing := hdrop
      have hlen : b.length = i + (u.bytes ++ zeros trailing).length := by
        rw [← hlast, List.length_drop]
        omega
      rw [scan_unit u hdrop, scan_trailing hend hle]
      exact appendUnit_slice (List.append_ne_nil_of_left_ne_nil u.nonempty _)
        (hlast.trans (List.append_nil _).symm) hlen
  | cons part parts ih =>
      obtain ⟨z, v⟩ := part
      let code : Bytes := 0 :: 0 :: 1 :: (v.bytes ++ stream parts trailing)
      have hzeros : b.drop (i + u.bytes.length) = zeros z ++ code := by
        rw [← List.drop_drop, hdrop, List.drop_left]
        rfl
      have hsplit : b.drop i =
          (u.bytes ++ zeros (z - 1)) ++ (zeros (z - (z - 1)) ++ code) := by
        have hz : zeros z = zeros (z - 1) ++ zeros (z - (z - 1)) := by
          rw [List.replicate_append_replicate]
          congr 1
          omega
        rw [hdrop, stream, hz, List.append_assoc, List.append_assoc]
      have happend : appendUnit b (some i) (i + u.bytes.length + (z - 1)) nals =
          nals ++ [u.bytes ++ zeros (z - 1)] := by
        apply appendUnit_slice (List.append_ne_nil_of_left_ne_nil u.nonempty _) hsplit
        rw [List.length_append, List.length_replicate, Nat.add_assoc]
      have hscan : ∃ j, b.drop j = v.bytes ++ stream parts trailing ∧
          scanNALUnits b (i + u.bytes.length) (some i) nals =
            scanNALUnits b j (some j) (appendUnit b (some i) (i + u.bytes.length + (z - 1)) nals) :=
        scan_zeros hzeros
      obtain ⟨j, hj, hscan⟩ := hscan
      rw [scan_unit u hdrop, hscan, ih v hj, happend, List.append_assoc]
      rfl

end Stream

/-- What the units of a stream become. -/
def paddedUnits : List (ℕ × NALUnit) → ℕ → List Bytes
  | [], _ => []
  | (_, u) :: parts, trailing => padded u parts trailing

/-- **Splitting a stream.**  Every unit comes back in its place, with the zero bytes behind it that
are not part of a start code. -/
theorem splitNALUnits_stream (parts : List (ℕ × NALUnit)) (trailing : ℕ) :
    splitNALUnits (stream parts trailing) = paddedUnits parts trailing := by
  rw [splitNALUnits]
  cases parts with
  | nil => exact scan_trailing rfl (Nat.zero_le _)
  | cons part parts =>
      obtain ⟨z, u⟩ := part
      have hscan : ∃ j, (stream ((z, u) :: parts) trailing).drop j =
          u.bytes ++ stream parts trailing ∧ scanNALUnits (stream ((z, u) :: parts) trailing) 0 none [] =
            scanNALUnits (stream ((z, u) :: parts) trailing) j (some j) [] :=
        scan_zeros rfl
      obtain ⟨j, hj, hscan⟩ := hscan
      rw [hscan, scan_stream u parts trailing hj]
      rfl

/-- The units of a stream. -/
def unitsOf (parts : List (ℕ × NALUnit)) : List Bytes := parts.map fun p => p.2.bytes

theorem append_zeros_eq_self {v : Bytes} {n : ℕ} : v ++ zeros n = v ↔ n = 0 := by
  rw [List.append_right_eq_self, List.replicate_eq_nil_iff]

/-- Padding shows unless at most one zero precedes each start code and none follows at the end. -/
theorem padded_eq_iff (u : NALUnit) (parts : List (ℕ × NALUnit)) (trailing : ℕ) :
    padded u parts trailing = u.bytes :: unitsOf parts ↔
      (∀ p ∈ parts, p.1 ≤ 1) ∧ trailing = 0 := by
  induction parts generalizing u with
  | nil => simp [padded, unitsOf]
  | cons part parts ih =>
      obtain ⟨z, v⟩ := part
      have hz : z - 1 = 0 ↔ z ≤ 1 := by omega
      rw [padded, unitsOf, List.map_cons, ← unitsOf, List.cons.injEq, append_zeros_eq_self, ih,
        hz, List.forall_mem_cons, and_assoc]

/-- **The units come back as they were** exactly if no start code but the first has more than one
zero byte in front of it, and there are none behind the last unit. -/
theorem splitNALUnits_eq_iff (parts : List (ℕ × NALUnit)) (trailing : ℕ) :
    splitNALUnits (stream parts trailing) = unitsOf parts ↔
      (∀ p ∈ parts.tail, p.1 ≤ 1) ∧ (parts = [] ∨ trailing = 0) := by
  rw [splitNALUnits_stream]
  cases parts with
  | nil => simp [paddedUnits, unitsOf]
  | cons part parts =>
      obtain ⟨z, u⟩ := part
      have hunits : unitsOf ((z, u) :: parts) = u.bytes :: unitsOf parts := rfl
      rw [paddedUnits, hunits, padded_eq_iff, List.tail_cons, or_iff_right (List.cons_ne_nil _ _)]

end TetherDisplay.Client
