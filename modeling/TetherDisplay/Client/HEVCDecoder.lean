import TetherDisplay.Client.AnnexB
import TetherDisplay.Foundations.Framing
import TetherDisplay.Foundations.LittleEndian

/-!
# The buffer that is handed to VideoToolbox

`decode` sorts the units of an access unit by their type, refreshes the format description from the
parameter sets, and puts the slices into one buffer, each behind its length in four bytes, most
significant first.  What VideoToolbox makes of descriptions and sessions is a parameter.

Reading the buffer by its lengths gives back the slices (`readUnits_lengthPrefixed`), so `decode`
recovers the slices of a stream exactly where the splitter recovers its units (`recovered_iff`).
A slice of `2 ^ 32` bytes or more has no such length, and the conversion traps.
-/

namespace TetherDisplay.Client

open LittleEndian
open Framing (Scan Grammar)

/-! ## The source -/

/-- The type of a unit: bits 1 to 6 of its first byte. -/
def nalType (nal : Bytes) : UInt8 := (nal.headD 0 >>> 1) &&& 0x3F

namespace NAL

/-- The type of a video parameter set. -/
def vps : UInt8 := 32
/-- The type of a sequence parameter set. -/
def sps : UInt8 := 33
/-- The type of a picture parameter set. -/
def pps : UInt8 := 34

end NAL

/-- The units of an access unit by type. -/
structure SortedUnits where
  vps : Option Bytes := none
  sps : Option Bytes := none
  pps : Option Bytes := none
  vcl : List Bytes := []

/-- The `switch` over the type of a unit. -/
def SortedUnits.add (s : SortedUnits) (nal : Bytes) : SortedUnits :=
  if nalType nal = NAL.vps then { s with vps := some nal }
  else if nalType nal = NAL.sps then { s with sps := some nal }
  else if nalType nal = NAL.pps then { s with pps := some nal }
  else if nalType nal ≤ 31 then { s with vcl := s.vcl ++ [nal] }
  else s

/-- `UInt32(count).bigEndian`, as its bytes lie in memory. -/
def bigEndianBytes (v : UInt32) : Bytes :=
  [(v >>> 24).toUInt8, (v >>> 16).toUInt8, (v >>> 8).toUInt8, v.toUInt8]

/-- One round of the loop over the slices; `none` is the trap of `UInt32(nal.count)`. -/
def appendPrefixed (avcc : Option Bytes) (nal : Bytes) : Option Bytes :=
  avcc.bind fun avcc =>
    if nal.length < 2 ^ 32 then some (avcc ++ bigEndianBytes (UInt32.ofNat nal.length) ++ nal)
    else none

/-- Annex-B to HVCC: the slices, each behind its length. -/
def lengthPrefixed (vcl : List Bytes) : Option Bytes := vcl.foldl appendPrefixed (some [])

/-- What VideoToolbox answers, with `F` for `CMFormatDescription` and `S` for
`VTDecompressionSession`. -/
structure VideoToolbox (F S : Type) where
  createFormatDescription : Bytes → Bytes → Bytes → Option F
  formatDescriptionEqual : F → F → Bool
  createSession : F → Option S

/-- The decoder: the format of the stream and the session for it. -/
structure HEVCDecoder (F S : Type) where
  formatDesc : Option F := none
  session : Option S := none

/-- What becomes of an access unit. -/
inductive Decoded where
  /-- It returns before a buffer is built. -/
  | nothing
  | trapped
  | built (avcc : Bytes)
  deriving DecidableEq

namespace HEVCDecoder

variable {F S : Type} (vt : VideoToolbox F S) (d : HEVCDecoder F S)

/-- The session is recreated if the parameter sets have changed. -/
def makeFormatDescription (vps sps pps : Bytes) : HEVCDecoder F S :=
  match vt.createFormatDescription vps sps pps with
  | none => d
  | some fmt =>
      match d.formatDesc with
      | none => { d with formatDesc := some fmt }
      | some existing =>
          if vt.formatDescriptionEqual fmt existing then { d with formatDesc := some fmt }
          else { formatDesc := some fmt, session := none }

/-- The format description after the parameter sets, if all three are there. -/
def refresh (units : SortedUnits) : HEVCDecoder F S :=
  match units.vps, units.sps, units.pps with
  | some v, some s, some p => d.makeFormatDescription vt v s p
  | _, _, _ => d

/-- One access unit, up to the buffer that goes into the sample. -/
def decode (accessUnit : Bytes) : Decoded × HEVCDecoder F S :=
  let units := (splitNALUnits accessUnit).foldl SortedUnits.add {}
  let d := d.refresh vt units
  match d.formatDesc with
  | none => (.nothing, d)
  | some fmt =>
      if units.vcl.isEmpty then (.nothing, d)
      else
        match d.session.or (vt.createSession fmt) with
        | none => (.nothing, d)
        | some session =>
            let d := { d with session := some session }
            match lengthPrefixed units.vcl with
            | none => (.trapped, d)
            | some avcc => (.built avcc, d)

end HEVCDecoder

/-! ## The slices -/

/-- The units of the types of slices. -/
def IsSlice (nal : Bytes) : Prop := nalType nal ≤ 31

instance (nal : Bytes) : Decidable (IsSlice nal) := inferInstanceAs (Decidable (_ ≤ _))

/-- The units that carry picture data. -/
def slices (nals : List Bytes) : List Bytes := nals.filter (fun nal => IsSlice nal)

theorem vcl_add (s : SortedUnits) (nal : Bytes) :
    (s.add nal).vcl = s.vcl ++ slices [nal] := by
  -- The types of the parameter sets are above those of the slices.
  have hparam : ∀ t : UInt8, 31 < t → nalType nal = t → slices [nal] = [] := by
    intro t ht htype
    have hnot : ¬ IsSlice nal := by
      rw [IsSlice, htype]
      exact UInt8.not_le.mpr ht
    simp [slices, hnot]
  rw [SortedUnits.add]
  split_ifs with hvps hsps hpps hslice
  · rw [hparam _ (by decide) hvps, List.append_nil]
  · rw [hparam _ (by decide) hsps, List.append_nil]
  · rw [hparam _ (by decide) hpps, List.append_nil]
  · have hslice : IsSlice nal := hslice
    simp [slices, hslice]
  · have hnot : ¬ IsSlice nal := hslice
    simp [slices, hnot]

/-- The slices are kept, in order. -/
theorem vcl_foldl (s : SortedUnits) (nals : List Bytes) :
    (nals.foldl SortedUnits.add s).vcl = s.vcl ++ slices nals := by
  induction nals generalizing s with
  | nil => exact (List.append_nil _).symm
  | cons nal nals ih =>
      rw [List.foldl_cons, ih, vcl_add, List.append_assoc, slices, slices, slices,
        ← List.filter_append]
      rfl

section Decode

variable {F S : Type} (vt : VideoToolbox F S) (d : HEVCDecoder F S) (accessUnit : Bytes)

/-- **The buffer is made of the slices**, whatever the state of the decoder. -/
theorem decode_cases :
    (d.decode vt accessUnit).1 = .nothing ∨
      (d.decode vt accessUnit).1 =
        (lengthPrefixed (slices (splitNALUnits accessUnit))).elim .trapped .built := by
  have hvcl := vcl_foldl {} (splitNALUnits accessUnit)
  rw [List.nil_append] at hvcl
  rw [HEVCDecoder.decode, hvcl]
  generalize d.refresh vt _ = d'
  cases hfmt : d'.formatDesc with
  | none => exact Or.inl rfl
  | some fmt =>
      cases hnone : (slices (splitNALUnits accessUnit)).isEmpty with
      | true => exact Or.inl rfl
      | false =>
          cases hsession : d'.session.or (vt.createSession fmt) with
          | none =>
              left
              simp [hsession]
          | some session =>
              right
              cases lengthPrefixed (slices (splitNALUnits accessUnit)) <;> simp [hsession]

end Decode

/-! ## Reading the buffer by its lengths -/

/-- The high byte first. -/
theorem bigEndianBytes_eq (v : UInt32) : bigEndianBytes v = (leBytes 4 v.toNat).reverse := by
  have hbyte : ∀ k : ℕ, k < 32 → (v >>> UInt32.ofNat k).toUInt8 = UInt8.ofNat (v.toNat / 2 ^ k) := by
    intro k hk
    apply UInt8.toNat_inj.mp
    have hshift : (UInt32.ofNat k).toNat % 32 = k := by
      rw [UInt32.toNat_ofNat']
      omega
    rw [UInt32.toNat_toUInt8, UInt32.toNat_shiftRight, hshift, Nat.shiftRight_eq_div_pow]
    rfl
  have h₀ : v.toUInt8 = UInt8.ofNat v.toNat := UInt8.toNat_inj.mp (UInt32.toNat_toUInt8 v)
  have h₁ : (v >>> 8).toUInt8 = UInt8.ofNat (v.toNat / 256) := hbyte 8 (by decide)
  have h₂ : (v >>> 16).toUInt8 = UInt8.ofNat (v.toNat / 256 / 256) := by
    rw [Nat.div_div_eq_div_mul]
    exact hbyte 16 (by decide)
  have h₃ : (v >>> 24).toUInt8 = UInt8.ofNat (v.toNat / 256 / 256 / 256) := by
    rw [Nat.div_div_eq_div_mul, Nat.div_div_eq_div_mul]
    exact hbyte 24 (by decide)
  rw [bigEndianBytes, h₀, h₁, h₂, h₃]
  rfl

theorem length_bigEndianBytes (v : UInt32) : (bigEndianBytes v).length = 4 := rfl

theorem leNat_bigEndianBytes (v : UInt32) : leNat (bigEndianBytes v).reverse = v.toNat := by
  rw [bigEndianBytes_eq, List.reverse_reverse, leNat_leBytes v.toNat_lt]

/-- The length that a buffer begins with. -/
def lengthField (s : Bytes) : ℕ := leNat (s.take 4).reverse

/-- What the buffer goes on with: a length and as many bytes. -/
def scanUnit (s : Bytes) : Scan Bytes Unit :=
  if s.length < 4 + lengthField s ∨ s.length < 4 then .more
  else .item ((s.drop 4).take (lengthField s)) (4 + lengthField s)

/-- What the scanner finds. -/
theorem scanUnit_item {s nal : Bytes} {k : ℕ} (h : scanUnit s = .item nal k) :
    k = 4 + lengthField s ∧ nal = (s.drop 4).take (lengthField s) ∧
      4 + lengthField s ≤ s.length := by
  rw [scanUnit] at h
  split_ifs at h with hshort
  injection h with hnal hk
  rw [not_or] at hshort
  exact ⟨hk.symm, hnal.symm, Nat.not_lt.mp hshort.1⟩

/-- The buffer as a byte stream of units. -/
def unitGrammar : Grammar UInt8 Bytes Unit where
  scan := scanUnit
  used_pos h := by
    obtain ⟨rfl, -, -⟩ := scanUnit_item h
    omega
  used_le h := by
    obtain ⟨rfl, -, hle⟩ := scanUnit_item h
    exact hle
  item_append {s nal k} h t := by
    obtain ⟨rfl, rfl, hle⟩ := scanUnit_item h
    have hfield : lengthField (s ++ t) = lengthField s := by
      rw [lengthField, lengthField, List.take_append_of_le_length (by omega)]
    have hbytes : ((s ++ t).drop 4).take (lengthField s) = (s.drop 4).take (lengthField s) := by
      rw [List.drop_append_of_le_length (by omega), List.take_append_of_le_length]
      rw [List.length_drop]
      omega
    rw [scanUnit, if_neg, hfield, hbytes]
    rw [hfield, List.length_append]
    omega
  fail_append {s e} h t := by
    rw [scanUnit] at h
    split_ifs at h

/-- The units of a buffer, if it holds nothing else. -/
def readUnits (avcc : Bytes) : Option (List Bytes) :=
  if (unitGrammar.parse avcc).rest = [] then some (unitGrammar.parse avcc).items else none

/-- A unit behind its length. -/
def unitWire (nal : Bytes) : Bytes := bigEndianBytes (UInt32.ofNat nal.length) ++ nal

/-- A unit that has been written is found again. -/
theorem scan_unitWire {nal : Bytes} (hlen : nal.length < 2 ^ 32) (t : Bytes) :
    scanUnit (unitWire nal ++ t) = .item nal (unitWire nal).length := by
  have htake : (unitWire nal ++ t).take 4 = bigEndianBytes (UInt32.ofNat nal.length) := by
    rw [unitWire, List.append_assoc]
    exact List.take_left' (length_bigEndianBytes _)
  have hdrop : (unitWire nal ++ t).drop 4 = nal ++ t := by
    rw [unitWire, List.append_assoc]
    exact List.drop_left' (length_bigEndianBytes _)
  have hwire : (unitWire nal).length = 4 + nal.length := by
    rw [unitWire, List.length_append, length_bigEndianBytes]
  have hfield : lengthField (unitWire nal ++ t) = nal.length := by
    rw [lengthField, htake, leNat_bigEndianBytes, UInt32.toNat_ofNat_of_lt' hlen]
  rw [scanUnit, hfield, if_neg, hdrop, List.take_left, hwire]
  rw [List.length_append, hwire]
  omega

/-- All units of a buffer are found again. -/
theorem parse_units {vcl : List Bytes} (hlen : ∀ nal ∈ vcl, nal.length < 2 ^ 32) :
    unitGrammar.parse (vcl.flatMap unitWire) = ⟨vcl, [], none⟩ := by
  induction vcl with
  | nil => rfl
  | cons nal vcl ih =>
      obtain ⟨hnal, hvcl⟩ := List.forall_mem_cons.mp hlen
      rw [List.flatMap_cons, Grammar.parse_item (scan_unitWire hnal _), List.drop_left, ih hvcl]

/-- After a trap nothing is built. -/
theorem foldl_trapped (vcl : List Bytes) : vcl.foldl appendPrefixed none = none := by
  induction vcl with
  | nil => rfl
  | cons nal vcl ih => exact ih

/-- A buffer is built unless the length of a unit does not fit into its field. -/
theorem foldl_appendPrefixed (avcc : Bytes) (vcl : List Bytes) :
    vcl.foldl appendPrefixed (some avcc) =
      if ∀ nal ∈ vcl, nal.length < 2 ^ 32 then some (avcc ++ vcl.flatMap unitWire) else none := by
  induction vcl generalizing avcc with
  | nil => simp
  | cons nal vcl ih =>
      rw [List.foldl_cons, appendPrefixed, Option.bind_some]
      by_cases hnal : nal.length < 2 ^ 32
      · have hall : (∀ x ∈ nal :: vcl, x.length < 2 ^ 32) ↔ ∀ x ∈ vcl, x.length < 2 ^ 32 := by
          rw [List.forall_mem_cons, and_iff_right hnal]
        have hbytes : avcc ++ bigEndianBytes (UInt32.ofNat nal.length) ++ nal ++
            vcl.flatMap unitWire = avcc ++ (nal :: vcl).flatMap unitWire := by
          rw [List.flatMap_cons, unitWire]
          simp only [List.append_assoc]
        rw [if_pos hnal, ih, hbytes]
        simp only [hall]
      · have hall : ¬ ∀ x ∈ nal :: vcl, x.length < 2 ^ 32 := by
          rw [List.forall_mem_cons]
          exact fun h => hnal h.1
        rw [if_neg hnal, if_neg hall, foldl_trapped]

/-- **The conversion** puts every slice behind its length, and traps if one is too long. -/
theorem lengthPrefixed_eq (vcl : List Bytes) :
    lengthPrefixed vcl =
      if ∀ nal ∈ vcl, nal.length < 2 ^ 32 then some (vcl.flatMap unitWire) else none := by
  rw [lengthPrefixed, foldl_appendPrefixed, List.nil_append]

/-- **What is built is read back.** -/
theorem readUnits_lengthPrefixed {vcl : List Bytes} {avcc : Bytes}
    (h : lengthPrefixed vcl = some avcc) : readUnits avcc = some vcl := by
  rw [lengthPrefixed_eq] at h
  split_ifs at h with hlen
  cases h
  rw [readUnits, parse_units hlen, if_pos rfl]

/-! ## What is recovered of a stream -/

/-- The splitter returns the units, none of them empty, and no decoder fails on the buffer; what it
builds of it is read back as the slices among the units. -/
structure Recovered (units : List Bytes) (buffer : Bytes) : Prop where
  split : splitNALUnits buffer = units
  nonempty : ∀ nal ∈ splitNALUnits buffer, nal ≠ []
  total : ∀ {F S : Type} (vt : VideoToolbox F S) (d : HEVCDecoder F S),
    (d.decode vt buffer).1 ≠ .trapped
  slices : ∀ {F S : Type} (vt : VideoToolbox F S) (d : HEVCDecoder F S) (avcc : Bytes),
    (d.decode vt buffer).1 = .built avcc → readUnits avcc = some (slices units)

/-- No more than the zero byte of a start code in front of any but the first, nothing behind the
last unit, and no slice whose length does not fit into four bytes. -/
def Plain (parts : List (ℕ × NALUnit)) (trailing : ℕ) : Prop :=
  ((∀ p ∈ parts.tail, p.1 ≤ 1) ∧ (parts = [] ∨ trailing = 0)) ∧
    ∀ nal ∈ slices (unitsOf parts), nal.length < 2 ^ 32

/-- A VideoToolbox that never fails and takes all descriptions for one, and a decoder with a
session of it. -/
def willing : VideoToolbox Unit Unit where
  createFormatDescription _ _ _ := some ()
  formatDescriptionEqual _ _ := true
  createSession _ := some ()

/-- A decoder with a session. -/
def ready : HEVCDecoder Unit Unit := { formatDesc := some (), session := some () }

theorem refresh_ready (units : SortedUnits) : ready.refresh willing units = ready := by
  obtain ⟨vps, sps, pps, vcl⟩ := units
  cases vps <;> cases sps <;> cases pps <;> rfl

/-- Every slice of an access unit that does not make this decoder fail has a length that fits. -/
theorem short_of_ready {buffer : Bytes} (h : (ready.decode willing buffer).1 ≠ .trapped) :
    ∀ nal ∈ slices (splitNALUnits buffer), nal.length < 2 ^ 32 := by
  have hvcl := vcl_foldl {} (splitNALUnits buffer)
  rw [List.nil_append] at hvcl
  rw [HEVCDecoder.decode, refresh_ready, hvcl, lengthPrefixed_eq] at h
  by_contra hlong
  have hsome : (slices (splitNALUnits buffer)).isEmpty = false := by
    rw [List.isEmpty_eq_false_iff]
    intro hnil
    rw [hnil] at hlong
    exact hlong (List.forall_mem_nil _)
  rw [if_neg hlong] at h
  simp [ready, hsome] at h

/-- **When a stream is recovered.** -/
theorem recovered_iff (parts : List (ℕ × NALUnit)) (trailing : ℕ) :
    Recovered (unitsOf parts) (stream parts trailing) ↔ Plain parts trailing := by
  rw [Plain, ← splitNALUnits_eq_iff]
  constructor
  · intro h
    have hshort := short_of_ready (h.total willing ready)
    rw [h.split] at hshort
    exact ⟨h.split, hshort⟩
  · rintro ⟨hsplit, hshort⟩
    refine ⟨hsplit, splitNALUnits_nonempty _, ?_, ?_⟩
    · intro F S vt d
      have hcases := decode_cases vt d (stream parts trailing)
      rw [hsplit, lengthPrefixed_eq, if_pos hshort] at hcases
      rcases hcases with h | h
      · rw [h]
        exact Decoded.noConfusion
      · rw [h]
        exact Decoded.noConfusion
    · intro F S vt d avcc hbuilt
      have hcases := decode_cases vt d (stream parts trailing)
      rw [hbuilt, hsplit] at hcases
      rcases hcases with h | h
      · cases h
      · cases hprefixed : lengthPrefixed (slices (unitsOf parts)) with
        | none =>
            rw [hprefixed] at h
            cases h
        | some avcc' =>
            rw [hprefixed] at h
            cases h
            exact readUnits_lengthPrefixed hprefixed

/-- Two units, the first of them followed by a zero byte more than a start code has: the byte
stays with it. -/
theorem zero_byte_kept :
    ∃ u v : NALUnit, u.bytes = [0x26, 0x01, 0xAF] ∧ v.bytes = [0x02, 0x01, 0xD0] ∧
      stream [(1, u), (2, v)] 0 =
        [0, 0, 0, 1, 0x26, 0x01, 0xAF, 0, 0, 0, 0, 1, 0x02, 0x01, 0xD0] ∧
      splitNALUnits (stream [(1, u), (2, v)] 0) =
        [[0x26, 0x01, 0xAF, 0], [0x02, 0x01, 0xD0]] ∧
      ¬ Recovered [u.bytes, v.bytes] (stream [(1, u), (2, v)] 0) := by
  have hescaped : ∀ bytes : Bytes, 0 ∉ bytes → ∀ (k : ℕ) (c : UInt8), bytes[k]? = some 0 →
      bytes[k + 1]? = some 0 → bytes[k + 2]? = some c → 2 < c :=
    fun bytes hzero k c h _ _ => absurd (List.mem_of_getElem? h) hzero
  let u : NALUnit :=
    { bytes := [0x26, 0x01, 0xAF], nonempty := by simp, escaped := hescaped _ (by decide)
      last := by decide }
  let v : NALUnit :=
    { bytes := [0x02, 0x01, 0xD0], nonempty := by simp, escaped := hescaped _ (by decide)
      last := by decide }
  refine ⟨u, v, rfl, rfl, rfl, splitNALUnits_stream _ _, fun h => ?_⟩
  have hkept : ([[0x26, 0x01, 0xAF, 0], [0x02, 0x01, 0xD0]] : List Bytes) =
      [[0x26, 0x01, 0xAF], [0x02, 0x01, 0xD0]] := (splitNALUnits_stream _ _).symm.trans h.split
  exact absurd hkept (by decide)

end TetherDisplay.Client
