import TetherDisplay.Protocol.Cursor

/-!
# The usbmux packet framing

A packet is a 16-byte little-endian header and a property list.  The header's `length` counts the
whole packet.  What `encodeHeader` wrote `decodeHeader` reads back, as long as the length covers
the header itself (`decodeHeader_encodeHeader`), so a packet's header gives the payload's size.
-/

namespace TetherDisplay.Usbmux

open LittleEndian Protocol

/-- The size of a header. -/
def kHeaderSize : ℕ := 16

def kVersionPlist : UInt32 := 1
def kMessagePlist : UInt32 := 8

def kResultOk : Int32 := 0
/-- The device is not connected. -/
def kResultBadDevice : Int32 := 2
/-- No app is listening on that port of the device. -/
def kResultConnRefused : Int32 := 3

/-- The header of a packet. -/
structure MuxHeader where
  length : UInt32 := 0
  version : UInt32 := kVersionPlist
  message : UInt32 := kMessagePlist
  /-- Chosen by the client; the daemon echoes it. -/
  tag : UInt32 := 0
  deriving DecidableEq, Repr

/-- Four bytes, the low one first. -/
def putU32Le (v : UInt32) : Bytes :=
  [(v &&& 0xFF).toUInt8, ((v >>> 8) &&& 0xFF).toUInt8, ((v >>> 16) &&& 0xFF).toUInt8,
    ((v >>> 24) &&& 0xFF).toUInt8]

/-- Four bytes, the low one first. -/
def getU32Le (p : Bytes) : UInt32 :=
  (p.getD 0 0).toUInt32 ||| ((p.getD 1 0).toUInt32 <<< 8) ||| ((p.getD 2 0).toUInt32 <<< 16) |||
    ((p.getD 3 0).toUInt32 <<< 24)

/-- `EncodeHeader`. -/
def encodeHeader (h : MuxHeader) : Bytes :=
  putU32Le h.length ++ putU32Le h.version ++ putU32Le h.message ++ putU32Le h.tag

/-- `DecodeHeader`. -/
def decodeHeader (bytes : Bytes) : Option MuxHeader :=
  if bytes.length < kHeaderSize then none
  else
    let h : MuxHeader :=
      { length := getU32Le (bytes.drop 0)
        version := getU32Le (bytes.drop 4)
        message := getU32Le (bytes.drop 8)
        tag := getU32Le (bytes.drop 12) }
    -- The length must at least cover the header.
    if h.length < 16 then none else some h

/-- `EncodePacket`. -/
def encodePacket (tag : UInt32) (plistPayload : Bytes) : Bytes :=
  encodeHeader
    { length := UInt32.ofNat (kHeaderSize + plistPayload.length)
      version := kVersionPlist
      message := kMessagePlist
      tag := tag } ++ plistPayload

/-- The port in network order, as the daemon wants it. -/
def encodePortBigEndian (port : UInt16) : UInt16 := (port <<< 8) ||| (port >>> 8)

example : encodePortBigEndian 2345 = 10505 := by decide

/-- The two bytes of the port are swapped. -/
theorem toNat_encodePortBigEndian (port : UInt16) :
    (encodePortBigEndian port).toNat = 256 * (port.toNat % 256) + port.toNat / 256 := by
  have hlt := port.toNat_lt
  have hshift : (8 : UInt16).toNat % 16 = 8 := rfl
  have hlow : port.toNat / 2 ^ 8 < 2 ^ 8 := by omega
  have hhigh : port.toNat <<< 8 % 2 ^ 16 = (port.toNat % 256) <<< 8 := by
    rw [Nat.shiftLeft_eq, Nat.shiftLeft_eq]
    omega
  rw [encodePortBigEndian, UInt16.toNat_or, UInt16.toNat_shiftLeft, UInt16.toNat_shiftRight, hshift,
    hhigh, Nat.shiftRight_eq_div_pow, Nat.or_comm, or_shiftLeft_eq_add _ hlow]
  omega

/-! ## Headers are read back -/

/-- The word is written by its bytes. -/
theorem putU32Le_eq (v : UInt32) : putU32Le v = leBytes 4 v.toNat := by
  have hbyte : ∀ k : ℕ, k < 32 → ((v >>> UInt32.ofNat k) &&& 0xFF).toUInt8 =
      UInt8.ofNat (v.toNat / 2 ^ k) := fun k hk => by
    apply UInt8.toNat_inj.mp
    have hshift : (UInt32.ofNat k).toNat % 32 = k := by
      rw [UInt32.toNat_ofNat']
      omega
    rw [UInt32.toNat_toUInt8, UInt32.toNat_and, UInt32.toNat_shiftRight, hshift,
      Nat.shiftRight_eq_div_pow, show (0xFF : UInt32).toNat = 2 ^ 8 - 1 from rfl,
      Nat.and_two_pow_sub_one_eq_mod, UInt8.toNat_ofNat', Nat.mod_mod]
  have hfirst := hbyte 0 (by decide)
  have hsecond := hbyte 8 (by decide)
  have hthird := hbyte 16 (by decide)
  have hfourth := hbyte 24 (by decide)
  simp only [leBytes, Nat.div_div_eq_div_mul]
  rw [putU32Le]
  congr 1
  · simpa using hfirst
  · rw [show (8 : UInt32) = UInt32.ofNat 8 from rfl, show (16 : UInt32) = UInt32.ofNat 16 from rfl,
      show (24 : UInt32) = UInt32.ofNat 24 from rfl, hsecond, hthird, hfourth]
    rfl

/-- The word is read by the loop of `u32`. -/
theorem getU32Le_eq_loadU32 (p : Bytes) : getU32Le p = loadU32 p := by
  simp [getU32Le, loadU32, List.range_succ]

/-- What is written is read. -/
theorem getU32Le_putU32Le (v : UInt32) (rest : Bytes) : getU32Le (putU32Le v ++ rest) = v := by
  apply UInt32.toNat_inj.mp
  have hlength : (putU32Le v).length = 4 := rfl
  rw [getU32Le_eq_loadU32, loadU32_toNat (by simp [hlength]), List.take_left' hlength, putU32Le_eq,
    leNat_leBytes v.toNat_lt]

theorem length_encodeHeader (h : MuxHeader) : (encodeHeader h).length = kHeaderSize := rfl

/-- **A header is read back**, whatever follows it. -/
theorem decodeHeader_encodeHeader {h : MuxHeader} (hlength : 16 ≤ h.length.toNat) (rest : Bytes) :
    decodeHeader (encodeHeader h ++ rest) = some h := by
  have hdrop : ∀ (front : Bytes) (v : UInt32) (back : Bytes) (n : ℕ), front.length = n →
      getU32Le ((front ++ (putU32Le v ++ back)).drop n) = v := fun front v back n hn => by
    rw [List.drop_left' hn, getU32Le_putU32Le]
  have hlong : ¬ (encodeHeader h ++ rest).length < kHeaderSize := by
    rw [List.length_append, length_encodeHeader]
    omega
  have hshort : ¬ h.length < 16 := by
    rw [UInt32.lt_iff_toNat_lt]
    exact not_lt.mpr hlength
  have h₀ := hdrop [] h.length (putU32Le h.version ++ putU32Le h.message ++ putU32Le h.tag ++ rest)
    0 rfl
  have h₁ := hdrop (putU32Le h.length) h.version (putU32Le h.message ++ putU32Le h.tag ++ rest) 4
    rfl
  have h₂ := hdrop (putU32Le h.length ++ putU32Le h.version) h.message (putU32Le h.tag ++ rest) 8
    rfl
  have h₃ := hdrop (putU32Le h.length ++ putU32Le h.version ++ putU32Le h.message) h.tag rest 12 rfl
  rw [decodeHeader, if_neg hlong]
  simp only [encodeHeader, List.append_assoc, List.nil_append] at h₀ h₁ h₂ h₃ ⊢
  simp only [h₀, h₁, h₂, h₃, if_neg hshort]

end TetherDisplay.Usbmux
