import TetherDisplay.Encode.Encoder
import TetherDisplay.Foundations.Decimal
import TetherDisplay.Foundations.Text
import TetherDisplay.Foundations.Words

/-!
# The host's configuration file

The settings are kept as `key=value` lines.  `parseConfig` reads them line by line into a
`Config`, a later line over an earlier one, and clamps the result; `serializeConfig` prints one.

The entries of a text are told without positions by `entries`, and what `ParseConfig` keeps of
them by the last acceptable numeral of each key (`lastAcceptable`).  The fold over the lines
keeps that numeral reduced to the width of its field (`fold_settings`).  For the port the range is
checked first.  For the bitrates and the frame rate it is not, so the clamps see the remainder:
`parseConfig` is the reference exactly when the remainder is clamped to what the numeral would be.
-/

namespace TetherDisplay.Core

open Encode (kUsb2VideoCeilingKbps)
open Text (ascii)

/-- The settings of the host. -/
@[ext] structure Config where
  /-- The iPad app's listening port. -/
  devicePort : UInt16 := 2345
  /-- `false` is H.264. -/
  useHevc : Bool := true
  targetBitrateKbps : UInt32 := 50000
  maxBitrateKbps : UInt32 := kUsb2VideoCeilingKbps
  fps : UInt32 := 60
  deriving DecidableEq, Repr

namespace Config

/-- The least bitrate, in kbit/s. -/
def kMinBitrate : UInt32 := 5000

/-- `Clamp`: the cap comes before the target that it bounds. -/
def clamp (c : Config) : Config :=
  let maxBitrateKbps := Words.clamp c.maxBitrateKbps kMinBitrate kUsb2VideoCeilingKbps
  { devicePort := if c.devicePort = 0 then 2345 else c.devicePort
    useHevc := c.useHevc
    targetBitrateKbps := Words.clamp c.targetBitrateKbps kMinBitrate maxBitrateKbps
    maxBitrateKbps
    fps := Words.clamp c.fps 1 240 }

/-! ## Parsing -/

def newline : UInt8 := 10
def hash : UInt8 := 35
def equals : UInt8 := 61

/-- `" \t\r\n"`. -/
def isBlank (b : UInt8) : Bool := b = 32 || b = 9 || b = 13 || b = 10

/-- `Trim`. -/
def trim (s : Bytes) : Bytes := Text.trim isBlank s

/-- A whole text that `from_chars` reads. -/
def toU64 (s : Bytes) : Option UInt64 :=
  match Decimal.fromChars (2 ^ 64 - 1) s with
  | some (v, []) => some (UInt64.ofNat v)
  | _ => none

/-- What one entry does.  Only the port's numeral is checked against the width of its field. -/
def set (c : Config) (key val : Bytes) : Config :=
  if key = ascii "device_port" then
    match toU64 val with
    | some v => if v ≤ 65535 then { c with devicePort := v.toUInt16 } else c
    | none => c
  else if key = ascii "codec" then { c with useHevc := val ≠ ascii "h264" }
  else if key = ascii "target_bitrate_kbps" then
    match toU64 val with
    | some v => { c with targetBitrateKbps := v.toUInt32 }
    | none => c
  else if key = ascii "max_bitrate_kbps" then
    match toU64 val with
    | some v => { c with maxBitrateKbps := v.toUInt32 }
    | none => c
  else if key = ascii "fps" then
    match toU64 val with
    | some v => { c with fps := v.toUInt32 }
    | none => c
  else c

/-- The body of the loop over the lines. -/
def parseLine (c : Config) (line : Bytes) : Config :=
  match Text.cut equals (Text.upTo hash line) with
  | some (key, val) => c.set (trim key) (trim val)
  | none => c

/-- `ParseConfig`: line by line, and then clamped. -/
def parseConfig (text : Bytes) : Config :=
  ((Text.lines newline text).foldl parseLine {}).clamp

/-! ## Printing -/

/-- `SerializeConfig`. -/
def serializeConfig (c : Config) : Bytes :=
  ascii "# TetherDisplay host config\n" ++
    ascii "device_port=" ++ Decimal.numeral c.devicePort.toNat ++ ascii "\n" ++
    ascii "codec=" ++ ascii (if c.useHevc then "hevc" else "h264") ++ ascii "\n" ++
    ascii "target_bitrate_kbps=" ++ Decimal.numeral c.targetBitrateKbps.toNat ++ ascii "\n" ++
    ascii "max_bitrate_kbps=" ++ Decimal.numeral c.maxBitrateKbps.toNat ++ ascii "\n" ++
    ascii "fps=" ++ Decimal.numeral c.fps.toNat ++ ascii "\n"

example : parseConfig (ascii "device_port=70000\nno_equals_line\n=missingkey\nfps=24  # inline\n") =
    { fps := 24 } := by decide +kernel

/-! ## The entries of a text -/

/-- The text without the blanks at its ends. -/
def strip (s : Bytes) : Bytes := (s.dropWhile isBlank).rdropWhile isBlank

/-- The key and the value of a line, where it has an equals sign before any comment. -/
def entryOf (line : Bytes) : Option (Bytes × Bytes) :=
  let body := line.takeWhile (· ≠ hash)
  if equals ∈ body then
    some (strip (body.takeWhile (· ≠ equals)), strip (body.dropWhile (· ≠ equals)).tail)
  else none

/-- The lines of a text that are settings. -/
def entries (text : Bytes) : List (Bytes × Bytes) := (text.splitOn newline).filterMap entryOf

/-- A line that is no setting changes nothing. -/
theorem parseLine_eq (c : Config) (line : Bytes) :
    parseLine c line = (entryOf line).elim c fun e => c.set e.1 e.2 := by
  simp only [parseLine, entryOf, Text.upTo_eq, Text.cut_eq]
  split_ifs with h
  · simp only [trim, strip, Text.trim_eq, Option.elim_some]
  · rfl

/-- The lines that are settings are set one after the other. -/
theorem foldl_parseLine (c : Config) (lines : List Bytes) :
    lines.foldl parseLine c =
      (lines.filterMap entryOf).foldl (fun (c : Config) e => c.set e.1 e.2) c := by
  induction lines generalizing c with
  | nil => rfl
  | cons line lines ih =>
      rw [List.foldl_cons, ih, parseLine_eq, List.filterMap_cons]
      cases entryOf line with
      | none => rfl
      | some e => rfl

/-- **The loop over the lines is one over the entries.** -/
theorem parseConfig_eq (text : Bytes) :
    parseConfig text = ((entries text).foldl (fun (c : Config) e => c.set e.1 e.2) {}).clamp := by
  have hentries : entries text = (Text.lines newline text).filterMap entryOf := by
    rcases Text.splitOn_eq newline text with h | h
    · rw [entries, h]
    · have hempty : entryOf [] = none := rfl
      rw [entries, h, List.filterMap_append, List.filterMap_cons, hempty]
      simp
  rw [parseConfig, foldl_parseLine, hentries]

/-! ## The last acceptable numeral -/

/-- A plain decimal numeral in range. -/
def acceptable (max : ℕ) (val : Bytes) : Option ℕ :=
  if Decimal.IsNumeral val ∧ Decimal.value val ≤ max then some (Decimal.value val) else none

/-- The last acceptable value of a key. -/
def lastAcceptable (key : Bytes) (max : ℕ) (es : List (Bytes × Bytes)) : Option ℕ :=
  ((es.filter fun e => e.1 = key).filterMap fun e => acceptable max e.2).getLast?

/-- The last value of a key. -/
def lastValue (key : Bytes) (es : List (Bytes × Bytes)) : Option Bytes :=
  ((es.filter fun e => e.1 = key).map Prod.snd).getLast?

theorem lastAcceptable_concat (key : Bytes) (max : ℕ) (es : List (Bytes × Bytes))
    (e : Bytes × Bytes) : lastAcceptable key max (es ++ [e]) =
      if e.1 = key then (acceptable max e.2).or (lastAcceptable key max es)
      else lastAcceptable key max es := by
  rw [lastAcceptable, List.filter_append, List.filterMap_append, List.getLast?_append]
  split_ifs with h
  · rw [List.filter_cons_of_pos (by simpa using h)]
    cases hval : acceptable max e.2 <;> simp [hval, lastAcceptable]
  · rw [List.filter_cons_of_neg (by simpa using h)]
    simp [lastAcceptable]

theorem lastValue_concat (key : Bytes) (es : List (Bytes × Bytes)) (e : Bytes × Bytes) :
    lastValue key (es ++ [e]) = if e.1 = key then some e.2 else lastValue key es := by
  rw [lastValue, List.filter_append, List.map_append, List.getLast?_append]
  split_ifs with h
  · rw [List.filter_cons_of_pos (by simpa using h)]
    simp
  · rw [List.filter_cons_of_neg (by simpa using h)]
    simp [lastValue]

/-- A numeral of 64 bits is read as such. -/
theorem toU64_eq (val : Bytes) : toU64 val = (acceptable (2 ^ 64 - 1) val).map UInt64.ofNat := by
  rw [acceptable]
  split_ifs with h
  · have hread : Decimal.fromChars (2 ^ 64 - 1) val = some (Decimal.value val, []) :=
      Decimal.fromChars_whole_iff.mpr ⟨h.1, h.2, rfl⟩
    simp only [toU64, hread, Option.map_some]
  · rw [toU64, Option.map_none]
    split
    · next v hread =>
        obtain ⟨hnumeral, hmax, -⟩ := Decimal.fromChars_whole_iff.mp hread
        exact absurd ⟨hnumeral, hmax⟩ h
    · rfl

/-- The settings as mathematical integers. -/
structure Settings where
  devicePort : ℕ
  useHevc : Bool
  targetBitrateKbps : ℕ
  maxBitrateKbps : ℕ
  fps : ℕ
  deriving DecidableEq

/-- A configuration as integers. -/
def settings (c : Config) : Settings where
  devicePort := c.devicePort.toNat
  useHevc := c.useHevc
  targetBitrateKbps := c.targetBitrateKbps.toNat
  maxBitrateKbps := c.maxBitrateKbps.toNat
  fps := c.fps.toNat

/-- What the entries ask for, before any clamp. -/
def asked (es : List (Bytes × Bytes)) : Settings where
  devicePort := (lastAcceptable (ascii "device_port") 65535 es).getD 2345
  useHevc := lastValue (ascii "codec") es ≠ some (ascii "h264")
  targetBitrateKbps := (lastAcceptable (ascii "target_bitrate_kbps") (2 ^ 64 - 1) es).getD 50000
  maxBitrateKbps := (lastAcceptable (ascii "max_bitrate_kbps") (2 ^ 64 - 1) es).getD 80000
  fps := (lastAcceptable (ascii "fps") (2 ^ 64 - 1) es).getD 60

/-- The clamps, over the mathematical integers. -/
def Settings.clamp (s : Settings) : Settings :=
  let maxBitrateKbps := max 5000 (min 80000 s.maxBitrateKbps)
  { devicePort := if s.devicePort = 0 then 2345 else s.devicePort
    useHevc := s.useHevc
    targetBitrateKbps := max 5000 (min maxBitrateKbps s.targetBitrateKbps)
    maxBitrateKbps
    fps := max 1 (min 240 s.fps) }

/-- What a text should be read as. -/
def reference (text : Bytes) : Settings := (asked (entries text)).clamp

/-! ## What the fields hold -/

/-- The settings reduced to the widths of the fields. -/
def narrow (s : Settings) : Config where
  devicePort := UInt16.ofNat s.devicePort
  useHevc := s.useHevc
  targetBitrateKbps := UInt32.ofNat s.targetBitrateKbps
  maxBitrateKbps := UInt32.ofNat s.maxBitrateKbps
  fps := UInt32.ofNat s.fps

theorem keys_nodup : [ascii "device_port", ascii "codec", ascii "target_bitrate_kbps",
    ascii "max_bitrate_kbps", ascii "fps"].Nodup := by decide

/-- The value that a 32-bit field gets. -/
def read32 (val : Bytes) : Option UInt32 := (acceptable (2 ^ 64 - 1) val).map UInt32.ofNat

/-- A numeral is cut to 32 bits. -/
theorem toU64_toUInt32 (val : Bytes) : (toU64 val).map UInt64.toUInt32 = read32 val := by
  rw [toU64_eq, read32, Option.map_map]
  congr 1
  funext v
  apply UInt32.toNat_inj.mp
  simp only [Function.comp_apply, UInt64.toNat_toUInt32, UInt64.toNat_ofNat', UInt32.toNat_ofNat']
  omega

/-- The port is the one field whose numeral is checked first. -/
theorem toU64_toUInt16 (val : Bytes) :
    ((toU64 val).filter (· ≤ 65535)).map UInt64.toUInt16 =
      (acceptable 65535 val).map UInt16.ofNat := by
  rw [toU64_eq]
  simp only [acceptable]
  by_cases hport : Decimal.IsNumeral val ∧ Decimal.value val ≤ 65535
  · have hwide : Decimal.IsNumeral val ∧ Decimal.value val ≤ 2 ^ 64 - 1 := ⟨hport.1, by omega⟩
    have hle : UInt64.ofNat (Decimal.value val) ≤ 65535 := by
      rw [UInt64.le_iff_toNat_le, UInt64.toNat_ofNat']
      exact (Nat.mod_le _ _).trans hport.2
    rw [if_pos hport, if_pos hwide, Option.map_some, Option.map_some, Option.filter_some,
      if_pos (by simpa using hle), Option.map_some]
    congr 1
    apply UInt16.toNat_inj.mp
    simp only [UInt64.toNat_toUInt16, UInt64.toNat_ofNat', UInt16.toNat_ofNat']
    omega
  · rw [if_neg hport]
    split_ifs with hwide
    · have hgt : ¬ UInt64.ofNat (Decimal.value val) ≤ 65535 := by
        rw [UInt64.le_iff_toNat_le, UInt64.toNat_ofNat', Nat.mod_eq_of_lt (by omega)]
        exact fun hle => hport ⟨hwide.1, hle⟩
      rw [Option.map_some, Option.filter_some, if_neg (by simpa using hgt)]
      rfl
    · rfl

/-- **An entry, field by field**: each has its own key. -/
theorem set_eq (c : Config) (key val : Bytes) : c.set key val =
    { devicePort := if key = ascii "device_port"
        then ((acceptable 65535 val).map UInt16.ofNat).getD c.devicePort else c.devicePort
      useHevc := if key = ascii "codec" then val ≠ ascii "h264" else c.useHevc
      targetBitrateKbps := if key = ascii "target_bitrate_kbps"
        then (read32 val).getD c.targetBitrateKbps else c.targetBitrateKbps
      maxBitrateKbps := if key = ascii "max_bitrate_kbps"
        then (read32 val).getD c.maxBitrateKbps else c.maxBitrateKbps
      fps := if key = ascii "fps" then (read32 val).getD c.fps else c.fps } := by
  have hkeys := keys_nodup
  simp only [List.nodup_cons, List.mem_cons, List.not_mem_nil, or_false, not_or, List.nodup_nil,
    not_false_eq_true, and_true] at hkeys
  obtain ⟨⟨hpc, hpt, hpm, hpf⟩, ⟨hct, hcm, hcf⟩, ⟨htm, htf⟩, hmf⟩ := hkeys
  rw [← toU64_toUInt16, ← toU64_toUInt32, set]
  by_cases hport : key = ascii "device_port"
  · subst hport
    simp only [if_true, if_neg hpc, if_neg hpt, if_neg hpm, if_neg hpf]
    cases toU64 val with
    | none => rfl
    | some v => by_cases hv : v ≤ 65535 <;> simp [Option.filter_some, hv]
  by_cases hcodec : key = ascii "codec"
  · subst hcodec
    simp only [if_true, if_neg hport, if_neg hct, if_neg hcm, if_neg hcf]
  by_cases htarget : key = ascii "target_bitrate_kbps"
  · subst htarget
    simp only [if_true, if_neg hport, if_neg hcodec, if_neg htm, if_neg htf]
    cases toU64 val with
    | none => rfl
    | some v => rfl
  by_cases hmax : key = ascii "max_bitrate_kbps"
  · subst hmax
    simp only [if_true, if_neg hport, if_neg hcodec, if_neg htarget, if_neg hmf]
    cases toU64 val with
    | none => rfl
    | some v => rfl
  by_cases hfps : key = ascii "fps"
  · subst hfps
    simp only [if_true, if_neg hport, if_neg hcodec, if_neg htarget, if_neg hmax]
    cases toU64 val with
    | none => rfl
    | some v => rfl
  simp only [if_neg hport, if_neg hcodec, if_neg htarget, if_neg hmax, if_neg hfps]

theorem lastAcceptable_narrow {β : Type} (ofNat : ℕ → β) (key : Bytes) (max default : ℕ)
    (es : List (Bytes × Bytes)) (e : Bytes × Bytes) :
    ofNat ((lastAcceptable key max (es ++ [e])).getD default) =
      if e.1 = key then
        ((acceptable max e.2).map ofNat).getD (ofNat ((lastAcceptable key max es).getD default))
      else ofNat ((lastAcceptable key max es).getD default) := by
  rw [lastAcceptable_concat]
  split_ifs with h
  · cases acceptable max e.2 with
    | none => rfl
    | some v => rfl
  · rfl

/-- **After the entries, each field holds what they ask for**, reduced to its width. -/
theorem fold_eq (es : List (Bytes × Bytes)) :
    es.foldl (fun (c : Config) e => c.set e.1 e.2) {} = narrow (asked es) := by
  induction es using List.reverseRecOn with
  | nil => rfl
  | append_singleton es e ih =>
      rw [List.foldl_concat, ih, set_eq]
      apply Config.ext
      · exact (lastAcceptable_narrow UInt16.ofNat _ _ _ es e).symm
      · simp only [narrow, asked, lastValue_concat]
        split_ifs with hcodec <;> simp
      · exact (lastAcceptable_narrow UInt32.ofNat _ _ _ es e).symm
      · exact (lastAcceptable_narrow UInt32.ofNat _ _ _ es e).symm
      · exact (lastAcceptable_narrow UInt32.ofNat _ _ _ es e).symm

/-! ## The clamps -/

/-- The settings reduced to the widths of the fields, as integers. -/
def Settings.reduce (s : Settings) : Settings where
  devicePort := s.devicePort % 2 ^ 16
  useHevc := s.useHevc
  targetBitrateKbps := s.targetBitrateKbps % 2 ^ 32
  maxBitrateKbps := s.maxBitrateKbps % 2 ^ 32
  fps := s.fps % 2 ^ 32

/-- What is left of the integers in the words of the source. -/
theorem settings_narrow (s : Settings) : (narrow s).settings = s.reduce := by
  simp [settings, narrow, Settings.reduce]

/-- The clamps of the fields are the ones of the integers. -/
theorem settings_clamp (c : Config) : c.clamp.settings = c.settings.clamp := by
  have hport : (if c.devicePort = 0 then (2345 : UInt16) else c.devicePort).toNat =
      if c.devicePort.toNat = 0 then 2345 else c.devicePort.toNat := by
    have hzero : c.devicePort = 0 ↔ c.devicePort.toNat = 0 := UInt16.toNat_inj.symm
    simp only [hzero]
    split_ifs <;> rfl
  have hrange : kMinBitrate ≤ kUsb2VideoCeilingKbps := by decide
  simp only [settings, clamp, Settings.clamp, hport, Words.toNat_clamp hrange,
    Words.toNat_clamp (Words.le_clamp hrange),
    Words.toNat_clamp (show (1 : UInt32) ≤ 240 by decide)]
  rfl

theorem lastAcceptable_le {key : Bytes} {max v : ℕ} {es : List (Bytes × Bytes)}
    (h : lastAcceptable key max es = some v) : v ≤ max := by
  obtain ⟨e, -, he⟩ := List.mem_filterMap.mp (List.mem_of_getLast? h)
  simp only [acceptable] at he
  split_ifs at he with hval
  exact (Option.some.inj he) ▸ hval.2

/-- The port is read as one. -/
theorem asked_devicePort_lt (es : List (Bytes × Bytes)) : (asked es).devicePort < 2 ^ 16 := by
  rw [asked]
  cases h : lastAcceptable (ascii "device_port") 65535 es with
  | none => exact show 2345 < 2 ^ 16 by decide
  | some v => exact Nat.lt_succ_of_le (lastAcceptable_le h)

/-- **What a text is read as**: the entries' last acceptable numerals, reduced and then clamped. -/
theorem parseConfig_settings (text : Bytes) :
    (parseConfig text).settings = (asked (entries text)).reduce.clamp := by
  rw [parseConfig_eq, settings_clamp, fold_eq, settings_narrow]

/-- What a field is reduced to is clamped to what the numeral would be: the numeral fits, or its
remainder is above the range as the numeral is, or the range is a point. -/
def Settings.Survives (s : Settings) : Prop :=
  (s.fps < 2 ^ 32 ∨ 240 ≤ s.fps % 2 ^ 32) ∧
    (s.maxBitrateKbps < 2 ^ 32 ∨ 80000 ≤ s.maxBitrateKbps % 2 ^ 32) ∧
    (s.targetBitrateKbps < 2 ^ 32 ∨ min 80000 s.maxBitrateKbps ≤ s.targetBitrateKbps % 2 ^ 32 ∨
      s.maxBitrateKbps ≤ 5000)

/-- When a clamped value survives being cut. -/
theorem clamp_mod_iff (lo v : ℕ) {hi w : ℕ} (hwidth : hi ≤ w) :
    max lo (min hi (v % w)) = max lo (min hi v) ↔ v < w ∨ hi ≤ v % w ∨ hi ≤ lo := by
  by_cases hv : v < w
  · simp [Nat.mod_eq_of_lt hv, hv]
  · have hhigh : min hi v = hi := Nat.min_eq_left (by omega)
    rw [hhigh]
    by_cases hr : hi ≤ v % w
    · simp [hr]
    · have hlow : min hi (v % w) = v % w := Nat.min_eq_right (by omega)
      simp only [hlow, hv, hr, false_or]
      omega

/-- When all of them do. -/
theorem clamp_reduce_iff {s : Settings} (hport : s.devicePort < 2 ^ 16) :
    s.reduce.clamp = s.clamp ↔ s.Survives := by
  set most := max 5000 (min 80000 s.maxBitrateKbps) with hmost
  have hrange : ∀ rate, most ≤ rate ∨ most ≤ 5000 ↔
      min 80000 s.maxBitrateKbps ≤ rate ∨ s.maxBitrateKbps ≤ 5000 := fun rate => by
    omega
  have hfps := clamp_mod_iff 1 s.fps (show 240 ≤ 2 ^ 32 by decide)
  have hmax := clamp_mod_iff 5000 s.maxBitrateKbps (show 80000 ≤ 2 ^ 32 by decide)
  have htarget := clamp_mod_iff 5000 s.targetBitrateKbps (show most ≤ 2 ^ 32 by omega)
  simp only [Settings.reduce, Settings.clamp, Settings.Survives, Settings.mk.injEq,
    Nat.mod_eq_of_lt hport, true_and, ← hmost]
  constructor
  · rintro ⟨h, hsame, hrate⟩
    rw [hsame] at h
    exact ⟨by simpa using hfps.mp hrate, by simpa using hmax.mp hsame,
      (htarget.mp h).imp_right (hrange _).mp⟩
  · rintro ⟨hrate, hbudget, h⟩
    have hsame := hmax.mpr (by simpa using hbudget)
    rw [hsame]
    exact ⟨htarget.mpr (h.imp_right (hrange _).mpr), rfl, hfps.mpr (by simpa using hrate)⟩

/-- **`parseConfig` is the reference** when no numeral is lost with its upper bits, and not
otherwise. -/
theorem parseConfig_eq_reference_iff (text : Bytes) :
    (parseConfig text).settings = reference text ↔ (asked (entries text)).Survives := by
  rw [parseConfig_settings, reference]
  exact clamp_reduce_iff (asked_devicePort_lt _)

/-- A frame rate of `2 ^ 32 + 1` becomes 1 frame a second, and not 240. -/
theorem fps_wraps : (parseConfig (ascii "fps=4294967297\n")).settings ≠
    reference (ascii "fps=4294967297\n") := by
  decide +kernel

/-! ## Printing and parsing again -/

/-- No blank, and no character that the parser cuts at. -/
def isPlain (b : UInt8) : Bool := !isBlank b && b ≠ hash && b ≠ equals

theorem isPlain_of_isDigit {b : UInt8} (h : Decimal.isDigit b) : isPlain b := by
  simp only [Decimal.isDigit, Bool.and_eq_true, decide_eq_true_eq, UInt8.le_iff_toNat_le] at h
  simp only [isPlain, isBlank, hash, equals, Bool.and_eq_true, Bool.not_eq_true',
    Bool.or_eq_false_iff, decide_eq_false_iff_not, decide_eq_true_eq, ne_eq, ← UInt8.toNat_inj]
  have hlow : 48 ≤ b.toNat := h.1
  have hhigh : b.toNat ≤ 57 := h.2
  simp only [UInt8.toNat_ofNat]
  omega

/-- Plain text has no comment and no blanks. -/
theorem strip_plain {s : Bytes} (h : ∀ b ∈ s, isPlain b) : strip s = s := by
  have hsolid : ∀ b ∈ s, isBlank b = false := fun b hb => by
    simpa using (Bool.and_eq_true_iff.mp (Bool.and_eq_true_iff.mp (h b hb)).1).1
  have hfront : s.dropWhile isBlank = s := by
    cases s with
    | nil => rfl
    | cons b t => rw [List.dropWhile_cons_of_neg (by simp [hsolid b (List.mem_cons_self ..)])]
  rw [strip, hfront, List.rdropWhile_eq_self_iff]
  intro hne
  simp [hsolid _ (List.getLast_mem hne)]

/-- A line of a plain key and a plain value is that entry. -/
theorem entryOf_line {key val : Bytes} (hkey : ∀ b ∈ key, isPlain b) (hval : ∀ b ∈ val, isPlain b) :
    entryOf (key ++ equals :: val) = some (key, val) := by
  have hhash : ∀ s : Bytes, (∀ b ∈ s, isPlain b) → hash ∉ s := fun s hs hmem => by
    simpa [isPlain] using hs hash hmem
  have hequals : equals ∉ key := fun hmem => by simpa [isPlain] using hkey equals hmem
  have hbody : (key ++ equals :: val).takeWhile (· ≠ hash) = key ++ equals :: val := by
    refine List.takeWhile_eq_self_iff.mpr fun b hb => ?_
    have hne : b ≠ hash := by
      rintro rfl
      rcases List.mem_append.mp hb with hb | hb
      · exact hhash key hkey hb
      · rcases List.mem_cons.mp hb with hb | hb
        · exact absurd hb (by decide)
        · exact hhash val hval hb
    simpa using hne
  have hkeep : ∀ b ∈ key, decide (b ≠ equals) = true := fun b hb => by
    simpa using fun hbe : b = equals => hequals (hbe ▸ hb)
  have hbefore : (key ++ equals :: val).takeWhile (· ≠ equals) = key := by
    rw [List.takeWhile_append_of_pos hkeep, List.takeWhile_cons_of_neg (by simp), List.append_nil]
  have hafter : (key ++ equals :: val).dropWhile (· ≠ equals) = equals :: val := by
    rw [List.dropWhile_append_of_pos hkeep, List.dropWhile_cons_of_neg (by simp)]
  simp only [entryOf, hbody]
  rw [if_pos (List.mem_append_right key (List.mem_cons_self ..)), hbefore, hafter, List.tail_cons,
    strip_plain hkey, strip_plain hval]

/-- The settings of a text, line by line. -/
theorem entries_line {line : Bytes} (h : newline ∉ line) (rest : Bytes) :
    entries (line ++ newline :: rest) = (entryOf line).toList ++ entries rest := by
  rw [entries, List.splitOn_append_cons_self_of_not_mem h, List.filterMap_cons]
  cases entryOf line with
  | none => rfl
  | some e => rfl

theorem newline_notMem {s : Bytes} (h : ∀ b ∈ s, isPlain b) : newline ∉ s := fun hmem =>
  absurd (h newline hmem) (by decide)

theorem isPlain_numeral (n : ℕ) : ∀ b ∈ Decimal.numeral n, isPlain b := fun b hb =>
  isPlain_of_isDigit ((Decimal.isNumeral_numeral n).2 b hb)

theorem isPlain_codec (useHevc : Bool) :
    ∀ b ∈ ascii (if useHevc then "hevc" else "h264"), isPlain b := by
  cases useHevc <;> decide +kernel

/-- A printed line is read as its entry. -/
theorem entries_plain {key val : Bytes} (hkey : ∀ b ∈ key, isPlain b) (hval : ∀ b ∈ val, isPlain b)
    (rest : Bytes) : entries (key ++ equals :: (val ++ newline :: rest)) =
      (key, val) :: entries rest := by
  have hnewline : newline ∉ key ++ equals :: val := fun hmem => by
    rcases List.mem_append.mp hmem with hmem | hmem
    · exact newline_notMem hkey hmem
    · rcases List.mem_cons.mp hmem with hmem | hmem
      · exact absurd hmem (by decide)
      · exact newline_notMem hval hmem
  rw [← List.cons_append, ← List.append_assoc, entries_line hnewline, entryOf_line hkey hval]
  rfl

/-- The entries of a printed configuration. -/
def printed (c : Config) : List (Bytes × Bytes) :=
  [(ascii "device_port", Decimal.numeral c.devicePort.toNat),
    (ascii "codec", ascii (if c.useHevc then "hevc" else "h264")),
    (ascii "target_bitrate_kbps", Decimal.numeral c.targetBitrateKbps.toNat),
    (ascii "max_bitrate_kbps", Decimal.numeral c.maxBitrateKbps.toNat),
    (ascii "fps", Decimal.numeral c.fps.toNat)]

theorem isPlain_keys : ∀ key ∈ [ascii "device_port", ascii "codec", ascii "target_bitrate_kbps",
    ascii "max_bitrate_kbps", ascii "fps"], ∀ b ∈ key, isPlain b := by decide +kernel

/-- The settings that are printed are those of the text. -/
theorem entries_serializeConfig (c : Config) : entries (serializeConfig c) = printed c := by
  have hcomment : ascii "# TetherDisplay host config\n" =
      ascii "# TetherDisplay host config" ++ [newline] := by decide
  have hcut : ascii "device_port=" = ascii "device_port" ++ [equals] ∧
      ascii "codec=" = ascii "codec" ++ [equals] ∧
      ascii "target_bitrate_kbps=" = ascii "target_bitrate_kbps" ++ [equals] ∧
      ascii "max_bitrate_kbps=" = ascii "max_bitrate_kbps" ++ [equals] ∧
      ascii "fps=" = ascii "fps" ++ [equals] ∧ ascii "\n" = [newline] := by decide
  obtain ⟨hport, hcodec, htarget, hmax, hfps, hend⟩ := hcut
  have hplain := isPlain_keys
  simp only [List.forall_mem_cons] at hplain
  obtain ⟨kport, kcodec, ktarget, kmax, kfps, -⟩ := hplain
  have hnotMem : newline ∉ ascii "# TetherDisplay host config" := by decide
  have hnone : entryOf (ascii "# TetherDisplay host config") = none := by decide
  have hempty : entries [] = [] := rfl
  simp only [serializeConfig, hcomment, hport, hcodec, htarget, hmax, hfps, hend,
    List.append_assoc, List.cons_append, List.nil_append]
  rw [entries_line hnotMem, hnone, Option.toList_none, List.nil_append,
    entries_plain kport (isPlain_numeral _), entries_plain kcodec (isPlain_codec _),
    entries_plain ktarget (isPlain_numeral _), entries_plain kmax (isPlain_numeral _),
    entries_plain kfps (isPlain_numeral _), hempty]
  rfl

/-- A numeral that is not too large is acceptable. -/
theorem acceptable_numeral {max n : ℕ} (h : n ≤ max) :
    acceptable max (Decimal.numeral n) = some n := by
  rw [acceptable, if_pos ⟨Decimal.isNumeral_numeral n, by simpa using h⟩, Decimal.value_numeral]

/-- **Parsing what was printed clamps it.** -/
theorem parseConfig_serialize (c : Config) : parseConfig (serializeConfig c) = c.clamp := by
  have hkeys := keys_nodup
  simp only [List.nodup_cons, List.mem_cons, List.not_mem_nil, or_false, not_or, List.nodup_nil,
    not_false_eq_true, and_true] at hkeys
  obtain ⟨⟨hpc, hpt, hpm, hpf⟩, ⟨hct, hcm, hcf⟩, ⟨htm, htf⟩, hmf⟩ := hkeys
  have hvals := And.intro c.devicePort.toNat_lt (And.intro c.targetBitrateKbps.toNat_lt
    (And.intro c.maxBitrateKbps.toNat_lt c.fps.toNat_lt))
  have hcodec : (ascii (if c.useHevc then "hevc" else "h264") ≠ ascii "h264") =
      (c.useHevc = true) := by
    cases c.useHevc <;> decide
  rw [parseConfig_eq, entries_serializeConfig]
  congr 1
  simp only [printed, List.foldl_cons, List.foldl_nil, set_eq, read32,
    acceptable_numeral (show c.devicePort.toNat ≤ 65535 by omega),
    acceptable_numeral (show c.targetBitrateKbps.toNat ≤ 2 ^ 64 - 1 by omega),
    acceptable_numeral (show c.maxBitrateKbps.toNat ≤ 2 ^ 64 - 1 by omega),
    acceptable_numeral (show c.fps.toNat ≤ 2 ^ 64 - 1 by omega)]
  apply Config.ext <;> simp [hpt, hpm, hpf, hct, hcm, hcf, htm, htf, hmf, Ne.symm hpc,
    Ne.symm hpt, Ne.symm hpm, Ne.symm hpf, Ne.symm hct, Ne.symm hcm, Ne.symm hcf, Ne.symm htm,
    Ne.symm htf, Ne.symm hmf, hcodec]

/-- The integers tell the configuration. -/
theorem settings_injective : Function.Injective settings := by
  intro c d h
  simp only [settings, Settings.mk.injEq, UInt16.toNat_inj, UInt32.toNat_inj] at h
  obtain ⟨hport, hcodec, htarget, hmax, hfps⟩ := h
  exact Config.ext hport hcodec htarget hmax hfps

/-- What has been clamped is in range. -/
theorem clamp_clamp (c : Config) : c.clamp.clamp = c.clamp := by
  apply settings_injective
  simp only [settings_clamp, Settings.clamp, Settings.mk.injEq, true_and]
  refine ⟨?_, ?_, ?_, ?_⟩
  · split_ifs <;> rfl
  all_goals omega

/-! ## The file -/

/-- What a text stream keeps on disk: a newline is two bytes on Windows.  A text of printable
characters and newlines comes back as it was. -/
structure TextMode where
  write : Bytes → Bytes
  read : Bytes → Bytes
  read_write : ∀ s : Bytes, (∀ b ∈ s, b = newline ∨ 32 ≤ b ∧ b < 127) → read (write s) = s

/-- Newlines are kept as they are. -/
def TextMode.binary : TextMode where
  write s := s
  read s := s
  read_write _ _ := rfl

/-- The files by their paths. -/
abbrev Disk := String → Option Bytes

variable (M : TextMode)

/-- `SaveConfig`, where the stream opens or does not. -/
def saveConfig (opens : Bool) (disk : Disk) (c : Config) (path : String) : Bool × Disk :=
  if opens then (true, Function.update disk path (some (M.write (serializeConfig c))))
  else (false, disk)

/-- `LoadConfig`: `none` if there is no such file. -/
def loadConfig (disk : Disk) (path : String) : Option Config :=
  (disk path).map fun file => parseConfig (M.read file)

/-- The text is printable. -/
theorem printable_serializeConfig (c : Config) :
    ∀ b ∈ serializeConfig c, b = newline ∨ 32 ≤ b ∧ b < 127 := by
  have hdigit : ∀ n, ∀ b ∈ Decimal.numeral n, b = newline ∨ 32 ≤ b ∧ b < 127 := by
    intro n b hb
    have h := (Decimal.isNumeral_numeral n).2 b hb
    simp only [Decimal.isDigit, Bool.and_eq_true, decide_eq_true_eq] at h
    refine Or.inr ⟨UInt8.le_trans (by decide) h.1, UInt8.lt_of_le_of_lt h.2 (by decide)⟩
  have hcodec : ∀ b ∈ ascii (if c.useHevc then "hevc" else "h264"),
      b = newline ∨ 32 ≤ b ∧ b < 127 := by
    cases c.useHevc <;> decide +kernel
  have htexts : ∀ s ∈ [ascii "# TetherDisplay host config\n", ascii "device_port=", ascii "codec=",
      ascii "target_bitrate_kbps=", ascii "max_bitrate_kbps=", ascii "fps=", ascii "\n"],
      ∀ b ∈ s, b = newline ∨ 32 ≤ b ∧ b < 127 := by decide +kernel
  simp only [List.forall_mem_cons] at htexts
  obtain ⟨hcomment, hport, hkey, htarget, hmax, hfps, hend, -⟩ := htexts
  simp only [serializeConfig, List.forall_mem_append]
  exact ⟨⟨⟨⟨⟨⟨⟨⟨⟨⟨⟨⟨⟨⟨⟨hcomment, hport⟩, hdigit _⟩, hend⟩, hkey⟩, hcodec⟩, hend⟩, htarget⟩,
    hdigit _⟩, hend⟩, hmax⟩, hdigit _⟩, hend⟩, hfps⟩, hdigit _⟩, hend⟩

/-- **Saving and loading clamps.** -/
theorem load_save (disk : Disk) (c : Config) (path : String) :
    loadConfig M (saveConfig M true disk c path).2 path = some c.clamp := by
  simp only [loadConfig, saveConfig, if_true, Function.update_self, Option.map_some,
    M.read_write _ (printable_serializeConfig c), parseConfig_serialize]

/-- **A printed configuration is read back clamped**, so exactly a clamped one comes back as it
was, and what has once been loaded is kept. -/
theorem serialize_round_trip :
    (∀ c, parseConfig (serializeConfig c) = c.clamp) ∧
    (∀ c : Config, c.clamp.clamp = c.clamp) ∧
    (∀ disk c path, loadConfig M (saveConfig M true disk c path).2 path = some c ↔ c.clamp = c) ∧
    (∀ text, parseConfig (serializeConfig (parseConfig text)) = parseConfig text) ∧
    ∀ disk path, ((loadConfig M disk path).bind fun c =>
      loadConfig M (saveConfig M true disk c path).2 path) = loadConfig M disk path := by
  refine ⟨parseConfig_serialize, clamp_clamp, fun disk c path => ?_, fun text => ?_,
    fun disk path => ?_⟩
  · rw [load_save, Option.some_inj]
  · rw [parseConfig_serialize, parseConfig, clamp_clamp]
  · cases hfile : disk path with
    | none => simp [loadConfig, hfile]
    | some file =>
        have hload : loadConfig M disk path = some (parseConfig (M.read file)) := by
          rw [loadConfig, hfile]
          rfl
        rw [hload, Option.bind_some, load_save, parseConfig, clamp_clamp]

end Config

end TetherDisplay.Core
