import TetherDisplay.Encode.RateControl
import TetherDisplay.Foundations.Ledger
import TetherDisplay.Foundations.Runs
import Mathlib.Data.Fintype.OfMap

/-!
# The NVENC encoder

`NvencEncoder` of `nvenc_encoder.cpp`: a library that is loaded, an encode session opened in it,
a bitstream buffer and a registered input texture, all made by `Initialize` and given back by
`Shutdown`; and for each frame a mapping of the texture and a lock on the bitstream, for as long
as `EncodeFrame` is at work.  Every one of the calls may fail.  What the driver answers comes with
the call.

The handles are kept in a `Ledger.Book`, with the rule of the driver about what rests on what.
`EncodeFrame` is in two halves, `submit` and `finish`, with the packet callback between them, so
that a caller may do something there.

`custody`: whatever is called, in whatever order, and whatever fails, no handle is used that is
not held, none is lost, and when the encoder is destroyed each has been released once and before
what it rests on.  `units_numbered`: the access units of one session are numbered from 0 on.
-/

namespace TetherDisplay.Encode

open Ledger (Book Event acquisitions releases)

/-- What a call of the encoder may come to. -/
inductive EncodeStatus where
  | ok
  /-- `nvEncodeAPI64.dll` or `NvEncodeAPICreateInstance` unavailable. -/
  | sdkNotFound
  | unsupportedDevice
  | sessionInitFailed
  /-- Could not register the input texture. -/
  | registerFailed
  | encodeFailed
  | notInitialized
  deriving DecidableEq, Repr

namespace Nvenc

/-! ## Handles -/

/-- The handles of the object, and the two of `EncodeFrame`. -/
inductive Handle where
  | lib
  | enc
  | bitstream
  | registered
  | device
  | ctx
  | inputTex
  /-- `mp.mappedResource`. -/
  | mapped
  /-- The bitstream while it is locked. -/
  | locked
  deriving DecidableEq, Repr

instance : Fintype Handle :=
  Fintype.ofList [.lib, .enc, .bitstream, .registered, .device, .ctx, .inputTex, .mapped, .locked]
    (by intro k; cases k <;> decide)

/-- What has to outlive what.  The functions of a session are in the library. -/
def Handle.needs : Handle → List Handle
  | .lib | .device => []
  | .ctx | .inputTex => [.device]
  | .enc => [.lib, .device]
  | .bitstream => [.enc]
  | .registered => [.enc, .inputTex]
  | .mapped => [.registered]
  | .locked => [.bitstream]

/-- The handles that `Initialize` makes. -/
def Handle.fields : List Handle :=
  [.lib, .enc, .bitstream, .registered, .device, .ctx, .inputTex]

/-! ## What passes between the encoder and the driver -/

/-- The types of pictures. -/
inductive PictureType where
  | p
  | b
  | i
  | idr
  | other
  deriving DecidableEq, Repr

/-- How `nvEncEncodePicture` ends. -/
inductive PictureStatus where
  | success
  /-- Buffered. -/
  | needMoreInput
  | failed
  deriving DecidableEq, Repr

/-- No keyframe but where one is asked for. -/
def NVENC_INFINITE_GOPLENGTH : UInt32 := 0xffffffff

/-- `NV_ENC_INITIALIZE_PARAMS`, with the part of `NV_ENC_CONFIG` that is overridden. -/
structure InitializeParams where
  encodeGuid : Codec
  encodeWidth : UInt32
  encodeHeight : UInt32
  darWidth : UInt32
  darHeight : UInt32
  frameRateNum : UInt32
  frameRateDen : UInt32
  /-- NVENC chooses picture types. -/
  enablePtd : Bool
  enableEncodeAsync : Bool
  gopLength : UInt32
  /-- 1 means no B-frames. -/
  frameIntervalP : UInt32
  rcParams : NvencRateControl
  idrPeriod : UInt32
  /-- Inline parameter sets, for a raw elementary stream. -/
  repeatSpsPps : Bool
  deriving DecidableEq, Repr

/-- The parameters of a session, from what is asked for. -/
def initializeParams (cfg : EncoderConfig) : InitializeParams where
  encodeGuid := cfg.codec
  encodeWidth := cfg.width
  encodeHeight := cfg.height
  darWidth := cfg.width
  darHeight := cfg.height
  frameRateNum := cfg.fps
  frameRateDen := 1
  enablePtd := true
  enableEncodeAsync := false
  gopLength := NVENC_INFINITE_GOPLENGTH
  frameIntervalP := (planRateControl cfg kUsb2VideoCeilingKbps).frameIntervalP
  rcParams := nvencRateControl cfg
  idrPeriod := NVENC_INFINITE_GOPLENGTH
  repeatSpsPps := true

/-- `NV_ENC_PIC_PARAMS`. -/
structure PicParams where
  inputWidth : UInt32
  inputHeight : UInt32
  inputTimeStamp : UInt64
  frameIdx : UInt32
  /-- `NV_ENC_PIC_FLAG_FORCEIDR | NV_ENC_PIC_FLAG_OUTPUT_SPSPPS`. -/
  forceIdr : Bool
  deriving DecidableEq, Repr

/-- What the system and the driver answer to `Initialize`; `none` where a call fails. -/
structure InitializeAnswers where
  ctx : ℕ := 0
  lib : Option ℕ := some 0
  /-- `GetProcAddress` finds the entry point. -/
  entry : Bool := true
  /-- `NvEncodeAPICreateInstance` succeeds. -/
  created : Bool := true
  /-- The status of `nvEncOpenEncodeSessionEx`, and what it leaves in `enc_`. -/
  opened : Bool := true
  enc : Option ℕ := some 0
  preset : Bool := true
  encoderInitialized : Bool := true
  bitstream : Option ℕ := some 0
  inputTex : Option ℕ := some 0
  registered : Option ℕ := some 0
  deriving DecidableEq, Repr

/-- What the driver answers to `EncodeFrame`. -/
structure EncodeAnswers where
  mapped : Option ℕ := some 0
  picture : PictureStatus := .success
  /-- What `nvEncLockBitstream` finds. -/
  locked : Option (Bytes × PictureType) := some ([], .p)
  deriving DecidableEq, Repr

/-- The packet as it is handed to the callback. -/
structure Packet extends EncodedPacket where
  timestamp : UInt64
  frameIndex : UInt64
  deriving DecidableEq, Repr

/-- What `EncodeFrame` is to return, and the packet that it has locked. -/
structure Encoding where
  result : EncodeStatus
  packet : Option Packet
  deriving DecidableEq, Repr

/-- An access unit, and the session that it is of. -/
structure AccessUnit where
  session : ℕ
  packet : Packet
  deriving DecidableEq, Repr

end Nvenc

open Nvenc

/-- The fields of the object, `EncodeFrame` while it is at work, and from `sessions` on what
nothing in the code reads. -/
structure NvencEncoder where
  handles : Book Handle ℕ := {}
  cfg : EncoderConfig := {}
  initialized : Bool := false
  frameIndex : UInt64 := 0
  encoding : Option Encoding := none
  /-- How often the counter has been reset. -/
  sessions : ℕ := 0
  /-- What the session has been initialised with. -/
  params : Option InitializeParams := none
  /-- The pictures submitted, since the counter was reset. -/
  pictures : List PicParams := []
  /-- The access units that have been locked. -/
  units : List AccessUnit := []
  /-- The packets that the callbacks have been given. -/
  delivered : List Packet := []

namespace NvencEncoder

/-- A handle is acquired. -/
def acquire (s : NvencEncoder) (k : Handle) (i : ℕ) : NvencEncoder :=
  { s with handles := s.handles.acquire k i }

/-- A handle is used. -/
def use (s : NvencEncoder) (k : Handle) : NvencEncoder := { s with handles := s.handles.use k }

/-- A handle is released, if it is held. -/
def drop (s : NvencEncoder) (k : Handle) : NvencEncoder := { s with handles := s.handles.drop k }

/-- What is in the field. -/
def held (s : NvencEncoder) (k : Handle) : Option ℕ := s.handles.held k

/-! ## `Shutdown` -/

/-- Unregister, destroy the bitstream buffer and the encoder. -/
def closeSession (s : NvencEncoder) : NvencEncoder :=
  if (s.held .enc).isSome then ((s.drop .registered).drop .bitstream).drop .enc else s

/-- `Shutdown`. -/
def shutdown (s : NvencEncoder) : NvencEncoder :=
  let s := (((s.closeSession.drop .inputTex).drop .ctx).drop .device).drop .lib
  { s with
    initialized := false
    frameIndex := 0
    sessions := s.sessions + 1
    params := none
    pictures := [] }

/-! ## `Initialize` -/

/-- The input texture, and its registration. -/
def registerInput (s : NvencEncoder) (a : InitializeAnswers) : EncodeStatus × NvencEncoder :=
  match a.inputTex with
  | none => (.registerFailed, s)
  | some texture =>
      let s := s.acquire .inputTex texture
      match a.registered with
      | none => (.registerFailed, s)
      | some registered => (.ok, { s.acquire .registered registered with initialized := true })

/-- From the preset to the bitstream buffer. -/
def configure (s : NvencEncoder) (cfg : EncoderConfig) (a : InitializeAnswers) :
    EncodeStatus × NvencEncoder :=
  let s := s.use .enc
  if !a.preset then (.sessionInitFailed, s)
  else
    let s := { s.use .enc with params := some (initializeParams cfg) }
    if !a.encoderInitialized then (.sessionInitFailed, s)
    else
      match a.bitstream with
      | none => (.sessionInitFailed, s)
      | some bitstream => (s.acquire .bitstream bitstream).registerInput a

/-- The library and its session.  What a failed call leaves in `enc_` stays there. -/
def openSession (s : NvencEncoder) (cfg : EncoderConfig) (a : InitializeAnswers) :
    EncodeStatus × NvencEncoder :=
  match a.lib with
  | none => (.sdkNotFound, s)
  | some lib =>
      let s := (s.acquire .lib lib).use .lib
      if !a.entry then (.sdkNotFound, s)
      else if !a.created then (.sessionInitFailed, s.use .lib)
      else
        match a.enc with
        | none => (.sessionInitFailed, s.use .lib)
        | some enc =>
            let s := (s.use .lib).acquire .enc enc
            if !a.opened then (.sessionInitFailed, s) else s.configure cfg a

/-- `InitializeWith`: a session is opened, or everything is released again. -/
def initializeWith (s : NvencEncoder) (device : Option ℕ) (cfg : EncoderConfig)
    (a : InitializeAnswers) : EncodeStatus × NvencEncoder :=
  let s := s.shutdown
  match device with
  | none => (.unsupportedDevice, s)
  | some device =>
      let s := (s.acquire .device device).acquire .ctx a.ctx
      { s with cfg }.openSession cfg a

/-! ## `EncodeFrame` -/

/-- The parameters of the next picture. -/
def picParams (s : NvencEncoder) (timestamp : UInt64) (forceIdr : Bool) : PicParams where
  inputWidth := s.cfg.width
  inputHeight := s.cfg.height
  inputTimeStamp := timestamp
  frameIdx := UInt32.ofNat s.frameIndex.toNat
  forceIdr := forceIdr

/-- The texture is mapped and the picture submitted. -/
def encodePicture (s : NvencEncoder) (mapped : ℕ) (timestamp : UInt64) (forceIdr : Bool) :
    NvencEncoder :=
  let s := (((s.acquire .mapped mapped).use .mapped).use .bitstream).use .enc
  { s with pictures := s.pictures ++ [s.picParams timestamp forceIdr] }

/-- `EmitLocked` up to the callback. -/
def lockBitstream (s : NvencEncoder) (timestamp : UInt64) (a : EncodeAnswers) : NvencEncoder :=
  let s := s.use .bitstream
  match a.locked with
  | none => { s with encoding := some ⟨.ok, none⟩ }
  | some (data, pictureType) =>
      let packet : Packet :=
        { data, isKeyframe := pictureType = .idr, timestamp, frameIndex := s.frameIndex }
      { s.acquire .locked 0 with encoding := some ⟨.ok, some packet⟩ }

/-- `EncodeFrame` up to the callback; with a status where it has returned. -/
def submit (s : NvencEncoder) (texture : Bool) (timestamp : UInt64) (forceIdr : Bool)
    (a : EncodeAnswers) : Option EncodeStatus × NvencEncoder :=
  if !s.initialized then (some .notInitialized, s)
  else if !texture then (some .encodeFailed, s)
  else
    -- the frame is copied into the registered texture, which is then mapped
    let s := ((s.use .ctx).use .inputTex).use .registered
    match a.mapped with
    | none => (some .encodeFailed, s)
    | some mapped =>
        let s := s.encodePicture mapped timestamp forceIdr
        match a.picture with
        | .success => (none, s.lockBitstream timestamp a)
        | .needMoreInput => (none, { s with encoding := some ⟨.ok, none⟩ })
        | .failed => (none, { s with encoding := some ⟨.encodeFailed, none⟩ })

/-- The callback, which reads what is locked. -/
def callback (s : NvencEncoder) : NvencEncoder :=
  match s.encoding.bind Encoding.packet with
  | some packet => { s.use .locked with delivered := s.delivered ++ [packet] }
  | none => s

/-- `EmitLocked` behind the callback. -/
def unlockBitstream (s : NvencEncoder) : NvencEncoder :=
  match s.encoding.bind Encoding.packet with
  | some packet =>
      { s.drop .locked with
        frameIndex := s.frameIndex + 1
        units := s.units ++ [⟨s.sessions, packet⟩] }
  | none => s

/-- `EncodeFrame` behind the callback. -/
def finish (s : NvencEncoder) : NvencEncoder :=
  { s.unlockBitstream.drop .mapped with encoding := none }

/-- `listens` is whether there is a callback. -/
def encodeFrame (s : NvencEncoder) (texture : Bool) (timestamp : UInt64) (forceIdr : Bool)
    (listens : Bool) (a : EncodeAnswers) : EncodeStatus × NvencEncoder :=
  match s.submit texture timestamp forceIdr a with
  | (some status, s) => (status, s)
  | (none, s) =>
      let result := (s.encoding.map Encoding.result).getD .ok
      (result, (if listens then s.callback else s).finish)

/-! ## `Flush`, and any sequence of calls -/

/-- An end-of-stream picture; there is nothing to drain. -/
def flush (s : NvencEncoder) : EncodeStatus × NvencEncoder :=
  if !s.initialized then (.notInitialized, s) else (.ok, s.use .enc)

/-- What the owner does, and what the driver answers. -/
inductive Call where
  | initializeWith (device : Option ℕ) (cfg : EncoderConfig) (a : InitializeAnswers)
  | encodeFrame (texture : Bool) (timestamp : UInt64) (forceIdr listens : Bool) (a : EncodeAnswers)
  | flush
  | shutdown
  deriving DecidableEq, Repr

/-- One call. -/
def call (s : NvencEncoder) : Call → NvencEncoder
  | .initializeWith device cfg a => (s.initializeWith device cfg a).2
  | .encodeFrame texture timestamp forceIdr listens a =>
      (s.encodeFrame texture timestamp forceIdr listens a).2
  | .flush => s.flush.2
  | .shutdown => s.shutdown

/-- A new encoder after some calls. -/
def after (calls : List Call) : NvencEncoder := Runs.exec call {} calls

/-! ## What is held where -/

variable {s : NvencEncoder} {k : Handle} {ks : List Handle}

@[simp] theorem held_acquire (i : ℕ) :
    (s.acquire k i).held = Function.update s.held k (some i) := rfl

@[simp] theorem held_use : (s.use k).held = s.held := rfl

@[simp] theorem held_drop : (s.drop k).held = Function.update s.held k none :=
  Book.held_drop _ _

/-- Without an encoder there is nothing that rests on one. -/
theorem cleared_closeSession (h : s.handles.Cleared Handle.needs [.mapped, .locked]) :
    s.closeSession.handles.Cleared Handle.needs
      [.enc, .bitstream, .registered, .mapped, .locked] := by
  unfold closeSession
  split
  · exact ((h.drop (by decide)).drop (by decide)).drop (by decide)
  · next hnone =>
      have hsupported := h.orderly.supported
      have hlost : ∀ k : Handle, .enc ∈ k.needs → s.held k = none := by
        intro k hk
        rw [← Option.not_isSome_iff_eq_none]
        exact fun hsome => hnone (hsupported k hsome _ hk)
      refine ⟨h.orderly, fun k hk => ?_⟩
      simp only [List.mem_cons, List.not_mem_nil, or_false] at hk
      rcases hk with rfl | rfl | rfl | rfl | rfl
      · exact Option.not_isSome_iff_eq_none.mp hnone
      · exact hlost .bitstream (by decide)
      · exact hlost .registered (by decide)
      · exact h.held_eq .mapped (by decide)
      · exact h.held_eq .locked (by decide)

/-- `Shutdown` gives everything back. -/
theorem stands_shutdown (h : s.handles.Cleared Handle.needs [.mapped, .locked]) :
    s.shutdown.handles.Stands Handle.needs [] := by
  have hclosed := cleared_closeSession h
  have hclear := (((hclosed.drop (k := Handle.inputTex) (by decide)).drop (k := Handle.ctx)
    (by decide)).drop (k := Handle.device) (by decide)).drop (k := Handle.lib) (by decide)
  exact hclear.stands (by intro k; cases k <;> decide)

/-! ## Custody -/

/-- **The handles**, between the calls and while `EncodeFrame` is at work. -/
structure Sound (s : NvencEncoder) : Prop where
  orderly : s.handles.Orderly Handle.needs
  equipped : s.initialized = true → ∀ k ∈ Handle.fields, (s.held k).isSome
  params : s.initialized = true → s.params = some (initializeParams s.cfg)
  /-- The pictures have the size of the texture that is mapped for them. -/
  pictures : ∀ p ∈ s.pictures, p.inputWidth = s.cfg.width ∧ p.inputHeight = s.cfg.height
  busy : s.encoding.isSome → s.initialized = true
  mapped : (s.held .mapped).isSome ↔ s.encoding.isSome
  locked : (s.held .locked).isSome ↔ (s.encoding.bind Encoding.packet).isSome

/-- Between two calls no picture is mapped or locked. -/
theorem Sound.cleared (h : s.Sound) (hidle : s.encoding = none) :
    s.handles.Cleared Handle.needs [.mapped, .locked] where
  orderly := h.orderly
  held_eq k hk := by
    simp only [List.mem_cons, List.not_mem_nil, or_false] at hk
    rw [← Option.not_isSome_iff_eq_none]
    rcases hk with rfl | rfl
    · refine fun hsome => Bool.false_ne_true ?_
      rw [← h.mapped.mp hsome, hidle]
      rfl
    · refine fun hsome => Bool.false_ne_true ?_
      rw [← h.locked.mp hsome, hidle]
      rfl

/-- What is not a matter of the handles. -/
def records (s : NvencEncoder) : UInt64 × ℕ × List AccessUnit × List Packet :=
  (s.frameIndex, s.sessions, s.units, s.delivered)

theorem records_eq_iff {s : NvencEncoder} {frameIndex : UInt64} {sessions : ℕ}
    {units : List AccessUnit} {delivered : List Packet} :
    s.records = (frameIndex, sessions, units, delivered) ↔ s.frameIndex = frameIndex ∧
      s.sessions = sessions ∧ s.units = units ∧ s.delivered = delivered := by
  simp only [records, Prod.mk.injEq]

/-- On the way through `Initialize`. -/
structure Opening (ks : List Handle) (cfg : EncoderConfig) (s : NvencEncoder) : Prop
    extends s.handles.Stands Handle.needs ks where
  fresh : s.initialized = false
  idle : s.encoding = none
  pictures : s.pictures = []
  cfg_eq : s.cfg = cfg

/-- What `Initialize` leaves. -/
structure Prepared (r : UInt64 × ℕ × List AccessUnit × List Packet) (cfg : EncoderConfig)
    (status : EncodeStatus) (s : NvencEncoder) : Prop where
  sound : s.Sound
  idle : s.encoding = none
  initialized : s.initialized = true ↔ status = .ok
  cfg_eq : status = .ok → s.cfg = cfg
  records_eq : s.records = r

variable {cfg : EncoderConfig}

/-- What is held tells the rest. -/
theorem sound_of_stands (h : s.handles.Stands Handle.needs ks) (hks : ∀ k ∈ ks, k ∈ Handle.fields)
    (hidle : s.encoding = none) (hpictures : s.pictures = [])
    (hequipped : s.initialized = true → ∀ k ∈ Handle.fields, k ∈ ks)
    (hparams : s.initialized = true → s.params = some (initializeParams s.cfg)) : s.Sound where
  orderly := h.orderly
  equipped hinit k hk := (h.held_iff k).mpr (hequipped hinit k hk)
  params := hparams
  pictures p hp := by
    rw [hpictures] at hp
    cases hp
  busy hbusy := by
    rw [hidle] at hbusy
    cases hbusy
  mapped := by
    rw [hidle]
    exact ⟨fun hsome => absurd (hks _ ((h.held_iff _).mp hsome)) (by decide), fun h => by cases h⟩
  locked := by
    rw [hidle]
    exact ⟨fun hsome => absurd (hks _ ((h.held_iff _).mp hsome)) (by decide), fun h => by cases h⟩

theorem Opening.acquire (h : s.Opening ks cfg) (hfree : k ∉ ks) (hneeds : ∀ j ∈ k.needs, j ∈ ks)
    (i : ℕ) : (s.acquire k i).Opening (k :: ks) cfg :=
  { h with toStands := h.toStands.acquire hfree hneeds i }

theorem Opening.use (h : s.Opening ks cfg) (hk : k ∈ ks) : (s.use k).Opening ks cfg :=
  { h with toStands := h.toStands.use hk }

/-- A call fails, and `Initialize` returns with what it has. -/
theorem Opening.failed (h : s.Opening ks cfg) (status : EncodeStatus)
    (hks : ∀ k ∈ ks, k ∈ Handle.fields) (hstatus : status ≠ .ok) :
    s.Prepared s.records cfg status where
  sound := sound_of_stands h.toStands hks h.idle h.pictures
    (fun hinit => by rw [h.fresh] at hinit; cases hinit)
    (fun hinit => by rw [h.fresh] at hinit; cases hinit)
  idle := h.idle
  initialized := by
    rw [h.fresh]
    exact ⟨fun h => absurd h Bool.false_ne_true, fun h => absurd h hstatus⟩
  cfg_eq h := absurd h hstatus
  records_eq := rfl

/-- The end of `InitializeWith`. -/
theorem Opening.registerInput (h : s.Opening [.bitstream, .enc, .lib, .ctx, .device] cfg)
    (hparams : s.params = some (initializeParams cfg)) (a : InitializeAnswers) :
    (s.registerInput a).2.Prepared s.records cfg (s.registerInput a).1 := by
  unfold NvencEncoder.registerInput
  cases a.inputTex with
  | none => exact h.failed .registerFailed (by decide) (by decide)
  | some texture =>
      have htexture := h.acquire (k := .inputTex) (by decide) (by decide) texture
      cases a.registered with
      | none => exact htexture.failed .registerFailed (by decide) (by decide)
      | some registered =>
          have hregistered := htexture.acquire (k := .registered) (by decide) (by decide) registered
          exact {
            sound := sound_of_stands hregistered.toStands (by decide) h.idle h.pictures
              (fun _ => by decide) fun _ => hparams.trans (by rw [← h.cfg_eq]; rfl)
            idle := h.idle
            initialized := ⟨fun _ => rfl, fun _ => rfl⟩
            cfg_eq := fun _ => h.cfg_eq
            records_eq := rfl }

/-- From the parameters on. -/
theorem Opening.configure (h : s.Opening [.enc, .lib, .ctx, .device] cfg)
    (a : InitializeAnswers) :
    (s.configure cfg a).2.Prepared s.records cfg (s.configure cfg a).1 := by
  unfold NvencEncoder.configure
  dsimp only
  have hpreset := h.use (k := .enc) (by decide)
  split
  · exact hpreset.failed .sessionInitFailed (by decide) (by decide)
  · have huse := hpreset.use (k := .enc) (by decide)
    have hinit : Opening _ cfg
        { (s.use .enc).use .enc with params := some (initializeParams cfg) } :=
      ⟨huse.toStands, huse.fresh, huse.idle, huse.pictures, huse.cfg_eq⟩
    split
    · exact hinit.failed .sessionInitFailed (by decide) (by decide)
    · cases a.bitstream with
      | none => exact hinit.failed .sessionInitFailed (by decide) (by decide)
      | some bitstream =>
          exact (hinit.acquire (k := .bitstream) (by decide) (by decide) bitstream).registerInput
            rfl a

/-- From the session on. -/
theorem Opening.openSession (h : s.Opening [.ctx, .device] cfg) (a : InitializeAnswers) :
    (s.openSession cfg a).2.Prepared s.records cfg (s.openSession cfg a).1 := by
  unfold NvencEncoder.openSession
  cases a.lib with
  | none => exact h.failed .sdkNotFound (by decide) (by decide)
  | some lib =>
      have hentry := (h.acquire (k := .lib) (by decide) (by decide) lib).use (k := .lib) (by decide)
      have hcreated := hentry.use (k := .lib) (by decide)
      dsimp only
      split
      · exact hentry.failed .sdkNotFound (by decide) (by decide)
      split
      · exact hcreated.failed .sessionInitFailed (by decide) (by decide)
      cases a.enc with
      | none => exact hcreated.failed .sessionInitFailed (by decide) (by decide)
      | some enc =>
          have hopened := hcreated.acquire (k := .enc) (by decide) (by decide) enc
          dsimp only
          split
          · exact hopened.failed .sessionInitFailed (by decide) (by decide)
          · exact hopened.configure a

/-- `Shutdown` between two calls. -/
theorem Sound.shutdown (h : s.Sound) (hidle : s.encoding = none) :
    s.shutdown.Opening [] s.cfg where
  toStands := stands_shutdown (h.cleared hidle)
  fresh := rfl
  idle := by
    show s.closeSession.encoding = none
    unfold closeSession
    split <;> exact hidle
  pictures := rfl
  cfg_eq := by
    show s.closeSession.cfg = s.cfg
    unfold closeSession
    split <;> rfl

/-- **What `Initialize` leaves**, whatever fails. -/
theorem Sound.initializeWith (h : s.Sound) (hidle : s.encoding = none) (device : Option ℕ)
    (cfg : EncoderConfig) (a : InitializeAnswers) :
    (s.initializeWith device cfg a).2.Prepared s.shutdown.records cfg
      (s.initializeWith device cfg a).1 := by
  have hclosed := h.shutdown hidle
  unfold NvencEncoder.initializeWith
  cases device with
  | none =>
      have hclosed : s.shutdown.Opening [] s.shutdown.cfg := { hclosed with cfg_eq := rfl }
      have hfailed := hclosed.failed .unsupportedDevice (by decide) (by decide)
      exact { hfailed with cfg_eq := fun h => by cases h }
  | some device =>
      have hctx := (hclosed.acquire (k := .device) (by decide) (by decide) device).acquire
        (k := .ctx) (by decide) (by decide) a.ctx
      have hopening : Opening _ cfg
          { (s.shutdown.acquire .device device).acquire .ctx a.ctx with cfg } :=
        ⟨hctx.toStands, hctx.fresh, hctx.idle, hctx.pictures, rfl⟩
      exact hopening.openSession a

/-! ### A frame -/

theorem Sound.use (h : s.Sound) (hk : (s.held k).isSome) : (s.use k).Sound :=
  { h with orderly := h.orderly.use hk }

/-- A picture is encoded. -/
theorem Sound.encodePicture (h : s.Sound) (hidle : s.encoding = none)
    (hinit : s.initialized = true) (mapped : ℕ) (timestamp : UInt64) (forceIdr : Bool)
    (result : EncodeStatus) :
    Sound { s.encodePicture mapped timestamp forceIdr with encoding := some ⟨result, none⟩ } := by
  have hfields := h.equipped hinit
  have hfree : s.handles.held .mapped = none := (h.cleared hidle).held_eq .mapped (by decide)
  have hkept : ∀ k ∈ Handle.fields,
      (Function.update s.held .mapped (some mapped) k).isSome := by
    intro k hk
    rw [Function.update_of_ne (by rintro rfl; exact absurd hk (by decide))]
    exact hfields k hk
  have hneeds : ∀ j ∈ Handle.mapped.needs, j ∈ Handle.fields := by decide
  have hacquired := h.orderly.acquire hfree (fun j hj => hfields j (hneeds j hj)) mapped
  have hmapped := hacquired.use (k := .mapped) (by simp)
  have hused := hmapped.use (k := Handle.bitstream) (hkept .bitstream (by decide))
  exact {
    orderly := hused.use (k := Handle.enc) (hkept .enc (by decide))
    equipped := fun _ => hkept
    params := h.params
    pictures := by
      intro p hp
      rcases List.mem_append.mp hp with hp | hp
      · exact h.pictures p hp
      · obtain rfl := List.mem_singleton.mp hp
        exact ⟨rfl, rfl⟩
    busy := fun _ => hinit
    mapped := by
      show (Function.update s.held .mapped (some mapped) .mapped).isSome ↔ _
      rw [Function.update_self]
      exact ⟨fun _ => rfl, fun _ => rfl⟩
    locked := by
      have hnone : s.held .locked = none := (h.cleared hidle).held_eq .locked (by decide)
      show (Function.update s.held .mapped (some mapped) .locked).isSome ↔ _
      rw [Function.update_of_ne (by decide), hnone]
      rfl }

/-- Its bitstream is locked, or not. -/
theorem Sound.lockBitstream (h : Sound { s with encoding := some ⟨.ok, none⟩ })
    (timestamp : UInt64) (a : EncodeAnswers) : (s.lockBitstream timestamp a).Sound := by
  have hfields := h.equipped (h.busy rfl)
  have huse := h.use (hfields .bitstream (by decide))
  unfold NvencEncoder.lockBitstream
  dsimp only
  cases a.locked with
  | none => exact huse
  | some locked =>
      have hfree : s.held .locked = none := by
        rw [← Option.not_isSome_iff_eq_none]
        exact fun hsome => absurd (h.locked.mp hsome) Bool.false_ne_true
      have hkept : ∀ k, k ≠ .locked →
          Function.update s.held .locked (some 0) k = s.held k :=
        fun k hk => Function.update_of_ne hk _ _
      have hneeds : ∀ j ∈ Handle.locked.needs, j ∈ Handle.fields := by decide
      exact {
        orderly := huse.orderly.acquire hfree (fun j hj => hfields j (hneeds j hj)) 0
        equipped := fun hinit k hk => by
          show (Function.update s.held .locked (some 0) k).isSome
          rw [hkept k (by rintro rfl; exact absurd hk (by decide))]
          exact hfields k hk
        params := h.params
        pictures := h.pictures
        busy := fun _ => h.busy rfl
        mapped := by
          show (Function.update s.held .locked (some 0) .mapped).isSome ↔ _
          rw [hkept _ (by decide)]
          exact h.mapped
        locked := by
          show (Function.update s.held .locked (some 0) .locked).isSome ↔ _
          rw [Function.update_self]
          exact ⟨fun _ => rfl, fun _ => rfl⟩ }

/-- Where `submit` leaves the encoder: `EncodeFrame` has returned, or is at work. -/
theorem Sound.submit (h : s.Sound) (hidle : s.encoding = none) (texture : Bool)
    (timestamp : UInt64) (forceIdr : Bool) (a : EncodeAnswers) :
    (s.submit texture timestamp forceIdr a).2.Sound ∧
      ((s.submit texture timestamp forceIdr a).1 = none ↔
        (s.submit texture timestamp forceIdr a).2.encoding.isSome) := by
  have hidle' : ¬ (s.encoding.isSome = true) := by
    rw [hidle]
    exact Bool.false_ne_true
  unfold NvencEncoder.submit
  split
  · exact ⟨h, fun h => (by cases h), fun h => absurd h hidle'⟩
  next hinit =>
  rw [Bool.not_eq_true', Bool.not_eq_false] at hinit
  split
  · exact ⟨h, fun h => (by cases h), fun h => absurd h hidle'⟩
  have hfields := h.equipped hinit
  have hcopied := ((h.use (hfields .ctx (by decide))).use (k := .inputTex)
    (hfields .inputTex (by decide))).use (k := .registered) (hfields .registered (by decide))
  dsimp only
  cases a.mapped with
  | none => exact ⟨hcopied, fun h => (by cases h), fun h => absurd h hidle'⟩
  | some mapped =>
      have hbusy := hcopied.encodePicture hidle hinit mapped timestamp forceIdr
      dsimp only
      cases a.picture with
      | success =>
          refine ⟨(hbusy .ok).lockBitstream timestamp a, fun _ => ?_, fun _ => rfl⟩
          unfold NvencEncoder.lockBitstream
          dsimp only
          cases a.locked <;> rfl
      | needMoreInput => exact ⟨hbusy .ok, fun _ => rfl, fun _ => rfl⟩
      | failed => exact ⟨hbusy .encodeFailed, fun _ => rfl, fun _ => rfl⟩

/-- A submission changes no settings. -/
theorem settings_submit (texture : Bool) (timestamp : UInt64) (forceIdr : Bool)
    (a : EncodeAnswers) :
    (s.submit texture timestamp forceIdr a).2.initialized = s.initialized ∧
      (s.submit texture timestamp forceIdr a).2.cfg = s.cfg := by
  unfold submit
  split
  · exact ⟨rfl, rfl⟩
  split
  · exact ⟨rfl, rfl⟩
  dsimp only
  cases a.mapped with
  | none => exact ⟨rfl, rfl⟩
  | some mapped =>
      dsimp only
      cases a.picture with
      | success =>
          dsimp only
          unfold lockBitstream
          dsimp only
          cases a.locked <;> exact ⟨rfl, rfl⟩
      | needMoreInput | failed => exact ⟨rfl, rfl⟩

/-- The callback keeps it. -/
theorem Sound.callback (h : s.Sound) : s.callback.Sound := by
  unfold NvencEncoder.callback
  cases hpacket : s.encoding.bind Encoding.packet with
  | none => exact h
  | some packet => exact { h with orderly := h.orderly.use (h.locked.mpr (by rw [hpacket]; rfl)) }

/-- The bitstream is let go. -/
theorem Sound.unlockBitstream (h : s.Sound) :
    s.unlockBitstream.handles.Cleared Handle.needs [.locked] ∧
      ∀ k, k ≠ .locked → s.unlockBitstream.held k = s.held k := by
  unfold NvencEncoder.unlockBitstream
  cases hpacket : s.encoding.bind Encoding.packet with
  | none =>
      refine ⟨⟨h.orderly, fun k hk => ?_⟩, fun k _ => rfl⟩
      obtain rfl := List.mem_singleton.mp hk
      rw [← Option.not_isSome_iff_eq_none]
      refine fun hsome => Bool.false_ne_true ?_
      rw [← h.locked.mp hsome, hpacket]
      rfl
  | some packet =>
      have hcleared : s.handles.Cleared Handle.needs [] := ⟨h.orderly, fun k hk => by cases hk⟩
      have hdropped := hcleared.drop (k := Handle.locked) (by decide)
      refine ⟨⟨hdropped.orderly, hdropped.held_eq⟩, fun k hk => ?_⟩
      exact (congrFun held_drop k).trans (Function.update_of_ne hk _ _)

theorem settings_finish : s.finish.initialized = s.initialized ∧ s.finish.cfg = s.cfg ∧
    s.finish.params = s.params ∧ s.finish.pictures = s.pictures := by
  unfold finish unlockBitstream
  split <;> exact ⟨rfl, rfl, rfl, rfl⟩

/-- The lock is given back, and the mapping behind it. -/
theorem Sound.finish (h : s.Sound) : s.finish.Sound := by
  obtain ⟨hunlocked, hkept⟩ := h.unlockBitstream
  have hcleared := hunlocked.drop (k := Handle.mapped) (by decide)
  obtain ⟨hinit, hcfg, hparams, hpictures⟩ := s.settings_finish
  exact {
    orderly := hcleared.orderly
    equipped := fun hready k hk => by
      have hne : k ≠ .mapped ∧ k ≠ .locked := by
        constructor <;> (rintro rfl; exact absurd hk (by decide))
      have hsame : s.finish.held k = s.held k :=
        (congrFun held_drop k).trans ((Function.update_of_ne hne.1 _ _).trans (hkept k hne.2))
      rw [hsame]
      exact h.equipped (hinit ▸ hready) k hk
    params := fun hready => by
      rw [hparams, hcfg]
      exact h.params (hinit ▸ hready)
    pictures := fun p hp => by
      rw [hcfg]
      exact h.pictures p (hpictures ▸ hp)
    busy := fun hbusy => absurd hbusy Bool.false_ne_true
    mapped := by
      have hnone : s.finish.held .mapped = none := hcleared.held_eq .mapped (by decide)
      rw [hnone]
      rfl
    locked := by
      have hnone : s.finish.held .locked = none := hcleared.held_eq .locked (by decide)
      rw [hnone]
      rfl }

/-- **What a frame keeps**, whatever fails. -/
theorem Sound.encodeFrame (h : s.Sound) (hidle : s.encoding = none) (texture : Bool)
    (timestamp : UInt64) (forceIdr listens : Bool) (a : EncodeAnswers) :
    (s.encodeFrame texture timestamp forceIdr listens a).2.Sound ∧
      (s.encodeFrame texture timestamp forceIdr listens a).2.encoding = none := by
  obtain ⟨hsound, hwork⟩ := h.submit hidle texture timestamp forceIdr a
  unfold NvencEncoder.encodeFrame
  generalize s.submit texture timestamp forceIdr a = r at hsound hwork ⊢
  rcases r with ⟨_ | status, t⟩
  · dsimp only
    split
    · exact ⟨hsound.callback.finish, rfl⟩
    · exact ⟨hsound.finish, rfl⟩
  · refine ⟨hsound, ?_⟩
    rw [← Option.not_isSome_iff_eq_none]
    exact fun hsome => absurd (hwork.mpr hsome) (by simp)

/-- Between two calls. -/
structure Rests (s : NvencEncoder) : Prop where
  sound : s.Sound
  idle : s.encoding = none

/-- One call, whatever it is and whatever fails. -/
theorem Rests.call (h : s.Rests) (c : Call) : (s.call c).Rests := by
  cases c with
  | initializeWith device cfg a =>
      have hprepared := h.sound.initializeWith h.idle device cfg a
      exact ⟨hprepared.sound, hprepared.idle⟩
  | encodeFrame texture timestamp forceIdr listens a =>
      have hframe := h.sound.encodeFrame h.idle texture timestamp forceIdr listens a
      exact ⟨hframe.1, hframe.2⟩
  | flush =>
      show s.flush.2.Rests
      unfold flush
      split
      · exact h
      · next hinit =>
          rw [Bool.not_eq_true', Bool.not_eq_false] at hinit
          exact ⟨h.sound.use (h.sound.equipped hinit _ (by decide)), h.idle⟩
  | shutdown =>
      have hclosed := h.sound.shutdown h.idle
      exact ⟨sound_of_stands hclosed.toStands (by decide) hclosed.idle hclosed.pictures
        (fun hinit => absurd hinit Bool.false_ne_true)
        (fun hinit => absurd hinit Bool.false_ne_true), hclosed.idle⟩

/-- The encoder is at rest between two calls, in all states of a run. -/
theorem rests_after (calls : List Call) : (after calls).Rests := by
  refine Runs.exec_preserves (fun s c h => h.call c) ?_ calls
  exact {
    sound := {
      orderly := Book.orderly_empty
      equipped := fun h => by cases h
      params := fun h => by cases h
      pictures := fun p hp => by cases hp
      busy := fun h => by cases h
      mapped := Iff.rfl
      locked := Iff.rfl }
    idle := rfl }

/-- **Custody.**  Whatever is called in whatever order, and whatever fails, the handles are used
in order, and when the encoder is destroyed each of them has been released once. -/
theorem custody (calls : List Call) :
    let s := after calls
    s.handles.Orderly Handle.needs ∧ s.shutdown.handles.Orderly Handle.needs ∧
      ∀ k, acquisitions k s.shutdown.handles.log = releases k s.shutdown.handles.log := by
  intro s
  have h := rests_after calls
  have hclosed := h.sound.shutdown h.idle
  exact ⟨h.sound.orderly, hclosed.orderly, hclosed.toStands.all_released⟩

/-! ## Numbering -/

/-- The packet that is locked. -/
def pending (s : NvencEncoder) : List Packet := (s.encoding.bind Encoding.packet).toList

/-- The access units of a session. -/
def unitsOf (s : NvencEncoder) (n : ℕ) : List Packet :=
  (s.units.filter (·.session = n)).map AccessUnit.packet

/-- What is to be locked is not yet counted. -/
theorem records_submit (hidle : s.encoding = none) (texture : Bool) (timestamp : UInt64)
    (forceIdr : Bool) (a : EncodeAnswers) :
    (s.submit texture timestamp forceIdr a).2.records = s.records ∧
      ∀ p ∈ (s.submit texture timestamp forceIdr a).2.pending,
        p.timestamp = timestamp ∧ p.frameIndex = s.frameIndex := by
  have hnone : ∀ p ∈ s.pending, p.timestamp = timestamp ∧ p.frameIndex = s.frameIndex := by
    intro p hp
    rw [pending, hidle] at hp
    cases hp
  unfold submit
  split
  · exact ⟨rfl, hnone⟩
  split
  · exact ⟨rfl, hnone⟩
  dsimp only
  cases a.mapped with
  | none => exact ⟨rfl, hnone⟩
  | some mapped =>
      dsimp only
      cases a.picture with
      | success =>
          dsimp only
          unfold lockBitstream
          dsimp only
          cases a.locked with
          | none => exact ⟨rfl, fun p hp => by cases hp⟩
          | some locked =>
              refine ⟨rfl, fun p hp => ?_⟩
              obtain rfl := List.mem_singleton.mp hp
              exact ⟨rfl, rfl⟩
      | needMoreInput => exact ⟨rfl, fun p hp => by cases hp⟩
      | failed => exact ⟨rfl, fun p hp => by cases hp⟩

/-- The packet is what has been locked. -/
theorem data_submit (texture : Bool) (timestamp : UInt64) (forceIdr : Bool) (a : EncodeAnswers)
    {p : Packet} (hp : p ∈ (s.submit texture timestamp forceIdr a).2.pending) :
    p ∈ s.pending ∨ ∃ type, a.locked = some (p.data, type) := by
  revert hp
  unfold submit
  split
  · exact Or.inl
  · split
    · exact Or.inl
    · dsimp only
      cases a.mapped with
      | none => exact Or.inl
      | some mapped =>
          dsimp only
          cases a.picture with
          | needMoreInput | failed => exact fun hp => absurd hp List.not_mem_nil
          | success =>
              unfold lockBitstream
              cases a.locked with
              | none => exact fun hp => absurd hp List.not_mem_nil
              | some locked =>
                  intro hp
                  obtain rfl := List.mem_singleton.mp hp
                  exact Or.inr ⟨locked.2, rfl⟩

/-- What the callback delivers. -/
theorem records_callback :
    s.callback.records = (s.frameIndex, s.sessions, s.units, s.delivered ++ s.pending) ∧
      s.callback.pending = s.pending := by
  unfold callback pending
  cases hpacket : s.encoding.bind Encoding.packet with
  | none => exact ⟨by rw [Option.toList_none, List.append_nil]; rfl, by rw [hpacket]⟩
  | some packet => exact ⟨rfl, congrArg Option.toList hpacket⟩

/-- What the end of `EncodeFrame` counts. -/
theorem records_finish : s.finish.records = (s.frameIndex + UInt64.ofNat s.pending.length,
    s.sessions, s.units ++ s.pending.map (AccessUnit.mk s.sessions), s.delivered) := by
  unfold finish unlockBitstream pending
  cases s.encoding.bind Encoding.packet with
  | none => simp [records, drop]
  | some packet => rfl

/-- **What a frame comes to**: at most one packet, with the frame's timestamp and the next
number. -/
theorem records_encodeFrame (hidle : s.encoding = none) (texture : Bool) (timestamp : UInt64)
    (forceIdr listens : Bool) (a : EncodeAnswers) : ∃ ps : List Packet, ps.length ≤ 1 ∧
      (∀ p ∈ ps, p.timestamp = timestamp ∧ p.frameIndex = s.frameIndex) ∧
      (s.encodeFrame texture timestamp forceIdr listens a).2.records =
        (s.frameIndex + UInt64.ofNat ps.length, s.sessions,
          s.units ++ ps.map (AccessUnit.mk s.sessions),
          s.delivered ++ if listens then ps else []) := by
  obtain ⟨hrecords, hpending⟩ := records_submit hidle texture timestamp forceIdr a
  unfold encodeFrame
  generalize s.submit texture timestamp forceIdr a = r at hrecords hpending ⊢
  rcases r with ⟨_ | status, t⟩
  · refine ⟨t.pending, ?_, hpending, ?_⟩
    · unfold pending
      cases t.encoding.bind Encoding.packet <;> simp
    · obtain ⟨hindex, hsessions, hunits, hdelivered⟩ := records_eq_iff.mp hrecords
      obtain ⟨hcalled, hsame⟩ := t.records_callback
      obtain ⟨hindex', hsessions', hunits', hdelivered'⟩ := records_eq_iff.mp hcalled
      cases listens with
      | true =>
          show t.callback.finish.records = _
          rw [records_finish, hsame, hindex', hsessions', hunits', hdelivered', hindex, hsessions,
            hunits, hdelivered]
          rfl
      | false =>
          show t.finish.records = _
          rw [records_finish, hindex, hsessions, hunits, hdelivered, if_neg Bool.false_ne_true,
            List.append_nil]
  · refine ⟨[], Nat.zero_le _, fun p hp => (by cases hp), ?_⟩
    have hnone : (if listens then ([] : List Packet) else []) = [] := by cases listens <;> rfl
    rw [hnone]
    simpa [records] using hrecords

/-- **The access units** of each session are numbered from 0 on. -/
structure Numbered (s : NvencEncoder) : Prop where
  past : ∀ u ∈ s.units, u.session ≤ s.sessions
  count : s.frameIndex = UInt64.ofNat (s.unitsOf s.sessions).length
  numbered : ∀ n, (s.unitsOf n).map Packet.frameIndex =
    (List.range (s.unitsOf n).length).map UInt64.ofNat

theorem Numbered.of_records {t : NvencEncoder} (h : s.Numbered) (hsame : t.records = s.records) :
    t.Numbered := by
  obtain ⟨hindex, hsessions, hunits, -⟩ := records_eq_iff.mp hsame
  have hof : t.unitsOf = s.unitsOf := by
    funext n
    rw [unitsOf, hunits, unitsOf]
  exact {
    past := by rw [hunits, hsessions]; exact h.past
    count := by rw [hindex, hof, hsessions]; exact h.count
    numbered := by rw [hof]; exact h.numbered }

/-- `Shutdown` begins the next session. -/
theorem records_shutdown : s.shutdown.records = (0, s.sessions + 1, s.units, s.delivered) := by
  unfold shutdown closeSession
  split <;> rfl

/-- A new session has no units. -/
theorem Numbered.shutdown (h : s.Numbered) : s.shutdown.Numbered := by
  have hreset : Numbered { s with frameIndex := 0, sessions := s.sessions + 1 } := {
    past := fun u hu => Nat.le_succ_of_le (h.past u hu)
    count := by
      have hnone : (s.units.filter (·.session = s.sessions + 1)) = [] := by
        rw [List.filter_eq_nil_iff]
        intro u hu
        have hpast := h.past u hu
        simp only [decide_eq_true_eq]
        omega
      show (0 : UInt64) =
        UInt64.ofNat ((s.units.filter (·.session = s.sessions + 1)).map _).length
      rw [hnone]
      rfl
    numbered := h.numbered }
  exact hreset.of_records records_shutdown

/-- A frame's unit is the next of its session. -/
theorem Numbered.extend (h : s.Numbered) {ps : List Packet} (hone : ps.length ≤ 1)
    (hindex : ∀ p ∈ ps, p.frameIndex = s.frameIndex) (delivered : List Packet) :
    Numbered { s with frameIndex := s.frameIndex + UInt64.ofNat ps.length
                      units := s.units ++ ps.map (AccessUnit.mk s.sessions)
                      delivered } := by
  have hown : ((s.units ++ ps.map (AccessUnit.mk s.sessions)).filter
      (·.session = s.sessions)).map AccessUnit.packet = s.unitsOf s.sessions ++ ps := by
    rw [List.filter_append, List.map_append, unitsOf, List.filter_map, List.map_map]
    congr 1
    simp [Function.comp_def]
  have hother : ∀ n, n ≠ s.sessions →
      ((s.units ++ ps.map (AccessUnit.mk s.sessions)).filter (·.session = n)).map
        AccessUnit.packet = s.unitsOf n := by
    intro n hn
    rw [List.filter_append, List.map_append, unitsOf, List.filter_map, List.map_map]
    simp [Function.comp_def, Ne.symm hn]
  exact {
    past := by
      intro u hu
      rcases List.mem_append.mp hu with hu | hu
      · exact h.past u hu
      · obtain ⟨p, -, rfl⟩ := List.mem_map.mp hu
        exact Nat.le_refl _
    count := by
      show s.frameIndex + UInt64.ofNat ps.length = UInt64.ofNat (List.length (List.map _ _))
      rw [hown, List.length_append, UInt64.ofNat_add, ← h.count]
    numbered := by
      intro n
      show (List.map _ (List.map _ _)) = (List.range (List.length (List.map _ _))).map _
      by_cases hn : n = s.sessions
      · subst hn
        rw [hown, List.map_append, h.numbered, List.length_append, List.range_add,
          List.map_append]
        congr 1
        have hlast : ∀ p ∈ ps, p.frameIndex = UInt64.ofNat (s.unitsOf s.sessions).length :=
          fun p hp => (hindex p hp).trans h.count
        rcases ps with _ | ⟨p, _ | _⟩
        · rfl
        · simp [hlast p List.mem_cons_self]
        · exact absurd hone (by simp)
      · rw [hother n hn]
        exact h.numbered n }

/-- **One call keeps the numbers.** -/
theorem Numbered.call (h : s.Numbered) (hrests : s.Rests) (c : Call) : (s.call c).Numbered := by
  cases c with
  | initializeWith device cfg a =>
      exact h.shutdown.of_records (hrests.sound.initializeWith hrests.idle device cfg a).records_eq
  | encodeFrame texture timestamp forceIdr listens a =>
      obtain ⟨ps, hone, hps, hrecords⟩ :=
        records_encodeFrame hrests.idle texture timestamp forceIdr listens a
      exact (h.extend hone (fun p hp => (hps p hp).2) _).of_records hrecords
  | flush =>
      refine h.of_records ?_
      show s.flush.2.records = _
      unfold flush
      split <;> rfl
  | shutdown => exact h.shutdown

/-- The callbacks are given access units, in order; a unit is lost where nobody listens. -/
theorem Rests.heard_call (hrests : s.Rests)
    (h : s.delivered.Sublist (s.units.map AccessUnit.packet)) (c : Call) :
    (s.call c).delivered.Sublist ((s.call c).units.map AccessUnit.packet) := by
  have hsame : ∀ {t : NvencEncoder}, t.units = s.units → t.delivered = s.delivered →
      t.delivered.Sublist (t.units.map AccessUnit.packet) := by
    intro t hunits hdelivered
    rw [hunits, hdelivered]
    exact h
  obtain ⟨-, -, hunits, hdelivered⟩ := records_eq_iff.mp s.records_shutdown
  cases c with
  | initializeWith device cfg a =>
      obtain ⟨-, -, hunits', hdelivered'⟩ := records_eq_iff.mp
        ((hrests.sound.initializeWith hrests.idle device cfg a).records_eq.trans
          s.records_shutdown)
      exact hsame hunits' hdelivered'
  | encodeFrame texture timestamp forceIdr listens a =>
      obtain ⟨ps, -, -, hrecords⟩ :=
        records_encodeFrame hrests.idle texture timestamp forceIdr listens a
      obtain ⟨-, -, hunits, hdelivered⟩ := records_eq_iff.mp hrecords
      show List.Sublist (s.encodeFrame texture timestamp forceIdr listens a).2.delivered _
      rw [hdelivered]
      show List.Sublist _
        (List.map _ (s.encodeFrame texture timestamp forceIdr listens a).2.units)
      rw [hunits, List.map_append, List.map_map]
      refine h.append ?_
      show List.Sublist _ (List.map id ps)
      rw [List.map_id]
      split
      · exact List.Sublist.refl _
      · exact List.nil_sublist _
  | flush =>
      show List.Sublist s.flush.2.delivered (s.flush.2.units.map _)
      unfold flush
      split <;> exact h
  | shutdown => exact hsame hunits hdelivered

/-- **Numbering**, over any sequence of calls. -/
theorem units_numbered (calls : List Call) : (after calls).Numbered ∧
    (after calls).delivered.Sublist ((after calls).units.map AccessUnit.packet) := by
  have hall : (after calls).Rests ∧ (after calls).Numbered ∧
      (after calls).delivered.Sublist ((after calls).units.map AccessUnit.packet) := by
    refine Runs.exec_preserves (P := fun s : NvencEncoder => s.Rests ∧ s.Numbered ∧
        s.delivered.Sublist (s.units.map AccessUnit.packet))
      (fun s c h => ⟨h.1.call c, h.2.1.call h.1 c, h.1.heard_call h.2.2 c⟩)
      ⟨rests_after [], ?_, List.Sublist.refl _⟩ calls
    exact {
      past := fun u hu => by cases hu
      count := rfl
      numbered := fun n => rfl }
  exact hall.2

end NvencEncoder

end TetherDisplay.Encode
