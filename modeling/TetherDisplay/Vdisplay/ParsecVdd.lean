import TetherDisplay.Foundations.Custody
import TetherDisplay.Foundations.LittleEndian
import TetherDisplay.Foundations.Runs
import TetherDisplay.Vdisplay.ModeSelect

/-!
# Owning a virtual display

`ParsecVirtualDisplay` opens the driver's device, adds a display through the handle, and keeps the
display alive from a thread of its own until it removes the display and closes the handle.  A step
of the model is what one of the two threads does between two points at which it meets the other:
the main thread sets `keep_alive_run_`, waits for the join, polls for the new monitor, and goes
through the rest of `Add` and `Remove` while it is alone.

What the driver sees is logged, and `Sound` asks that the log be orderly and leave the driver with
just what the object thinks it has.  Two things stand against it.  `Add` returns with the handle
open where the version handshake or the ADD fails, and of the index of a display REMOVE gets the
low 16 bits.  `Proper` excludes them, and it is all that is needed (`sound_iff`).
-/

namespace TetherDisplay.Vdisplay

/-! ## The driver -/

/-- What `Add` may come to. -/
inductive VddStatus where
  | ok
  | driverNotFound
  | driverNotRunning
  | openFailed
  | addFailed
  | modeUnavailable
  | removeFailed
  deriving DecidableEq, Repr

/-- A handle of the driver's device. -/
inductive Handle where
  /-- `INVALID_HANDLE_VALUE`. -/
  | invalid
  /-- The handles of the device, numbered. -/
  | device (n : ℕ)
  deriving DecidableEq, Repr

/-- What the driver sees, with the handle that is used. -/
inductive Ioctl where
  /-- `CreateFileW`. -/
  | open (vdd : Handle)
  | version (vdd : Handle)
  /-- What `VddIoControl` makes of the answer goes with it. -/
  | add (vdd : Handle) (index : Int32)
  | update (vdd : Handle)
  | remove (vdd : Handle) (data : UInt16)
  /-- `CloseHandle`. -/
  | close (vdd : Handle)
  deriving DecidableEq

/-- `VddIoControl`, of the DWORD that the driver writes back. -/
def vddIoControl : Option UInt32 → Int32
  | some out => out.toInt32
  | none => -1

/-- The index with its two low bytes swapped. -/
def encodeRemoveIndex (index : Int32) : UInt16 :=
  (((index &&& 0xFF) <<< 8) ||| ((index >>> 8) &&& 0xFF)).toUInt32.toUInt16

example : encodeRemoveIndex 7 = 0x0700 ∧ encodeRemoveIndex 0x0102 = 0x0201 := by decide

/-- The index that the driver reads. -/
def decodeRemoveIndex (data : UInt16) : ℕ := data.toNat % 256 * 256 + data.toNat / 256

/-- Of an index that is not negative the driver reads the low 16 bits. -/
theorem decode_encodeRemoveIndex {index : Int32} (h : 0 ≤ index) :
    decodeRemoveIndex (encodeRemoveIndex index) = index.toNatClampNeg % 65536 := by
  have hint : 0 ≤ index.toInt := by simpa using Int32.le_iff_toInt_le.mp h
  have hmsb : index.toBitVec.msb = false := by
    rw [BitVec.msb_eq_toInt]
    simpa using hint
  have hnat : index.toNatClampNeg = index.toBitVec.toNat := by
    have htoInt : index.toInt = index.toBitVec.toNat := BitVec.toInt_eq_toNat_of_msb hmsb
    rw [Int32.toNatClampNeg, htoInt]
    rfl
  have hvec : (encodeRemoveIndex index).toBitVec =
      (((index.toBitVec &&& 0xFF#32) <<< (8 : ℕ)) |||
        ((index.toBitVec.sshiftRight 8) &&& 0xFF#32)).setWidth 16 := rfl
  generalize index.toBitVec = x at hmsb hnat hvec
  have henc : (encodeRemoveIndex index).toNat = x.toNat % 256 * 256 + x.toNat / 256 % 256 := by
    rw [← UInt16.toNat_toBitVec, hvec, BitVec.sshiftRight_eq_of_msb_false hmsb,
      BitVec.toNat_setWidth, BitVec.toNat_or, BitVec.toNat_shiftLeft, BitVec.toNat_and,
      BitVec.toNat_and, BitVec.toNat_ushiftRight, show (0xFF#32).toNat = 2 ^ 8 - 1 from rfl,
      Nat.and_two_pow_sub_one_eq_mod, Nat.and_two_pow_sub_one_eq_mod, Nat.shiftRight_eq_div_pow]
    have hhigh : (x.toNat % 2 ^ 8) <<< 8 % 2 ^ 32 = (x.toNat % 2 ^ 8) <<< 8 := by
      rw [Nat.shiftLeft_eq]
      omega
    have hlow : x.toNat / 2 ^ 8 % 2 ^ 8 < 2 ^ 8 := Nat.mod_lt _ (by decide)
    rw [hhigh, Nat.or_comm, LittleEndian.or_shiftLeft_eq_add _ hlow,
      show 2 ^ 8 = 256 from rfl]
    omega
  have hdiv : x.toNat / 256 / 256 = x.toNat / 65536 := Nat.div_div_eq_div_mul _ _ _
  rw [decodeRemoveIndex, henc, hnat]
  omega

/-! ## The object -/

/-- What is known of the display. -/
structure VirtualDisplayInfo where
  driverIndex : Int32 := -1
  activeMode : DisplayMode := {}
  gdiDeviceName : String := ""
  deriving DecidableEq

/-- The keep-alive thread. -/
inductive Thread where
  /-- Not joinable. -/
  | absent
  /-- `while (keep_alive_run_.load())`. -/
  | checking
  /-- `VddUpdate(vdd_)`. -/
  | updating
  | finished
  deriving DecidableEq, Repr

/-- Is the thread in its loop? -/
def Thread.live : Thread → Bool
  | .checking | .updating => true
  | .absent | .finished => false

/-- The last call to return. -/
inductive Returned where
  | added (status : VddStatus)
  | removed
  deriving DecidableEq

/-- What a `Remove` is part of. -/
inductive Purpose where
  /-- A call of `Remove`. -/
  | remove
  /-- An exit of `Add`. -/
  | fail (status : VddStatus)
  /-- The start of `Add`. -/
  | add (desired : DisplayMode)
  /-- The destructor. -/
  | destroy
  deriving DecidableEq

/-- What the main thread does next. -/
inductive Point where
  /-- It is in no call. -/
  | idle
  | destroyed
  /-- `keep_alive_run_ = false`, in `Remove`. -/
  | stop (purpose : Purpose)
  /-- `keep_alive_.join()`, and the rest of `Remove`. -/
  | join (purpose : Purpose)
  /-- `Add`, from `OpenVddDevice` to `StartKeepAlive`. -/
  | bringUp (desired : DisplayMode)
  /-- A poll of `WaitForNewDisplay`. -/
  | wait (desired : DisplayMode) (before : List String) (polls : ℕ)
  /-- `PickBestMode`. -/
  | choose (desired : DisplayMode) (device : String)
  /-- `ApplyMode`, and the end of `Add`. -/
  | apply (device : String) (chosen : DisplayMode)
  deriving DecidableEq

/-- The display, with its two threads. -/
structure VirtualDisplay where
  vdd : Handle := .invalid
  index : Int32 := -1
  keepAliveRun : Bool := false
  keepAlive : Thread := .absent
  alive : Bool := false
  main : Point := .idle
  /-- What the last `Add` has written to `out`. -/
  out : Option VirtualDisplayInfo := none
  returned : Option Returned := none
  /-- The number of handles opened so far. -/
  opened : ℕ := 0
  log : List Ioctl := []

/-- What the driver and Windows answer in a step. -/
structure Answers where
  interfacePresent : Bool := true
  opens : Bool := true
  version : Option UInt32 := some 0
  add : Option UInt32 := some 0
  /-- `AttachedDisplayNames()`. -/
  names : List String := []
  /-- `EnumModes(device)`. -/
  modes : List DisplayMode := []
  /-- `ApplyMode(device, *chosen)`. -/
  applied : Bool := true

/-- What happens next. -/
inductive Input where
  | add (desired : DisplayMode)
  | remove
  | destroy
  /-- The main thread goes on. -/
  | main (answers : Answers)
  /-- The keep-alive thread goes on. -/
  | keepAlive

namespace VirtualDisplay

variable (s : VirtualDisplay)

/-- The call of the main thread returns. -/
def exit (returned : Returned) : VirtualDisplay :=
  { s with main := .idle, returned := some returned }

/-- The rest of `Remove`, behind the join. -/
def tearDown : VirtualDisplay :=
  let s :=
    if s.vdd ≠ .invalid ∧ 0 ≤ s.index then
      { s with
        index := -1
        log := s.log ++ [.remove s.vdd (encodeRemoveIndex s.index), .update s.vdd] }
    else s
  let s :=
    if s.vdd ≠ .invalid then { s with vdd := .invalid, log := s.log ++ [.close s.vdd] } else s
  { s with alive := false }

/-- The keep-alive thread is started, if there is none. -/
def startKeepAlive : VirtualDisplay :=
  if s.keepAlive ≠ .absent then s else { s with keepAliveRun := true, keepAlive := .checking }

/-- `Add`, while it is alone: the device, the version, the names of the displays that are there,
ADD with the UPDATE behind it, and the thread. -/
def bringUp (desired : DisplayMode) (answers : Answers) : VirtualDisplay :=
  if !answers.opens then
    { s with vdd := .invalid }.exit
      (.added (if answers.interfacePresent then .openFailed else .driverNotFound))
  else
    let vdd := Handle.device s.opened
    let s : VirtualDisplay :=
      { s with vdd, opened := s.opened + 1, log := s.log ++ [.open vdd, .version vdd] }
    if vddIoControl answers.version < 0 then s.exit (.added .driverNotRunning)
    else
      let index := vddIoControl answers.add
      let s : VirtualDisplay := { s with index, log := s.log ++ [.add vdd index, .update vdd] }
      if s.index < 0 then s.exit (.added .addFailed)
      else { s.startKeepAlive with main := .wait desired answers.names 0 }

/-- What follows a `Remove`. -/
def resume : Purpose → VirtualDisplay
  | .remove => s.exit .removed
  | .fail status => s.exit (.added status)
  | .add desired => { s with main := .bringUp desired }
  | .destroy => { s with main := .destroyed }

/-- One round of `WaitForNewDisplay`, of which there are fifty, and the test of what it returns. -/
def poll (desired : DisplayMode) (before : List String) (polls : ℕ) (names : List String) :
    VirtualDisplay :=
  if polls < 50 then
    match names.find? (fun name => name ∉ before) with
    | none => { s with main := .wait desired before (polls + 1) }
    | some device =>
        if device = "" then { s with main := .stop (.fail .addFailed) }
        else { s with main := .choose desired device }
  else { s with main := .stop (.fail .addFailed) }

/-- The main thread goes on. -/
def stepMain (answers : Answers) : VirtualDisplay :=
  match s.main with
  | .idle | .destroyed => s
  | .stop purpose => { s with keepAliveRun := false, main := .join purpose }
  | .join purpose =>
      if s.keepAlive.live then s else { s with keepAlive := .absent }.tearDown.resume purpose
  | .bringUp desired => s.bringUp desired answers
  | .wait desired before polls => s.poll desired before polls answers.names
  | .choose desired device =>
      match pickBestMode desired answers.modes with
      | none => { s with main := .stop (.fail .modeUnavailable) }
      | some chosen => { s with main := .apply device chosen }
  | .apply device chosen =>
      if !answers.applied then { s with main := .stop (.fail .modeUnavailable) }
      else
        { s with
          alive := true
          out := some { driverIndex := s.index, activeMode := chosen, gdiDeviceName := device }
        }.exit (.added .ok)

/-- The keep-alive thread goes on. -/
def stepKeepAlive : VirtualDisplay :=
  match s.keepAlive with
  | .absent | .finished => s
  | .checking => { s with keepAlive := if s.keepAliveRun then .updating else .finished }
  | .updating => { s with keepAlive := .checking, log := s.log ++ [.update s.vdd] }

/-- The calls come one after the other. -/
def step : Input → VirtualDisplay
  | .add desired => if s.main = .idle then { s with main := .stop (.add desired), out := none } else s
  | .remove => if s.main = .idle then { s with main := .stop .remove } else s
  | .destroy => if s.main = .idle then { s with main := .stop .destroy } else s
  | .main answers => s.stepMain answers
  | .keepAlive => s.stepKeepAlive

example :
    let mode : DisplayMode := { width := 1920, height := 1080, refreshHz := 60 }
    let s := Runs.exec step {} [.add mode, .main {}, .main {}, .main {}, .keepAlive,
      .main { names := ["DISPLAY3"] }, .main { modes := [mode] }, .keepAlive, .main {}]
    s.returned = some (.added .ok) ∧ s.alive ∧ s.keepAlive.live := by decide

end VirtualDisplay

end TetherDisplay.Vdisplay
