import TetherDisplay.Capture.AdapterSelect
import TetherDisplay.Capture.CaptureSource
import TetherDisplay.Foundations.Ledger
import Mathlib.Data.Fintype.OfMap

/-!
# Capturing a display

`WgcCaptureSource` of `wgc_capture.cpp`.  One thread owns the source and calls `Start` and `Stop`;
the frame pool raises `FrameArrived` on threads of its own, and any number of its handlers may be
on their way at once.  They share the fields of the object, the flag `capturing_` and the mutex
`frame_mutex_`, which a handler holds from its first line to its last, the callback included, and
which `Stop` takes for the teardown only: `revoke` does not wait for a handler that is running.

A step is one access to something shared.  `Start` writes the fields without the mutex, and is one
step up to the subscription: a handler that is left over from before reads nothing but
`capturing_`, which is off.  What Windows answers comes with the step.  The objects that the fields
refer to are kept in a `Ledger.Book`, with what rests on what.
-/

namespace TetherDisplay.Capture

open Ledger (Book)

/-! ## Adapters and displays -/

/-- An output of an adapter, and its monitor. -/
structure OutputDesc where
  deviceName : String
  monitor : ℕ
  deriving DecidableEq, Repr

/-- An adapter that DXGI enumerates; `none` where `GetDesc1` or `GetDesc` fails. -/
structure DxgiAdapter where
  desc : Option AdapterInfo
  /-- `DXGI_ADAPTER_FLAG_SOFTWARE`. -/
  software : Bool := false
  outputs : List (Option OutputDesc) := []
  deriving DecidableEq, Repr

/-- An adapter as the factory enumerates it; the description of an output may fail. -/
structure AdapterEntry where
  info : AdapterInfo
  outputs : List (Option OutputDesc)
  deriving DecidableEq, Repr

/-- The adapters that can share and encode. -/
def enumAdapters (found : List DxgiAdapter) : List AdapterEntry :=
  found.filterMap fun a =>
    match a.desc with
    | none => none
    | some info => if a.software then none else some ⟨info, a.outputs⟩

/-- The monitor of the display, and the adapter that drives it. -/
def findMonitor (adapters : List AdapterEntry) (deviceName : String) : Option (ℕ × AdapterId) :=
  adapters.findSome? fun e => e.outputs.findSome? fun output =>
    match output with
    | none => none
    | some od => if deviceName = od.deviceName then some (od.monitor, e.info.id) else none

/-! ## The state -/

/-- What the fields of the object refer to. -/
inductive Part where
  | d3d
  | ctx
  | winrtDevice
  | item
  | pool
  | session
  /-- The subscription to the pool's frames. -/
  | frameArrived
  | delivery
  deriving DecidableEq, Repr

instance : Fintype Part :=
  Fintype.ofList [.d3d, .ctx, .winrtDevice, .item, .pool, .session, .frameArrived, .delivery]
    (by intro k; cases k <;> decide)

/-- What a part is made from. -/
def Part.needs : Part → List Part
  | .d3d | .item => []
  | .ctx | .winrtDevice | .delivery => [.d3d]
  | .pool => [.winrtDevice]
  | .session => [.pool, .item]
  | .frameArrived => [.pool]

/-- The next thing that `Stop` does. -/
inductive StopPoint where
  | clear
  | revoke
  | lock
  /-- The mutex is taken. -/
  | teardown
  deriving DecidableEq, Repr

/-- Who has called `Stop`: the owner, or `Start` at its beginning or in its `catch`. -/
inductive AfterStop where
  | stop
  | start (target : String)
  | fail
  deriving DecidableEq, Repr

/-- Where the owner is. -/
inductive OwnerPoint where
  | idle
  | stopping (p : StopPoint) (next : AfterStop)
  /-- In `Start`, before the subscription. -/
  | activating (target : String)
  /-- Before `capturing_ = true`. -/
  | arming
  /-- Before `StartCapture`. -/
  | launching
  deriving DecidableEq, Repr

/-- Is the mutex held by `Stop`? -/
def OwnerPoint.locks : OwnerPoint → Bool
  | .stopping .teardown _ => true
  | _ => false

/-- Where the handler is that holds the mutex. -/
inductive Inside where
  /-- It looks whether the source is capturing. -/
  | entered (sender : ℕ)
  | calling (f : CapturedFrame)
  deriving DecidableEq, Repr

/-- The fields of the object, the points where its threads are, and the history. -/
structure WgcCaptureSource where
  parts : Book Part ℕ := {}
  cb : Bool := false
  /-- The size of the delivery texture. -/
  texture : Size := {}
  /-- `delivery_w_` and `delivery_h_`. -/
  deliverySize : Size := {}
  capturing : Bool := false
  frameId : UInt64 := 0
  captureLuid : AdapterId := {}
  encoderLuid : AdapterId := {}
  crossedAdapters : Bool := false
  owner : OwnerPoint := .idle
  /-- The handlers that wait for the mutex, by their pools. -/
  waiting : List ℕ := []
  inside : Option Inside := none
  log : List Event := []

namespace WgcCaptureSource

variable (s : WgcCaptureSource)

/-- The object that is held as a part. -/
def held (k : Part) : Option ℕ := s.parts.held k

/-- A part is made. -/
def acquire (k : Part) (i : ℕ) : WgcCaptureSource := { s with parts := s.parts.acquire k i }

/-- A part is used. -/
def use (k : Part) : WgcCaptureSource := { s with parts := s.parts.use k }

/-- A part is let go. -/
def drop (k : Part) : WgcCaptureSource := { s with parts := s.parts.drop k }

/-- `GetDevice`. -/
def getDevice : Option ℕ := s.held .d3d

/-- The old texture goes in any case. -/
def ensureDeliveryTexture (size : Size) (created : Bool) : WgcCaptureSource :=
  let s := (s.drop .delivery).use .d3d
  if created then { s.acquire .delivery 0 with texture := size, deliverySize := size } else s

/-! ## `Start` -/

/-- What Windows answers to `Start`; `none` or `false` where a call fails or throws. -/
structure StartAnswers where
  supported : Option Bool := some true
  adapters : Option (List DxgiAdapter)
  d3d : Option ℕ := some 0
  /-- `WrapDevice`. -/
  wrapped : Bool := true
  item : Bool := true
  /-- The size of the item. -/
  size : Option Size
  created : Bool := true
  pool : Option ℕ := some 0
  session : Bool := true
  subscribed : Bool := true
  deriving DecidableEq, Repr

/-- How far `Start` has come. -/
inductive Outcome where
  | returns (status : CaptureStatus)
  | throws
  | goesOn
  deriving DecidableEq, Repr

/-- From the pool to the subscription. -/
def subscribe (a : StartAnswers) : Outcome × WgcCaptureSource :=
  match a.pool with
  | none => (.throws, s)
  | some pool =>
      let s := s.acquire .pool pool
      if !a.session then (.throws, s)
      else
        let s := { s.acquire .session 0 with cb := true }
        if !a.subscribed then (.throws, s) else (.goesOn, s.acquire .frameArrived 0)

/-- The item, and the delivery texture: a seed, so that the first frame finds one. -/
def createItem (a : StartAnswers) : Outcome × WgcCaptureSource :=
  if !a.item then (.throws, s)
  else
    let s := s.acquire .item 0
    match a.size with
    | none => (.throws, s)
    | some size => (s.ensureDeliveryTexture size a.created).subscribe a

/-- The device, on the encoder's adapter. -/
def createDevice (a : StartAnswers) : Outcome × WgcCaptureSource :=
  match a.d3d with
  | none => (.returns .deviceCreateFailed, s)
  | some d3d =>
      let s := (s.acquire .d3d d3d).acquire .ctx 0
      if !a.wrapped then (.returns .deviceCreateFailed, s)
      else (s.acquire .winrtDevice 0).createItem a

/-- `Start` behind its `Stop`, up to the subscription. -/
def activate (target : String) (a : StartAnswers) : Outcome × WgcCaptureSource :=
  match a.supported with
  | none => (.throws, s)
  | some false => (.returns .wgcUnavailable, s)
  | some true =>
      match a.adapters with
      | none => (.returns .deviceCreateFailed, s)
      | some found =>
          let adapters := enumAdapters found
          match selectEncoderAdapter (adapters.map AdapterEntry.info) with
          | none => (.returns .deviceCreateFailed, s)
          | some encoder =>
              let s := { s with encoderLuid := encoder.id }
              match findMonitor adapters target with
              | none => (.returns .monitorNotFound, s)
              | some (_, captureLuid) =>
                  { s with
                    captureLuid
                    crossedAdapters := needsCrossAdapterCopy captureLuid encoder.id }.createDevice a

/-! ## `Stop` -/

/-- The end of `Stop`: every part is let go, and the size is forgotten. -/
def teardown : WgcCaptureSource :=
  let s := (((s.drop .session).drop .pool).drop .item).drop .winrtDevice
  let s := { s with cb := false }.drop .delivery
  { (s.drop .ctx).drop .d3d with deliverySize := {} }

/-- `Stop` returns to its caller. -/
def stopped (next : AfterStop) : WgcCaptureSource :=
  match next with
  | .stop => { s with owner := .idle, log := s.log ++ [.closed, .stopped] }
  | .start target => { s with owner := .activating target, log := s.log ++ [.closed] }
  | .fail => { s with owner := .idle, log := s.log ++ [.closed, .failed .startFailed] }

/-! ## `OnFrameArrived` -/

/-- What the pool and Direct3D answer to a handler. -/
structure Arrival where
  /-- The pool can fire spuriously. -/
  frame : Bool := true
  surface : Bool := true
  content : Size
  created : Bool := true
  timestamp : UInt64 := 0
  deriving DecidableEq, Repr

/-- The display's size has changed.  Whether the pool is made anew matters to its frames only. -/
def resize (a : Arrival) : WgcCaptureSource :=
  if a.content ≠ s.deliverySize then
    ((s.ensureDeliveryTexture a.content a.created).use .winrtDevice).use .pool
  else s

/-- The callback gives the lock back. -/
def leave : WgcCaptureSource := { s with inside := none }

/-- The handler under the mutex, up to the callback. -/
def onFrame (sender : ℕ) (a : Arrival) : WgcCaptureSource :=
  if !s.capturing then s.leave
  -- a pool that has been closed has no frames
  else if s.held .pool ≠ some sender ∨ !a.frame ∨ !a.surface then s.leave
  else
    let s := s.resize a
    if (s.held .delivery).isNone then s.leave
    else
      let s := (s.use .ctx).use .delivery
      let out : CapturedFrame :=
        { encoderTexture := s.texture
          width := a.content.width
          height := a.content.height
          frameId := s.frameId
          timestamp100ns := a.timestamp
          crossedAdapters := s.crossedAdapters }
      let s := { s with frameId := s.frameId + 1 }
      if s.cb then { s with inside := some (.calling out), log := s.log ++ [.frame out] }
      else s.leave

/-! ## The steps -/

/-- What happens next. -/
inductive Act where
  /-- The owner calls `Start`, or `Stop`. -/
  | start (target : String)
  | stop
  /-- The owner goes on. -/
  | owner
  /-- The owner goes on in `Start`, to the subscription. -/
  | activate (a : StartAnswers)
  /-- `StartCapture`, which may throw. -/
  | launch (ok : Bool)
  /-- The pool raises `FrameArrived`. -/
  | raise
  /-- The handler that is the `i`-th to wait takes the mutex. -/
  | enter (i : ℕ)
  /-- The handler goes on up to the callback. -/
  | handle (a : Arrival)
  /-- The callback returns. -/
  | return_
  deriving DecidableEq, Repr

/-- The owner goes on. -/
def stepOwner : WgcCaptureSource :=
  match s.owner with
  | .stopping .clear next => { s with capturing := false, owner := .stopping .revoke next }
  | .stopping .revoke next => { s.drop .frameArrived with owner := .stopping .lock next }
  | .stopping .lock next =>
      if s.inside = none then { s with owner := .stopping .teardown next } else s
  | .stopping .teardown next => s.teardown.stopped next
  | .arming => { s with capturing := true, owner := .launching }
  | .idle | .activating _ | .launching => s

/-- `ActivateCapture` goes through, or fails. -/
def stepActivate (a : StartAnswers) : WgcCaptureSource :=
  match s.owner with
  | .activating target =>
      match s.activate target a with
      | (.returns status, s) => { s with owner := .idle, log := s.log ++ [.failed status] }
      | (.throws, s) => { s with owner := .stopping .clear .fail }
      | (.goesOn, s) => { s with owner := .arming, log := s.log ++ [.opened] }
  | _ => s

/-- `StartCapture` is called on the session. -/
def stepLaunch (ok : Bool) : WgcCaptureSource :=
  match s.owner with
  | .launching =>
      let s := s.use .session
      if ok then { s with owner := .idle, log := s.log ++ [.started] }
      else { s with owner := .stopping .clear .fail }
  | _ => s

/-- Only a pool that is subscribed to. -/
def stepRaise : WgcCaptureSource :=
  match s.held .frameArrived, s.held .pool with
  | some _, some pool => { s with waiting := s.waiting ++ [pool] }
  | _, _ => s

/-- One of the waiting callbacks gets the lock, if it is free. -/
def stepEnter (i : ℕ) : WgcCaptureSource :=
  match s.waiting[i]? with
  | some sender =>
      if s.inside = none ∧ s.owner.locks = false then
        { s with waiting := s.waiting.eraseIdx i, inside := some (.entered sender) }
      else s
  | none => s

/-- The callback that has the lock does what `OnFrame` does. -/
def stepHandle (a : Arrival) : WgcCaptureSource :=
  match s.inside with
  | some (.entered sender) => s.onFrame sender a
  | _ => s

/-- The owner's callback returns. -/
def stepReturn : WgcCaptureSource :=
  match s.inside with
  | some (.calling _) => { s.leave with log := s.log ++ [.returned] }
  | _ => s

/-- One step of one of the threads. -/
def step : Act → WgcCaptureSource
  | .start target =>
      if s.owner = .idle then { s with owner := .stopping .clear (.start target) } else s
  | .stop => if s.owner = .idle then { s with owner := .stopping .clear .stop } else s
  | .owner => s.stepOwner
  | .activate a => s.stepActivate a
  | .launch ok => s.stepLaunch ok
  | .raise => s.stepRaise
  | .enter i => s.stepEnter i
  | .handle a => s.stepHandle a
  | .return_ => s.stepReturn

/-- A new source after some steps. -/
def after (acts : List Act) : WgcCaptureSource := Runs.exec step {} acts

end WgcCaptureSource

end TetherDisplay.Capture
