import TetherDisplay.Core.StreamingSession

/-!
# What a capture source promises

`ICaptureSource`: `Start` begins to call back with frames on a thread of the source's, `Stop` ends
it.  The promise is about the order of what is seen from outside.  Frames come one at a time, the
next only when the callback has returned, and only while the source is open; and it is closed when
`Stop` returns and when `Start` returns with a failure.  `View.step` is the promise as an automaton,
and `View.run` says whether a history keeps it.

The session counts on this and on no more: it takes a frame exactly where the view is open
(`Session.deliver_taken`), and where it has its source stopped it waits until no frame is being
handled (`Session.stop_waits`).
-/

namespace TetherDisplay.Capture

/-- What `Start` may come to. -/
inductive CaptureStatus where
  | ok
  /-- The display did not resolve to a monitor. -/
  | monitorNotFound
  | deviceCreateFailed
  | wgcUnavailable
  | crossAdapterFailed
  | startFailed
  deriving DecidableEq, Repr

/-- The two sides of a texture or a display. -/
structure Size where
  width : UInt32 := 0
  height : UInt32 := 0
  deriving DecidableEq, Repr

/-- What the callback is given; of the texture on the encoder adapter, its size. -/
structure CapturedFrame where
  encoderTexture : Size
  width : UInt32
  height : UInt32
  frameId : UInt64
  timestamp100ns : UInt64
  crossedAdapters : Bool
  deriving DecidableEq, Repr

/-- What is seen of a source from outside. -/
inductive Event where
  /-- From here on there may be frames. -/
  | opened
  /-- The callback begins. -/
  | frame (f : CapturedFrame)
  /-- The callback has returned. -/
  | returned
  /-- From here on there are none. -/
  | closed
  /-- `Start` returns `Ok`. -/
  | started
  /-- `Start` returns something else. -/
  | failed (status : CaptureStatus)
  /-- `Stop` returns. -/
  | stopped
  deriving DecidableEq, Repr

/-- How the owner sees a source. -/
inductive View where
  | closed
  | open_
  /-- A callback is running. -/
  | busy
  deriving DecidableEq, Repr

/-- The promise. -/
def View.step : View → Event → Option View
  | .closed, .opened => some .open_
  | .open_, .frame _ => some .busy
  | .busy, .returned => some .open_
  | .open_, .closed | .closed, .closed => some .closed
  | .open_, .started => some .open_
  | .busy, .started => some .busy
  | .closed, .failed _ | .closed, .stopped => some .closed
  | _, _ => none

/-- Where a history that keeps the promise leads. -/
def View.run (v : View) (log : List Event) : Option View := log.foldlM View.step v

/-- The frames of a history. -/
def frames (log : List Event) : List CapturedFrame :=
  log.filterMap fun
    | .frame f => some f
    | _ => none

variable {v v' : View} {log front back : List Event} {e : Event}

/-- A log is run piece by piece. -/
theorem View.run_append : v.run (front ++ back) = (v.run front).bind fun v => v.run back :=
  List.foldlM_append

theorem View.run_concat (h : v.run log = some v') : v.run (log ++ [e]) = v'.step e := by
  rw [View.run_append, h, Option.bind_some]
  show (v'.step e).bind some = v'.step e
  cases v'.step e <;> rfl

end TetherDisplay.Capture

namespace TetherDisplay.Core.Session

open Capture (View)
open LockedSender (Wiring)

variable {L : Wiring Bytes UInt8} {s : Session L}

/-- What the session takes its source for. -/
def view (s : Session L) : View :=
  if s.capture ≠ .idle then .busy else if s.capturing then .open_ else .closed

/-- **A frame is taken** exactly where the view is open. -/
theorem deliver_taken (f : CapturedFrame) :
    (s.view = .open_ → (s.step (.deliver f)).view = .busy ∧
      (s.step (.deliver f)).delivered = s.delivered ++ [f]) ∧
    (s.view ≠ .open_ → s.step (.deliver f) = s) := by
  unfold view
  simp only [step, stepDeliver]
  by_cases hcapture : s.capture = .idle <;> by_cases hcapturing : s.capturing = true <;>
    simp [hcapture, hcapturing]

/-- **`Stop` is waited for** while a frame is being handled. -/
theorem stop_waits (b : Bool) (hrun : s.run = .stopCapture) (hsending : s.sending .run = false) :
    (s.view = .busy → s.step (.run b) = s) ∧
      (s.view ≠ .busy → (s.step (.run b)).view = .closed) := by
  unfold view
  simp only [step, stepRun, hsending, hrun]
  by_cases hcapture : s.capture = .idle <;> by_cases hcapturing : s.capturing = true <;>
    simp [hcapture, hcapturing]

end TetherDisplay.Core.Session
