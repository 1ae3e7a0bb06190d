import TetherDisplay.Core.Keyframes

/-!
# A HELLO of another version

Both sides begin with a HELLO, and the host is to answer one of another protocol version
with an ERROR and stop.  `decodeMessage` does reject such a HELLO, but `ControlLoop` skips
what does not decode: nothing is said about it, and the session goes on as before.
-/

namespace TetherDisplay.Core

open Protocol (Message RawFrame Channel kProtocolVersion loadU16)
open Encode (EncoderConfig)
open LockedSender (Wiring)

/-- A well-framed HELLO of another version. -/
def IsForeignHello (raw : RawFrame) : Prop :=
  raw.channel = Channel.control ∧ raw.type = Protocol.Ctrl.kHello ∧ raw.flags = 0 ∧
    raw.payload.length = 14 ∧ loadU16 raw.payload ≠ kProtocolVersion

instance : DecidablePred IsForeignHello := fun raw =>
  inferInstanceAs (Decidable (raw.channel = Channel.control ∧
    raw.type = Protocol.Ctrl.kHello ∧ raw.flags = 0 ∧ raw.payload.length = 14 ∧
    loadU16 raw.payload ≠ kProtocolVersion))

/-- An ERROR that says so. -/
def IsVersionError : Message → Prop
  | .errorMsg e => e.code = kErrVersionMismatch
  | _ => False

namespace Session

variable {L : Wiring Bytes UInt8} {link : L.State} {config : EncoderConfig} {s : Session L}

/-- Once a HELLO of another version has been handled, the host has said so and has stopped: an
`OnFrame` call that begins later sends nothing. -/
def RejectsVersions (link : L.State) (config : EncoderConfig) (acts : List Act) : Prop :=
  ∀ front back, acts = front ++ back →
    ∀ raw ∈ (after link config front).processed, IsForeignHello raw →
      (∃ x ∈ (after link config front).sender.sent, IsVersionError x.2.msg) ∧
        (after link config acts).firstFrameAfter (after link config front).calls = none

/-- No thread sends an ERROR. -/
theorem Sound.no_versionError (h : s.Sound link config) {t : Thread} {o : Outgoing}
    (ho : (t, o) ∈ s.sender.sent) : ¬ IsVersionError o.msg := by
  intro herror
  have hspeaks := (h.speaks.sent (t, o) ho).1
  cases hmsg : o.msg with
  | errorMsg e =>
      rw [hmsg] at hspeaks
      cases t with
      | run | capture | control => exact hspeaks
  | _ =>
      rw [hmsg] at herror
      exact herror

/-- What has been processed stays so. -/
theorem processed_step (act : Act) : s.processed <+: (s.step act).processed := by
  rcases s.step_cases act with hidle | hmove
  · rw [hidle]
  generalize s.step act = s' at hmove ⊢
  cases hmove with
  | skipped | decoded => exact List.prefix_append _ _
  | _ => exact List.prefix_rfl

/-- A frame that has been handled stays so. -/
theorem processed_exec (s : Session L) (acts : List Act) :
    s.processed <+: (Runs.exec step s acts).processed :=
  Runs.exec_preserves (P := fun s' : Session L => s.processed <+: s'.processed)
    (fun _ act h => h.trans (processed_step act)) List.prefix_rfl acts

/-- **Another version is never rejected**: only a run in which no HELLO of another version is
handled does what is asked of it. -/
theorem version_ignored (link : L.State) (config : EncoderConfig) (acts : List Act) :
    RejectsVersions link config acts ↔
      ∀ raw ∈ (after link config acts).processed, ¬ IsForeignHello raw := by
  constructor
  · intro h raw hraw hforeign
    obtain ⟨⟨⟨t, o⟩, ho, herror⟩, -⟩ := h acts [] (List.append_nil acts).symm raw hraw hforeign
    exact (sound_after link config acts).no_versionError ho herror
  · rintro h front back rfl raw hraw hforeign
    have hwhole : (after link config (front ++ back)) =
        Runs.exec step (after link config front) back := Runs.exec_append step _ front back
    refine absurd hforeign (h raw ?_)
    rw [hwhole]
    exact (processed_exec _ back).subset hraw

/-- The iPad says that it speaks version 2, and the next frame is sent all the same. -/
theorem version_guessed :
    let hello := Protocol.encodeFrame .control Protocol.Ctrl.kHello (2 :: List.replicate 13 0)
    let front := opening ++ [.control, .recv (.data hello), .control, .control]
    let back := onFrame {} [⟨[1, 2], true⟩]
    (∃ raw ∈ (after (L := rawLink) () {} front).processed, IsForeignHello raw) ∧
      ¬ RejectsVersions (L := rawLink) () {} (front ++ back) := by
  intro hello front back
  have hhandled : ∃ raw ∈ (after (L := rawLink) () {} front).processed, IsForeignHello raw := by
    decide +kernel
  refine ⟨hhandled, fun h => ?_⟩
  obtain ⟨raw, hraw, hforeign⟩ := hhandled
  have hnothing := (h front back rfl raw hraw hforeign).2
  exact absurd hnothing (by decide +kernel)

end Session

end TetherDisplay.Core
