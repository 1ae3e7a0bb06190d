import TetherDisplay.Client.HandshakeFrames

/-!
# What the iPad holds of the record layer

The length of a record is read before anything is authenticated, so whoever has reached the port of
the iPad decides how many bytes it is told to wait for.  `readFrame` asks the connection for more
only when there is no whole record in the buffer, and not behind a length that is out of bounds; so
a receive that is outstanding finds less than one record, and adds what one receive delivers.

This holds in the handshake, whose three records are read out of the same buffer, and in the loop
that takes over where the handshake has left the buffer (`record_memory`).
-/

namespace TetherDisplay.Client

open Crypto (Sodium ByteArr headerBytes Identity KxKeypair)

variable {S : Sodium}

/-- `maximumLength` of a `receive`. -/
def maximumLength : ℕ := 1 <<< 18

/-- A buffer without a whole record in it, and with no fault in front. -/
def Short (buffer : Bytes) : Prop := buffer.length < 4 + maxFrame

/-- A buffer that waits for more is short. -/
theorem short_of_needMore {buffer rest : Bytes} (h : extractFrame buffer = (.needMore, rest)) :
    Short buffer := by
  unfold extractFrame at h
  unfold Short
  split at h
  · omega
  · dsimp only at h
    split at h
    · cases h
    · split at h
      · omega
      · cases h

/-- A frame makes the buffer shorter. -/
theorem length_of_frame {buffer f rest : Bytes} (h : extractFrame buffer = (.frame f, rest)) :
    rest.length < buffer.length := by
  unfold extractFrame at h
  split at h
  · cases h
  · dsimp only at h
    split at h
    · cases h
    · split at h
      · cases h
      · cases h
        rw [List.length_drop]
        omega

/-! ## The loop -/

namespace SecureTransport

/-- The loop only takes records off, and waits behind the last whole one. -/
theorem receiveLoop_held (fuel : ℕ) {t : SecureTransport S} (hfuel : t.buffer.length < fuel) :
    let r := receiveLoop fuel t
    r.transport.buffer.length ≤ t.buffer.length ∧
      (r.closed = false → Short r.transport.buffer) := by
  induction fuel generalizing t with
  | zero => exact absurd hfuel (Nat.not_lt_zero _)
  | succ fuel ih =>
      unfold receiveLoop
      cases hextract : extractFrame t.buffer with
      | mk extracted buffer =>
          cases extracted with
          | needMore => exact ⟨Nat.le_refl _, fun _ => short_of_needMore hextract⟩
          | error => exact ⟨Nat.le_refl _, fun hopen => by cases hopen⟩
          | frame record =>
              have hlt := length_of_frame hextract
              dsimp only
              cases t.channel.bind (·.decrypt record) with
              | none => exact ⟨Nat.le_of_lt hlt, fun hopen => by cases hopen⟩
              | some decrypted =>
                  obtain ⟨plain, channel⟩ := decrypted
                  obtain ⟨hkept, hshort⟩ := ih (t := { t with buffer, channel := some channel })
                    (Nat.lt_of_lt_of_le hlt (Nat.le_of_lt_succ hfuel))
                  exact ⟨Nat.le_trans hkept (Nat.le_of_lt hlt), hshort⟩

/-- What a loop holds that has waited, or has closed on a delivery that came while it waited. -/
structure Held (r : Looped S) : Prop where
  bounded : r.transport.buffer.length < 4 + maxFrame + maximumLength
  waiting : r.closed = false → Short r.transport.buffer

/-- One delivery keeps the bound. -/
theorem onReceive_held {t : SecureTransport S} (h : Short t.buffer) {d : Delivery}
    (hsize : d.data.length ≤ maximumLength) : Held (t.onReceive d) := by
  have hfed : (t.buffer ++ d.data).length < 4 + maxFrame + maximumLength := by
    rw [List.length_append]
    exact Nat.add_lt_add_of_lt_of_le h hsize
  have hloop := receiveLoop_held ((t.buffer ++ d.data).length + 1)
    (t := { t with buffer := t.buffer ++ d.data }) (Nat.lt_succ_self _)
  unfold onReceive
  dsimp only
  split
  · next hextract => exact ⟨hfed, fun _ => short_of_needMore hextract⟩
  · exact ⟨Nat.lt_of_le_of_lt hloop.1 hfed, hloop.2⟩

/-- Any number of deliveries keep the bound. -/
theorem receives_held {deliveries : List Delivery} {t : SecureTransport S} (h : Short t.buffer)
    (hsize : ∀ d ∈ deliveries, d.data.length ≤ maximumLength) : Held (t.receives deliveries) := by
  induction deliveries generalizing t with
  | nil => exact ⟨Nat.lt_of_lt_of_le h (Nat.le_add_right _ _), fun _ => h⟩
  | cons d deliveries ih =>
      obtain ⟨hd, hlater⟩ := List.forall_mem_cons.mp hsize
      have hheld := onReceive_held h hd
      unfold receives
      dsimp only
      split
      · exact hheld
      · next hopen =>
          have hrest := ih (hheld.waiting (Bool.eq_false_of_not_eq_true hopen)) hlater
          exact ⟨hrest.bounded, hrest.waiting⟩

/-- The loop takes over what the handshake has left in the buffer. -/
theorem receiving_held {deliveries : List Delivery} {t : SecureTransport S}
    (h : t.buffer.length < 4 + maxFrame + maximumLength)
    (hsize : ∀ d ∈ deliveries, d.data.length ≤ maximumLength) : Held (t.receiving deliveries) := by
  obtain ⟨hkept, hshort⟩ := receiveLoop_held (t.buffer.length + 1) (Nat.lt_succ_self _)
  unfold receiving
  dsimp only
  split
  · next hclosed =>
      refine ⟨Nat.lt_of_le_of_lt hkept h, fun hopen => ?_⟩
      cases hclosed.symm.trans hopen
  · next hopen =>
      have hrest := receives_held (hshort (Bool.eq_false_of_not_eq_true hopen)) hsize
      exact ⟨hrest.bounded, hrest.waiting⟩

end SecureTransport

/-! ## The handshake -/

namespace Handshake

/-- A frame does not touch the buffer. -/
theorem buffer_onFrame (h : Handshake S) (frame : Option Bytes) :
    (h.onFrame frame).transport.buffer = h.transport.buffer := by
  have hkept := onFrame_withBuffer h h.transport.buffer frame
  rw [show h.withBuffer h.transport.buffer = h from rfl] at hkept
  rw [hkept, buffer_withBuffer]

/-- What a handshake holds. -/
structure Held (h : Handshake S) : Prop where
  bounded : h.transport.buffer.length < 4 + maxFrame + maximumLength
  waiting : h.point ≠ .done → Short h.transport.buffer

/-- Reading frames only takes them off. -/
theorem length_readFrames (frames : ℕ) (h : Handshake S) :
    (h.readFrames frames).transport.buffer.length ≤ h.transport.buffer.length := by
  induction frames generalizing h with
  | zero => exact Nat.le_refl _
  | succ frames ih =>
      unfold readFrames
      split
      · exact Nat.le_refl _
      · split
        · exact Nat.le_refl _
        · rw [buffer_onFrame]
        · next f buffer hextract =>
            have hkept := ih ((h.withBuffer buffer).onFrame (some f))
            rw [buffer_onFrame, buffer_withBuffer] at hkept
            exact Nat.le_trans hkept (Nat.le_of_lt (length_of_frame hextract))

/-- A delivery keeps the bound in a handshake. -/
theorem Held.onReceive {h : Handshake S} (hheld : h.Held) {d : Delivery}
    (hsize : d.data.length ≤ maximumLength) : (h.onReceive d).Held := by
  unfold Handshake.onReceive
  split
  · exact hheld
  · next hpoint =>
      have hfed : (h.transport.buffer ++ d.data).length < 4 + maxFrame + maximumLength := by
        rw [List.length_append]
        exact Nat.add_lt_add_of_lt_of_le (hheld.waiting hpoint) hsize
      dsimp only
      split
      · next hextract =>
          split
          · refine ⟨?_, fun _ => ?_⟩
            · rw [buffer_onFrame]
              exact hfed
            · rw [buffer_onFrame]
              exact short_of_needMore hextract
          · exact ⟨hfed, fun _ => short_of_needMore hextract⟩
      · have hthree : h.remaining ≤ 3 := by
          rw [remaining]
          split <;> decide
        have hkept := length_readFrames 3 (h.withBuffer (h.transport.buffer ++ d.data))
        refine ⟨Nat.lt_of_le_of_lt hkept hfed, fun hopen => ?_⟩
        have hmore := (readFrames_waits (h := h.withBuffer (h.transport.buffer ++ d.data))
          hthree).resolve_left hopen
        exact short_of_needMore (Prod.ext hmore rfl)

theorem held_establish (me : Identity S) (eph : KxKeypair S) (header : ByteArr headerBytes)
    (pinned : Option Bytes) : Held (establish me eph header pinned) where
  bounded := by
    show 0 < 4 + maxFrame + maximumLength
    decide
  waiting _ := by
    show 0 < 4 + maxFrame
    decide

/-- It holds in all states of a handshake. -/
theorem held_foldl {h : Handshake S} (hheld : h.Held) {deliveries : List Delivery}
    (hsize : ∀ d ∈ deliveries, d.data.length ≤ maximumLength) :
    (deliveries.foldl Handshake.onReceive h).Held := by
  have hadmits : Runs.Admits Handshake.onReceive (fun _ d => d.data.length ≤ maximumLength) h
      deliveries := Runs.admits_of_forall fun d hd _ => hsize d hd
  exact Runs.exec_invariant (fun _ _ hheld hd => hheld.onReceive hd) hheld hadmits

end Handshake

/-- **What the iPad holds of the record layer**, of any connection, before and after it has
authenticated its peer, whatever comes in and however it is cut up: behind a `receive` that is
outstanding there is less than a record, and at no time more than a record and what one `receive`
delivers. -/
theorem record_memory (me : Identity S) (eph : KxKeypair S) (header : ByteArr headerBytes)
    (pinned : Option Bytes) {during later : List Delivery}
    (hsize : ∀ d ∈ during ++ later, d.data.length ≤ maximumLength) :
    let h := during.foldl Handshake.onReceive (Handshake.establish me eph header pinned)
    let r := h.transport.receiving later
    (h.point ≠ .done → h.transport.buffer.length < 4 + maxFrame) ∧
      h.transport.buffer.length < 4 + maxFrame + maximumLength ∧
      (r.closed = false → r.transport.buffer.length < 4 + maxFrame) ∧
      r.transport.buffer.length < 4 + maxFrame + maximumLength := by
  intro h r
  obtain ⟨hduring, hlater⟩ := List.forall_mem_append.mp hsize
  have hheld := Handshake.held_foldl (Handshake.held_establish me eph header pinned) hduring
  have hloop := SecureTransport.receiving_held hheld.bounded hlater
  exact ⟨hheld.waiting, hheld.bounded, hloop.waiting, hloop.bounded⟩

/-- A peer that announces the largest record and sends three bytes of it. -/
theorem record_memory_announced :
    let me := Identity.ofSecret Sodium.paper (Sodium.arrOf 64 (5 * 2 ^ 256))
    let eph := KxKeypair.ofSecret Sodium.paper (Sodium.arrOf 32 3)
    let during : List Delivery := [{ data := [0, 0, 16, 1] }, { data := [1, 2, 3] }]
    let h := during.foldl Handshake.onReceive
      (Handshake.establish me eph (Sodium.arrOf headerBytes 9) none)
    h.transport.buffer.length = 7 ∧ h.transport.buffer.length < 4 + maxFrame := by
  intro me eph during h
  have hsize : ∀ d ∈ during ++ [], d.data.length ≤ maximumLength := by decide
  exact ⟨by decide +kernel,
    (record_memory me eph (Sodium.arrOf headerBytes 9) none hsize).1 (by decide +kernel)⟩

end TetherDisplay.Client
