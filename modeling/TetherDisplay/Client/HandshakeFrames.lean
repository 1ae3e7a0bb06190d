import TetherDisplay.Client.Pairing
import TetherDisplay.Foundations.Dialogue

/-!
# Frames in pieces

The iPad's handshake is moved on by what the connection delivers, and a piece may hold any part of
a frame, or several.  While the handshake waits for records and the connection delivers nothing
else, what it has become is told from the stream: the frames that have arrived as a whole have been
read one after another, and a part of the next is in the buffer (`hears_cut`).
-/

namespace TetherDisplay.Client

open Crypto (Sodium SecureChannel kMaxFrame recordWire scanRecord scanRecord_part)
open Dialogue (Cut)

variable {S : Sodium}

namespace Handshake

/-- The same with these bytes in the buffer. -/
def withBuffer (h : Handshake S) (buffer : Bytes) : Handshake S :=
  { h with transport := { h.transport with buffer } }

@[simp] theorem point_withBuffer (h : Handshake S) (buffer : Bytes) :
    (h.withBuffer buffer).point = h.point := rfl

@[simp] theorem buffer_withBuffer (h : Handshake S) (buffer : Bytes) :
    (h.withBuffer buffer).transport.buffer = buffer := rfl

@[simp] theorem withBuffer_withBuffer (h : Handshake S) (buffer buffer' : Bytes) :
    (h.withBuffer buffer).withBuffer buffer' = h.withBuffer buffer' := rfl

/-- A frame does not touch the buffer. -/
theorem onFrame_withBuffer (h : Handshake S) (buffer : Bytes) (frame : Option Bytes) :
    (h.withBuffer buffer).onFrame frame = (h.onFrame frame).withBuffer buffer := by
  obtain ⟨pinned, header, pairing, transport, point, completion, authenticated⟩ := h
  cases point with
  | peerHello =>
      simp only [onFrame, withBuffer]
      cases frame.bind pairing.consumePeerHello <;> rfl
  | peerConfirm =>
      cases frame with
      | none => rfl
      | some peerConfirm =>
          simp only [onFrame, withBuffer]
          cases pairing.consumePeerConfirm peerConfirm pinned with
          | ok =>
              simp only
              cases pairing.makeChannel header <;> rfl
          | _ => rfl
  | peerHeader =>
      simp only [onFrame, withBuffer]
      cases frame.bind fun peerHeader => transport.channel.bind (·.initRx peerHeader) <;> rfl
  | done => rfl

/-- The frames that a handshake goes on with: its peer's Hello, its confirmation, its header. -/
theorem onFrame_consumed {h : Handshake S} {hello : Bytes} {pairing : Pairing S}
    (hpoint : h.point = .peerHello) (hconsumed : h.pairing.consumePeerHello hello = some pairing) :
    h.onFrame (some hello) =
      { h with
        pairing
        transport := h.transport.sendFramed pairing.confirm
        point := .peerConfirm } := by
  simp only [onFrame, hpoint, Option.bind_some, hconsumed]

/-- A confirmation that is accepted. -/
theorem onFrame_accepted {h : Handshake S} {confirm : Bytes} {channel : SecureChannel S}
    (hpoint : h.point = .peerConfirm)
    (haccepted : h.pairing.consumePeerConfirm confirm h.pinned = .ok)
    (hmade : h.pairing.makeChannel h.header = some channel) :
    h.onFrame (some confirm) =
      { h with
        authenticated := some h.pairing.peerIdent
        transport := { h.transport with channel := some channel }.sendFramed channel.txHeader
        point := .peerHeader } := by
  simp only [onFrame, hpoint, haccepted, hmade]

/-- A header that opens the channel. -/
theorem onFrame_opened {h : Handshake S} {header : Bytes} {channel opened : SecureChannel S}
    (hpoint : h.point = .peerHeader) (hchannel : h.transport.channel = some channel)
    (hinit : channel.initRx header = some opened) :
    h.onFrame (some header) =
      { h with transport := { h.transport with channel := some opened } }.complete .ok
        h.learned := by
  simp only [onFrame, hpoint, hchannel, Option.bind_some, hinit]

/-- The frames, one after another. -/
def onFrames (h : Handshake S) (frames : List Bytes) : Handshake S :=
  frames.foldl (fun h frame => h.onFrame (some frame)) h

theorem onFrames_append (h : Handshake S) (frames frames' : List Bytes) :
    h.onFrames (frames ++ frames') = (h.onFrames frames).onFrames frames' :=
  List.foldl_append

/-- A callback reads frames for as long as there are any. -/
theorem onReceive_eq {h : Handshake S} (hpoint : h.point ≠ .done) (piece : Bytes) :
    h.onReceive { data := piece } = (h.withBuffer (h.transport.buffer ++ piece)).readFrames 3 := by
  have hreads : ∀ buffer, extractFrame buffer = (.needMore, buffer) →
      (h.withBuffer buffer).readFrames 3 = h.withBuffer buffer := by
    intro buffer hmore
    unfold readFrames
    split
    · rfl
    · simp only [buffer_withBuffer, hmore]
  have hextract := extractFrame_scan (h.transport.buffer ++ piece)
  unfold onReceive
  split
  · exact absurd ‹_› hpoint
  · dsimp only
    cases hscan : scanRecord (h.transport.buffer ++ piece) with
    | more =>
        rw [hscan] at hextract
        rw [hreads _ hextract]
        simp only [hextract]
        rfl
    | fail e =>
        rw [hscan] at hextract
        simp only [hextract]
        rfl
    | item f k =>
        rw [hscan] at hextract
        simp only [hextract]
        rfl

/-- The records are such as the framing lets through. -/
def Framed (records : List Bytes) : Prop := ∀ r ∈ records, r ≠ [] ∧ r.length ≤ kMaxFrame

/-- The handshake waits for each of the records. -/
def WaitsFor (h : Handshake S) (records : List Bytes) : Prop :=
  ∀ j < records.length, (h.onFrames (records.take j)).point ≠ .done

theorem WaitsFor.tail {h : Handshake S} {r : Bytes} {records : List Bytes}
    (hwaits : h.WaitsFor (r :: records)) : (h.onFrame (some r)).WaitsFor records :=
  fun j hj => hwaits (j + 1) (Nat.succ_lt_succ hj)

/-- A handshake waits for the rest after it has heard the beginning. -/
theorem WaitsFor.drop {h : Handshake S} {records : List Bytes} (hwaits : h.WaitsFor records)
    (k : ℕ) : (h.onFrames (records.take k)).WaitsFor (records.drop k) := by
  intro j hj
  rw [List.length_drop] at hj
  rw [← onFrames_append, ← List.take_add]
  exact hwaits (k + j) (by omega)

/-- **The frames that are whole are read**, and a part of the next stays in the buffer. -/
theorem readFrames_cut {records : List Bytes} (hframed : Framed records) {h : Handshake S}
    (hwaits : h.WaitsFor records) {buffer : Bytes}
    (hfront : buffer <+: (records.map recordWire).flatten) {n : ℕ} (hn : records.length ≤ n) :
    ∃ k ≤ records.length, ∃ part, Cut (records.map recordWire) buffer k part ∧
      (h.withBuffer buffer).readFrames n = (h.onFrames (records.take k)).withBuffer part := by
  induction records generalizing h buffer n with
  | nil =>
      obtain rfl : buffer = [] := List.prefix_nil.mp hfront
      refine ⟨0, Nat.le_refl 0, [], Cut.zero hfront (fun m hm => by cases hm), ?_⟩
      cases n with
      | zero => rfl
      | succ n =>
          unfold readFrames
          split
          · rfl
          · rfl
  | cons r records ih =>
      obtain ⟨n, rfl⟩ := Nat.exists_eq_add_of_le' (Nat.le_trans (Nat.le_add_left 1 _) hn)
      obtain ⟨⟨hne, hmax⟩, hrest⟩ := List.forall_mem_cons.mp hframed
      have hpoint : h.point ≠ .done := hwaits 0 (Nat.succ_pos _)
      have hextract := extractFrame_scan buffer
      by_cases hwhole : (recordWire r).length ≤ buffer.length
      · obtain ⟨rest, rfl⟩ : recordWire r <+: buffer :=
          List.prefix_of_prefix_length_le (List.prefix_append _ _) hfront hwhole
        have hscan : scanRecord (recordWire r ++ rest) = .item r (recordWire r).length :=
          Crypto.scanRecord_item_iff.mpr ⟨hne, hmax, rfl, rest, rfl⟩
        obtain ⟨k, hk, part, hcut, hread⟩ := ih hrest hwaits.tail
          ((List.prefix_append_right_inj _).mp hfront) (Nat.le_of_succ_le_succ hn)
        refine ⟨k + 1, Nat.succ_le_succ hk, part, hcut.cons, ?_⟩
        simp only [hscan, List.drop_left] at hextract
        unfold readFrames
        split
        · exact absurd ‹_› hpoint
        · simp only [buffer_withBuffer, hextract]
          show ((h.withBuffer rest).onFrame (some r)).readFrames n = _
          rw [onFrame_withBuffer]
          exact hread
      · -- A part of the record is all there is.
        have hshort := Nat.lt_of_not_le hwhole
        have hpart : buffer <+: recordWire r :=
          List.prefix_of_prefix_length_le hfront (List.prefix_append _ _) (Nat.le_of_lt hshort)
        rw [scanRecord_part hne hmax hpart hshort] at hextract
        refine ⟨0, Nat.zero_le _, buffer, Cut.zero hfront fun m hm => ?_, ?_⟩
        · obtain rfl : recordWire r = m := Option.some.inj hm
          exact hshort
        · unfold readFrames
          split
          · exact absurd ‹_› hpoint
          · simp only [buffer_withBuffer, hextract]
            rfl

/-- **The iPad hears the records in any pieces.** -/
theorem hears_cut {records : List Bytes} (hframed : Framed records) (hthree : records.length ≤ 3)
    {h : Handshake S} (hempty : h.transport.buffer = []) (hwaits : h.WaitsFor records)
    {pieces : List Bytes} (hpieces : ∀ p ∈ pieces, p ≠ [])
    (hfront : pieces.flatten <+: (records.map recordWire).flatten) :
    ∃ k ≤ records.length, ∃ part, Cut (records.map recordWire) pieces.flatten k part ∧
      pieces.foldl (fun h piece => h.onReceive { data := piece }) h =
        (h.onFrames (records.take k)).withBuffer part := by
  induction pieces using List.reverseRecOn with
  | nil =>
      refine ⟨0, Nat.zero_le _, [], Cut.zero hfront fun m hm => ?_, ?_⟩
      · obtain ⟨r, -, rfl⟩ := List.mem_map.mp (List.mem_of_mem_head? hm)
        rw [Crypto.length_recordWire]
        exact Nat.lt_add_right _ (by decide)
      · show h = h.withBuffer []
        rw [← hempty]
        rfl
  | append_singleton pieces piece ih =>
      have hflatten : (pieces ++ [piece]).flatten = pieces.flatten ++ piece := by
        rw [List.flatten_append, List.flatten_singleton]
      have hpiece : piece ≠ [] := hpieces piece (by simp)
      rw [hflatten] at hfront ⊢
      obtain ⟨k, hk, part, hcut, hheard⟩ := ih
        (fun p hp => hpieces p (List.mem_append_left _ hp))
        ((List.prefix_append _ _).trans hfront)
      have hnext : part ++ piece <+: ((records.drop k).map recordWire).flatten := by
        have hsplit : (records.map recordWire).flatten =
            ((records.map recordWire).take k).flatten ++
              ((records.drop k).map recordWire).flatten := by
          rw [List.map_drop, ← List.flatten_append, List.take_append_drop]
        rw [hcut.stream, List.append_assoc, hsplit] at hfront
        exact (List.prefix_append_right_inj _).mp hfront
      -- There is a record to come, since there is a piece of one.
      have hmore : k < records.length := by
        by_contra hall
        rw [List.drop_of_length_le (Nat.le_of_not_lt hall)] at hnext
        exact hpiece (List.append_eq_nil_iff.mp (List.prefix_nil.mp hnext)).2
      obtain ⟨k', hk', part', hcut', hread⟩ := readFrames_cut
        (fun r hr => hframed r (List.mem_of_mem_drop hr)) (hwaits.drop k) hnext
        (n := 3) (by rw [List.length_drop]; omega)
      rw [List.length_drop] at hk'
      refine ⟨k + k', by omega, part', hcut.append ?_, ?_⟩
      · rw [← List.map_drop]
        exact hcut'
      · have hpoint : ((h.onFrames (records.take k)).withBuffer part).point ≠ .done :=
          hwaits k hmore
        rw [List.foldl_append, hheard, List.foldl_cons, List.foldl_nil, onReceive_eq hpoint,
          List.take_add, onFrames_append]
        exact hread

end Handshake

end TetherDisplay.Client
