import TetherDisplay.Crypto.SecureByteChannel
import Mathlib.Data.List.Infix

/-!
# Lossless delivery, the host's side

Here the raw channel is reliable and the cipher is in step (`AuthStream.InSync`).  What a
sequence of messages comes to on the raw channel is their `wire`: each is encrypted into
one record, each record is framed.

* `SendAll` writes the wire of what it is passed (`sendAlls_wire`).
* `Recv` returns what the wire carries, in order, whatever the pieces it arrives in and
  the room it is given (`recvs_deliver`).  The invariant is `Awaits`: the bytes left over
  of the last record and the messages of the wire that is still to arrive are what `Recv`
  has still to return.
-/

namespace TetherDisplay.Crypto

open TetherDisplay.Core (ByteChannel Received arriving beyond)

variable {S : Sodium}

/-- What a sequence of messages comes to on the raw channel. -/
def wire (push : S.secretstream.Push) (ds : List Bytes) : Bytes :=
  (S.secretstream.pushAll push ds).flatMap recordWire

/-- Every message is short enough for its record to be read. -/
def Fits (ds : List Bytes) : Prop := ∀ d ∈ ds, d.length + aBytes ≤ kMaxFrame

instance (ds : List Bytes) : Decidable (Fits ds) :=
  inferInstanceAs (Decidable (∀ d ∈ ds, d.length + aBytes ≤ kMaxFrame))

@[simp] theorem wire_nil (push : S.secretstream.Push) : wire push [] = [] := rfl

@[simp] theorem wire_cons (push : S.secretstream.Push) (d : Bytes) (ds : List Bytes) :
    wire push (d :: ds) =
      recordWire (S.secretstream.push push d).1 ++ wire (S.secretstream.push push d).2 ds := rfl

/-- A wire that is not at its end begins with the record of its next message. -/
theorem scanRecord_wire (hstream : S.StreamContract) (push : S.secretstream.Push)
    {d : Bytes} {ds : List Bytes} (hfits : Fits (d :: ds)) :
    scanRecord (wire push (d :: ds)) = .item (S.secretstream.push push d).1
      (recordWire (S.secretstream.push push d).1).length := by
  have hlength := hstream.length_push push d
  have hne : (S.secretstream.push push d).1 ≠ [] := by
    intro hnil
    rw [hnil] at hlength
    cases hlength
  have hmax : (S.secretstream.push push d).1.length ≤ kMaxFrame := by
    rw [hlength]
    exact hfits d List.mem_cons_self
  exact scanRecord_item_iff.mpr ⟨hne, hmax, rfl, _, rfl⟩

namespace SecureByteChannel

/-! ## Sending -/

/-- One `SendAll` on a raw channel that takes everything. -/
theorem sendAll_ok (hstream : S.StreamContract) {s : SecureByteChannel S} {raw : ByteChannel}
    {push : S.secretstream.Push} (hraw : s.raw = some raw) (hsends : raw.sends = [])
    (hbroken : s.broken = false) (hpush : s.channel.pushState = some push) {d : Bytes}
    (hfit : d.length + aBytes ≤ kMaxFrame) :
    s.sendAll d = (true, { s with
      raw := some { raw with
        outbox := raw.outbox ++ recordWire (S.secretstream.push push d).1 }
      channel := { s.channel with pushState := some (S.secretstream.push push d).2 } }) := by
  have hbound : kMaxFrame = 17825792 := rfl
  have hshort : (S.secretstream.push push d).1.length < 2 ^ 32 := by
    rw [hstream.length_push]
    norm_num
    omega
  have hencrypt : s.channel.encrypt d = some ((S.secretstream.push push d).1,
      { s.channel with pushState := some (S.secretstream.push push d).2 }) := by
    unfold SecureChannel.encrypt
    rw [hpush]
    rfl
  have hvalid : s.channel.valid = true := by
    unfold SecureChannel.valid
    rw [hpush]
    rfl
  unfold sendAll
  simp only [hraw, hvalid, hbroken, hencrypt, writeFramed_ok hsends hshort, Bool.not_true,
    Bool.or_false, Bool.false_eq_true, if_false]

/-- **`SendAll` writes the wire of what it is passed.** -/
theorem sendAlls_wire (hstream : S.StreamContract) {s : SecureByteChannel S} {raw : ByteChannel}
    {push : S.secretstream.Push} (hraw : s.raw = some raw) (hsends : raw.sends = [])
    (hbroken : s.broken = false) (hpush : s.channel.pushState = some push) {ds : List Bytes}
    (hfits : Fits ds) :
    (∀ reply ∈ (s.acts (ds.map .sendAll)).1, reply = .sent true) ∧
      (s.acts (ds.map .sendAll)).2.raw.map ByteChannel.outbox =
        some (raw.outbox ++ wire push ds) := by
  induction ds generalizing s raw push with
  | nil =>
      refine ⟨fun reply h => absurd h List.not_mem_nil, ?_⟩
      rw [wire_nil, List.append_nil]
      exact congrArg (Option.map ByteChannel.outbox) hraw
  | cons d ds ih =>
      obtain ⟨hfit, hrest⟩ := List.forall_mem_cons.mp hfits
      have hsend := sendAll_ok hstream hraw hsends hbroken hpush hfit
      rw [List.map_cons, acts_cons]
      simp only [act, hsend]
      obtain ⟨hreplies, hout⟩ := ih (s := { s with
        raw := some { raw with
          outbox := raw.outbox ++ recordWire (S.secretstream.push push d).1 }
        channel := { s.channel with pushState := some (S.secretstream.push push d).2 } })
        rfl hsends hbroken rfl hrest
      refine ⟨List.forall_mem_cons.mpr ⟨rfl, hreplies⟩, ?_⟩
      rw [hout, wire_cons, List.append_assoc]

/-! ## Receiving -/

/-- **The invariant.**  What is left over of the last record and the messages of the wire
that is still to arrive are the bytes `rest` that `Recv` has still to return. -/
def Awaits (s : SecureByteChannel S) (rest : Bytes) : Prop :=
  ∃ raw push pull ds, s.raw = some raw ∧ s.broken = false ∧ s.channel.pullState = some pull ∧
    S.secretstream.InSync push pull ∧ Fits ds ∧ arriving raw.inbox = wire push ds ∧
    beyond raw.inbox = [] ∧ rest = s.leftover ++ ds.flatten

/-- What comes in of a wire: its next message that is not empty, or its end. -/
theorem incoming_wire (hstream : S.StreamContract) (fuel : ℕ) {channel : SecureChannel S}
    {push : S.secretstream.Push} {pull : S.secretstream.Pull} {ds : List Bytes}
    (hfuel : (wire push ds).length < fuel) (hpull : channel.pullState = some pull)
    (hsync : S.secretstream.InSync push pull) (hfits : Fits ds) :
    ∃ push' pull' ds', (incoming fuel channel (wire push ds)).2.1.pullState = some pull' ∧
      S.secretstream.InSync push' pull' ∧ Fits ds' ∧
      (incoming fuel channel (wire push ds)).2.2 = wire push' ds' ∧
      (((incoming fuel channel (wire push ds)).1 = .ended ∧ ds.flatten = [] ∧ ds' = []) ∨
        ∃ d, d ≠ [] ∧ (incoming fuel channel (wire push ds)).1 = .plain d ∧
          ds.flatten = d ++ ds'.flatten) := by
  induction fuel generalizing channel push pull ds with
  | zero => omega
  | succ fuel ih =>
      cases ds with
      | nil => exact ⟨push, pull, [], hpull, hsync, hfits, rfl, Or.inl ⟨rfl, rfl, rfl⟩⟩
      | cons d ds =>
          obtain ⟨pull', haccept, hsync'⟩ := hsync.step d
          have hlength := hstream.length_push push d
          have hdecrypt : channel.decrypt (S.secretstream.push push d).1 =
              some (d, { channel with pullState := some pull' }) := by
            unfold SecureChannel.decrypt
            simp only [hpull]
            rw [if_neg (by omega), haccept]
            rfl
          have hrest := (List.forall_mem_cons.mp hfits).2
          have hdrop : (wire push (d :: ds)).drop
              (recordWire (S.secretstream.push push d).1).length =
                wire (S.secretstream.push push d).2 ds := List.drop_left
          unfold incoming
          rw [scanRecord_wire hstream push hfits]
          simp only [hdecrypt, hdrop]
          by_cases hempty : d = []
          · -- an empty message is skipped: it is nothing of what is to be returned
            have hshort : (wire (S.secretstream.push push d).2 ds).length < fuel := by
              rw [wire_cons, List.length_append, length_recordWire] at hfuel
              omega
            have hflatten : (d :: ds).flatten = ds.flatten := by
              rw [List.flatten_cons, hempty, List.nil_append]
            rw [if_pos hempty, hflatten]
            exact ih hshort rfl hsync' hrest
          · rw [if_neg hempty]
            exact ⟨_, pull', ds, rfl, hsync', hrest, rfl,
              Or.inr ⟨d, hempty, rfl, List.flatten_cons⟩⟩

/-- **One `Recv` with room** returns the next bytes, one at least, or there are none left. -/
theorem Awaits.recv (hstream : S.StreamContract) {s : SecureByteChannel S} {rest : Bytes}
    (h : s.Awaits rest) {room : ℕ} (hroom : 0 < room) :
    ∃ rest', rest = (s.recv room).1.bytes ++ rest' ∧ (s.recv room).2.Awaits rest' ∧
      ((0 < (s.recv room).1.count ∧ (s.recv room).1.bytes ≠ []) ∨ rest = []) := by
  obtain ⟨raw, push, pull, ds, hraw, hbroken, hpull, hsync, hfits, harriving, hbeyond, rfl⟩ := h
  have htaken : ∀ {bytes : Bytes}, bytes ≠ [] → 0 < (Received.data (bytes.take room)).count ∧
      bytes.take room ≠ [] := by
    intro bytes hne
    have hpos := List.length_pos_of_ne_nil hne
    have hlength : 0 < (bytes.take room).length := by
      rw [List.length_take]
      omega
    exact ⟨Int.natCast_pos.mpr hlength, List.ne_nil_of_length_pos hlength⟩
  by_cases hleft : s.leftover = []
  · obtain ⟨hresult, hleft', hbroken', hchannel, inbox, hraw', hplain, hended⟩ :=
      recv_drained hraw hbroken hleft room
    obtain ⟨push', pull', ds', hpull', hsync', hfits', hstream', hcases⟩ :=
      incoming_wire hstream ((wire push ds).length + 1) (Nat.lt_succ_self _) hpull hsync hfits
    rw [harriving] at hresult hleft' hbroken' hchannel hplain hended
    generalize incoming ((wire push ds).length + 1) s.channel (wire push ds) = r
      at hresult hleft' hbroken' hchannel hplain hended hpull' hstream' hcases
    rcases hcases with ⟨hr, hflatten, rfl⟩ | ⟨d, hne, hr, hflatten⟩
    · -- the wire is at its end, and nothing is behind it
      rw [hr] at hresult hleft' hbroken'
      have hend := hended hr
      refine ⟨[], ?_, ⟨_, push', pull', [], hraw', hbroken', (congrArg _ hchannel).trans hpull',
        hsync', hfits', ?_, ?_, ?_⟩, Or.inr (by rw [hleft, hflatten]; rfl)⟩
      · rw [hleft, hflatten, hresult]; rfl
      · rw [hend, hbeyond]; rfl
      · rw [hend, hbeyond]; rfl
      · rw [hleft', List.flatten_nil, List.append_nil]
        exact List.drop_nil.symm
    · rw [hr] at hresult hleft' hbroken'
      obtain ⟨hcount, hbytes⟩ := htaken hne
      obtain ⟨harriving', hbeyond'⟩ := hplain d hr
      refine ⟨d.drop room ++ ds'.flatten, ?_, ⟨_, push', pull', ds', hraw', hbroken',
        (congrArg _ hchannel).trans hpull', hsync', hfits', harriving'.trans hstream',
        hbeyond'.trans hbeyond, by rw [hleft']; rfl⟩, Or.inl ?_⟩
      · rw [hleft, hflatten, hresult]
        show [] ++ (d ++ ds'.flatten) = d.take room ++ (d.drop room ++ ds'.flatten)
        rw [List.nil_append, ← List.append_assoc, List.take_append_drop]
      · rw [hresult]
        exact ⟨hcount, hbytes⟩
  · obtain ⟨hresult, hleft', hbroken', hchannel, hraw'⟩ :=
      recv_leftover hraw hbroken hleft room
    obtain ⟨hcount, hbytes⟩ := htaken hleft
    refine ⟨s.leftover.drop room ++ ds.flatten, ?_, ⟨raw, push, pull, ds, hraw', hbroken',
      (congrArg _ hchannel).trans hpull, hsync, hfits, harriving, hbeyond, by rw [hleft']⟩,
      Or.inl ?_⟩
    · rw [hresult, Received.bytes, ← List.append_assoc, List.take_append_drop]
    · rw [hresult]
      exact ⟨hcount, hbytes⟩

/-- A sequence of `Recv`s with room returns the front of what is awaited, and no less of it
than a byte a call. -/
theorem Awaits.recvs (hstream : S.StreamContract) {s : SecureByteChannel S} {rest : Bytes}
    (h : s.Awaits rest) {rooms : List ℕ} (hrooms : ∀ room ∈ rooms, 0 < room) :
    ∃ rest', rest = (s.acts (rooms.map .recv)).1.flatMap Reply.bytes ++ rest' ∧
      (s.acts (rooms.map .recv)).2.Awaits rest' ∧
      (rest' ≠ [] → rooms.length < rest.length) := by
  induction rooms generalizing s rest with
  | nil => exact ⟨rest, rfl, h, fun hne => List.length_pos_of_ne_nil hne⟩
  | cons room rooms ih =>
      obtain ⟨hroom, hrooms⟩ := List.forall_mem_cons.mp hrooms
      obtain ⟨mid, hfront, hmid, hprogress⟩ := h.recv hstream hroom
      obtain ⟨rest', hback, hrest, hlength⟩ := ih hmid hrooms
      refine ⟨rest', ?_, hrest, fun hne => ?_⟩
      · rw [List.map_cons, acts_cons, List.flatMap_cons, List.append_assoc]
        exact hfront.trans (congrArg _ hback)
      have hshort := hlength hne
      rcases hprogress with ⟨-, hbytes⟩ | hdone
      · have hpos := List.length_pos_of_ne_nil hbytes
        rw [hfront, List.length_append, List.length_cons]
        omega
      · rw [hdone] at hfront
        obtain ⟨-, rfl⟩ := List.append_eq_nil_iff.mp hfront.symm
        exact absurd hshort (Nat.not_lt_zero _)

/-- **`Recv` returns what the wire carries**: what has been returned is a prefix of it, and
all of it after as many calls as it has bytes at most; and no `Recv` reports a close or an
error before that. -/
theorem recvs_deliver (hstream : S.StreamContract) {s : SecureByteChannel S} {rest : Bytes}
    (h : s.Awaits rest) {rooms : List ℕ} (hrooms : ∀ room ∈ rooms, 0 < room) :
    (s.acts (rooms.map .recv)).1.flatMap Reply.bytes <+: rest ∧
      (rest.length ≤ rooms.length →
        (s.acts (rooms.map .recv)).1.flatMap Reply.bytes = rest) ∧
      ∀ before room later, rooms = before ++ room :: later →
        (s.acts (before.map .recv)).1.flatMap Reply.bytes ≠ rest →
          0 < ((s.acts (before.map .recv)).2.recv room).1.count := by
  obtain ⟨rest', hdelivered, -, hlength⟩ := h.recvs hstream hrooms
  refine ⟨⟨rest', hdelivered.symm⟩, fun hlong => ?_, ?_⟩
  · by_cases hdone : rest' = []
    · rw [hdelivered, hdone, List.append_nil]
    · exact absurd (hlength hdone) (Nat.not_lt.mpr hlong)
  · rintro before room later rfl hmore
    have hbefore : ∀ r ∈ before, 0 < r :=
      fun r hr => hrooms r (List.mem_append_left _ hr)
    have hroom : 0 < room := hrooms room (by simp)
    obtain ⟨mid, hfront, hmid, -⟩ := h.recvs hstream hbefore
    obtain ⟨-, -, -, ⟨hcount, -⟩ | hdone⟩ := hmid.recv hstream hroom
    · exact hcount
    · rw [hdone, List.append_nil] at hfront
      exact absurd hfront.symm hmore

end SecureByteChannel

end TetherDisplay.Crypto
