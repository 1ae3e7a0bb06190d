import TetherDisplay.Core.Refusal
import TetherDisplay.Crypto.SecureByteChannel

/-!
# The secure channel as the channel of a session

A session sends over an encrypted channel as over a plain one.  What `SendAll` then puts on
the raw channel is one record, with its length before it, and what a failing raw channel puts
there is a prefix of that (`sendAll_wire`): this is the `Wiring` of the session's threads.
-/

namespace TetherDisplay.Crypto

open TetherDisplay.Core (ByteChannel)
open LockedSender (Wiring)

/-- The raw channel takes everything, or a prefix. -/
theorem sendAll_outbox (c : ByteChannel) (data : Bytes) :
    ∃ part, part <+: data ∧ (c.sendAll data).2.outbox = c.outbox ++ part ∧
      ((c.sendAll data).1 = true → part = data) := by
  unfold ByteChannel.sendAll
  split
  · exact ⟨data, List.prefix_refl data, rfl, fun _ => rfl⟩
  · exact ⟨data, List.prefix_refl data, rfl, fun _ => rfl⟩
  · rename_i n sends hsends
    exact ⟨data.take n, List.take_prefix n data, rfl, fun h => by cases h⟩

/-- A record is sent, or the beginning of it. -/
theorem writeFramed_outbox (c : ByteChannel) (payload : Bytes) :
    ∃ part, part <+: lengthHeader (UInt32.ofNat payload.length) ++ payload ∧
      (writeFramed c payload).2.outbox = c.outbox ++ part ∧
      ((writeFramed c payload).1 = true →
        part = lengthHeader (UInt32.ofNat payload.length) ++ payload) := by
  generalize hhdr : lengthHeader (UInt32.ofNat payload.length) = hdr
  obtain ⟨part, hpart, hout, hall⟩ := sendAll_outbox c hdr
  unfold writeFramed
  rw [hhdr]
  cases hsend : c.sendAll hdr with
  | mk sent c' =>
      rw [hsend] at hout hall
      cases sent with
      | false =>
          exact ⟨part, hpart.trans (List.prefix_append hdr payload), hout, fun h => by cases h⟩
      | true =>
          obtain rfl : part = hdr := hall rfl
          obtain ⟨part', hpart', hout', hall'⟩ := sendAll_outbox c' payload
          refine ⟨part ++ part', (List.prefix_append_right_inj part).mpr hpart', ?_, fun h => ?_⟩
          · rw [hout', hout, List.append_assoc]
          · rw [hall' h]

variable {S : Sodium}

/-- What the secure channel writes for the data passed to `SendAll`; its state is that of the
push stream. -/
def recordLink (S : Sodium) : Wiring Bytes UInt8 where
  State := S.secretstream.Push
  wire push data :=
    let (record, push) := S.secretstream.push push data
    (lengthHeader (UInt32.ofNat record.length) ++ record, push)

/-- **What `SendAll` of an established channel writes.** -/
theorem SecureByteChannel.sendAll_wire {s : SecureByteChannel S} {raw : ByteChannel}
    {push : S.secretstream.Push} (hraw : s.raw = some raw) (hbroken : s.broken = false)
    (hpush : s.channel.pushState = some push) (data : Bytes) :
    ∃ raw' part, part <+: ((recordLink S).wire push data).1 ∧
      (s.sendAll data).2.raw = some raw' ∧ raw'.outbox = raw.outbox ++ part ∧
      (s.sendAll data).2.channel.pushState = some ((recordLink S).wire push data).2 ∧
      ((s.sendAll data).1 = true → part = ((recordLink S).wire push data).1) := by
  have hencrypt : s.channel.encrypt data = some ((S.secretstream.push push data).1,
      { s.channel with pushState := some (S.secretstream.push push data).2 }) := by
    rw [SecureChannel.encrypt, hpush]
    rfl
  have hopen : (!s.channel.valid || s.broken) = false := by
    rw [SecureChannel.valid, hpush, hbroken]
    rfl
  obtain ⟨part, hpart, hout, hall⟩ := writeFramed_outbox raw (S.secretstream.push push data).1
  have hsend : s.sendAll data = ((writeFramed raw (S.secretstream.push push data).1).1,
      { s with raw := some (writeFramed raw (S.secretstream.push push data).1).2
               channel := { s.channel with
                 pushState := some (S.secretstream.push push data).2 } }) := by
    unfold SecureByteChannel.sendAll
    rw [hraw]
    simp only [hopen, Bool.false_eq_true, if_false, hencrypt]
  rw [hsend]
  exact ⟨_, part, hpart, rfl, hout, rfl, hall⟩

end TetherDisplay.Crypto
