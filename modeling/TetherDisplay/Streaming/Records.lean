import TetherDisplay.Client.RecordDelivery
import TetherDisplay.Crypto.RecordLink

/-!
# Records under way

`RecordDelivery` tells what becomes of messages that have all been sent.  Between two running
programs there is always more to come, so here both receivers are told from a stream whose end
is open.

* `Expects` is the iPad's side: `future` is what has been written and not delivered, `ds` are
  the messages that the iPad has still to hand on, and `push` is where the host's cipher is.
  Whatever the host sends next, the iPad's loop carries it (`SecureTransport.Carries`).
* `Hears` is the host's side, with what has arrived in the inbox of its raw channel, `future`
  what has not, and `rest` the bytes that `Recv` has still to return.

Either comes with one rule for a message that is sent and one for bytes that get through.
-/

namespace TetherDisplay

open TetherDisplay.Core (ByteChannel Received arriving beyond)
open Crypto (Sodium SecureByteChannel aBytes kMaxFrame recordWire scanRecord recordGrammar wire
  Fits wire_nil wire_cons recordLink)
open LockedSender (Wiring)

variable {S : Sodium}

namespace Core

/-- What the channel of a session writes for a message. -/
theorem wire_recordLink (hstream : S.StreamContract) (push : S.secretstream.Push) {o : Outgoing}
    (henc : o.msg.Encodable) : (framed (recordLink S)).wire push o =
      (recordWire (S.secretstream.push push (Protocol.encode o.msg)).1,
        (S.secretstream.push push (Protocol.encode o.msg)).2) := by
  have hfit := (Client.length_encode_fits henc).2
  have hbound : kMaxFrame = 17825792 := rfl
  have hshort : (S.secretstream.push push (Protocol.encode o.msg)).1.length < 2 ^ 32 := by
    rw [hstream.length_push]
    norm_num
    omega
  show (Crypto.lengthHeader _ ++ _, _) = _
  rw [Crypto.lengthHeader_eq, UInt32.toNat_ofNat_of_lt' hshort]
  rfl

end Core

namespace Client.SecureTransport

/-! ## From the host to the iPad -/

/-- **The invariant of an open stream.**  Whatever is sent from `push` on, what is in the buffer
and what is still to come are the wire of the messages still to be handed on. -/
def Expects (t : SecureTransport S) (future : Bytes) (ds : List Bytes)
    (push : S.secretstream.Push) : Prop :=
  ∀ later, Fits later → t.Carries (future ++ wire push later) (ds ++ later)

/-- A transport whose pull stream is in step with a sender that has sent nothing yet. -/
theorem Expects.start {t : SecureTransport S} {channel : SecureChannel S}
    {push : S.secretstream.Push} {pull : S.secretstream.Pull} (hbuffer : t.buffer = [])
    (hchannel : t.channel = some channel) (hpull : channel.pull = some pull)
    (hsync : S.secretstream.InSync push pull) : t.Expects [] [] push := by
  intro later hfits
  refine ⟨channel, push, pull, hchannel, hpull, hsync, hfits, ?_⟩
  rw [hbuffer]
  rfl

variable {t : SecureTransport S} {future : Bytes} {ds : List Bytes} {push : S.secretstream.Push}

/-- Nothing more is sent. -/
theorem Expects.carries (h : t.Expects future ds push) : t.Carries future ds := by
  have hnow := h [] (by intro d hd; cases hd)
  rwa [wire_nil, List.append_nil, List.append_nil] at hnow

/-- **The host sends a message.** -/
theorem Expects.sent (h : t.Expects future ds push) {d : Bytes}
    (hfit : d.length + aBytes ≤ kMaxFrame) :
    t.Expects (future ++ recordWire (S.secretstream.push push d).1) (ds ++ [d])
      (S.secretstream.push push d).2 := by
  intro later hfits
  have hnext := h (d :: later) (List.forall_mem_cons.mpr ⟨hfit, hfits⟩)
  rw [wire_cons] at hnext
  rwa [List.append_assoc, List.append_assoc]

/-- The transport sends something, which leaves its receiving side as it is. -/
theorem Expects.of_same {t' : SecureTransport S} (h : t.Expects future ds push)
    (hbuffer : t'.buffer = t.buffer)
    (hpull : t'.channel.bind (·.pull) = t.channel.bind (·.pull)) :
    t'.Expects future ds push := by
  intro later hfits
  obtain ⟨channel, push', pull, hchannel, hpull', hsync, hfits', hwire⟩ := h later hfits
  rw [hchannel] at hpull
  obtain ⟨channel', hchannel', hsame⟩ := Option.bind_eq_some_iff.mp (hpull.trans hpull')
  exact ⟨channel', push', pull, hchannel', hsame, hsync, hfits', by rw [hbuffer, hwire]⟩

/-- Bytes come into the buffer before the loop is called. -/
theorem Expects.buffered {bytes : Bytes} (h : t.Expects (bytes ++ future) ds push) :
    Expects { t with buffer := t.buffer ++ bytes } future ds push := by
  intro later hfits
  obtain ⟨channel, push', pull, hchannel, hpull, hsync, hfits', hwire⟩ := h later hfits
  refine ⟨channel, push', pull, hchannel, hpull, hsync, hfits', ?_⟩
  rw [← hwire]
  simp only [List.append_assoc]

/-- What the loop hands on is the front of what is expected, whatever is sent later. -/
theorem Expects.handOn {r : Looped S}
    (h : t.Expects future ds push)
    (hloop : ∀ later, t.Carries (future ++ wire push later) (ds ++ later) →
      ∃ rest, ds ++ later = r.plaintexts ++ rest ∧
        r.transport.Carries (future ++ wire push later) rest ∧ (r.closed = true → rest = []))
    (hfront : ∃ rest, ds = r.plaintexts ++ rest) :
    r.closed = false ∧
      ∃ rest, ds = r.plaintexts ++ rest ∧ r.transport.Expects future rest push := by
  obtain ⟨rest, rfl⟩ := hfront
  have hrest : ∀ later, Fits later →
      r.transport.Carries (future ++ wire push later) (rest ++ later) ∧
        (r.closed = true → rest ++ later = []) := by
    intro later hfits
    obtain ⟨rest', hsplit, hcarries, hclosed⟩ := hloop later (h later hfits)
    rw [List.append_assoc] at hsplit
    obtain rfl := List.append_cancel_left hsplit
    exact ⟨hcarries, hclosed⟩
  refine ⟨?_, rest, rfl, fun later hfits => (hrest later hfits).1⟩
  -- a loop that had closed could carry no further message
  have hempty : Fits [[]] := by
    intro d hd
    rw [List.mem_singleton.mp hd]
    decide
  refine Bool.eq_false_of_not_eq_true fun hclosed => ?_
  have hnone := (hrest [[]] hempty).2 hclosed
  simp at hnone

/-- **The loop, from when it is called**, until it has to wait. -/
theorem Expects.receiveLoop (hstream : S.StreamContract) (h : t.Expects future ds push) :
    let r := receiveLoop (t.buffer.length + 1) t
    r.closed = false ∧ scanRecord r.transport.buffer = .more ∧
      ∃ rest, ds = r.plaintexts ++ rest ∧ r.transport.Expects future rest push := by
  intro r
  obtain ⟨-, hmore, rest, hrest, -⟩ := receiveLoop_wire hstream (t.buffer.length + 1)
    (Nat.lt_succ_self _) h.carries
  obtain ⟨hclosed, hsplit⟩ := h.handOn (r := r)
    (fun later hcarries => by
      obtain ⟨hopen, -, rest', hrest', hcarries'⟩ := receiveLoop_wire hstream
        (t.buffer.length + 1) (Nat.lt_succ_self _) hcarries
      refine ⟨rest', hrest', hcarries', fun hclosed => ?_⟩
      rw [show r.closed = false from hopen] at hclosed
      cases hclosed)
    ⟨rest, hrest⟩
  exact ⟨hclosed, hmore, hsplit⟩

/-- **Bytes are delivered to the loop**, and are not the last. -/
theorem Expects.onReceive (hstream : S.StreamContract) {bytes : Bytes}
    (h : t.Expects (bytes ++ future) ds push) :
    let r := t.onReceive ⟨bytes, false⟩
    r.closed = false ∧ scanRecord r.transport.buffer = .more ∧
      ∃ rest, ds = r.plaintexts ++ rest ∧ r.transport.Expects future rest push := by
  intro r
  have hone : ∀ later, t.Carries (bytes ++ future ++ wire push later) (ds ++ later) →
      scanRecord r.transport.buffer = .more ∧ ∃ rest, ds ++ later = r.plaintexts ++ rest ∧
        r.transport.Carries (future ++ wire push later) rest ∧ (r.closed = true → rest = []) := by
    intro later hcarries
    rw [List.append_assoc] at hcarries
    exact onReceive_wire hstream hcarries (fun hlast => by cases hlast)
  have hnow := h [] (by intro d hd; cases hd)
  obtain ⟨hmore, rest, hrest, -, -⟩ := hone [] hnow
  rw [List.append_nil] at hrest
  have hbuffered : Expects { t with buffer := t.buffer ++ bytes } future ds push := h.buffered
  obtain ⟨hclosed, hsplit⟩ := hbuffered.handOn (r := r)
    (fun later hcarries => by
      refine (hone later ?_).2
      obtain ⟨channel, push', pull, hchannel, hpull, hsync, hfits, hwire⟩ := hcarries
      refine ⟨channel, push', pull, hchannel, hpull, hsync, hfits, ?_⟩
      rw [← hwire]
      simp only [List.append_assoc])
    ⟨rest, hrest⟩
  exact ⟨hclosed, hmore, hsplit⟩

/-- A loop that waits, with nothing still to come, has handed on everything. -/
theorem Expects.done (hstream : S.StreamContract) (h : t.Expects [] ds push)
    (hmore : scanRecord t.buffer = .more) : ds = [] := h.carries.ended hstream hmore

/-! ### The sending side -/

/-- The key material for sending, and what has been handed to the connection. -/
def sending (t : SecureTransport S) : Option S.secretstream.Push × Bytes :=
  (t.channel.map SecureChannel.push, t.sent)

/-- Receiving does not touch the sending half. -/
theorem receiveLoop_sending (fuel : ℕ) (t : SecureTransport S) :
    (receiveLoop fuel t).transport.sending = t.sending := by
  induction fuel generalizing t with
  | zero => rfl
  | succ fuel ih =>
      unfold receiveLoop
      split
      · rfl
      · rfl
      · rename_i record buffer hextract
        cases hchannel : t.channel with
        | none =>
            show ((_ : Option _), _) = _
            simp [sending, hchannel]
        | some channel =>
            simp only [Option.bind_some]
            cases hdecrypt : channel.decrypt record with
            | none => simp [sending, hchannel]
            | some r =>
                obtain ⟨plain, next⟩ := r
                have hpush : next.push = channel.push := by
                  unfold SecureChannel.decrypt at hdecrypt
                  split at hdecrypt
                  · cases hdecrypt
                  · split at hdecrypt
                    · cases hdecrypt
                    · obtain ⟨x, -, hx⟩ := Option.map_eq_some_iff.mp hdecrypt
                      cases hx
                      rfl
                simp only
                rw [ih]
                simp [sending, hchannel, hpush]

theorem onReceive_sending (t : SecureTransport S) (d : Delivery) :
    (t.onReceive d).transport.sending = t.sending := by
  unfold onReceive
  dsimp only
  split
  · rfl
  · exact receiveLoop_sending _ _

/-- A message that fits is sent as one record. -/
theorem send_eq (hstream : S.StreamContract) {t : SecureTransport S} {channel : SecureChannel S}
    (hchannel : t.channel = some channel) {d : Bytes} (hfit : d.length + aBytes ≤ kMaxFrame) :
    t.send d = { t with
      channel := some { channel with push := (S.secretstream.push channel.push d).2 }
      sent := t.sent ++ recordWire (S.secretstream.push channel.push d).1 } := by
  have hbound : kMaxFrame = 17825792 := rfl
  have hshort : (S.secretstream.push channel.push d).1.length < 2 ^ 32 := by
    rw [hstream.length_push]
    norm_num
    omega
  unfold SecureTransport.send
  simp only [hchannel, SecureChannel.encrypt, sendFramed, recordWire]
  rw [Crypto.lengthHeader_eq, UInt32.toNat_ofNat_of_lt' hshort]

/-- Sending leaves the receiving side as it is. -/
theorem Expects.send {t : SecureTransport S} {future : Bytes} {ds : List Bytes}
    {push : S.secretstream.Push} (h : t.Expects future ds push) (d : Bytes) :
    (t.send d).Expects future ds push := by
  refine h.of_same ?_ ?_
  · unfold SecureTransport.send
    split <;> rfl
  · unfold SecureTransport.send
    split
    · rfl
    · rename_i channel hchannel
      rw [hchannel]
      rfl

end Client.SecureTransport

/-! ## From the iPad to the host -/

namespace Crypto.SecureByteChannel

/-- What comes in of a stream does not change when more of it arrives. -/
theorem incoming_append {fuel n : ℕ} (hfuel : fuel ≤ n) {channel channel' : SecureChannel S}
    {s d rest : Bytes} (h : incoming fuel channel s = (.plain d, channel', rest))
    (more : Bytes) : incoming n channel (s ++ more) = (.plain d, channel', rest ++ more) := by
  induction fuel generalizing n channel s with
  | zero => cases h
  | succ fuel ih =>
      obtain ⟨n, rfl⟩ : ∃ k, n = k + 1 := ⟨n - 1, by omega⟩
      unfold incoming at h ⊢
      cases hscan : scanRecord s with
      | more =>
          rw [hscan] at h
          rcases cutShort_cases s with hcut | hcut | hcut
          all_goals
            simp only [hcut] at h
            cases h
      | fail e =>
          rw [hscan] at h
          cases h
      | item record k =>
          have hitem : scanRecord (s ++ more) = .item record k :=
            recordGrammar.item_append hscan more
          have hdrop : (s ++ more).drop k = s.drop k ++ more :=
            List.drop_append_of_le_length (recordGrammar.used_le hscan)
          rw [hscan] at h
          rw [hitem]
          cases hdecrypt : channel.decrypt record with
          | none =>
              simp only [hdecrypt] at h
              cases h
          | some r =>
              obtain ⟨plain, next⟩ := r
              simp only [hdecrypt] at h ⊢
              rw [hdrop]
              by_cases hplain : plain = []
              · rw [if_pos hplain] at h ⊢
                exact ih (Nat.le_of_succ_le_succ hfuel) h
              · rw [if_neg hplain] at h ⊢
                obtain ⟨rfl, rfl, rfl⟩ : plain = d ∧ next = channel' ∧ s.drop k = rest := by
                  simpa using h
                rfl

/-- What is left over of the last record, what has arrived and what is still to come are what
`Recv` has still to return, `rest`. -/
def Hearing (s : SecureByteChannel S) (future rest : Bytes) : Prop :=
  ∃ raw push pull ds, s.raw = some raw ∧ s.broken = false ∧ s.channel.pullState = some pull ∧
    S.secretstream.InSync push pull ∧ Fits ds ∧ arriving raw.inbox ++ future = wire push ds ∧
    rest = s.leftover ++ ds.flatten

/-- **The invariant of an open stream**, whatever is sent from `push` on. -/
def Hears (s : SecureByteChannel S) (future rest : Bytes) (push : S.secretstream.Push) : Prop :=
  ∀ later, Fits later → s.Hearing (future ++ wire push later) (rest ++ later.flatten)

/-- A channel whose pull stream is in step with a sender that has sent nothing yet. -/
theorem Hears.start {s : SecureByteChannel S} {raw : ByteChannel} {push : S.secretstream.Push}
    {pull : S.secretstream.Pull} (hfresh : s.Fresh) (hraw : s.raw = some raw)
    (harriving : arriving raw.inbox = []) (hpull : s.channel.pullState = some pull)
    (hsync : S.secretstream.InSync push pull) : s.Hears [] [] push := by
  intro later hfits
  refine ⟨raw, push, pull, later, hraw, hfresh.2, hpull, hsync, hfits, ?_, ?_⟩
  · rw [harriving]
    rfl
  · rw [show s.leftover = [] from hfresh.1]

/-- What has arrived on a raw channel is one stream to whoever reads it. -/
def arrive (s : SecureByteChannel S) (bytes : Bytes) : SecureByteChannel S :=
  { s with raw := s.raw.map fun raw =>
      { raw with inbox := [.data (arriving raw.inbox ++ bytes)] } }

/-- More of the stream arrives. -/
theorem Hearing.arrive {s : SecureByteChannel S} {bytes future rest : Bytes}
    (h : s.Hearing (bytes ++ future) rest) : (s.arrive bytes).Hearing future rest := by
  obtain ⟨raw, push, pull, ds, hraw, hbroken, hpull, hsync, hfits, hwire, hrest⟩ := h
  refine ⟨{ raw with inbox := [.data (arriving raw.inbox ++ bytes)] }, push, pull, ds, ?_,
    hbroken, hpull, hsync, hfits, ?_, hrest⟩
  · rw [SecureByteChannel.arrive, hraw]
    rfl
  · rw [Core.arriving_singleton, List.append_assoc, hwire]

/-- A `Recv` that returns something. -/
theorem Hearing.recv (hstream : S.StreamContract) {s : SecureByteChannel S} {future rest : Bytes}
    (h : s.Hearing future rest) {room : ℕ} (hcount : 0 < (s.recv room).1.count) :
    ∃ rest', rest = (s.recv room).1.bytes ++ rest' ∧ (s.recv room).2.Hearing future rest' := by
  obtain ⟨raw, push, pull, ds, hraw, hbroken, hpull, hsync, hfits, hwire, rfl⟩ := h
  by_cases hleft : s.leftover = []
  · obtain ⟨hresult, hleft', hbroken', hchannel, inbox, hraw', hplain, -⟩ :=
      recv_drained hraw hbroken hleft room
    rcases hr : incoming ((arriving raw.inbox).length + 1) s.channel (arriving raw.inbox) with
      ⟨outcome, channel, left⟩
    rw [hr] at hresult hleft' hbroken' hchannel hplain
    cases outcome with
    | ended =>
        rw [hresult] at hcount
        cases hcount
    | fault f =>
        rw [hresult] at hcount
        cases f <;> cases hcount
    | plain d =>
        -- the same comes in with the rest of the stream behind it
        have hall := incoming_append (n := (wire push ds).length + 1)
          (by rw [← hwire, List.length_append]; omega) hr future
        rw [hwire] at hall
        obtain ⟨push', pull', ds', hpull', hsync', hfits', hstream', hcases⟩ :=
          incoming_wire hstream ((wire push ds).length + 1) (Nat.lt_succ_self _) hpull hsync hfits
        rw [hall] at hpull' hstream' hcases
        obtain ⟨d', -, hd, hflatten⟩ := hcases.resolve_left fun hend => by cases hend.1
        obtain rfl : d = d' := by simpa using hd
        obtain ⟨hleft'', -⟩ := hplain d rfl
        refine ⟨d.drop room ++ ds'.flatten, ?_, _, push', pull', ds', hraw', hbroken',
          (congrArg _ hchannel).trans hpull', hsync', hfits', ?_, by rw [hleft']; rfl⟩
        · rw [hleft, hflatten, hresult]
          show [] ++ (d ++ ds'.flatten) = d.take room ++ (d.drop room ++ ds'.flatten)
          rw [List.nil_append, ← List.append_assoc, List.take_append_drop]
        · rw [hleft'']
          exact hstream'
  · obtain ⟨hresult, hleft', hbroken', hchannel, hraw'⟩ := recv_leftover hraw hbroken hleft room
    refine ⟨s.leftover.drop room ++ ds.flatten, ?_, raw, push, pull, ds, hraw', hbroken',
      (congrArg _ hchannel).trans hpull, hsync, hfits, hwire, by rw [hleft']⟩
    rw [hresult, Received.bytes, ← List.append_assoc, List.take_append_drop]

variable {s : SecureByteChannel S} {future rest : Bytes} {push : S.secretstream.Push}

/-- Nothing more is sent. -/
theorem Hears.hearing (h : s.Hears future rest push) : s.Hearing future rest := by
  have hnow := h [] (by intro d hd; cases hd)
  rwa [wire_nil, List.append_nil, List.flatten_nil, List.append_nil] at hnow

/-- **The iPad sends a message.** -/
theorem Hears.sent (h : s.Hears future rest push) {d : Bytes}
    (hfit : d.length + aBytes ≤ kMaxFrame) :
    s.Hears (future ++ recordWire (S.secretstream.push push d).1) (rest ++ d)
      (S.secretstream.push push d).2 := by
  intro later hfits
  have hnext := h (d :: later) (List.forall_mem_cons.mpr ⟨hfit, hfits⟩)
  rw [wire_cons, List.flatten_cons] at hnext
  rwa [List.append_assoc, List.append_assoc]

/-- **Bytes arrive.** -/
theorem Hears.arrive {bytes : Bytes} (h : s.Hears (bytes ++ future) rest push) :
    (s.arrive bytes).Hears future rest push := by
  intro later hfits
  have hnow := h later hfits
  rw [List.append_assoc] at hnow
  exact hnow.arrive

/-- **A `Recv` that returns something** returns the front of what is expected. -/
theorem Hears.recv (hstream : S.StreamContract) (h : s.Hears future rest push) {room : ℕ}
    (hcount : 0 < (s.recv room).1.count) :
    ∃ rest', rest = (s.recv room).1.bytes ++ rest' ∧ (s.recv room).2.Hears future rest' push := by
  obtain ⟨rest', hrest, -⟩ := h.hearing.recv hstream hcount
  refine ⟨rest', hrest, fun later hfits => ?_⟩
  obtain ⟨rest'', hsplit, hhearing⟩ := (h later hfits).recv hstream hcount
  rw [hrest, List.append_assoc] at hsplit
  obtain rfl := List.append_cancel_left hsplit
  exact hhearing

/-- `Recv` returns no more than it has room for. -/
theorem recv_room (s : SecureByteChannel S) (room : ℕ) : (s.recv room).1.bytes.length ≤ room := by
  unfold recv
  split
  · exact Nat.zero_le _
  · split
    · exact Nat.zero_le _
    · split
      · exact Nat.zero_le _
      · exact Nat.zero_le _
      · show (List.take _ _).length ≤ room
        rw [List.length_take]
        omega

/-- **A `Recv` finds what is there**: with nothing still to come, one that returns nothing has
returned everything. -/
theorem Hears.drained (hstream : S.StreamContract) (h : s.Hears [] rest push) {room : ℕ}
    (hroom : 0 < room) (hcount : (s.recv room).1.count ≤ 0) : rest = [] := by
  obtain ⟨raw, push, pull, ds, hraw, hbroken, hpull, hsync, hfits, hwire, rfl⟩ := h.hearing
  have htaken : ∀ {bytes : Bytes}, bytes ≠ [] → 0 < (Received.data (bytes.take room)).count := by
    intro bytes hne
    have hpos := List.length_pos_of_ne_nil hne
    have hlength : 0 < (bytes.take room).length := by
      rw [List.length_take]
      omega
    exact Int.natCast_pos.mpr hlength
  by_cases hleft : s.leftover = []
  · obtain ⟨hresult, -⟩ := recv_drained hraw hbroken hleft room
    obtain ⟨-, -, -, -, -, -, -, ⟨-, hnone, -⟩ | ⟨d, hne, hr, -⟩⟩ :=
      incoming_wire hstream ((wire push ds).length + 1) (Nat.lt_succ_self _) hpull hsync hfits
    · rw [hleft, hnone]
      rfl
    · rw [List.append_nil] at hwire
      rw [hwire, hr] at hresult
      rw [hresult] at hcount
      exact absurd (htaken hne) (Int.not_lt.mpr hcount)
  · obtain ⟨hresult, -⟩ := recv_leftover hraw hbroken hleft room
    rw [hresult] at hcount
    exact absurd (htaken hleft) (Int.not_lt.mpr hcount)

end Crypto.SecureByteChannel

end TetherDisplay
