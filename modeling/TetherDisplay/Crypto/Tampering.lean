import TetherDisplay.Crypto.SecureByteChannel
import Mathlib.Data.List.Infix

/-!
# Tampering with the stream of records

Behind the handshake the attacker owns the raw channel: the inbox of a channel is
whatever it likes, and the lengths in it are not authenticated.  The cipher is idealised
here (`AuthStream.Exactly`): of all records it accepts the next one that the peer has
pushed and no other.

* **Integrity.**  What `Recv` returns is a prefix of what the peer has passed to
  `SendAll` (`delivered_prefix`).  The invariant is `Undelivered`: the bytes left over of
  the last record and the messages of the records still expected are what has not been
  delivered.  Where the attacker moves the frame boundaries plays no part in it, since
  the cipher does not accept a record that is cut elsewhere.
* **Detection.**  A `Recv` that meets a fault of the stream reports an error, for good,
  exactly when the fault is a bad tag (`fault_terminal_iff`).  A bad length and a stream
  that is cut off are reported as an orderly close, and the channel goes on.
-/

namespace TetherDisplay.Crypto

open TetherDisplay.Core (ByteChannel Received arriving beyond)
open LittleEndian

variable {S : Sodium}

namespace SecureByteChannel

/-! ## What the peer has sent -/

/-- What a sequence of calls passes to `SendAll`. -/
def messages : List Op → List Bytes
  | [] => []
  | .sendAll data :: ops => data :: messages ops
  | .recv _ :: ops => messages ops

/-- The record that a call pushes, with its message. -/
def record? (s : SecureByteChannel S) : Op → Option (Bytes × Bytes)
  | .recv _ => none
  | .sendAll data =>
      if s.raw = none ∨ s.broken = true then none
      else (s.channel.encrypt data).map fun r => (data, r.1)

/-- The records that a sequence of calls pushes, each with its message. -/
def pushed : SecureByteChannel S → List Op → List (Bytes × Bytes)
  | _, [] => []
  | s, op :: ops => (s.record? op).toList ++ pushed (s.act op).2 ops

/-- The channel pushes nothing, now and later. -/
def Mute (s : SecureByteChannel S) : Prop := s.Refusing ∨ s.channel.pushState = none

/-- Reading does not touch the sending half. -/
theorem pushState_incoming (fuel : ℕ) (channel : SecureChannel S) (stream : Bytes) :
    (incoming fuel channel stream).2.1.pushState = channel.pushState := by
  induction fuel generalizing channel stream with
  | zero => rfl
  | succ fuel ih =>
      unfold incoming
      cases hscan : scanRecord stream with
      | more => rfl
      | fail e => rfl
      | item record k =>
          cases hdecrypt : channel.decrypt record with
          | none => simp only [hdecrypt]
          | some r =>
              obtain ⟨plain, channel'⟩ := r
              obtain ⟨pull, pull', -, -, rfl⟩ := SecureChannel.decrypt_eq_some hdecrypt
              simp only [hdecrypt]
              split
              · exact ih _ _
              · rfl

/-- `Recv` does not touch the sending half. -/
theorem pushState_recv (s : SecureByteChannel S) (room : ℕ) :
    (s.recv room).2.channel.pushState = s.channel.pushState := by
  rcases s.refusing_or_receiving with h | ⟨raw, hraw, hbroken⟩
  · rw [recv_refused h]
  · by_cases hleft : s.leftover = []
    · rw [(recv_drained hraw hbroken hleft room).2.2.2.1, pushState_incoming]
    · rw [(recv_leftover hraw hbroken hleft room).2.2.2.1]

/-- A channel that refuses does so whatever is called. -/
theorem act_refused {s : SecureByteChannel S} (h : s.Refusing) (op : Op) :
    (s.act op).1.Refused ∧ (s.act op).2 = s := by
  cases op with
  | recv room =>
      simp only [act, recv_refused h]
      exact ⟨Int.negSucc_lt_zero 0, trivial⟩
  | sendAll data =>
      simp only [act, sendAll_refused h]
      exact ⟨rfl, trivial⟩

/-- A mute channel sends nothing. -/
theorem sendAll_mute {s : SecureByteChannel S} (h : s.Mute) (data : Bytes) :
    s.sendAll data = (false, s) := by
  rcases h with h | h
  · exact sendAll_refused h data
  · unfold sendAll
    cases hraw : s.raw with
    | none => rfl
    | some raw => simp [SecureChannel.valid, h]

/-- A mute channel stays mute. -/
theorem mute_act {s : SecureByteChannel S} (h : s.Mute) (op : Op) :
    s.record? op = none ∧ (s.act op).2.Mute := by
  cases op with
  | recv room =>
      refine ⟨rfl, ?_⟩
      rcases h with h | h
      · rw [(act_refused h (.recv room)).2]
        exact Or.inl h
      · exact Or.inr ((pushState_recv s room).trans h)
  | sendAll data =>
      rw [act, sendAll_mute h]
      refine ⟨?_, h⟩
      rcases h with h | h
      · exact if_pos h
      · simp only [record?, SecureChannel.encrypt, h, Option.map_none, ite_self]

/-- No record comes of a mute channel. -/
theorem pushed_mute {s : SecureByteChannel S} (h : s.Mute) (ops : List Op) :
    s.pushed ops = [] := by
  induction ops generalizing s with
  | nil => rfl
  | cons op ops ih =>
      obtain ⟨hnone, hmute⟩ := mute_act h op
      simp only [pushed, hnone, ih hmute, Option.toList_none, List.append_nil]

/-- A call of `SendAll` either pushes a record of its message or the channel is mute. -/
theorem record?_sendAll (s : SecureByteChannel S) (data : Bytes) :
    (∃ record, s.record? (.sendAll data) = some (data, record)) ∨ s.Mute := by
  by_cases hrefusing : s.raw = none ∨ s.broken = true
  · exact Or.inr (Or.inl hrefusing)
  · cases hpush : s.channel.pushState with
    | none => exact Or.inr (Or.inr hpush)
    | some push =>
        refine Or.inl ⟨(S.secretstream.push push data).1, ?_⟩
        simp only [record?, if_neg hrefusing, SecureChannel.encrypt, hpush, Option.map_some]

/-- **The records pushed are those of the first messages passed.**  A channel that refuses
one message refuses all later ones. -/
theorem pushed_prefix (s : SecureByteChannel S) (ops : List Op) :
    (s.pushed ops).map Prod.fst <+: messages ops := by
  induction ops generalizing s with
  | nil => exact List.prefix_rfl
  | cons op ops ih =>
      cases op with
      | recv room => exact ih (s.act (.recv room)).2
      | sendAll data =>
          rcases s.record?_sendAll data with ⟨record, hrecord⟩ | hmute
          · simp only [pushed, hrecord, messages, Option.toList_some, List.singleton_append,
              List.map_cons]
            exact (List.prefix_cons_inj data).mpr (ih (s.act (.sendAll data)).2)
          · -- later messages are refused like this one, so none of them is pushed
            rw [pushed_mute hmute]
            exact List.nil_prefix

/-! ## Integrity -/

/-- **The invariant.**  What is left over of the last record and the messages of the
records still expected are the bytes `rest` that have not been delivered. -/
def Undelivered (s : SecureByteChannel S) (rest : Bytes) : Prop :=
  ∃ pull expected, s.channel.pullState = some pull ∧
    S.secretstream.Exactly pull expected ∧
    rest = s.leftover ++ (expected.map Prod.fst).flatten

/-- Whatever stream arrives, what comes in is the front of what is expected. -/
theorem incoming_exactly (fuel : ℕ) {channel : SecureChannel S} {pull : S.secretstream.Pull}
    {expected : List (Bytes × Bytes)} (hpull : channel.pullState = some pull)
    (hexact : S.secretstream.Exactly pull expected) (stream : Bytes) :
    ∃ pull' rest, (incoming fuel channel stream).2.1.pullState = some pull' ∧
      S.secretstream.Exactly pull' rest ∧
      (expected.map Prod.fst).flatten =
        (incoming fuel channel stream).1.bytes ++ (rest.map Prod.fst).flatten := by
  induction fuel generalizing channel pull expected stream with
  | zero => exact ⟨pull, expected, hpull, hexact, rfl⟩
  | succ fuel ih =>
      unfold incoming
      cases hscan : scanRecord stream with
      | fail e => exact ⟨pull, expected, hpull, hexact, rfl⟩
      | more =>
          refine ⟨pull, expected, hpull, hexact, ?_⟩
          rcases cutShort_cases stream with hcut | hcut | hcut
          all_goals
            simp only [hcut]
            rfl
      | item record k =>
          cases hdecrypt : channel.decrypt record with
          | none =>
              -- a rejected record leaves the pull stream where it is
              simp only [hdecrypt]
              exact ⟨pull, expected, hpull, hexact, rfl⟩
          | some r =>
              obtain ⟨plain, channel'⟩ := r
              obtain ⟨pull₀, pull', hpull₀, haccept, rfl⟩ :=
                SecureChannel.decrypt_eq_some hdecrypt
              obtain rfl : pull = pull₀ := Option.some.inj (hpull.symm.trans hpull₀)
              -- whatever the attacker has framed, it is the next record if it is accepted
              obtain ⟨rest, rfl, hrest⟩ := hexact.accepted haccept
              simp only [hdecrypt]
              by_cases hplain : plain = []
              · subst hplain
                rw [if_pos rfl]
                exact ih rfl hrest _
              · rw [if_neg hplain]
                exact ⟨pull', rest, rfl, hrest, rfl⟩

/-- **One call delivers the front of what is undelivered**, and never anything else. -/
theorem Undelivered.act {s : SecureByteChannel S} {rest : Bytes} (h : s.Undelivered rest)
    (op : Op) :
    ∃ rest', rest = (s.act op).1.bytes ++ rest' ∧ (s.act op).2.Undelivered rest' := by
  obtain ⟨pull, expected, hpull, hexact, rfl⟩ := h
  cases op with
  | sendAll data =>
      obtain ⟨hleft, -, hkept, -⟩ := s.sendAll_receiving data
      exact ⟨_, rfl, pull, expected, hkept.trans hpull, hexact,
        congrArg (· ++ (expected.map Prod.fst).flatten) hleft.symm⟩
  | recv room =>
      show ∃ rest', _ = (s.recv room).1.bytes ++ rest' ∧ (s.recv room).2.Undelivered rest'
      rcases s.refusing_or_receiving with hrefusing | ⟨raw, hraw, hbroken⟩
      · rw [recv_refused hrefusing]
        exact ⟨_, rfl, pull, expected, hpull, hexact, rfl⟩
      -- the room cuts what has come in, or what is left over, in two
      by_cases hleft : s.leftover = []
      · obtain ⟨hresult, hleft', -, hchannel, -⟩ := recv_drained hraw hbroken hleft room
        obtain ⟨pull', rest, hpull', hrest, hbytes⟩ := incoming_exactly
          ((arriving raw.inbox).length + 1) hpull hexact (arriving raw.inbox)
        generalize incoming ((arriving raw.inbox).length + 1) s.channel (arriving raw.inbox) = r
          at hresult hleft' hchannel hpull' hbytes
        have hreturned : (s.recv room).1.bytes = r.1.bytes.take room := by
          rw [hresult, Outcome.bytes_received]
        refine ⟨r.1.bytes.drop room ++ (rest.map Prod.fst).flatten, ?_, pull', rest,
          (congrArg _ hchannel).trans hpull', hrest, by rw [hleft']⟩
        rw [hreturned, hleft, List.nil_append, hbytes, ← List.append_assoc,
          List.take_append_drop]
      · obtain ⟨hresult, hleft', -, hchannel, -⟩ := recv_leftover hraw hbroken hleft room
        refine ⟨s.leftover.drop room ++ (expected.map Prod.fst).flatten, ?_, pull, expected,
          (congrArg _ hchannel).trans hpull, hexact, by rw [hleft']⟩
        rw [hresult, Received.bytes, ← List.append_assoc, List.take_append_drop]

/-- What is received is what has not been delivered yet, in order. -/
theorem Undelivered.acts {s : SecureByteChannel S} {rest : Bytes} (h : s.Undelivered rest)
    (ops : List Op) :
    ∃ rest', rest = (s.acts ops).1.flatMap Reply.bytes ++ rest' ∧
      (s.acts ops).2.Undelivered rest' := by
  induction ops generalizing s rest with
  | nil => exact ⟨rest, rfl, h⟩
  | cons op ops ih =>
      obtain ⟨mid, hfront, hmid⟩ := h.act op
      obtain ⟨rest', hback, hrest⟩ := ih hmid
      refine ⟨rest', ?_, hrest⟩
      rw [acts_cons, List.flatMap_cons, List.append_assoc, ← hback, hfront]

/-- **Integrity.**  Whatever arrives on the raw channel, however it is cut and however
`Recv` is called, the plaintext that has been returned is a prefix of what the peer has
passed to `SendAll`. -/
theorem delivered_prefix {s peer : SecureByteChannel S} {pull : S.secretstream.Pull}
    {peerOps : List Op} (hopened : s.Opened pull)
    (hideal : S.secretstream.Exactly pull (peer.pushed peerOps)) (ops : List Op) :
    (s.acts ops).1.flatMap Reply.bytes <+: (messages peerOps).flatten := by
  obtain ⟨hpull, hleft, -⟩ := hopened
  have hstart : s.Undelivered ((peer.pushed peerOps).map Prod.fst).flatten :=
    ⟨pull, _, hpull, hideal, (congrArg (· ++ _) hleft).symm⟩
  obtain ⟨rest, hdelivered, -⟩ := hstart.acts ops
  have hpushed : (s.acts ops).1.flatMap Reply.bytes <+:
      ((peer.pushed peerOps).map Prod.fst).flatten := ⟨rest, hdelivered.symm⟩
  exact hpushed.trans (peer.pushed_prefix peerOps).flatten

/-- The first record arrives in two pieces and then once more. -/
theorem delivered_prefix_replay :
    let peerOps : List Op := [.sendAll [1, 2, 3], .sendAll [4]]
    let peer : SecureByteChannel (Sodium.ideal []) :=
      { raw := some {}, channel := { pushState := some (0 : ℕ) } }
    let records : List (Bytes × Bytes) := peer.pushed peerOps
    let wire := records.flatMap fun r => recordWire r.2
    let inbox : List Received := [.data (wire.take 7), .data ((wire.drop 7).take 17), .data wire]
    let s : SecureByteChannel (Sodium.ideal []) :=
      { raw := some { inbox }, channel := { pullState := some records } }
    (s.acts [.recv 2, .recv 9, .recv 9, .recv 9]).1.flatMap Reply.bytes <+:
      (messages peerOps).flatten := by
  intro peerOps peer records wire inbox s
  have hopened : s.Opened records := ⟨rfl, rfl, rfl⟩
  exact delivered_prefix hopened (Sodium.ideal_exactly [] records) _

/-! ## Detection -/

/-- The next `Recv` has to read on and meets the fault `f` of the stream. -/
def Meets (s : SecureByteChannel S) (f : StreamFault) : Prop :=
  ∃ raw, s.raw = some raw ∧ s.broken = false ∧ s.leftover = [] ∧
    (incoming ((arriving raw.inbox).length + 1) s.channel (arriving raw.inbox)).1 = .fault f

/-- A channel that refuses does so for good. -/
theorem acts_refused {s : SecureByteChannel S} (h : s.Refusing) (ops : List Op) :
    ∀ reply ∈ (s.acts ops).1, reply.Refused := by
  induction ops generalizing s with
  | nil => exact fun _ hmem => absurd hmem List.not_mem_nil
  | cons op ops ih =>
      obtain ⟨hrefused, hkept⟩ := act_refused h op
      rw [acts_cons, hkept]
      exact List.forall_mem_cons.mpr ⟨hrefused, ih h⟩

/-- **Detection.**  Of all the faults of a stream, a bad tag is reported as an error and
is terminal, and no other fault is.  `before` is what has been called until the `Recv`
that meets the fault. -/
theorem fault_terminal_iff {s : SecureByteChannel S} {before : List Op} {f : StreamFault}
    (hmeets : (s.acts before).2.Meets f) (room : ℕ) :
    ((((s.acts before).2.recv room).1.count < 0) ∧
        ∀ after, ∀ reply ∈ (((s.acts before).2.recv room).2.acts after).1, reply.Refused) ↔
      f = .badTag := by
  obtain ⟨raw, hraw, hbroken, hleft, hfault⟩ := hmeets
  obtain ⟨hresult, -, hlatch, -, -⟩ := recv_drained hraw hbroken hleft room
  rw [hfault] at hresult hlatch
  constructor
  · rintro ⟨hnegative, -⟩
    rw [hresult] at hnegative
    cases f with
    | badTag => rfl
    | badLength => exact absurd hnegative (lt_irrefl 0)
    | cutHeader => exact absurd hnegative (lt_irrefl 0)
    | cutBody => exact absurd hnegative (lt_irrefl 0)
  · rintro rfl
    rw [hresult]
    exact ⟨Int.negSucc_lt_zero 0, fun after => acts_refused (Or.inr hlatch) after⟩

/-- A record that has been altered on its way. -/
theorem fault_terminal_iff_altered :
    let pull : ByteArr 32 × ByteArr headerBytes × ℕ := (.replicate 32 1, .replicate 24 2, 0)
    let record := (Sodium.paper.secretstream.push pull [1, 2, 3]).1
    let inbox : List Received :=
      [.data (recordWire (record.dropLast ++ [7])), .data (recordWire record)]
    let s : SecureByteChannel Sodium.paper :=
      { raw := some { inbox }
        channel := { pushState := some pull, pullState := some pull } }
    ((((s.acts [.sendAll [4]]).2.recv 8).1.count < 0) ∧
        ∀ after, ∀ reply ∈ (((s.acts [.sendAll [4]]).2.recv 8).2.acts after).1,
          reply.Refused) ↔
      StreamFault.badTag = .badTag := by
  intro pull record inbox s
  have hmeets : (s.acts [.sendAll [4]]).2.Meets .badTag :=
    ⟨_, rfl, rfl, rfl, by decide +kernel⟩
  exact fault_terminal_iff hmeets 8

/-- A record length of zero in front of a record: `Recv` reports an orderly close, the
channel goes on sending, and the next `Recv` returns the record behind. -/
theorem zero_length_not_terminal :
    let pull : ByteArr 32 × ByteArr headerBytes × ℕ := (.replicate 32 1, .replicate 24 2, 0)
    let record := (Sodium.paper.secretstream.push pull [1, 2, 3]).1
    let inbox : List Received := [.data (leBytes 4 0), .data (recordWire record)]
    let s : SecureByteChannel Sodium.paper :=
      { raw := some { inbox }
        channel := { pushState := some pull, pullState := some pull } }
    s.Opened pull ∧ s.Meets .badLength ∧
      (s.acts [.recv 8, .sendAll [4], .recv 8]).1 =
        [.received .closed, .sent true, .received (.data [1, 2, 3])] ∧
      ¬ ((s.recv 8).1.count < 0 ∧
        ∀ after, ∀ reply ∈ ((s.recv 8).2.acts after).1, reply.Refused) := by
  intro pull record inbox s
  refine ⟨⟨rfl, rfl, rfl⟩, ⟨_, rfl, rfl, rfl, by decide +kernel⟩, by decide +kernel, ?_⟩
  rintro ⟨hnegative, -⟩
  have hclosed : (s.recv 8).1 = .closed := by decide +kernel
  rw [hclosed] at hnegative
  exact lt_irrefl 0 hnegative

end SecureByteChannel

end TetherDisplay.Crypto
