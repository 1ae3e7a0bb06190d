import TetherDisplay.Crypto.Completion
import TetherDisplay.Crypto.Tampering

/-!
# An object that is used again

`Establish` may be called again on the same object, over another raw channel, and may fail.
What is asked is that each call begins anew: after one that has returned `Ok` the object
behaves as a new object on which only this call has been made, and after one that has not, and
before the first, nothing is sent and nothing is received (`FailsClosed`).

`Establish` sets `raw_` first and `channel_` when it comes to it, and nothing else: plaintext
that is left over and the latch of a broken channel outlive it, a call that fails early leaves
the old channel over the new raw one, and a call that fails late leaves the channel that it has
made.  Where none of this happens (`Clean`), each call begins anew.
-/

namespace TetherDisplay.Crypto

open TetherDisplay.Core (ByteChannel Received arriving)

variable {S : Sodium} {σ : Type}

namespace SecureByteChannel

/-! ## Objects that behave alike -/

/-- Two objects that differ in what has been received and returned, at most. -/
structure Alike (s t : SecureByteChannel S) : Prop where
  raw : s.raw = t.raw
  channel : s.channel = t.channel
  leftover : s.leftover = t.leftover
  broken : s.broken = t.broken

theorem lt_iff_leftover (s : SecureByteChannel S) :
    s.rxPos < s.rxPlain.length ↔ s.leftover ≠ [] := by
  rw [leftover, ne_eq, List.drop_eq_nil_iff, not_le]

/-- Channels that are alike read records alike. -/
theorem Alike.pump {s t : SecureByteChannel S} (h : s.Alike t) (fuel : ℕ) (raw : ByteChannel) :
    (SecureByteChannel.pump fuel raw s).1 = (SecureByteChannel.pump fuel raw t).1 ∧
      (SecureByteChannel.pump fuel raw s).2.Alike (SecureByteChannel.pump fuel raw t).2 := by
  induction fuel generalizing s t raw with
  | zero => exact ⟨rfl, rfl, h.channel, h.leftover, h.broken⟩
  | succ fuel ih =>
      unfold SecureByteChannel.pump
      simp only [lt_iff_leftover, h.leftover, h.channel]
      by_cases hleft : t.leftover = []
      · simp only [hleft, ne_eq, not_true_eq_false, if_false]
        rcases readFramed raw with ⟨record, raw'⟩
        cases record with
        | none => exact ⟨rfl, rfl, rfl, h.leftover, h.broken⟩
        | some record =>
            cases hdecrypt : t.channel.decrypt record with
            | none =>
                simp only [hdecrypt]
                exact ⟨trivial, rfl, rfl, h.leftover, rfl⟩
            | some r =>
                obtain ⟨plain, channel⟩ := r
                simp only [hdecrypt]
                apply ih
                exact ⟨h.raw, rfl, rfl, h.broken⟩
      · rw [if_pos hleft, if_pos hleft]
        exact ⟨rfl, rfl, rfl, h.leftover, h.broken⟩

/-- Channels that are alike receive alike. -/
theorem Alike.recv {s t : SecureByteChannel S} (h : s.Alike t) (room : ℕ) :
    (s.recv room).1 = (t.recv room).1 ∧ (s.recv room).2.Alike (t.recv room).2 := by
  rcases t.refusing_or_receiving with hrefusing | ⟨raw, hraw, hbroken⟩
  · have hrefusing' : s.Refusing := by
      unfold Refusing
      rwa [h.raw, h.broken]
    rw [recv_refused hrefusing, recv_refused hrefusing']
    exact ⟨rfl, h⟩
  · obtain ⟨hchannel, hraw', hbroken', hresult⟩ :=
      recv_eq (h.raw.trans hraw) (h.broken.trans hbroken) room
    obtain ⟨hchannel₁, hraw₁, hbroken₁, hresult₁⟩ := recv_eq hraw hbroken room
    obtain ⟨hsame, halike⟩ := h.pump ((arriving raw.inbox).length + 1) raw
    rw [hsame, halike.leftover] at hresult
    have hends : (s.recv room).1 = (t.recv room).1 ∧
        (s.recv room).2.leftover = (t.recv room).2.leftover := by
      rcases hpumped : (SecureByteChannel.pump ((arriving raw.inbox).length + 1) raw t).1
      all_goals
        rw [hpumped] at hresult hresult₁
        exact ⟨hresult.1.trans hresult₁.1.symm, hresult.2.trans hresult₁.2.symm⟩
    exact ⟨hends.1, (hraw'.trans halike.raw).trans hraw₁.symm,
      (hchannel.trans halike.channel).trans hchannel₁.symm, hends.2,
      (hbroken'.trans halike.broken).trans hbroken₁.symm⟩

/-- Channels that are alike send alike. -/
theorem Alike.sendAll {s t : SecureByteChannel S} (h : s.Alike t) (data : Bytes) :
    (s.sendAll data).1 = (t.sendAll data).1 ∧ (s.sendAll data).2.Alike (t.sendAll data).2 := by
  unfold SecureByteChannel.sendAll
  rw [h.raw, h.channel, h.broken]
  cases t.raw with
  | none => exact ⟨rfl, h⟩
  | some raw =>
      by_cases hrefused : (!t.channel.valid || t.broken) = true
      · simp only [if_pos hrefused]
        exact ⟨trivial, h⟩
      · simp only [if_neg hrefused]
        cases t.channel.encrypt data with
        | none => exact ⟨rfl, h⟩
        | some r => exact ⟨rfl, rfl, rfl, h.leftover, rfl⟩

/-- Alike objects reply alike, and stay so. -/
theorem Alike.act {s t : SecureByteChannel S} (h : s.Alike t) (op : Op) :
    (s.act op).1 = (t.act op).1 ∧ (s.act op).2.Alike (t.act op).2 := by
  cases op with
  | recv room =>
      obtain ⟨hreply, halike⟩ := h.recv room
      exact ⟨congrArg Reply.received hreply, halike⟩
  | sendAll data =>
      obtain ⟨hreply, halike⟩ := h.sendAll data
      exact ⟨congrArg Reply.sent hreply, halike⟩

/-! ## Objects that are silent -/

/-- Nothing is sent and nothing is received, and the raw channel is left alone by a send. -/
def Closed (s : SecureByteChannel S) : Prop :=
  (∀ data, s.sendAll data = (false, s)) ∧ ∀ room, (s.recv room).1.count ≤ 0

/-- The channel, if it has not been made, has not been opened either. -/
def InOrder (s : SecureByteChannel S) : Prop :=
  s.channel.pushState = none → s.channel.pullState = none

/-- What makes an object closed: it is new, or broken, or has no channel and nothing left over. -/
def Shut (s : SecureByteChannel S) : Prop :=
  s.Refusing ∨ (s.leftover = [] ∧ s.channel.pushState = none)

/-- A channel that has not been opened decrypts nothing. -/
theorem incoming_unopened {channel : SecureChannel S} (h : channel.pullState = none) (fuel : ℕ)
    (stream : Bytes) :
    (incoming fuel channel stream).1.bytes = [] ∧ (incoming fuel channel stream).2.1 = channel ∧
      ∀ bytes, (incoming fuel channel stream).1 ≠ .plain bytes := by
  cases fuel with
  | zero => exact ⟨rfl, rfl, fun _ => by rintro ⟨⟩⟩
  | succ fuel =>
      have hdecrypt : ∀ record, channel.decrypt record = none := by
        intro record
        rw [SecureChannel.decrypt, h]
      unfold incoming
      cases scanRecord stream with
      | more =>
          rcases cutShort_cases stream with hcut | hcut | hcut
          all_goals
            simp only [hcut]
            exact ⟨rfl, trivial, fun _ => by rintro ⟨⟩⟩
      | fail e => exact ⟨rfl, rfl, fun _ => by rintro ⟨⟩⟩
      | item record k =>
          simp only [hdecrypt]
          exact ⟨rfl, trivial, fun _ => by rintro ⟨⟩⟩

theorem Shut.mute {s : SecureByteChannel S} (h : s.Shut) : s.Mute := h.imp_right And.right

/-- A channel that is shut gives nothing and stays so. -/
theorem Shut.recv {s : SecureByteChannel S} (h : s.Shut) (horder : s.InOrder) (room : ℕ) :
    (s.recv room).1.count ≤ 0 ∧ (s.recv room).2.Shut := by
  rcases s.refusing_or_receiving with hrefusing | ⟨raw, hraw, hbroken⟩
  · rw [recv_refused hrefusing]
    exact ⟨Int.negSucc_le_zero 0, h⟩
  · obtain ⟨hleft, hpush⟩ := h.resolve_left (by simp [Refusing, hraw, hbroken])
    have hunopened := incoming_unopened (horder hpush) ((arriving raw.inbox).length + 1)
      (arriving raw.inbox)
    obtain ⟨hnone, hchannel, hplain⟩ := hunopened
    obtain ⟨hreply, hleft', -, hchannel', -⟩ := recv_drained hraw hbroken hleft room
    refine ⟨?_, Or.inr ⟨?_, ?_⟩⟩
    · rw [hreply]
      cases houtcome : (incoming ((arriving raw.inbox).length + 1) s.channel
          (arriving raw.inbox)).1 with
      | plain bytes => exact absurd houtcome (hplain bytes)
      | ended => exact le_rfl
      | fault f =>
          cases f with
          | badTag => exact Int.negSucc_le_zero 0
          | badLength | cutHeader | cutBody => exact le_rfl
    · rw [hleft', hnone, List.drop_nil]
    · rw [hchannel', hchannel, hpush]

/-- It is closed for good. -/
theorem Shut.closed {s : SecureByteChannel S} (h : s.Shut) (horder : s.InOrder) : s.Closed :=
  ⟨sendAll_mute h.mute, fun room => (h.recv horder room).1⟩

/-- `WriteFramed` does not leave the raw channel as it was. -/
theorem writeFramed_ne (c : ByteChannel) (payload : Bytes) : (writeFramed c payload).2 ≠ c := by
  obtain ⟨inbox, sends, outbox⟩ := c
  intro hsame
  cases sends with
  | nil =>
      have hout := congrArg (List.length ∘ ByteChannel.outbox) hsame
      simp [writeFramed, ByteChannel.sendAll, lengthHeader] at hout
  | cons o sends =>
      have hsends := congrArg (List.length ∘ ByteChannel.sends) hsame
      cases o with
      | some n => simp [writeFramed, ByteChannel.sendAll] at hsends
      | none =>
          cases sends with
          | nil => simp [writeFramed, ByteChannel.sendAll] at hsends
          | cons o sends =>
              cases o with
              | none | some _ =>
                  simp only [writeFramed, ByteChannel.sendAll, Function.comp_apply,
                    List.length_cons] at hsends
                  omega

/-- A channel that has been made sends, if it is not broken. -/
theorem sendAll_valid {s : SecureByteChannel S} {raw : ByteChannel} (hraw : s.raw = some raw)
    (hbroken : s.broken = false) (hpush : s.channel.pushState ≠ none) (data : Bytes) :
    (s.sendAll data).2.raw ≠ s.raw := by
  obtain ⟨push, hpush⟩ := Option.ne_none_iff_exists'.mp hpush
  have hvalid : s.channel.valid = true := by rw [SecureChannel.valid, hpush]; rfl
  have hencrypt : ∃ record channel, s.channel.encrypt data = some (record, channel) :=
    ⟨_, _, by rw [SecureChannel.encrypt, hpush]; rfl⟩
  obtain ⟨record, channel, hencrypt⟩ := hencrypt
  simp only [SecureByteChannel.sendAll, hraw, hvalid, hbroken, Bool.not_true, Bool.or_false,
    Bool.false_eq_true, if_false, hencrypt]
  exact fun hsame => writeFramed_ne raw record (Option.some.inj hsame)

/-- **What a closed object is.** -/
theorem closed_iff {s : SecureByteChannel S} (horder : s.InOrder) : s.Closed ↔ s.Shut := by
  refine ⟨fun h => ?_, fun h => h.closed horder⟩
  rcases s.refusing_or_receiving with hrefusing | ⟨raw, hraw, hbroken⟩
  · exact Or.inl hrefusing
  · refine Or.inr ⟨?_, ?_⟩
    · by_contra hleft
      have hcount := h.2 1
      rw [(recv_leftover hraw hbroken hleft 1).1] at hcount
      obtain ⟨b, rest, hcons⟩ := List.exists_cons_of_ne_nil hleft
      rw [hcons] at hcount
      cases hcount
    · by_contra hpush
      exact sendAll_valid hraw hbroken hpush [] (by rw [h.1 []])

/-- Receiving leaves a channel that has not been opened as it is. -/
theorem recv_unopened {s : SecureByteChannel S} (h : s.channel.pullState = none) (room : ℕ) :
    (s.recv room).2.channel = s.channel := by
  rcases s.refusing_or_receiving with hrefusing | ⟨raw, hraw, hbroken⟩
  · rw [recv_refused hrefusing]
  · by_cases hleft : s.leftover = []
    · rw [(recv_drained hraw hbroken hleft room).2.2.2.1, (incoming_unopened h _ _).2.1]
    · rw [(recv_leftover hraw hbroken hleft room).2.2.2.1]

/-- A channel that has been made stays so. -/
theorem pushState_sendAll {s : SecureByteChannel S} (h : s.channel.pushState ≠ none)
    (data : Bytes) : (s.sendAll data).2.channel.pushState ≠ none := by
  obtain ⟨push, hpush⟩ := Option.ne_none_iff_exists'.mp h
  unfold SecureByteChannel.sendAll
  cases hraw : s.raw with
  | none => exact h
  | some raw =>
      by_cases hrefused : (!s.channel.valid || s.broken) = true
      · simp only [if_pos hrefused]
        exact h
      · simp only [if_neg hrefused, SecureChannel.encrypt, hpush, Option.map_some]
        rintro ⟨⟩

/-- The order is kept by every call. -/
theorem InOrder.act {s : SecureByteChannel S} (h : s.InOrder) (op : Op) : (s.act op).2.InOrder := by
  intro hpush
  cases op with
  | recv room =>
      have hpull := h ((pushState_recv s room).symm.trans hpush)
      show (s.recv room).2.channel.pullState = none
      rw [recv_unopened hpull, hpull]
  | sendAll data =>
      show (s.sendAll data).2.channel.pullState = none
      rw [(sendAll_receiving s data).2.2.1]
      exact h (by_contra fun hmade => pushState_sendAll hmade data hpush)

end SecureByteChannel

/-! ## The life of an object -/

open SecureByteChannel (Op)

/-- An object, and what it should behave like: a new object on which only the most recent
`Establish` has been made, if that has returned `Ok`, and what has been called since. -/
structure Endpoint (S : Sodium) where
  object : SecureByteChannel S := {}
  session : Option (SecureByteChannel S) := none

namespace Endpoint

/-- A call on the object; one of `Establish` comes with the store as it is then. -/
inductive Call (S : Sodium) (σ : Type) where
  | establish (a : Attempt S) (st : σ)
  | op (op : Op)

/-- The calls of `Establish` share the store's functions. -/
def step (store : IdentityStore σ) (e : Endpoint S) : Call S σ → Endpoint S
  | .establish a st =>
      { object := (a.establishOn e.object store st).self
        session := if (a.establishOn e.object store st).result = .ok then
          some (a.establishOn {} store st).self else none }
  | .op op => { object := (e.object.act op).2, session := e.session.map fun t => (t.act op).2 }

/-- The object behaves as it should at the next call. -/
def FailsClosed (e : Endpoint S) : Prop :=
  match e.session with
  | none => e.object.Closed
  | some t => ∀ op, (e.object.act op).1 = (t.act op).1 ∧
      (e.object.act op).2.raw = (t.act op).2.raw

/-- A call of `Establish` that can be completed is made on an object with nothing left over
and not broken; and one that cannot, on a broken object, or on one with nothing left over and
no channel when the call ends. -/
def Clean (store : IdentityStore σ) (e : Endpoint S) : Call S σ → Prop
  | .establish a st =>
      if (a.opened store st).isSome then e.object.leftover = [] ∧ e.object.broken = false
      else e.object.broken = true ∨
        (e.object.leftover = [] ∧ (a.channelAfter store st e.object.channel).valid = false)
  | .op _ => True

instance (store : IdentityStore σ) (e : Endpoint S) : ∀ call, Decidable (e.Clean store call)
  | .establish a st => inferInstanceAs (Decidable (
      if (a.opened store st).isSome then e.object.leftover = [] ∧ e.object.broken = false
      else e.object.broken = true ∨
        (e.object.leftover = [] ∧ (a.channelAfter store st e.object.channel).valid = false)))
  | .op _ => inferInstanceAs (Decidable True)

/-- The invariant: the object is like the new one, or shut. -/
structure Anew (e : Endpoint S) : Prop where
  inOrder : e.object.InOrder
  shut : e.session = none → e.object.Shut
  alike : ∀ t, e.session = some t → e.object.Alike t

theorem anew_start : Anew ({} : Endpoint S) where
  inOrder _ := rfl
  shut _ := Or.inl (Or.inl rfl)
  alike _ h := by cases h

theorem Anew.failsClosed {e : Endpoint S} (h : e.Anew) : e.FailsClosed := by
  unfold FailsClosed
  cases hsession : e.session with
  | none => exact (h.shut hsession).closed h.inOrder
  | some t =>
      intro op
      obtain ⟨hreply, halike⟩ := (h.alike t hsession).act op
      exact ⟨hreply, halike.raw⟩

/-- A stream that is opened is opened with keys, on a channel that has been made. -/
theorem pushState_of_opened {a : Attempt S} {store : IdentityStore σ} {st : σ}
    (h : (a.opened store st).isSome) (channel : SecureChannel S) :
    (a.channelAfter store st channel).pushState ≠ none ∧
      a.channelAfter store st channel = a.channelAfter store st {} := by
  unfold Attempt.opened at h
  cases hpinned : a.pinned store st with
  | none =>
      rw [hpinned] at h
      cases h
  | some x =>
      obtain ⟨p, line⟩ := x
      simp only [Attempt.channelAfter, hpinned]
      refine ⟨?_, trivial⟩
      cases hkeys : p.sessionKeys with
      | none =>
          simp only [hpinned, hkeys, Option.bind_some, Option.bind_none] at h
          cases h
      | some keys =>
          simp only [Pairing.makeChannel, hkeys, SecureChannel.make]
          rintro ⟨⟩

/-- The channel that a call leaves is in order. -/
theorem inOrder_establishOn {s : SecureByteChannel S} (h : s.InOrder) (a : Attempt S)
    (store : IdentityStore σ) (st : σ) : (a.establishOn s store st).self.InOrder := by
  obtain ⟨raw, hleaves⟩ := a.establishOn_spec store st
  rw [(hleaves s).self]
  intro hpush
  by_cases hopened : (a.opened store st).isSome
  · exact absurd hpush (pushState_of_opened hopened s.channel).1
  · have hnone := Option.not_isSome_iff_eq_none.mp hopened
    simp only [Attempt.channelAfter] at hpush ⊢
    split
    · rename_i hpinned
      rw [hpinned] at hpush
      exact h hpush
    · exact hnone

/-- **One call keeps it**, if it leaves the object clean. -/
theorem Anew.step {store : IdentityStore σ} {e : Endpoint S} (h : e.Anew) {call : Call S σ}
    (hclean : e.Clean store call) : (e.step store call).Anew := by
  cases call with
  | establish a st =>
      obtain ⟨raw, hleaves⟩ := a.establishOn_spec store st
      have hself := (hleaves e.object).self
      by_cases hopened : (a.opened store st).isSome
      · simp only [Clean, if_pos hopened] at hclean
        obtain ⟨hleft, hbroken⟩ := hclean
        refine ⟨inOrder_establishOn h.inOrder a store st, fun hnone => ?_, fun t ht => ?_⟩
        · rw [Endpoint.step, if_pos ((hleaves e.object).result.mpr hopened)] at hnone
          cases hnone
        · rw [Endpoint.step, if_pos ((hleaves e.object).result.mpr hopened)] at ht
          obtain rfl := Option.some.inj ht
          show (a.establishOn e.object store st).self.Alike (a.establishOn {} store st).self
          rw [hself, (hleaves {}).self]
          exact ⟨rfl, (pushState_of_opened hopened e.object.channel).2, hleft, hbroken⟩
      · simp only [Clean, if_neg hopened] at hclean
        have hfailed : ¬ (a.establishOn e.object store st).result = .ok :=
          fun hok => hopened ((hleaves e.object).result.mp hok)
        refine ⟨inOrder_establishOn h.inOrder a store st, fun _ => ?_, fun t ht => ?_⟩
        · show (a.establishOn e.object store st).self.Shut
          rw [hself]
          rcases hclean with hbroken | ⟨hleft, hvalid⟩
          · exact Or.inl (Or.inr hbroken)
          · exact Or.inr ⟨hleft, Option.not_isSome_iff_eq_none.mp (by
              rw [← SecureChannel.valid, hvalid]; exact Bool.false_ne_true)⟩
        · rw [Endpoint.step, if_neg hfailed] at ht
          cases ht
  | op op =>
      refine ⟨h.inOrder.act op, fun hnone => ?_, fun t ht => ?_⟩
      · have hsession := Option.map_eq_none_iff.mp hnone
        have hshut := h.shut hsession
        cases op with
        | recv room => exact (hshut.recv h.inOrder room).2
        | sendAll data =>
            show (e.object.sendAll data).2.Shut
            rw [SecureByteChannel.sendAll_mute hshut.mute]
            exact hshut
      · obtain ⟨t', hsession, rfl⟩ := Option.map_eq_some_iff.mp ht
        exact ((h.alike t' hsession).act op).2

/-! ### And only then -/

/-- Plaintext that comes in has been taken off the stream. -/
theorem incoming_plain_lt {channel : SecureChannel S} {fuel : ℕ} {stream bytes : Bytes}
    (h : (SecureByteChannel.incoming fuel channel stream).1 = .plain bytes) :
    (SecureByteChannel.incoming fuel channel stream).2.2.length < stream.length := by
  induction fuel generalizing channel stream with
  | zero => cases h
  | succ fuel ih =>
      unfold SecureByteChannel.incoming at h ⊢
      cases hscan : scanRecord stream with
      | more =>
          simp only [hscan] at h
          rcases SecureByteChannel.cutShort_cases stream with hcut | hcut | hcut
          all_goals
            rw [hcut] at h
            cases h
      | fail e =>
          simp only [hscan] at h
          cases h
      | item record k =>
          have hpos := recordGrammar.used_pos hscan
          have hle := recordGrammar.used_le hscan
          have hdrop : (stream.drop k).length < stream.length := by
            rw [List.length_drop]
            omega
          cases hdecrypt : channel.decrypt record with
          | none =>
              simp only [hscan, hdecrypt] at h
              cases h
          | some r =>
              obtain ⟨plain, channel'⟩ := r
              simp only [hscan, hdecrypt] at h ⊢
              split at h
              · rw [if_pos ‹_›]
                exact (ih h).trans hdrop
              · rw [if_neg ‹_›]
                exact hdrop

/-- A `Recv` that returns plaintext, with nothing left over, has taken it off the stream. -/
theorem recv_reads {s : SecureByteChannel S} {raw : ByteChannel} (hraw : s.raw = some raw)
    (hbroken : s.broken = false) (hleft : s.leftover = []) {room : ℕ} {bytes : Bytes}
    (hreply : (s.recv room).1 = .data bytes) : (s.recv room).2.raw ≠ some raw := by
  obtain ⟨hreceived, -, -, -, inbox, hraw', hrest, -⟩ :=
    SecureByteChannel.recv_drained hraw hbroken hleft room
  intro hsame
  rw [hreceived] at hreply
  cases houtcome : (SecureByteChannel.incoming ((arriving raw.inbox).length + 1) s.channel
      (arriving raw.inbox)).1 with
  | plain plain =>
      have hlt := incoming_plain_lt houtcome
      rw [← (hrest plain houtcome).1] at hlt
      have hinbox : inbox = raw.inbox := by
        rw [hraw'] at hsame
        exact congrArg ByteChannel.inbox (Option.some.inj hsame)
      rw [hinbox] at hlt
      exact lt_irrefl _ hlt
  | ended =>
      rw [houtcome] at hreply
      cases hreply
  | fault f =>
      rw [houtcome] at hreply
      cases f with
      | badTag | badLength | cutHeader | cutBody => cases hreply

/-- A call that fails closed leaves it clean. -/
theorem clean_of_failsClosed {store : IdentityStore σ} {e : Endpoint S} (h : e.object.InOrder)
    (call : Call S σ) (hcloses : (e.step store call).FailsClosed) : e.Clean store call := by
  cases call with
  | op op => trivial
  | establish a st =>
  obtain ⟨raw, hleaves⟩ := a.establishOn_spec store st
  have hself := (hleaves e.object).self
  have hraw : (a.establishOn e.object store st).self.raw = some raw := by rw [hself]
  by_cases hopened : (a.opened store st).isSome
  · simp only [Clean, if_pos hopened]
    simp only [FailsClosed, Endpoint.step, if_pos ((hleaves e.object).result.mpr hopened)]
      at hcloses
    -- the new object has the same raw channel, and leaves it in another state
    have hnew := (hleaves {}).self
    have hraw' : (a.establishOn {} store st).self.raw = some raw := by rw [hnew]
    have hbroken' : (a.establishOn {} store st).self.broken = false := by rw [hnew]
    have hbroken : e.object.broken = false := by
      refine Bool.eq_false_of_not_eq_true fun hbroken => ?_
      have hrefusing : (a.establishOn e.object store st).self.Refusing := by
        rw [hself]
        exact Or.inr hbroken
      have hsame := (hcloses (.sendAll [])).2
      simp only [SecureByteChannel.act, SecureByteChannel.sendAll_refused hrefusing] at hsame
      refine SecureByteChannel.sendAll_valid hraw' hbroken' ?_ [] (hsame.symm.trans
        (hraw.trans hraw'.symm))
      rw [hnew]
      exact (pushState_of_opened hopened _).1
    refine ⟨by_contra fun hleft => ?_, hbroken⟩
    have hleft' : (a.establishOn e.object store st).self.leftover ≠ [] := by
      rw [hself]
      exact hleft
    obtain ⟨hreply, -, -, -, hkept⟩ := SecureByteChannel.recv_leftover hraw
      (by rw [hself]; exact hbroken) hleft' 1
    obtain ⟨hsame, hsameRaw⟩ := hcloses (.recv 1)
    simp only [SecureByteChannel.act, hreply, hkept] at hsame hsameRaw
    have hdata := (SecureByteChannel.Reply.received.inj hsame).symm
    exact recv_reads hraw' hbroken' (by rw [hnew]; rfl) hdata hsameRaw.symm
  · simp only [Clean, if_neg hopened]
    have hfailed : ¬ (a.establishOn e.object store st).result = .ok :=
      fun hok => hopened ((hleaves e.object).result.mp hok)
    simp only [FailsClosed, Endpoint.step, if_neg hfailed] at hcloses
    have hshut := (SecureByteChannel.closed_iff (inOrder_establishOn h a store st)).mp hcloses
    rw [hself] at hshut
    rcases hshut with (hnone | hbroken) | ⟨hleft, hpush⟩
    · cases hnone
    · exact Or.inl hbroken
    · refine Or.inr ⟨hleft, ?_⟩
      rw [SecureChannel.valid]
      exact Option.isSome_eq_false_iff.mpr (Option.isNone_iff_eq_none.mpr hpush)

/-- **Each `Establish` begins anew**, after every call of a sequence, exactly when each that can
be completed is made on an object with nothing left over and not broken, and each that cannot
on one that is broken, or has nothing left over and no channel when the call ends. -/
theorem begins_anew_iff (store : IdentityStore σ) (calls : List (Call S σ)) :
    (∀ front back, calls = front ++ back →
      (Runs.exec (step store) ({} : Endpoint S) front).FailsClosed) ↔
      Runs.Admits (step store) (Clean store) ({} : Endpoint S) calls := by
  constructor
  · intro h
    have hinOrder : ∀ (e : Endpoint S) (call : Call S σ), e.object.InOrder →
        (e.step store call).object.InOrder := by
      intro e call horder
      cases call with
      | establish a st => exact inOrder_establishOn horder a store st
      | op op => exact horder.act op
    exact Runs.admits_of_states (Q := fun e => e.object.InOrder)
      (fun _ call horder hcloses => clean_of_failsClosed horder call hcloses) hinOrder
      (fun _ => rfl) h
  · rintro h front back rfl
    have hanew := Runs.exec_invariant (P := Anew) (fun _ _ h hclean => h.step hclean) anew_start
      h.front
    exact hanew.failsClosed

/-- A peer that goes away before its header leaves a channel that sends; and what was left over
of one session is returned in the next. -/
theorem begins_anew_fails :
    let x := Identity.ofSecret Sodium.paper (Sodium.arrOf 64 (5 * 2 ^ 256))
    let y := Identity.ofSecret Sodium.paper (Sodium.arrOf 64 (7 * 2 ^ 256))
    let e := KxKeypair.ofSecret Sodium.paper (Sodium.arrOf 32 3)
    let f := KxKeypair.ofSecret Sodium.paper (Sodium.arrOf 32 4)
    let header : ByteArr headerBytes := .replicate headerBytes 6
    let peer : Pairing Sodium.paper := ⟨y, .client, f, e.pk, x.signPk, true, false⟩
    let record := (Sodium.paper.secretstream.push (Sodium.paper.initPush f.pk header) [1, 2]).1
    let rounds := recordWire peer.hello ++ recordWire peer.confirm
    let call (stream : Bytes) : Call Sodium.paper (Option PublicKey × List Bool) :=
      .establish { raw := { inbox := [.data stream] }, me := x, role := .server, eph := e, header }
        (none, [])
    let whole := call (rounds ++ recordWire header.toList ++ recordWire record)
    let run := Runs.exec (step IdentityStore.scripted) {}
    ¬ (run [call rounds]).FailsClosed ∧ ¬ (run [whole, .op (.recv 1), whole]).FailsClosed := by
  intro x y e f header peer record rounds call whole run
  constructor
  · intro h
    have hclean : Clean IdentityStore.scripted {} (call rounds) :=
      clean_of_failsClosed (fun _ => rfl) (call rounds) h
    exact absurd hclean (by decide +kernel)
  · intro h
    have horder : (run [whole, .op (.recv 1)]).object.InOrder := by
      intro hpush
      exact absurd (Option.isNone_iff_eq_none.mpr hpush) (by decide +kernel)
    have hclean := clean_of_failsClosed horder whole h
    exact absurd hclean (by decide +kernel)

end Endpoint

end TetherDisplay.Crypto
