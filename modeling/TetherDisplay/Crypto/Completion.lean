import TetherDisplay.Crypto.FirstUse

/-!
# When a handshake completes

`Establish` has nine ways to end early.  How far it comes is decided by what it is called
with: which of its messages the raw channel takes, what the stream holds, what the store
does.  The three points that matter are told from these: the peer's confirmation is accepted
(`accepted`), the peer is pinned (`pinned`), the peer's header opens the stream (`opened`).

`establishOn_spec` says what a call leaves behind for each.  What the object has been used for
before has no part in how the call ends, and stays where the call does not come to it.
-/

namespace TetherDisplay.Crypto

open TetherDisplay.Core (ByteChannel arriving)

/-! ## Rounds -/

/-- What decides how a handshake goes on over a raw channel: the sends that are to come, and
the stream. -/
abbrev Line := List (Option ℕ) × Bytes

/-- What a raw channel has ahead of it. -/
def ahead (c : ByteChannel) : Line := (c.sends, arriving c.inbox)

/-- A message goes out and one comes in. -/
def round (line : Line) : Option (Bytes × Line) :=
  if ∀ o ∈ line.1.take 2, o = none then
    match scanRecord line.2 with
    | .item record k => some (record, line.1.drop 2, line.2.drop k)
    | _ => none
  else none

/-- `SendAll` works where the channel lets it. -/
theorem sendAll_spec (c : ByteChannel) (data : Bytes) :
    ((c.sendAll data).1 = true ↔ ∀ o ∈ c.sends.take 1, o = none) ∧
      (c.sendAll data).2.sends = c.sends.drop 1 := by
  obtain ⟨inbox, sends, outbox⟩ := c
  cases sends with
  | nil => exact ⟨by simp [ByteChannel.sendAll], rfl⟩
  | cons o sends =>
      cases o with
      | none => exact ⟨by simp [ByteChannel.sendAll], rfl⟩
      | some n => exact ⟨by simp [ByteChannel.sendAll], rfl⟩

/-- `WriteFramed` makes two sends. -/
theorem writeFramed_spec (c : ByteChannel) (payload : Bytes) :
    ((writeFramed c payload).1 = true ↔ ∀ o ∈ c.sends.take 2, o = none) ∧
      ((writeFramed c payload).1 = true → (writeFramed c payload).2.sends = c.sends.drop 2) := by
  have hboth : (∀ o ∈ c.sends.take 2, o = none) ↔
      (∀ o ∈ c.sends.take 1, o = none) ∧ ∀ o ∈ (c.sends.drop 1).take 1, o = none := by
    rw [show 2 = 1 + 1 from rfl, List.take_add]
    exact List.forall_mem_append
  obtain ⟨hheader, hrest⟩ := sendAll_spec c (lengthHeader (UInt32.ofNat payload.length))
  unfold writeFramed
  rcases hsend : c.sendAll (lengthHeader (UInt32.ofNat payload.length)) with ⟨sent, c'⟩
  rw [hsend] at hheader hrest
  rw [hboth, ← hheader]
  cases sent with
  | false => exact ⟨⟨(by rintro ⟨⟩), fun h => absurd h.1 Bool.false_ne_true⟩, (by rintro ⟨⟩)⟩
  | true =>
      obtain ⟨hpayload, hrest'⟩ := sendAll_spec c' payload
      simp only at hrest
      rw [hrest] at hpayload hrest'
      refine ⟨hpayload.trans ⟨fun h => ⟨rfl, h⟩, fun h => h.2⟩, fun _ => ?_⟩
      rw [hrest', List.drop_drop]

/-- **One round**, as it is in the source. -/
theorem round_spec (c : ByteChannel) (own : Bytes) :
    (round (ahead c) = none ∧
      ((∃ c', writeFramed c own = (false, c')) ∨
        ∃ c₁ c', writeFramed c own = (true, c₁) ∧ readFramed c₁ = (none, c'))) ∨
      ∃ record c₁ c₂, round (ahead c) = some (record, ahead c₂) ∧
        writeFramed c own = (true, c₁) ∧ readFramed c₁ = (some record, c₂) := by
  obtain ⟨htaken, hsends⟩ := writeFramed_spec c own
  have hinbox := writeFramed_inbox c own
  rcases hwrite : writeFramed c own with ⟨sent, c₁⟩
  rw [hwrite] at htaken hsends hinbox
  cases sent with
  | false =>
      have hrefused : ¬ ∀ o ∈ c.sends.take 2, o = none := fun h => by cases htaken.mpr h
      exact Or.inl ⟨if_neg hrefused, Or.inl ⟨c₁, rfl⟩⟩
  | true =>
      have hround : round (ahead c) = match scanRecord (arriving c.inbox) with
          | .item record k => some (record, c.sends.drop 2, (arriving c.inbox).drop k)
          | _ => none := if_pos (htaken.mp rfl)
      have hread := readFramed_scan c₁
      simp only at hinbox hsends
      rw [hinbox] at hread
      rw [hround]
      cases hscan : scanRecord (arriving c.inbox) with
      | more =>
          rw [hscan] at hread
          exact Or.inl ⟨rfl, Or.inr ⟨c₁, _, rfl, hread⟩⟩
      | fail e =>
          rw [hscan] at hread
          obtain ⟨inbox, hframed, -, -⟩ := hread
          exact Or.inl ⟨rfl, Or.inr ⟨c₁, _, rfl, hframed⟩⟩
      | item record k =>
          rw [hscan] at hread
          obtain ⟨inbox, hframed, harriving, -⟩ := hread
          refine Or.inr ⟨record, c₁, { c₁ with inbox }, ?_, rfl, hframed⟩
          show some _ = some (record, c₁.sends, arriving inbox)
          rw [hsends trivial, harriving]

/-! ## The three points -/

namespace Attempt

variable {S : Sodium} {σ : Type}

/-- The call, on an object that may have been used before. -/
def establishOn (s : SecureByteChannel S) (a : Attempt S) (store : IdentityStore σ) (st : σ) :
    SecureByteChannel.Established S σ :=
  s.establish a.raw a.me a.role store st a.eph a.header

/-- The pairing that the peer's confirmation is accepted by, and what is ahead then. -/
def accepted (store : IdentityStore σ) (st : σ) (a : Attempt S) : Option (Pairing S × Line) :=
  (round (ahead a.raw)).bind fun (peerHello, line) =>
    (a.pairing.consumePeerHello peerHello).bind fun p =>
      (round line).bind fun (peerConfirm, line) =>
        if (p.consumePeerConfirm peerConfirm (store.loadPeer st)).1 = .ok then some (p, line)
        else none

/-- The same when the peer is pinned, before the call or by it. -/
def pinned (store : IdentityStore σ) (st : σ) (a : Attempt S) : Option (Pairing S × Line) :=
  (a.accepted store st).filter fun (p, _) =>
    (store.loadPeer st).isSome || (store.savePeer st p.peerIdent).1

/-- The stream that the peer's header opens. -/
def opened (store : IdentityStore σ) (st : σ) (a : Attempt S) : Option S.secretstream.Pull :=
  (a.pinned store st).bind fun (p, line) =>
    p.sessionKeys.bind fun keys =>
      (round line).bind fun (peerHeader, _) =>
        if h : peerHeader.length = headerBytes then S.initPull ⟨peerHeader, h⟩ keys.rx else none

/-- What the call leaves of the store. -/
def storeAfter (store : IdentityStore σ) (st : σ) (a : Attempt S) : σ :=
  match a.accepted store st with
  | none => st
  | some (p, _) => if store.loadPeer st = none then (store.savePeer st p.peerIdent).2 else st

/-- What the call leaves as the channel of an object that has had `channel`. -/
def channelAfter (store : IdentityStore σ) (st : σ) (a : Attempt S) (channel : SecureChannel S) :
    SecureChannel S :=
  match a.pinned store st with
  | none => channel
  | some (p, _) => { p.makeChannel a.header with pullState := a.opened store st }

/-- What a call leaves behind, over all objects. -/
structure Leaves (a : Attempt S) (store : IdentityStore σ) (st : σ) (raw : ByteChannel)
    (s : SecureByteChannel S) : Prop where
  result : (a.establishOn s store st).result = .ok ↔ (a.opened store st).isSome
  self : (a.establishOn s store st).self =
    { s with raw := some raw, channel := a.channelAfter store st s.channel }
  store : (a.establishOn s store st).store = a.storeAfter store st

variable {a : Attempt S} {store : IdentityStore σ} {st : σ}

theorem failed_iff {α : Type} {r : HandshakeResult} (hfailed : r ≠ .ok) :
    r = .ok ↔ (none : Option α).isSome = true :=
  iff_of_false hfailed Bool.false_ne_true

/-- The call ends before the peer's confirmation is accepted. -/
theorem leaves_of_unaccepted {raw : ByteChannel} {s : SecureByteChannel S}
    {r : HandshakeResult} (h : a.accepted store st = none) (hresult : r ≠ .ok)
    (heq : ∃ p, a.establishOn s store st = ⟨r, { s with raw := some raw }, st, none, p⟩) :
    a.Leaves store st raw s := by
  obtain ⟨p, heq⟩ := heq
  have hpinned : a.pinned store st = none := by simp [pinned, h]
  have hopened : a.opened store st = none := by simp [opened, hpinned]
  refine ⟨?_, ?_, ?_⟩
  · rw [heq, hopened]
    exact failed_iff hresult
  · rw [heq, channelAfter, hpinned]
  · rw [heq, storeAfter, h]

/-- The end of the call, once the peer is pinned. -/
theorem exchange_spec {p : Pairing S} {raw : ByteChannel}
    (h : a.pinned store st = some (p, ahead raw)) (hvalid : p.sessionKeys ≠ none) :
    ∃ raw', ∀ s : SecureByteChannel S,
      ((s.exchangeHeaders raw (p.makeChannel a.header)).1 = .ok ↔
        (a.opened store st).isSome) ∧
      (s.exchangeHeaders raw (p.makeChannel a.header)).2 =
        { s with raw := some raw', channel := a.channelAfter store st s.channel } := by
  obtain ⟨keys, hkeys⟩ := Option.ne_none_iff_exists'.mp hvalid
  have hchannel : p.makeChannel a.header = SecureChannel.make keys.tx keys.rx a.header := by
    rw [Pairing.makeChannel, hkeys]
  have hopened : a.opened store st = (round (ahead raw)).bind fun (peerHeader, _) =>
      if h : peerHeader.length = headerBytes then S.initPull ⟨peerHeader, h⟩ keys.rx
      else none := by
    simp only [opened, h, hkeys, Option.bind_some]
  have hafter : ∀ channel, a.channelAfter store st channel =
      { p.makeChannel a.header with pullState := a.opened store st } := by
    intro channel
    rw [channelAfter, h]
  have hunopened : ({ p.makeChannel a.header with pullState := none } : SecureChannel S) =
      p.makeChannel a.header := by
    rw [hchannel]
    rfl
  rcases round_spec raw (p.makeChannel a.header).txHeader with
    ⟨hround, hfail⟩ | ⟨peerHeader, c₁, c₂, hround, hwrite, hread⟩
  · have hnone : a.opened store st = none := by rw [hopened, hround]; rfl
    rcases hfail with ⟨c', hwrite⟩ | ⟨c₁, c', hwrite, hread⟩
    · refine ⟨c', fun s => ?_⟩
      simp only [SecureByteChannel.exchangeHeaders, hwrite, hafter, hnone, hunopened]
      exact ⟨failed_iff (by decide), trivial⟩
    · refine ⟨c', fun s => ?_⟩
      simp only [SecureByteChannel.exchangeHeaders, hwrite, hread, hafter, hnone, hunopened]
      exact ⟨failed_iff (by decide), trivial⟩
  · refine ⟨c₂, fun s => ?_⟩
    rw [hround, Option.bind_some] at hopened
    have hinit : (p.makeChannel a.header).initRx peerHeader =
        (a.opened store st).map fun pull => { p.makeChannel a.header with pullState := some pull }
        := by
      rw [SecureChannel.initRx, hchannel]
      by_cases hlength : peerHeader.length = headerBytes
      · simp only [dif_pos hlength] at hopened ⊢
        rw [hopened]
        rfl
      · simp only [dif_neg hlength] at hopened ⊢
        rw [hopened]
        rfl
    simp only [SecureByteChannel.exchangeHeaders, hwrite, hread, hafter, hinit]
    cases hpull : a.opened store st with
    | none =>
        simp only [Option.map_none, hunopened]
        exact ⟨failed_iff (by decide), trivial⟩
    | some pull => exact ⟨⟨fun _ => rfl, fun _ => rfl⟩, rfl⟩

/-- The end of the call, from a confirmation that is accepted. -/
theorem finishEstablish_leaves {p : Pairing S} {raw : ByteChannel}
    (h : a.accepted store st = some (p, ahead raw)) :
    ∃ raw', ∀ s : SecureByteChannel S,
      let e := s.finishEstablish store st (store.loadPeer st) { p with confirmed := true } raw
        a.header
      (e.result = .ok ↔ (a.opened store st).isSome) ∧
        e.self = { s with raw := some raw', channel := a.channelAfter store st s.channel } ∧
        e.store = a.storeAfter store st := by
  have hstore : a.storeAfter store st =
      if store.loadPeer st = none then (store.savePeer st p.peerIdent).2 else st := by
    rw [storeAfter, h]
  have hpinned : a.pinned store st =
      if (store.loadPeer st).isSome || (store.savePeer st p.peerIdent).1 then
        some (p, ahead raw) else none := by
    rw [pinned, h]
    rfl
  -- once the peer is pinned, the channel is made and the headers are exchanged
  have hchannel : a.pinned store st = some (p, ahead raw) → ∀ st' saved,
      ∃ raw', ∀ s : SecureByteChannel S,
        let e : SecureByteChannel.Established S σ :=
          if !(p.makeChannel a.header).valid then
            ⟨.protocol, { s with raw := some raw, channel := p.makeChannel a.header }, st', saved,
              { p with confirmed := true }⟩
          else
            let exchanged := s.exchangeHeaders raw (p.makeChannel a.header)
            ⟨exchanged.1, exchanged.2, st', saved, { p with confirmed := true }⟩
        (e.result = .ok ↔ (a.opened store st).isSome) ∧
          e.self = { s with raw := some raw', channel := a.channelAfter store st s.channel } ∧
          e.store = st' := by
    intro hpin st' saved
    cases hkeys : p.sessionKeys with
    | none =>
        have hmake : p.makeChannel a.header = {} := by rw [Pairing.makeChannel, hkeys]
        have hopened : a.opened store st = none := by simp [opened, hpin, hkeys]
        refine ⟨raw, fun s => ?_⟩
        simp only [channelAfter, hpin, hopened, hmake]
        exact ⟨failed_iff (r := .protocol) (by decide), rfl, rfl⟩
    | some keys =>
        have hvalid : (p.makeChannel a.header).valid = true := by
          rw [Pairing.makeChannel, hkeys]
          rfl
        obtain ⟨raw', hexchange⟩ := exchange_spec hpin (by rw [hkeys]; rintro ⟨⟩)
        refine ⟨raw', fun s => ?_⟩
        simp only [hvalid, Bool.not_true, Bool.false_eq_true, if_false]
        exact ⟨(hexchange s).1, (hexchange s).2, trivial⟩
  have hmade : ({ p with confirmed := true } : Pairing S).makeChannel a.header =
      p.makeChannel a.header := rfl
  cases hload : store.loadPeer st with
  | some pin =>
      rw [hload] at hpinned hstore
      obtain ⟨raw', hleaves⟩ := hchannel hpinned st none
      refine ⟨raw', fun s => ?_⟩
      rw [hstore]
      exact hleaves s
  | none =>
      rw [hload] at hpinned hstore
      rcases hsave : store.savePeer st p.peerIdent with ⟨persisted, st'⟩
      rw [hsave] at hpinned hstore
      cases persisted with
      | false =>
          have hopened : a.opened store st = none := by rw [opened, hpinned]; rfl
          refine ⟨raw, fun s => ?_⟩
          simp only [SecureByteChannel.finishEstablish, hsave, if_true, channelAfter, hpinned,
            hopened, hstore]
          exact ⟨failed_iff (r := .ioError) (by decide), rfl, rfl⟩
      | true =>
          obtain ⟨raw', hleaves⟩ := hchannel hpinned st' (some p.peerIdent)
          refine ⟨raw', fun s => ?_⟩
          have hends := hleaves s
          rw [hstore]
          simp only [SecureByteChannel.finishEstablish, hsave, if_true, hmade] at hends ⊢
          exact hends

/-- **What a call of `Establish` comes to**, on whatever object. -/
theorem establishOn_spec (a : Attempt S) (store : IdentityStore σ) (st : σ) :
    ∃ raw, ∀ s, a.Leaves store st raw s := by
  have hstart : ({ me := a.me, role := a.role, eph := a.eph } : Pairing S) = a.pairing := rfl
  -- Round 1.
  rcases round_spec a.raw a.pairing.hello with
    ⟨hround, hfail⟩ | ⟨peerHello, c₁, c₂, hround, hwrite, hread⟩
  · have haccepted : a.accepted store st = none := by rw [accepted, hround]; rfl
    rcases hfail with ⟨c', hwrite⟩ | ⟨c₁, c', hwrite, hread⟩
    · refine ⟨c', fun s => leaves_of_unaccepted haccepted (r := .ioError) (by decide)
        ⟨a.pairing, ?_⟩⟩
      simp only [establishOn, SecureByteChannel.establish, hstart, hwrite]
    · refine ⟨c', fun s => leaves_of_unaccepted haccepted (r := .ioError) (by decide)
        ⟨a.pairing, ?_⟩⟩
      simp only [establishOn, SecureByteChannel.establish, hstart, hwrite, hread]
  cases hhello : a.pairing.consumePeerHello peerHello with
  | none =>
      have haccepted : a.accepted store st = none := by
        simp only [accepted, hround, Option.bind_some, hhello, Option.bind_none]
      refine ⟨c₂, fun s => leaves_of_unaccepted haccepted (r := .protocol) (by decide)
        ⟨a.pairing, ?_⟩⟩
      simp only [establishOn, SecureByteChannel.establish, hstart, hwrite, hread, hhello]
  | some p =>
  -- Round 2.
  rcases round_spec c₂ p.confirm with
    ⟨hround', hfail⟩ | ⟨peerConfirm, c₃, c₄, hround', hwrite', hread'⟩
  · have haccepted : a.accepted store st = none := by
      simp only [accepted, hround, Option.bind_some, hhello, hround', Option.bind_none]
    rcases hfail with ⟨c', hwrite'⟩ | ⟨c₃, c', hwrite', hread'⟩
    · refine ⟨c', fun s => leaves_of_unaccepted haccepted (r := .ioError) (by decide) ⟨p, ?_⟩⟩
      simp only [establishOn, SecureByteChannel.establish, hstart, hwrite, hread, hhello, hwrite']
    · refine ⟨c', fun s => leaves_of_unaccepted haccepted (r := .ioError) (by decide) ⟨p, ?_⟩⟩
      simp only [establishOn, SecureByteChannel.establish, hstart, hwrite, hread, hhello, hwrite',
        hread']
  rcases hverdict : p.consumePeerConfirm peerConfirm (store.loadPeer st) with ⟨verdict, p'⟩
  have haccepted : a.accepted store st = if verdict = .ok then some (p, ahead c₄) else none := by
    simp only [accepted, hround, Option.bind_some, hhello, hround', hverdict]
  have hrefused : verdict ≠ .ok → a.accepted store st = none := fun h => haccepted.trans (if_neg h)
  cases verdict with
  | identityMismatch =>
      refine ⟨c₄, fun s => leaves_of_unaccepted (hrefused (by decide)) (r := .peerRejected)
        (by decide) ⟨p', ?_⟩⟩
      simp only [establishOn, SecureByteChannel.establish, hstart, hwrite, hread, hhello, hwrite',
        hread', hverdict]
  | badSignature =>
      refine ⟨c₄, fun s => leaves_of_unaccepted (hrefused (by decide)) (r := .badSignature)
        (by decide) ⟨p', ?_⟩⟩
      simp only [establishOn, SecureByteChannel.establish, hstart, hwrite, hread, hhello, hwrite',
        hread', hverdict]
  | protocol =>
      refine ⟨c₄, fun s => leaves_of_unaccepted (hrefused (by decide)) (r := .protocol) (by decide)
        ⟨p', ?_⟩⟩
      simp only [establishOn, SecureByteChannel.establish, hstart, hwrite, hread, hhello, hwrite',
        hread', hverdict]
  | ok =>
      have hok : (p.consumePeerConfirm peerConfirm (store.loadPeer st)).1 = .ok := by rw [hverdict]
      have hmarked := p.consumePeerConfirm_ok_snd hok
      rw [hverdict] at hmarked
      obtain ⟨raw', hleaves⟩ := finishEstablish_leaves (haccepted.trans (if_pos rfl))
      refine ⟨raw', fun s => ?_⟩
      have he : a.establishOn s store st = s.finishEstablish store st (store.loadPeer st)
          { p with confirmed := true } c₄ a.header := by
        rw [← hmarked]
        simp only [establishOn, SecureByteChannel.establish, hstart, hwrite, hread, hhello,
          hwrite', hread', hverdict]
      obtain ⟨hresult, hself, hstore⟩ := hleaves s
      rw [← he] at hresult hself hstore
      exact ⟨hresult, hself, hstore⟩

end Attempt

end TetherDisplay.Crypto
