import TetherDisplay.Crypto.RecordFraming
import TetherDisplay.Crypto.SecureChannel

/-!
# The secure byte channel

`secure_byte_channel.cpp`: `Establish` runs the pairing handshake over a raw channel and
sets up the encrypted one; `SendAll` and `Recv` then carry bytes over it, one encrypted
record a `SendAll`.

`Recv` drains records until one has plaintext.  `incoming` is the same told from the
stream: what the next records come to, for a receiver in a given state.  It tells apart
what `Recv` does not, an orderly end of the stream from a stream that is cut off or has a
bad length (`StreamFault`).  `recv_drained` connects the two, and everything about received
plaintext is proved from it.
-/

namespace TetherDisplay.Crypto

open TetherDisplay.Core (ByteChannel Received arriving beyond)

/-- What `Establish` may come to. -/
inductive HandshakeResult where
  | ok
  | peerRejected
  | badSignature
  | protocol
  | ioError
  deriving DecidableEq, Repr

/-- The part of `IIdentityStore` that `Establish` calls, over a state `σ`. -/
structure IdentityStore (σ : Type) where
  loadPeer : σ → Option PublicKey
  savePeer : σ → PublicKey → Bool × σ

variable (S : Sodium)

/-- The channel over a raw one, once there is one. -/
structure SecureByteChannel where
  raw : Option ByteChannel := none
  channel : SecureChannel S := {}
  rxPlain : Bytes := []
  rxPos : ℕ := 0
  /-- Latched on a decrypt failure. -/
  broken : Bool := false
  rxPos_le : rxPos ≤ rxPlain.length := by first | exact start_le_nil | exact start_le _

namespace SecureByteChannel

variable {S}

/-! ## Establish -/

/-- What a call of `Establish` leaves behind: its result, the object, the store, what it
has passed to `SavePeer` if it has called it, and the pairing it ran. -/
structure Established (S : Sodium) (σ : Type) where
  result : HandshakeResult
  self : SecureByteChannel S
  store : σ
  saved : Option PublicKey
  pairing : Pairing S

variable {σ : Type}

/-- The end of `Establish`: exchange the per-direction secretstream headers. -/
def exchangeHeaders (s : SecureByteChannel S) (raw : ByteChannel) (channel : SecureChannel S) :
    HandshakeResult × SecureByteChannel S :=
  match writeFramed raw channel.txHeader with
  | (false, raw) => (.ioError, { s with raw := some raw, channel })
  | (true, raw) =>
      match readFramed raw with
      | (none, raw) => (.ioError, { s with raw := some raw, channel })
      | (some peerHeader, raw) =>
          match channel.initRx peerHeader with
          | none => (.protocol, { s with raw := some raw, channel })
          | some channel => (.ok, { s with raw := some raw, channel })

/-- From a verified peer on: pin it on first pairing, failing closed if that cannot be
persisted, and set up the channel. -/
def finishEstablish (s : SecureByteChannel S) (store : IdentityStore σ) (st : σ)
    (pinned : Option PublicKey) (pairing : Pairing S) (raw : ByteChannel)
    (header : ByteArr headerBytes) : Established S σ :=
  let (persisted, st, saved) :=
    if pinned = none then
      let (persisted, st) := store.savePeer st pairing.peerIdent
      (persisted, st, some pairing.peerIdent)
    else (true, st, none)
  if !persisted then ⟨.ioError, { s with raw := some raw }, st, saved, pairing⟩
  else
    let channel := pairing.makeChannel header
    if !channel.valid then ⟨.protocol, { s with raw := some raw, channel }, st, saved, pairing⟩
    else
      let (result, self) := exchangeHeaders s raw channel
      ⟨result, self, st, saved, pairing⟩

/-- The ephemeral pair and the stream header are what the library draws.  What was left
over on the object from an earlier channel stays. -/
def establish (s : SecureByteChannel S) (raw : ByteChannel) (me : Identity S) (role : Role)
    (store : IdentityStore σ) (st : σ) (eph : KxKeypair S) (header : ByteArr headerBytes) :
    Established S σ :=
  let pairing : Pairing S := { me, role, eph }
  -- Round 1: exchange Hello.
  match writeFramed raw pairing.hello with
  | (false, raw) => ⟨.ioError, { s with raw := some raw }, st, none, pairing⟩
  | (true, raw) =>
  match readFramed raw with
  | (none, raw) => ⟨.ioError, { s with raw := some raw }, st, none, pairing⟩
  | (some peerHello, raw) =>
  match pairing.consumePeerHello peerHello with
  | none => ⟨.protocol, { s with raw := some raw }, st, none, pairing⟩
  | some pairing =>
  -- Round 2: exchange Confirm.
  match writeFramed raw pairing.confirm with
  | (false, raw) => ⟨.ioError, { s with raw := some raw }, st, none, pairing⟩
  | (true, raw) =>
  match readFramed raw with
  | (none, raw) => ⟨.ioError, { s with raw := some raw }, st, none, pairing⟩
  | (some peerConfirm, raw) =>
  let pinned := store.loadPeer st
  match pairing.consumePeerConfirm peerConfirm pinned with
  | (.identityMismatch, pairing) => ⟨.peerRejected, { s with raw := some raw }, st, none, pairing⟩
  | (.badSignature, pairing) => ⟨.badSignature, { s with raw := some raw }, st, none, pairing⟩
  | (.protocol, pairing) => ⟨.protocol, { s with raw := some raw }, st, none, pairing⟩
  | (.ok, pairing) => finishEstablish s store st pinned pairing raw header

/-- The pairing after the first round on a stream, and what is left of the stream. -/
def greeted (pairing : Pairing S) (stream : Bytes) : Option (Pairing S × Bytes) :=
  match scanRecord stream with
  | .item hello k => (pairing.consumePeerHello hello).map fun p => (p, stream.drop k)
  | _ => none

/-- The pairing after the first round, and the confirmation of the second. -/
def heard (pairing : Pairing S) (stream : Bytes) : Option (Pairing S × Bytes) :=
  match greeted pairing stream with
  | none => none
  | some (pairing, rest) =>
      match scanRecord rest with
      | .item confirm _ => some (pairing, confirm)
      | _ => none

/-- **What `Establish` comes to.**  It fails and has not touched the store, or the stream
held a confirmation that verifies for a peer that may be trusted, and the rest is
`finishEstablish`. -/
theorem establish_cases (s : SecureByteChannel S) (raw : ByteChannel) (me : Identity S)
    (role : Role) (store : IdentityStore σ) (st : σ) (eph : KxKeypair S)
    (header : ByteArr headerBytes) :
    let e := s.establish raw me role store st eph header
    (e.result ≠ .ok ∧ e.store = st ∧ e.saved = none) ∨
      ∃ p confirm raw', heard { me, role, eph } (arriving raw.inbox) = some (p, confirm) ∧
        p.Verifies confirm ∧
        (store.loadPeer st = none ∨ store.loadPeer st = some p.peerIdent) ∧
        e = s.finishEstablish store st (store.loadPeer st) { p with confirmed := true } raw'
          header := by
  intro e
  have hfails : ∀ (result : HandshakeResult) (self : SecureByteChannel S) (p : Pairing S),
      result ≠ .ok → e = ⟨result, self, st, none, p⟩ →
      e.result ≠ .ok ∧ e.store = st ∧ e.saved = none := by
    intro result self p hresult heq
    rw [heq]
    exact ⟨hresult, rfl, rfl⟩
  have he : e = s.establish raw me role store st eph header := rfl
  unfold establish at he
  -- Round 1.
  have hinbox := writeFramed_inbox raw ({ me, role, eph } : Pairing S).hello
  rcases hwrite : writeFramed raw ({ me, role, eph } : Pairing S).hello with ⟨sent, raw₁⟩
  rw [hwrite] at hinbox
  simp only [hwrite] at he
  cases sent with
  | false => exact Or.inl (hfails _ _ _ (by decide) he)
  | true =>
  rcases hread : readFramed raw₁ with ⟨peerHello, raw₂⟩
  simp only [hread] at he
  cases peerHello with
  | none => exact Or.inl (hfails _ _ _ (by decide) he)
  | some peerHello =>
  obtain ⟨k, hscan, harriving⟩ := readFramed_eq_some hread
  rw [hinbox] at hscan harriving
  cases hhello : ({ me, role, eph } : Pairing S).consumePeerHello peerHello with
  | none =>
      simp only [hhello] at he
      exact Or.inl (hfails _ _ _ (by decide) he)
  | some p =>
  simp only [hhello] at he
  -- Round 2.
  have hinbox' := writeFramed_inbox raw₂ p.confirm
  rcases hwrite' : writeFramed raw₂ p.confirm with ⟨sent, raw₃⟩
  rw [hwrite'] at hinbox'
  simp only [hwrite'] at he
  cases sent with
  | false => exact Or.inl (hfails _ _ _ (by decide) he)
  | true =>
  rcases hread' : readFramed raw₃ with ⟨peerConfirm, raw₄⟩
  simp only [hread'] at he
  cases peerConfirm with
  | none => exact Or.inl (hfails _ _ _ (by decide) he)
  | some peerConfirm =>
  obtain ⟨k', hscan', -⟩ := readFramed_eq_some hread'
  rw [hinbox', harriving] at hscan'
  rcases hverdict : p.consumePeerConfirm peerConfirm (store.loadPeer st) with ⟨verdict, p'⟩
  simp only [hverdict] at he
  cases verdict with
  | identityMismatch => exact Or.inl (hfails _ _ _ (by decide) he)
  | badSignature => exact Or.inl (hfails _ _ _ (by decide) he)
  | protocol => exact Or.inl (hfails _ _ _ (by decide) he)
  | ok =>
      have hok : (p.consumePeerConfirm peerConfirm (store.loadPeer st)).1 = .ok := by
        rw [hverdict]
      obtain ⟨-, hpinned, hverifies⟩ := p.consumePeerConfirm_eq_ok hok
      have hmarked := p.consumePeerConfirm_ok_snd hok
      rw [hverdict] at hmarked
      have hheard : heard { me, role, eph } (arriving raw.inbox) = some (p, peerConfirm) := by
        simp only [heard, greeted, hscan, hhello, Option.map_some, hscan']
      refine Or.inr ⟨p, peerConfirm, raw₄, hheard, hverifies, hpinned, ?_⟩
      rw [he]
      exact congrArg (fun q => s.finishEstablish store st (store.loadPeer st) q raw₄ header) hmarked

/-- Nothing has gone wrong on the object, and nothing is left over. -/
def Fresh (s : SecureByteChannel S) : Prop := s.rxPlain.drop s.rxPos = [] ∧ s.broken = false

/-- A channel as the handshake leaves it, for receiving with `pull`. -/
def Opened (s : SecureByteChannel S) (pull : S.secretstream.Pull) : Prop :=
  s.channel.pullState = some pull ∧ s.rxPlain.drop s.rxPos = [] ∧ s.broken = false

/-- `s'` is `s` with the channel that `channel` becomes once it has taken in the header of
the peer. -/
def Carries (s s' : SecureByteChannel S) (channel : SecureChannel S) : Prop :=
  ∃ raw peerHeader channel', channel.initRx peerHeader = some channel' ∧
    s' = { s with raw := some raw, channel := channel' }

/-- The channel of a fresh object opens what comes first. -/
theorem Carries.opened {s s' : SecureByteChannel S} {channel : SecureChannel S}
    (h : s.Carries s' channel) (hfresh : s.Fresh) : ∃ pull, s'.Opened pull := by
  obtain ⟨raw, peerHeader, channel', hinit, rfl⟩ := h
  unfold SecureChannel.initRx at hinit
  split at hinit
  · obtain ⟨pull, -, rfl⟩ := Option.map_eq_some_iff.mp hinit
    exact ⟨pull, rfl, hfresh⟩
  · cases hinit

/-- The headers have been exchanged. -/
theorem exchangeHeaders_carries {s : SecureByteChannel S} {raw : ByteChannel}
    {channel : SecureChannel S} (h : (s.exchangeHeaders raw channel).1 = .ok) :
    s.Carries (s.exchangeHeaders raw channel).2 channel := by
  unfold exchangeHeaders at h ⊢
  rcases hwrite : writeFramed raw channel.txHeader with ⟨sent, raw₁⟩
  simp only [hwrite] at h ⊢
  cases sent with
  | false => cases h
  | true =>
  rcases hread : readFramed raw₁ with ⟨peerHeader, raw₂⟩
  simp only [hread] at h ⊢
  cases peerHeader with
  | none => cases h
  | some peerHeader =>
  cases hinit : channel.initRx peerHeader with
  | none =>
      simp only [hinit] at h
      cases h
  | some channel' =>
      simp only [hinit]
      exact ⟨raw₂, peerHeader, channel', hinit, rfl⟩

/-- **From a verified peer on.**  The store is changed by `SavePeer` only, which is called
when nothing is pinned, and `Ok` is returned only if it has succeeded. -/
theorem finishEstablish_spec (s : SecureByteChannel S) (store : IdentityStore σ) (st : σ)
    (pinned : Option PublicKey) (pairing : Pairing S) (raw : ByteChannel)
    (header : ByteArr headerBytes) :
    let e := s.finishEstablish store st pinned pairing raw header
    e.pairing = pairing ∧
      (pinned = none → e.store = (store.savePeer st pairing.peerIdent).2) ∧
      (pinned ≠ none → e.store = st) ∧
      (e.result = .ok → (pinned = none → (store.savePeer st pairing.peerIdent).1 = true) ∧
        s.Carries e.self (pairing.makeChannel header)) := by
  have hchannel : ∀ (st : σ) (saved : Option PublicKey),
      let e : Established S σ :=
        if !(pairing.makeChannel header).valid then
          ⟨.protocol, { s with raw := some raw, channel := pairing.makeChannel header }, st, saved,
            pairing⟩
        else
          let (result, self) := s.exchangeHeaders raw (pairing.makeChannel header)
          ⟨result, self, st, saved, pairing⟩
      e.pairing = pairing ∧ e.store = st ∧
        (e.result = .ok → s.Carries e.self (pairing.makeChannel header)) := by
    intro st saved
    dsimp only
    split
    · exact ⟨rfl, rfl, fun h => by cases h⟩
    · exact ⟨rfl, rfl, exchangeHeaders_carries⟩
  intro e
  -- a pin that is there is not saved again; without one a failed save ends the call
  have he : e = s.finishEstablish store st pinned pairing raw header := rfl
  unfold finishEstablish at he
  cases pinned with
  | some pin =>
      obtain ⟨hpairing, hstore, hcarries⟩ := hchannel st none
      rw [he]
      exact ⟨hpairing, fun h => (by cases h), fun _ => hstore,
        fun hok => ⟨fun h => (by cases h), hcarries hok⟩⟩
  | none =>
      rcases hsave : store.savePeer st pairing.peerIdent with ⟨persisted, st'⟩
      simp only [hsave, if_true] at he
      cases persisted with
      | false =>
          rw [he]
          exact ⟨rfl, fun _ => rfl, fun h => absurd rfl h, fun h => by cases h⟩
      | true =>
          obtain ⟨hpairing, hstore, hcarries⟩ := hchannel st' (some pairing.peerIdent)
          rw [he]
          exact ⟨hpairing, fun _ => hstore, fun h => absurd rfl h,
            fun hok => ⟨fun _ => rfl, hcarries hok⟩⟩

/-- **With a peer that can be trusted**, and nothing that fails, `Establish` succeeds. -/
theorem establish_ok (s : SecureByteChannel S) {raw : ByteChannel} {me : Identity S} {role : Role}
    {store : IdentityStore σ} {st : σ} {eph : KxKeypair S} (header : ByteArr headerBytes)
    {p : Pairing S} {peerHello peerConfirm rest : Bytes} {peerHeader : ByteArr headerBytes}
    {keys : SessionKeys} {pull : S.secretstream.Pull} (hsends : raw.sends = [])
    (harriving : arriving raw.inbox = recordWire peerHello ++ (recordWire peerConfirm ++
      (recordWire peerHeader.toList ++ rest)))
    (hhello : ({ me, role, eph } : Pairing S).consumePeerHello peerHello = some p)
    (hverdict : (p.consumePeerConfirm peerConfirm (store.loadPeer st)).1 = .ok)
    (hsaves : store.loadPeer st = none → (store.savePeer st p.peerIdent).1 = true)
    (hkeys : p.sessionKeys = some keys) (hpull : S.initPull peerHeader keys.rx = some pull) :
    ∃ raw', raw'.sends = [] ∧ arriving raw'.inbox = rest ∧
      raw'.outbox = raw.outbox ++ recordWire ({ me, role, eph } : Pairing S).hello ++
        recordWire p.confirm ++ recordWire header.toList ∧
      s.establish raw me role store st eph header =
        { result := .ok
          self := { s with
            raw := some raw'
            channel := { SecureChannel.make keys.tx keys.rx header with pullState := some pull } }
          store := if store.loadPeer st = none then (store.savePeer st p.peerIdent).2 else st
          saved := if store.loadPeer st = none then some p.peerIdent else none
          pairing := { p with confirmed := true } } := by
  have hsmall : ∀ {b : Bytes} {n : ℕ}, b.length = n + 1 → n < 64 →
      b ≠ [] ∧ b.length ≤ kMaxFrame ∧ b.length < 2 ^ 32 := by
    intro b n hlen hn
    have hbound : kMaxFrame = 17825792 := rfl
    refine ⟨?_, by omega, by norm_num; omega⟩
    rintro rfl
    cases hlen
  have hpeerHello : peerHello.length = 64 := by
    unfold Pairing.consumePeerHello at hhello
    split at hhello
    · assumption
    · cases hhello
  obtain ⟨-, -, hpeerConfirm, -⟩ := p.consumePeerConfirm_eq_ok hverdict
  obtain ⟨hhelloNe, hhelloMax, -⟩ := hsmall hpeerHello (by decide)
  obtain ⟨hconfirmNe, hconfirmMax, -⟩ := hsmall hpeerConfirm (by decide)
  obtain ⟨hheaderNe, hheaderMax, -⟩ := hsmall peerHeader.toList_length (by decide)
  have hown : ({ me, role, eph } : Pairing S).hello.length = 64 := by simp [Pairing.hello]
  -- Each round sends a record and reads one.
  obtain ⟨c₁, c₂, hwrite₁, hread₁, hsends₁, harriving₁, hout₁⟩ :=
    exchange_ok hsends _ (hsmall hown (by decide)).2.2 hhelloNe hhelloMax harriving
  obtain ⟨c₃, c₄, hwrite₂, hread₂, hsends₂, harriving₂, hout₂⟩ :=
    exchange_ok hsends₁ p.confirm (hsmall (List.Vector.toList_length _) (by decide)).2.2
      hconfirmNe hconfirmMax harriving₁
  obtain ⟨c₅, c₆, hwrite₃, hread₃, hsends₃, harriving₃, hout₃⟩ :=
    exchange_ok hsends₂ header.toList (hsmall header.toList_length (by decide)).2.2 hheaderNe
      hheaderMax harriving₂
  have hok : p.consumePeerConfirm peerConfirm (store.loadPeer st) =
      (.ok, { p with confirmed := true }) :=
    Prod.ext hverdict (p.consumePeerConfirm_ok_snd hverdict)
  have hchannel : ({ p with confirmed := true } : Pairing S).makeChannel header =
      SecureChannel.make keys.tx keys.rx header := by
    have hkept : ({ p with confirmed := true } : Pairing S).sessionKeys = some keys := hkeys
    unfold Pairing.makeChannel
    rw [hkept]
  have hinit : (SecureChannel.make keys.tx keys.rx header : SecureChannel S).initRx
      peerHeader.toList =
        some { SecureChannel.make keys.tx keys.rx header with pullState := some pull } := by
    unfold SecureChannel.initRx
    rw [dif_pos peerHeader.toList_length]
    show (S.initPull peerHeader keys.rx).map _ = _
    rw [hpull]
    rfl
  have hexchange : s.exchangeHeaders c₄ (SecureChannel.make keys.tx keys.rx header) =
      (.ok, { s with
        raw := some c₆
        channel := { SecureChannel.make keys.tx keys.rx header with
          pullState := some pull } }) := by
    unfold exchangeHeaders
    rw [show (SecureChannel.make keys.tx keys.rx header : SecureChannel S).txHeader =
      header.toList from rfl, hwrite₃]
    simp only [hread₃, hinit]
  have hvalid : (SecureChannel.make keys.tx keys.rx header : SecureChannel S).valid = true := rfl
  refine ⟨c₆, hsends₃, harriving₃, by rw [hout₃, hout₂, hout₁], ?_⟩
  unfold establish
  simp only [hwrite₁, hread₁, hhello, hwrite₂, hread₂, hok]
  unfold finishEstablish
  by_cases hnone : store.loadPeer st = none
  · simp only [if_pos hnone, hsaves hnone, hchannel, hvalid, hexchange, Bool.not_true,
      Bool.false_eq_true, if_false]
  · simp only [if_neg hnone, hchannel, hvalid, hexchange, Bool.not_true, Bool.false_eq_true,
      if_false]

/-- **A handshake that succeeds** leaves the object with the channel that its pairing has
made, and on a fresh object opens it. -/
theorem establish_carries {s : SecureByteChannel S} {raw : ByteChannel} {me : Identity S}
    {role : Role} {store : IdentityStore σ} {st : σ} {eph : KxKeypair S}
    {header : ByteArr headerBytes}
    (hok : (s.establish raw me role store st eph header).result = .ok) :
    s.Carries (s.establish raw me role store st eph header).self
        ((s.establish raw me role store st eph header).pairing.makeChannel header) ∧
      (s.Fresh → ∃ pull, (s.establish raw me role store st eph header).self.Opened pull) := by
  rcases s.establish_cases raw me role store st eph header with
    ⟨hresult, -⟩ | ⟨p, confirm, raw', -, -, -, hrest⟩
  · exact absurd hok hresult
  · obtain ⟨hpairing, -, -, hspec⟩ := s.finishEstablish_spec store st (store.loadPeer st)
      { p with confirmed := true } raw' header
    rw [hrest] at hok ⊢
    rw [hpairing]
    exact ⟨(hspec hok).2, (hspec hok).2.opened⟩

/-! ## SendAll and Recv -/

/-- One AEAD record per `SendAll`. -/
def sendAll (s : SecureByteChannel S) (data : Bytes) : Bool × SecureByteChannel S :=
  match s.raw with
  | none => (false, s)
  | some raw =>
      if !s.channel.valid || s.broken then (false, s)
      else
        match s.channel.encrypt data with
        | none => (false, s)
        | some (record, channel) =>
            let (sent, raw) := writeFramed raw record
            (sent, { s with raw, channel })

/-- How the loop of `Recv` ends. -/
inductive Pumped where
  | ready
  | ended
  | tampered
  deriving DecidableEq, Repr

/-- The loop of `Recv`: read and decrypt records until there is plaintext to return. -/
def pump : ℕ → ByteChannel → SecureByteChannel S → Pumped × SecureByteChannel S
  | 0, raw, s => (.ended, { s with raw })
  | fuel + 1, raw, s =>
      if s.rxPos < s.rxPlain.length then (.ready, { s with raw })
      else
        match readFramed raw with
        | (none, raw) => (.ended, { s with raw })
        | (some record, raw) =>
            match s.channel.decrypt record with
            | none => (.tampered, { s with raw, broken := true })
            | some (plain, channel) =>
                pump fuel raw { s with channel, rxPlain := plain, rxPos := 0
                                       rxPos_le := start_le plain }

/-- `Recv` into a buffer of `room` bytes.  Every round of the loop takes a byte off the
stream at least, so the bound on the rounds is never met. -/
def recv (s : SecureByteChannel S) (room : ℕ) : Received × SecureByteChannel S :=
  match s.raw with
  | none => (.failed, s)
  | some raw =>
      if s.broken then (.failed, s)
      else
        match pump ((arriving raw.inbox).length + 1) raw s with
        | (.ended, s) => (.closed, s)
        | (.tampered, s) => (.failed, s)
        | (.ready, s) =>
            let n := min room (s.rxPlain.length - s.rxPos)
            (.data ((s.rxPlain.drop s.rxPos).take n),
              { s with rxPos := s.rxPos + n
                       rxPos_le := by have hle := s.rxPos_le; omega })

/-- Decrypted bytes not yet returned by `Recv`. -/
def leftover (s : SecureByteChannel S) : Bytes := s.rxPlain.drop s.rxPos

/-! ## Receiving, told from the stream -/

/-- What can be wrong with the stream of records. -/
inductive StreamFault where
  | badLength
  | cutHeader
  | cutBody
  | badTag
  deriving DecidableEq, Repr

/-- What the next records of a stream come to. -/
inductive Outcome where
  | plain (bytes : Bytes)
  | ended
  | fault (f : StreamFault)
  deriving DecidableEq, Repr

/-- What a stream that holds no whole record comes to. -/
def cutShort (s : Bytes) : Outcome :=
  if s = [] then .ended
  else if s.length < 4 then .fault .cutHeader
  else .fault .cutBody

/-- The next records of the stream `s` for a receiver whose channel is `channel`: up to
the first one that is not empty, or the end or a fault before it.  Also the channel and
the rest of the stream after that. -/
def incoming : ℕ → SecureChannel S → Bytes → Outcome × SecureChannel S × Bytes
  | 0, channel, s => (.ended, channel, s)
  | fuel + 1, channel, s =>
      match scanRecord s with
      | .more => (cutShort s, channel, [])
      | .fail _ => (.fault .badLength, channel, s.drop 4)
      | .item record k =>
          match channel.decrypt record with
          | none => (.fault .badTag, channel, s.drop k)
          | some (plain, channel) =>
              if plain = [] then incoming fuel channel (s.drop k)
              else (.plain plain, channel, s.drop k)

/-- How the loop of `Recv` ends on what comes in.  A fault of the framing ends it like an
orderly close. -/
def Outcome.pumped : Outcome → Pumped
  | .plain _ => .ready
  | .ended => .ended
  | .fault .badTag => .tampered
  | .fault _ => .ended

/-- The ways in which a stream may end. -/
theorem cutShort_cases (s : Bytes) :
    cutShort s = .ended ∨ cutShort s = .fault .cutHeader ∨ cutShort s = .fault .cutBody := by
  unfold cutShort
  split
  · exact Or.inl rfl
  · split
    · exact Or.inr (Or.inl rfl)
    · exact Or.inr (Or.inr rfl)

/-- The plaintext that has come in. -/
def Outcome.bytes : Outcome → Bytes
  | .plain bytes => bytes
  | _ => []

/-- **The loop of `Recv` reads what comes in.** -/
theorem pump_spec (fuel : ℕ) (raw : ByteChannel) (s : SecureByteChannel S)
    (hfuel : (arriving raw.inbox).length < fuel) (hdrained : s.leftover = []) :
    let r := incoming fuel s.channel (arriving raw.inbox)
    (pump fuel raw s).1 = r.1.pumped ∧ (pump fuel raw s).2.leftover = r.1.bytes ∧
      (pump fuel raw s).2.broken = (s.broken || r.1 == .fault .badTag) ∧
      (pump fuel raw s).2.channel = r.2.1 ∧
      ∃ inbox, (pump fuel raw s).2.raw = some { raw with inbox } ∧
        (∀ bytes, r.1 = .plain bytes → arriving inbox = r.2.2 ∧ beyond inbox = beyond raw.inbox) ∧
        (r.1 = .ended → inbox = beyond raw.inbox) := by
  induction fuel generalizing raw s with
  | zero => omega
  | succ fuel ih =>
      have hpos : ¬ s.rxPos < s.rxPlain.length :=
        Nat.not_lt.mpr (List.drop_eq_nil_iff.mp hdrained)
      have hread := readFramed_scan raw
      unfold pump incoming
      rw [if_neg hpos]
      cases hscan : scanRecord (arriving raw.inbox) with
      | more =>
          rw [hscan] at hread
          simp only [hread]
          -- a stream that is cut off ends the loop like one that has ended
          rcases cutShort_cases (arriving raw.inbox) with hcut | hcut | hcut
          all_goals
            rw [hcut]
            exact ⟨rfl, hdrained, by simp, trivial, beyond raw.inbox, rfl, by simp, fun _ => rfl⟩
      | fail e =>
          rw [hscan] at hread
          obtain ⟨inbox, hframed, -, -⟩ := hread
          simp only [hframed]
          exact ⟨rfl, hdrained, by simp, trivial, inbox, rfl, by simp, by simp⟩
      | item record k =>
          rw [hscan] at hread
          obtain ⟨inbox, hframed, harriving, hbeyond⟩ := hread
          have hused := recordGrammar.used_pos hscan
          have hle := recordGrammar.used_le hscan
          have hshort : (arriving inbox).length < fuel := by
            rw [harriving, List.length_drop]; omega
          simp only [hframed]
          cases hdecrypt : s.channel.decrypt record with
          | none => exact ⟨rfl, hdrained, by simp, rfl, inbox, rfl, by simp, by simp⟩
          | some r =>
              obtain ⟨plain, channel⟩ := r
              dsimp only
              by_cases hplain : plain = []
              · -- an empty record is skipped, and the loop goes on with the next
                subst hplain
                have hnext := ih { raw with inbox } { s with channel, rxPlain := [], rxPos := 0
                                                             rxPos_le := start_le_nil }
                  hshort rfl
                rw [← harriving, if_pos rfl, ← hbeyond]
                exact hnext
              · -- one more round finds the plaintext there
                obtain ⟨fuel, rfl⟩ : ∃ n, fuel = n + 1 := ⟨fuel - 1, by omega⟩
                have hready : 0 < plain.length := List.length_pos_of_ne_nil hplain
                rw [if_neg hplain]
                simp only [pump, if_pos hready]
                exact ⟨rfl, by simp [leftover, Outcome.bytes], by simp, trivial, inbox, rfl,
                  fun _ _ => ⟨harriving, hbeyond⟩, by simp⟩

/-- What `Recv` returns for what has come in. -/
def Outcome.received (room : ℕ) : Outcome → Received
  | .plain bytes => .data (bytes.take room)
  | .fault .badTag => .failed
  | _ => .closed

/-- As much of what has come in as there is room for. -/
theorem Outcome.bytes_received (r : Outcome) (room : ℕ) :
    (r.received room).bytes = r.bytes.take room := by
  cases r with
  | plain bytes => rfl
  | ended => exact List.take_nil.symm
  | fault f => cases f <;> exact List.take_nil.symm

/-- The end of `Recv`, from a loop that has ended with plaintext there. -/
theorem recv_eq {s : SecureByteChannel S} {raw : ByteChannel} (hraw : s.raw = some raw)
    (hbroken : s.broken = false) (room : ℕ) :
    let pumped := pump ((arriving raw.inbox).length + 1) raw s
    (s.recv room).2.channel = pumped.2.channel ∧ (s.recv room).2.raw = pumped.2.raw ∧
      (s.recv room).2.broken = pumped.2.broken ∧
      match pumped.1 with
      | .ended => (s.recv room).1 = .closed ∧ (s.recv room).2.leftover = pumped.2.leftover
      | .tampered => (s.recv room).1 = .failed ∧ (s.recv room).2.leftover = pumped.2.leftover
      | .ready => (s.recv room).1 = .data (pumped.2.leftover.take room) ∧
          (s.recv room).2.leftover = pumped.2.leftover.drop room := by
  intro pumped
  unfold recv
  simp only [hraw, hbroken, Bool.false_eq_true, if_false]
  rcases hpump : pump ((arriving raw.inbox).length + 1) raw s with ⟨result, s'⟩
  rw [show pumped = (result, s') from hpump]
  have htake : (s'.rxPlain.drop s'.rxPos).take (min room (s'.rxPlain.length - s'.rxPos)) =
      (s'.rxPlain.drop s'.rxPos).take room := by
    rw [← List.length_drop, ← List.take_take, List.take_length]
  cases result with
  | ended => exact ⟨rfl, rfl, rfl, rfl, rfl⟩
  | tampered => exact ⟨rfl, rfl, rfl, rfl, rfl⟩
  | ready =>
      -- `rxPos` moves on by what fits, so that much is dropped from what is left over
      refine ⟨rfl, rfl, rfl, congrArg Received.data htake, ?_⟩
      show s'.rxPlain.drop (s'.rxPos + min room (s'.rxPlain.length - s'.rxPos)) =
        (s'.rxPlain.drop s'.rxPos).drop room
      rw [List.drop_drop]
      rcases Nat.le_total room (s'.rxPlain.length - s'.rxPos) with hle | hle
      · rw [Nat.min_eq_left hle]
      · rw [Nat.min_eq_right hle, List.drop_of_length_le (by omega),
          List.drop_of_length_le (by omega)]

/-- `Recv` when a record has been left over from the last one. -/
theorem recv_leftover {s : SecureByteChannel S} {raw : ByteChannel} (hraw : s.raw = some raw)
    (hbroken : s.broken = false) (h : s.leftover ≠ []) (room : ℕ) :
    (s.recv room).1 = .data (s.leftover.take room) ∧
      (s.recv room).2.leftover = s.leftover.drop room ∧
      (s.recv room).2.broken = false ∧ (s.recv room).2.channel = s.channel ∧
      (s.recv room).2.raw = some raw := by
  have hpos : s.rxPos < s.rxPlain.length := by
    by_contra hnot
    exact h (List.drop_of_length_le (Nat.not_lt.mp hnot))
  have hready : pump ((arriving raw.inbox).length + 1) raw s = (.ready, { s with raw }) :=
    if_pos hpos
  have hrecv := recv_eq hraw hbroken room
  rw [hready] at hrecv
  obtain ⟨hchannel, hraw', hbroken', hdata, hleft⟩ := hrecv
  exact ⟨hdata, hleft, hbroken'.trans hbroken, hchannel, hraw'⟩

/-- **`Recv` otherwise** returns what comes in, as much of it as there is room for. -/
theorem recv_drained {s : SecureByteChannel S} {raw : ByteChannel} (hraw : s.raw = some raw)
    (hbroken : s.broken = false) (h : s.leftover = []) (room : ℕ) :
    let r := incoming ((arriving raw.inbox).length + 1) s.channel (arriving raw.inbox)
    (s.recv room).1 = r.1.received room ∧ (s.recv room).2.leftover = r.1.bytes.drop room ∧
      (s.recv room).2.broken = (r.1 == .fault .badTag) ∧
      (s.recv room).2.channel = r.2.1 ∧
      ∃ inbox, (s.recv room).2.raw = some { raw with inbox } ∧
        (∀ bytes, r.1 = .plain bytes → arriving inbox = r.2.2 ∧ beyond inbox = beyond raw.inbox) ∧
        (r.1 = .ended → inbox = beyond raw.inbox) := by
  have hrecv := recv_eq hraw hbroken room
  obtain ⟨hpumped, hleft, hlatch, hchannel, inbox, hraw', hrest⟩ :=
    pump_spec ((arriving raw.inbox).length + 1) raw s (Nat.lt_succ_self _) h
  obtain ⟨hchannel', hraw'', hbroken', hresult⟩ := hrecv
  rw [hbroken, Bool.false_or] at hlatch
  rw [hpumped, hleft] at hresult
  generalize incoming ((arriving raw.inbox).length + 1) s.channel (arriving raw.inbox) = r
    at hlatch hchannel hrest hresult ⊢
  obtain ⟨outcome, channel, rest⟩ := r
  have hreturned : (s.recv room).1 = outcome.received room ∧
      (s.recv room).2.leftover = outcome.bytes.drop room := by
    cases outcome with
    | plain bytes => exact hresult
    | ended => exact ⟨hresult.1, hresult.2.trans List.drop_nil.symm⟩
    | fault f => cases f <;> exact ⟨hresult.1, hresult.2.trans List.drop_nil.symm⟩
  exact ⟨hreturned.1, hreturned.2, hbroken'.trans hlatch, hchannel'.trans hchannel, inbox,
    hraw''.trans hraw', hrest⟩

/-- A broken channel, or one that was never established. -/
def Refusing (s : SecureByteChannel S) : Prop := s.raw = none ∨ s.broken = true

/-- It receives nothing and sends nothing, for good. -/
theorem recv_refused {s : SecureByteChannel S} (h : s.Refusing)
    (room : ℕ) : s.recv room = (.failed, s) := by
  unfold recv
  rcases h with h | h
  · rw [h]
  · rw [h]
    split <;> rfl

/-- A channel that refuses sends nothing. -/
theorem sendAll_refused {s : SecureByteChannel S} (h : s.Refusing) (data : Bytes) :
    s.sendAll data = (false, s) := by
  unfold sendAll
  rcases h with h | h
  · rw [h]
  · rw [h]
    split
    · rfl
    · rw [Bool.or_true, if_pos rfl]

/-- Otherwise `recv_leftover` or `recv_drained` tells what it receives. -/
theorem refusing_or_receiving (s : SecureByteChannel S) :
    s.Refusing ∨ ∃ raw, s.raw = some raw ∧ s.broken = false := by
  cases hraw : s.raw with
  | none => exact Or.inl (Or.inl hraw)
  | some raw =>
      cases hbroken : s.broken with
      | true => exact Or.inl (Or.inr hbroken)
      | false => exact Or.inr ⟨raw, rfl, rfl⟩

/-- Sending leaves the receiving side as it is. -/
theorem sendAll_receiving (s : SecureByteChannel S) (data : Bytes) :
    (s.sendAll data).2.leftover = s.leftover ∧ (s.sendAll data).2.broken = s.broken ∧
      (s.sendAll data).2.channel.pullState = s.channel.pullState ∧
      (s.sendAll data).2.raw.map ByteChannel.inbox = s.raw.map ByteChannel.inbox := by
  unfold sendAll
  cases hraw : s.raw with
  | none => exact ⟨rfl, rfl, rfl, by rw [hraw]⟩
  | some raw =>
      by_cases hrefused : (!s.channel.valid || s.broken) = true
      · simp only [if_pos hrefused]
        exact ⟨trivial, trivial, trivial, by rw [hraw]⟩
      · simp only [if_neg hrefused]
        cases hencrypt : s.channel.encrypt data with
        | none => exact ⟨rfl, rfl, rfl, by rw [hraw]⟩
        | some r =>
            obtain ⟨record, channel⟩ := r
            refine ⟨rfl, rfl, SecureChannel.pullState_encrypt hencrypt, ?_⟩
            show some (writeFramed raw record).2.inbox = _
            rw [writeFramed_inbox]
            rfl

/-! ## Sequences of calls -/

/-- A call of the session on its channel. -/
inductive Op where
  | recv (room : ℕ)
  | sendAll (data : Bytes)
  deriving DecidableEq, Repr

/-- What a call returns. -/
inductive Reply where
  | received (r : Received)
  | sent (ok : Bool)
  deriving DecidableEq, Repr

/-- One call. -/
def act (s : SecureByteChannel S) : Op → Reply × SecureByteChannel S
  | .recv room => (.received (s.recv room).1, (s.recv room).2)
  | .sendAll data => (.sent (s.sendAll data).1, (s.sendAll data).2)

/-- The replies to a sequence of calls, and the channel after it. -/
def acts : SecureByteChannel S → List Op → List Reply × SecureByteChannel S
  | s, [] => ([], s)
  | s, op :: ops =>
      let (reply, s) := s.act op
      let (replies, s) := acts s ops
      (reply :: replies, s)

@[simp] theorem acts_cons (s : SecureByteChannel S) (op : Op) (ops : List Op) :
    s.acts (op :: ops) =
      ((s.act op).1 :: ((s.act op).2.acts ops).1, ((s.act op).2.acts ops).2) := rfl

/-- The plaintext a reply has returned. -/
def Reply.bytes : Reply → Bytes
  | .received r => r.bytes
  | .sent _ => []

/-- A negative `Recv`, a failed `SendAll`. -/
def Reply.Refused : Reply → Prop
  | .received r => r.count < 0
  | .sent ok => ok = false

instance : DecidablePred Reply.Refused
  | .received r => inferInstanceAs (Decidable (r.count < 0))
  | .sent ok => inferInstanceAs (Decidable (ok = false))

end SecureByteChannel

end TetherDisplay.Crypto
