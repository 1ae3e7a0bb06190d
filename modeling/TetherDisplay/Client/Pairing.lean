import TetherDisplay.Client.SecureTransport
import TetherDisplay.Client.VideoSession
import TetherDisplay.Crypto.SecureChannel

/-!
# Pairing on the iPad

`SecureChannel.swift` has the iPad's own `Pairing`, over byte arrays that carry no length,
and `SecureTransport.establish` drives it.  The handshake is three frames from the host, a
Hello, a confirmation and a stream header, read one inside the completion of the other.
`HandshakePoint` says which of the three `readFrame` waits for, and a `Handshake` is moved on
by what the connection delivers.

`Handshake.Sound` says at each point what has been checked: once the confirmation has been
taken, the host has signed the transcript and is the pinned host if there is one.  A
handshake that has ended is left alone by whatever is delivered later.
-/

namespace TetherDisplay.Client

open Crypto (Sodium ByteArr headerBytes signBytes kLabel kHelloSize Identity KxKeypair
  SessionKeys Role)

variable (S : Sodium)

/-! ## The pairing -/

/-- `kPairingLabel`, the host's label. -/
abbrev kPairingLabel : Bytes := kLabel

/-- `sodium.sign.verify`, which checks the sizes of what it is given. -/
def verify (message publicKey signature : Bytes) : Bool :=
  if h : publicKey.length = 32 ∧ signature.length = signBytes then
    S.signVerifyDetached ⟨signature, h.2⟩ message ⟨publicKey, h.1⟩
  else false

/-- `sodium.keyExchange.sessionKeyPair`, of the own pair and the other's public key. -/
def sessionKeyPair (eph : KxKeypair S) (otherPublicKey : Bytes) (side : Role) :
    Option SessionKeys :=
  if h : otherPublicKey.length = 32 then
    match side with
    | .server => S.kxServerSessionKeys eph.pk eph.sk ⟨otherPublicKey, h⟩
    | .client => S.kxClientSessionKeys eph.pk eph.sk ⟨otherPublicKey, h⟩
  else none

/-- What comes of the peer's confirmation. -/
inductive Verdict where
  | ok
  | identityMismatch
  | badSignature
  | protocolError
  deriving DecidableEq, Repr

/-- The two-round handshake; host = server, iPad = client. -/
structure Pairing where
  me : Identity S
  role : Role
  eph : KxKeypair S
  peerEph : Bytes := []
  peerIdent : Bytes := []
  havePeerHello : Bool := false
  deriving DecidableEq

namespace Pairing

variable {S} (p : Pairing S)

/-- The ephemeral key and the identity. -/
def hello : Bytes := p.eph.pk.toList ++ p.me.signPk.toList

/-- `none` is `false`. -/
def consumePeerHello (bytes : Bytes) : Option (Pairing S) :=
  if bytes.length = kHelloSize then
    some { p with
      peerEph := bytes.take 32
      peerIdent := bytes.drop 32
      havePeerHello := true }
  else none

/-- What both sign: the server's part before the client's. -/
def transcript : Bytes :=
  let serverIdent := if p.role = .server then p.me.signPk.toList else p.peerIdent
  let clientIdent := if p.role = .server then p.peerIdent else p.me.signPk.toList
  let serverEph := if p.role = .server then p.eph.pk.toList else p.peerEph
  let clientEph := if p.role = .server then p.peerEph else p.eph.pk.toList
  kPairingLabel ++ serverIdent ++ clientIdent ++ serverEph ++ clientEph

/-- The signature over the transcript. -/
def confirm : Bytes := (S.signDetached p.transcript p.me.signSk).toList

/-- The pin is asked first, and then the signature. -/
def consumePeerConfirm (sig : Bytes) (pinned : Option Bytes) : Verdict :=
  if p.havePeerHello = true ∧ sig.length = 64 then
    -- refuse an unknown device
    if pinned ≠ none ∧ pinned ≠ some p.peerIdent then .identityMismatch
    else if verify S p.transcript p.peerIdent sig then .ok
    else .badSignature
  else .protocolError

/-- The channel with the keys of the session. -/
def makeChannel (header : ByteArr headerBytes) : Option (SecureChannel S) :=
  (sessionKeyPair S p.eph p.peerEph p.role).map fun keys =>
    SecureChannel.make keys.tx keys.rx header

/-- **What `.ok` means.** -/
theorem consumePeerConfirm_eq_ok {sig : Bytes} {pinned : Option Bytes}
    (h : p.consumePeerConfirm sig pinned = .ok) :
    (pinned = none ∨ pinned = some p.peerIdent) ∧
      verify S p.transcript p.peerIdent sig = true := by
  unfold consumePeerConfirm at h
  split at h
  · split at h
    · cases h
    · rename_i hpinned
      split at h
      · rename_i hverify
        refine ⟨?_, hverify⟩
        by_contra hnot
        exact hpinned (not_or.mp hnot)
      · cases h
  · cases h

end Pairing

/-! ## The handshake -/

/-- The frame that `establish` waits for. -/
inductive HandshakePoint where
  | peerHello
  | peerConfirm
  | peerHeader
  | done
  deriving DecidableEq, Repr

/-- A call of `establish`: its argument, the header that `initPush` draws, and what it has
passed to `completion`.  `authenticated` is recorded for the specification, the identity
whose signature has been accepted. -/
structure Handshake where
  pinned : Option Bytes
  header : ByteArr headerBytes
  pairing : Pairing S
  transport : SecureTransport S := {}
  point : HandshakePoint := .peerHello
  completion : Option (PairingResult × Option Bytes) := none
  authenticated : Option Bytes := none

namespace Handshake

variable {S}

/-- The start of `establish`, with the pairing of a new `SecureTransport`. -/
def establish (me : Identity S) (eph : KxKeypair S) (header : ByteArr headerBytes)
    (pinned : Option Bytes) : Handshake S :=
  let pairing : Pairing S := { me, role := .client, eph }
  { pinned, header, pairing, transport := ({} : SecureTransport S).sendFramed pairing.hello }

/-- What is learned on first use. -/
def learned (h : Handshake S) : Option Bytes :=
  if h.pinned = none then some h.pairing.peerIdent else none

/-- The handshake is over. -/
def complete (h : Handshake S) (result : PairingResult) (learnedPeer : Option Bytes) :
    Handshake S :=
  { h with point := .done, completion := some (result, learnedPeer) }

/-- What `readFrame` hands to the completion it was given. -/
def onFrame (h : Handshake S) (frame : Option Bytes) : Handshake S :=
  match h.point with
  | .peerHello =>
      match frame.bind h.pairing.consumePeerHello with
      | none => h.complete .ioError none
      | some pairing =>
          { h with
            pairing
            transport := h.transport.sendFramed pairing.confirm
            point := .peerConfirm }
  | .peerConfirm =>
      match frame with
      | none => h.complete .ioError none
      | some peerConfirm =>
          match h.pairing.consumePeerConfirm peerConfirm h.pinned with
          | .identityMismatch => h.complete .peerRejected none
          | .badSignature => h.complete .badSignature none
          | .protocolError => h.complete .protocolError none
          | .ok =>
              let h := { h with authenticated := some h.pairing.peerIdent }
              match h.pairing.makeChannel h.header with
              | none => h.complete .protocolError none
              | some channel =>
                  { h with
                    transport := { h.transport with channel := some channel }.sendFramed
                      channel.txHeader
                    point := .peerHeader }
  | .peerHeader =>
      match frame.bind fun peerHeader => h.transport.channel.bind (·.initRx peerHeader) with
      | none => h.complete .ioError none
      | some channel =>
          { h with transport := { h.transport with channel := some channel } }.complete .ok
            h.learned
  | .done => h

/-- `readFrame` for as long as there is a frame in the buffer. -/
def readFrames : ℕ → Handshake S → Handshake S
  | 0, h => h
  | frames + 1, h =>
      match h.point with
      | .done => h
      | _ =>
          match extractFrame h.transport.buffer with
          | (.needMore, _) => h
          | (.error, _) => h.onFrame none
          | (.frame f, buffer) =>
              readFrames frames
                ({ h with transport := { h.transport with buffer } }.onFrame (some f))

/-- The callback of the `receive` in `readFrame`.  A handshake that has ended waits for
nothing; what is delivered then is for `receiveLoop`. -/
def onReceive (h : Handshake S) (d : Delivery) : Handshake S :=
  match h.point with
  | .done => h
  | _ =>
      let h := { h with transport := { h.transport with buffer := h.transport.buffer ++ d.data } }
      match extractFrame h.transport.buffer with
      | (.needMore, _) => if d.last then h.onFrame none else h
      -- three frames at most are left
      | _ => h.readFrames 3

/-! ### What is checked -/

/-- The host has signed and may be trusted. -/
def Trusted (h : Handshake S) : Prop :=
  h.authenticated = some h.pairing.peerIdent ∧
    (h.pinned = none ∨ h.pinned = some h.pairing.peerIdent)

/-- **The invariant of a handshake.** -/
structure Sound (h : Handshake S) : Prop where
  waiting : h.point ≠ .done → h.completion = none
  unheard : h.point = .peerHello → h.authenticated = none
  signed : ∀ ident, h.authenticated = some ident →
    h.pairing.peerIdent = ident ∧ ∃ sig, verify S h.pairing.transcript ident sig = true
  confirmed : h.point = .peerHeader → h.Trusted
  ok : ∀ learnedPeer, h.completion = some (.ok, learnedPeer) →
    h.Trusted ∧ learnedPeer = h.learned

theorem sound_establish (me : Identity S) (eph : KxKeypair S) (header : ByteArr headerBytes)
    (pinned : Option Bytes) : Sound (establish me eph header pinned) where
  waiting _ := rfl
  unheard _ := rfl
  signed := by rintro _ ⟨⟩
  confirmed := by rintro ⟨⟩
  ok := by rintro _ ⟨⟩

/-- A handshake that ends with an error. -/
theorem Sound.failed {h : Handshake S} (hsound : h.Sound) {result : PairingResult}
    (hresult : result ≠ .ok) : (h.complete result none).Sound where
  waiting hpoint := absurd rfl hpoint
  unheard := by rintro ⟨⟩
  signed := hsound.signed
  confirmed := by rintro ⟨⟩
  ok learnedPeer hcompletion := by
    cases hcompletion
    exact absurd rfl hresult

/-- The confirmation is taken: the host has signed, and is the pinned host if there is one. -/
theorem Sound.confirm {h : Handshake S} (hsound : h.Sound) (hpoint : h.point = .peerConfirm)
    {peerConfirm : Bytes} (hverdict : h.pairing.consumePeerConfirm peerConfirm h.pinned = .ok) :
    let h := { h with authenticated := some h.pairing.peerIdent }
    h.Sound ∧ h.Trusted := by
  obtain ⟨hpinned, hverify⟩ := h.pairing.consumePeerConfirm_eq_ok hverdict
  refine ⟨?_, rfl, hpinned⟩
  exact {
    waiting := hsound.waiting
    unheard := fun hfirst => by
      have hpoints := hpoint.symm.trans hfirst
      cases hpoints
    signed := by
      rintro ident ⟨⟩
      exact ⟨rfl, peerConfirm, hverify⟩
    confirmed := fun _ => ⟨rfl, hpinned⟩
    ok := fun learnedPeer hcompletion => ⟨⟨rfl, hpinned⟩, (hsound.ok learnedPeer hcompletion).2⟩ }

/-- A handshake that goes on to its last frame. -/
theorem Sound.goOn {h : Handshake S} (hsound : h.Sound) (htrusted : h.Trusted)
    (hwaits : h.completion = none) (transport : SecureTransport S) :
    Sound { h with transport, point := .peerHeader } where
  waiting _ := hwaits
  unheard := by rintro ⟨⟩
  signed := hsound.signed
  confirmed _ := htrusted
  ok _ hok := absurd (hwaits.symm.trans hok) (by rintro ⟨⟩)

/-- **One frame**, or none. -/
theorem Sound.onFrame {h : Handshake S} (hsound : h.Sound) (frame : Option Bytes) :
    (h.onFrame frame).Sound := by
  unfold Handshake.onFrame
  split
  · rename_i hpoint
    split
    · exact hsound.failed (by rintro ⟨⟩)
    · have hnone := hsound.unheard hpoint
      have hwaits : h.completion = none := hsound.waiting (by rw [hpoint]; rintro ⟨⟩)
      exact {
        waiting := fun _ => hwaits
        unheard := by rintro ⟨⟩
        signed := fun ident hident => absurd (hnone.symm.trans hident) (by rintro ⟨⟩)
        confirmed := by rintro ⟨⟩
        ok := fun _ hok => absurd (hwaits.symm.trans hok) (by rintro ⟨⟩) }
  · rename_i hpoint
    have hwaits : h.completion = none := hsound.waiting (by rw [hpoint]; rintro ⟨⟩)
    split
    · exact hsound.failed (by rintro ⟨⟩)
    · split
      · exact hsound.failed (by rintro ⟨⟩)
      · exact hsound.failed (by rintro ⟨⟩)
      · exact hsound.failed (by rintro ⟨⟩)
      · rename_i hverdict
        obtain ⟨hconfirmed, htrusted⟩ := hsound.confirm hpoint hverdict
        simp only
        split
        · exact hconfirmed.failed (by rintro ⟨⟩)
        · exact hconfirmed.goOn htrusted hwaits _
  · rename_i hpoint
    split
    · exact hsound.failed (by rintro ⟨⟩)
    · exact {
        waiting := fun hpoint => absurd rfl hpoint
        unheard := by rintro ⟨⟩
        signed := hsound.signed
        confirmed := by rintro ⟨⟩
        ok := by
          rintro _ ⟨⟩
          exact ⟨hsound.confirmed hpoint, rfl⟩ }
  · exact hsound

/-- What is in the buffer has not been looked at. -/
theorem Sound.buffer {h : Handshake S} (hsound : h.Sound) (buffer : Bytes) :
    Sound { h with transport := { h.transport with buffer } } :=
  ⟨hsound.waiting, hsound.unheard, hsound.signed, hsound.confirmed, hsound.ok⟩

/-- The frames of a delivery keep it. -/
theorem Sound.readFrames {h : Handshake S} (hsound : h.Sound) (frames : ℕ) :
    (h.readFrames frames).Sound := by
  induction frames generalizing h with
  | zero => exact hsound
  | succ frames ih =>
      unfold Handshake.readFrames
      split
      · exact hsound
      · split
        · exact hsound
        · exact hsound.onFrame none
        · rename_i f buffer _
          exact ih ((hsound.buffer buffer).onFrame (some f))

/-- **One delivery.** -/
theorem Sound.onReceive {h : Handshake S} (hsound : h.Sound) (d : Delivery) :
    (h.onReceive d).Sound := by
  have hfed := hsound.buffer (h.transport.buffer ++ d.data)
  unfold Handshake.onReceive
  split
  · exact hsound
  · simp only
    split
    · split
      · exact hfed.onFrame none
      · exact hfed
    · exact hfed.readFrames 3

/-! ### How it goes on -/

/-- The frames that are still to be read. -/
def remaining (h : Handshake S) : ℕ :=
  match h.point with
  | .peerHello => 3
  | .peerConfirm => 2
  | .peerHeader => 1
  | .done => 0

/-- Every frame moves the handshake on. -/
theorem remaining_onFrame {h : Handshake S} (frame : Option Bytes) {n : ℕ}
    (hn : h.remaining ≤ n + 1) : (h.onFrame frame).remaining ≤ n := by
  unfold onFrame
  split
  · rename_i hpoint
    rw [remaining, hpoint] at hn
    split
    · exact Nat.zero_le n
    · exact Nat.le_of_succ_le_succ hn
  · rename_i hpoint
    rw [remaining, hpoint] at hn
    split
    · exact Nat.zero_le n
    · split
      · exact Nat.zero_le n
      · exact Nat.zero_le n
      · exact Nat.zero_le n
      · simp only
        split
        · exact Nat.zero_le n
        · exact Nat.le_of_succ_le_succ hn
  · split
    · exact Nat.zero_le n
    · exact Nat.zero_le n
  · rename_i hpoint
    rw [remaining, hpoint]
    exact Nat.zero_le n

/-- A lost connection ends the handshake. -/
theorem onFrame_none_done (h : Handshake S) : (h.onFrame none).point = .done := by
  unfold onFrame
  split
  · rfl
  · rfl
  · rfl
  · assumption

/-- **The bound on the rounds is never met**: `readFrames` goes on until the handshake has
ended or has to wait for the connection. -/
theorem readFrames_waits {h : Handshake S} {frames : ℕ} (hframes : h.remaining ≤ frames) :
    (h.readFrames frames).point = .done ∨
      (extractFrame (h.readFrames frames).transport.buffer).1 = .needMore := by
  induction frames generalizing h with
  | zero =>
      refine Or.inl ?_
      cases hpoint : h.point with
      | done => rw [readFrames, hpoint]
      | _ =>
          rw [remaining, hpoint] at hframes
          exact absurd hframes (by decide)
  | succ frames ih =>
      unfold readFrames
      split
      · exact Or.inl ‹_›
      · split
        · rename_i hmore
          exact Or.inr (by rw [hmore])
        · exact Or.inl h.onFrame_none_done
        · rename_i buffer _
          exact ih (remaining_onFrame (some _)
            (show Handshake.remaining { h with transport := { h.transport with buffer } } ≤ _
              from hframes))

/-! ### What stays -/

@[simp] theorem pinned_onFrame (h : Handshake S) (frame : Option Bytes) :
    (h.onFrame frame).pinned = h.pinned := by
  unfold onFrame
  split
  · split <;> rfl
  · split
    · rfl
    · split <;> try rfl
      simp only
      split <;> rfl
  · split <;> rfl
  · rfl

@[simp] theorem pinned_readFrames (frames : ℕ) (h : Handshake S) :
    (h.readFrames frames).pinned = h.pinned := by
  induction frames generalizing h with
  | zero => rfl
  | succ frames ih =>
      unfold readFrames
      split
      · rfl
      · split
        · rfl
        · exact pinned_onFrame h none
        · rw [ih, pinned_onFrame]

@[simp] theorem pinned_onReceive (h : Handshake S) (d : Delivery) :
    (h.onReceive d).pinned = h.pinned := by
  unfold onReceive
  split
  · rfl
  · simp only
    split
    · split
      · rw [pinned_onFrame]
      · rfl
    · rw [pinned_readFrames]

/-- A handshake that has called its completion has ended. -/
theorem Sound.onReceive_of_completion {h : Handshake S} (hsound : h.Sound)
    (hcompletion : h.completion ≠ none) (d : Delivery) : h.onReceive d = h := by
  have hdone : h.point = .done := not_imp_comm.mp hsound.waiting hcompletion
  unfold Handshake.onReceive
  rw [hdone]

end Handshake

end TetherDisplay.Client
