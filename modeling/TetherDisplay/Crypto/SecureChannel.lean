import TetherDisplay.Crypto.Sodium

/-!
# Pairing and the secure channel

`secure_channel.cpp`: the two rounds of the pairing handshake, `Pairing`, and the
channel it makes, `SecureChannel`.  The caller does the input and output.

The signature of the second round covers the *transcript*: a label, the two identities
and the two ephemeral keys, server before client.  A transcript says of both sides who
they are, which role they play and which ephemeral key they brought, and it says it in
fields of fixed width.  So the transcript of one pairing is the transcript of another
exactly when these five things agree (`transcript_inj`), which is what an accepted
signature proves.

An `Identity` and an ephemeral `KxKeypair` carry the relation between their halves: they
are generated and never written by hand.
-/

namespace TetherDisplay.Crypto

/-- `kLabel`, "TetherDisplay-v2-pairing". -/
def kLabel : Bytes :=
  [0x54, 0x65, 0x74, 0x68, 0x65, 0x72, 0x44, 0x69, 0x73, 0x70, 0x6C, 0x61, 0x79, 0x2D,
    0x76, 0x32, 0x2D, 0x70, 0x61, 0x69, 0x72, 0x69, 0x6E, 0x67]

example : kLabel = "TetherDisplay-v2-pairing".toList.map (fun c => c.toUInt8) := by
  decide +kernel

/-- `crypto_kx_PUBLICKEYBYTES + crypto_sign_PUBLICKEYBYTES`. -/
def kHelloSize : ℕ := 64

variable (S : Sodium)

/-- A device's long-term identity (Ed25519). -/
structure Identity where
  signPk : PublicKey
  signSk : ByteArr 64
  signPk_eq : signPk = S.signPublicKey signSk
  deriving DecidableEq

/-- `crypto_kx_keypair`. -/
structure KxKeypair where
  pk : ByteArr 32
  sk : ByteArr 32
  pk_eq : pk = S.kxPublicKey sk
  deriving DecidableEq

/-- The identity with a secret key. -/
def Identity.ofSecret (sk : ByteArr 64) : Identity S := ⟨S.signPublicKey sk, sk, rfl⟩

/-- The ephemeral keys with a secret one. -/
def KxKeypair.ofSecret (sk : ByteArr 32) : KxKeypair S := ⟨S.kxPublicKey sk, sk, rfl⟩

/-! ## The encrypted channel -/

/-- A push stream and a pull stream.  A state that has not been initialised is `none`;
`push_inited_` and `pull_inited_` say which. -/
structure SecureChannel where
  pushState : Option S.secretstream.Push := none
  pullState : Option S.secretstream.Pull := none
  rxKey : ByteArr 32 := .replicate 32 0
  txHeader : Bytes := []

namespace SecureChannel

variable {S}

/-- The constructor, with the header that `_init_push` draws. -/
def make (txKey rxKey : ByteArr 32) (header : ByteArr headerBytes) : SecureChannel S :=
  { pushState := some (S.initPush txKey header), rxKey, txHeader := header.toList }

/-- `valid()`. -/
def valid (c : SecureChannel S) : Bool := c.pushState.isSome

/-- Ingest the peer's header; `none` is `false`. -/
def initRx (c : SecureChannel S) (peerHeader : Bytes) : Option (SecureChannel S) :=
  if h : peerHeader.length = headerBytes then
    (S.initPull ⟨peerHeader, h⟩ c.rxKey).map fun pull => { c with pullState := some pull }
  else none

/-- Encrypt one record.  Callers check `valid()` first; `none` is the call on a channel
that is not. -/
def encrypt (c : SecureChannel S) (plaintext : Bytes) : Option (Bytes × SecureChannel S) :=
  c.pushState.map fun push =>
    let (record, push) := S.secretstream.push push plaintext
    (record, { c with pushState := some push })

/-- Decrypt one record; `none` on tampering or truncation. -/
def decrypt (c : SecureChannel S) (record : Bytes) : Option (Bytes × SecureChannel S) :=
  match c.pullState with
  | none => none
  | some pull =>
      if record.length < aBytes then none
      else
        (S.secretstream.pull pull record).map fun (plain, pull) =>
          (plain, { c with pullState := some pull })

/-- The two directions are independent: encrypting leaves the pull stream alone. -/
theorem pullState_encrypt {c c' : SecureChannel S} {plaintext record : Bytes}
    (h : c.encrypt plaintext = some (record, c')) : c'.pullState = c.pullState := by
  unfold encrypt at h
  obtain ⟨push, -, hpush⟩ := Option.map_eq_some_iff.mp h
  cases hpush
  rfl

/-- Decrypting is a step of the pull stream and leaves all else alone. -/
theorem decrypt_eq_some {c c' : SecureChannel S} {record plain : Bytes}
    (h : c.decrypt record = some (plain, c')) :
    ∃ pull pull', c.pullState = some pull ∧
      S.secretstream.pull pull record = some (plain, pull') ∧
      c' = { c with pullState := some pull' } := by
  unfold decrypt at h
  cases hpull : c.pullState with
  | none => rw [hpull] at h; cases h
  | some pull =>
      simp only [hpull] at h
      split at h
      · cases h
      · obtain ⟨⟨plain', pull'⟩, haccept, heq⟩ := Option.map_eq_some_iff.mp h
        cases heq
        exact ⟨pull, pull', rfl, haccept, rfl⟩

end SecureChannel

/-! ## Pairing -/

/-- host = Server, iPad = Client. -/
inductive Role where
  | server
  | client
  deriving DecidableEq, Repr

/-- The role of the peer. -/
def Role.opposite : Role → Role
  | .server => .client
  | .client => .server

/-- What comes of the peer's confirmation. -/
inductive Verdict where
  | ok
  | identityMismatch
  | badSignature
  | protocol
  deriving DecidableEq, Repr

/-- A pairing: the own keys, and what is known of the peer's. -/
structure Pairing where
  me : Identity S
  role : Role
  eph : KxKeypair S
  peerEph : ByteArr 32 := .replicate 32 0
  peerIdent : PublicKey := .replicate 32 0
  havePeerHello : Bool := false
  confirmed : Bool := false
  deriving DecidableEq

namespace Pairing

variable {S} (p : Pairing S)

/-- `[ephemeral_kx_pk(32)][identity_pk(32)]`. -/
def hello : Bytes := p.eph.pk.toList ++ p.me.signPk.toList

/-- Store the peer's ephemeral and identity; `none` is `false`. -/
def consumePeerHello (bytes : Bytes) : Option (Pairing S) :=
  if h : bytes.length = kHelloSize then
    some { p with
      peerEph := ⟨bytes.take 32, by rw [List.length_take, h]; rfl⟩
      peerIdent := ⟨bytes.drop 32, by rw [List.length_drop, h]; rfl⟩
      havePeerHello := true }
  else none

/-- The identity of the server. -/
def serverIdent : PublicKey := if p.role = .server then p.me.signPk else p.peerIdent

/-- The identity of the client. -/
def clientIdent : PublicKey := if p.role = .server then p.peerIdent else p.me.signPk

/-- The ephemeral key of the server. -/
def serverEph : ByteArr 32 := if p.role = .server then p.eph.pk else p.peerEph

/-- The ephemeral key of the client. -/
def clientEph : ByteArr 32 := if p.role = .server then p.peerEph else p.eph.pk

/-- Canonical order: server identity, client identity, server ephemeral, client
ephemeral. -/
def transcript : Bytes :=
  kLabel ++ p.serverIdent.toList ++ p.clientIdent.toList ++ p.serverEph.toList ++
    p.clientEph.toList

/-- `[signature(64)]` over the transcript. -/
def confirm : Bytes := (S.signDetached p.transcript p.me.signSk).toList

/-- Verify the peer's signature against the pinned identity, or accept and learn when
there is none. -/
def consumePeerConfirm (bytes : Bytes) (pinned : Option PublicKey) :
    Verdict × Pairing S :=
  if h : p.havePeerHello = true ∧ bytes.length = signBytes then
    if pinned ≠ none ∧ pinned ≠ some p.peerIdent then (.identityMismatch, p)
    else if S.signVerifyDetached ⟨bytes, h.2⟩ p.transcript p.peerIdent then
      (.ok, { p with confirmed := true })
    else (.badSignature, p)
  else (.protocol, p)

/-- The session keys of the pairing's side. -/
def sessionKeys : Option SessionKeys :=
  match p.role with
  | .server => S.kxServerSessionKeys p.eph.pk p.eph.sk p.peerEph
  | .client => S.kxClientSessionKeys p.eph.pk p.eph.sk p.peerEph

/-- Encrypt with `tx`, decrypt with `rx`; an invalid channel when the peer's ephemeral was
degenerate. -/
def makeChannel (header : ByteArr headerBytes) : SecureChannel S :=
  match p.sessionKeys with
  | none => {}
  | some keys => SecureChannel.make keys.tx keys.rx header

/-- The bytes are a signature of the pairing's transcript under the peer's identity. -/
def Verifies (bytes : Bytes) : Prop :=
  ∃ h : bytes.length = signBytes,
    S.signVerifyDetached ⟨bytes, h⟩ p.transcript p.peerIdent = true

instance (bytes : Bytes) : Decidable (p.Verifies bytes) :=
  inferInstanceAs (Decidable (∃ h : bytes.length = signBytes,
    S.signVerifyDetached ⟨bytes, h⟩ p.transcript p.peerIdent = true))

/-- **What `Ok` means.** -/
theorem consumePeerConfirm_eq_ok {bytes : Bytes} {pinned : Option PublicKey}
    (h : (p.consumePeerConfirm bytes pinned).1 = .ok) :
    p.havePeerHello = true ∧ (pinned = none ∨ pinned = some p.peerIdent) ∧
      p.Verifies bytes := by
  unfold consumePeerConfirm at h
  split at h
  · rename_i hready
    split at h
    · cases h
    · rename_i hpinned
      split at h
      · rename_i hverify
        refine ⟨hready.1, ?_, hready.2, hverify⟩
        by_contra hnot
        exact hpinned (not_or.mp hnot)
      · cases h
  · cases h

/-- Accepting marks the pairing and changes nothing else. -/
theorem consumePeerConfirm_ok_snd {bytes : Bytes} {pinned : Option PublicKey}
    (h : (p.consumePeerConfirm bytes pinned).1 = .ok) :
    (p.consumePeerConfirm bytes pinned).2 = { p with confirmed := true } := by
  unfold consumePeerConfirm at h ⊢
  split at h
  · rw [dif_pos ‹_›]
    split at h
    · cases h
    · rw [if_neg ‹_›]
      split at h
      · rw [if_pos ‹_›]
      · cases h
  · cases h

/-- A confirmation that verifies for a peer that may be trusted is accepted. -/
theorem consumePeerConfirm_of_verifies {bytes : Bytes} {pinned : Option PublicKey}
    (hready : p.havePeerHello = true) (hpinned : pinned = none ∨ pinned = some p.peerIdent)
    (hverifies : p.Verifies bytes) : (p.consumePeerConfirm bytes pinned).1 = .ok := by
  obtain ⟨hlength, hverify⟩ := hverifies
  unfold consumePeerConfirm
  rw [dif_pos ⟨hready, hlength⟩, if_neg (fun h => hpinned.elim h.1 h.2), if_pos hverify]

/-- A Hello says who the peer is and which ephemeral it has brought. -/
theorem consumePeerHello_hello (q : Pairing S) :
    p.consumePeerHello q.hello =
      some { p with peerEph := q.eph.pk, peerIdent := q.me.signPk, havePeerHello := true } := by
  have hlength : q.hello.length = kHelloSize := by simp [hello, kHelloSize]
  have heph : (⟨q.hello.take 32, by rw [List.length_take, hlength]; rfl⟩ : ByteArr 32) =
      q.eph.pk := Subtype.ext (List.take_left' q.eph.pk.toList_length)
  have hident : (⟨q.hello.drop 32, by rw [List.length_drop, hlength]; rfl⟩ : PublicKey) =
      q.me.signPk := Subtype.ext (List.drop_left' q.eph.pk.toList_length)
  rw [← heph, ← hident]
  exact dif_pos hlength

/-- The confirmation of the pairing's peer verifies, if both mean the same transcript. -/
theorem verifies_confirm (hsign : S.SignCorrect) {q : Pairing S}
    (hident : q.me.signPk = p.peerIdent) (htranscript : q.transcript = p.transcript) :
    p.Verifies q.confirm := by
  refine ⟨List.Vector.toList_length _, ?_⟩
  show S.signVerifyDetached (S.signDetached q.transcript q.me.signSk) p.transcript p.peerIdent =
    true
  rw [← htranscript, ← hident, q.me.signPk_eq]
  exact hsign q.transcript q.me.signSk

/-! ### What a transcript says -/

/-- **A transcript is injective in what it says.** -/
theorem transcript_inj {p q : Pairing S} :
    p.transcript = q.transcript ↔
      p.serverIdent = q.serverIdent ∧ p.clientIdent = q.clientIdent ∧
        p.serverEph = q.serverEph ∧ p.clientEph = q.clientEph := by
  constructor
  · intro h
    unfold transcript at h
    obtain ⟨h, hclientEph⟩ := List.append_inj' h (by simp)
    obtain ⟨h, hserverEph⟩ := List.append_inj' h (by simp)
    obtain ⟨h, hclientIdent⟩ := List.append_inj' h (by simp)
    have hserverIdent := List.append_cancel_left h
    exact ⟨List.Vector.toList_injective hserverIdent, List.Vector.toList_injective hclientIdent,
      List.Vector.toList_injective hserverEph, List.Vector.toList_injective hclientEph⟩
  · rintro ⟨hserverIdent, hclientIdent, hserverEph, hclientEph⟩
    unfold transcript
    rw [hserverIdent, hclientIdent, hserverEph, hclientEph]

/-- `q` is the other end of `p`: its own half of the pairing is what `p` has been told,
and it has been told `p`'s own. -/
structure Mirrors (q p : Pairing S) : Prop where
  role : q.role = p.role.opposite
  ident : q.me.signPk = p.peerIdent
  eph : q.eph.pk = p.peerEph
  peerEph : q.peerEph = p.eph.pk
  peerIdent : q.peerIdent = p.me.signPk

/-- **The owner of another identity who has signed the transcript of `p` is at the other
end of `p`.**  In the same role its own identity would stand where `p`'s stands. -/
theorem mirrors_of_transcript {p q : Pairing S} (htranscript : q.transcript = p.transcript)
    (hident : q.me.signPk = p.peerIdent) (hother : p.peerIdent ≠ p.me.signPk) :
    q.Mirrors p := by
  obtain ⟨hserverIdent, hclientIdent, hserverEph, hclientEph⟩ :=
    transcript_inj.mp htranscript
  unfold serverIdent at hserverIdent
  unfold clientIdent at hclientIdent
  unfold serverEph at hserverEph
  unfold clientEph at hclientEph
  -- in the same role both would have their own identity in the same place
  cases hp : p.role with
  | server =>
      cases hq : q.role with
      | server =>
          simp only [hp, hq, if_true] at hserverIdent
          exact absurd (hident.symm.trans hserverIdent) hother
      | client =>
          simp only [hp, hq, reduceCtorEq, if_true, if_false]
            at hserverIdent hserverEph hclientEph
          exact ⟨by rw [hp, hq]; rfl, hident, hclientEph, hserverEph, hserverIdent⟩
  | client =>
      cases hq : q.role with
      | server =>
          simp only [hp, hq, reduceCtorEq, if_true, if_false]
            at hclientIdent hserverEph hclientEph
          exact ⟨by rw [hp, hq]; rfl, hident, hserverEph, hclientEph, hclientIdent⟩
      | client =>
          simp only [hp, hq, reduceCtorEq, if_false] at hclientIdent
          exact absurd (hident.symm.trans hclientIdent) hother

/-- The two ends of a pairing derive the same keys, crosswise. -/
theorem sessionKeys_mirrors (hkx : S.KxContract) {p q : Pairing S} (h : q.Mirrors p) :
    ∃ k₁ k₂, p.sessionKeys = some ⟨k₁, k₂⟩ ∧ q.sessionKeys = some ⟨k₂, k₁⟩ := by
  have hown := p.eph.pk_eq
  have hpeer := q.eph.pk_eq
  have hrole := h.role
  unfold sessionKeys
  cases hp : p.role with
  | server =>
      rw [hp] at hrole
      obtain ⟨k₁, k₂, hserver, hclient⟩ := hkx p.eph.sk q.eph.sk
      refine ⟨k₁, k₂, ?_, ?_⟩
      · rw [← h.eph, hown, hpeer]; exact hserver
      · rw [hrole, h.peerEph, hown, hpeer]; exact hclient
  | client =>
      rw [hp] at hrole
      obtain ⟨k₁, k₂, hserver, hclient⟩ := hkx q.eph.sk p.eph.sk
      refine ⟨k₂, k₁, ?_, ?_⟩
      · rw [← h.eph, hown, hpeer]; exact hclient
      · rw [hrole, h.peerEph, hown, hpeer]; exact hserver

end Pairing

end TetherDisplay.Crypto
