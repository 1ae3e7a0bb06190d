import TetherDisplay.Client.HandshakeFrames
import TetherDisplay.Crypto.FirstUse

/-!
# Pairing between the host and the iPad

The two ends of the handshake are written apart.  The host's `Establish` blocks in `Recv` until its
peer's next record is there; the iPad's `establish` is moved on by callbacks.  Here they are
connected, over a reliable channel in each direction that delivers what was sent in any pieces and
at any time.

A `Meeting` is what they bring to it.  The host in the middle of `Establish` is the stream it has
received so far: it has sent what the call sends on a channel that delivers this and then nothing.
Both ends then are parties of a dialogue, each speaks its three records one ahead of the other's
(`host_speaks`, `pad_speaks`), and when nothing is in transit the two are paired (`pairing_ends`).
-/

namespace TetherDisplay.Client

open Crypto (Sodium ByteArr PublicKey headerBytes kMaxFrame kHelloSize Identity KxKeypair
  SessionKeys IdentityStore SecureByteChannel recordWire scanRecord exchange_ok exchange_waits)
open TetherDisplay.Core (ByteChannel Received arriving)
open Dialogue (Party Cut Talk Delivers Quiet)

variable {S : Sodium} {σ : Type}

/-! ## The meeting -/

/-- The pad as a party: it hears pieces, and what it has said is what it has sent. -/
def padParty : Party UInt8 (Handshake S) where
  hear h piece := h.onReceive { data := piece }
  said h := h.transport.sent

variable (S σ) in
/-- What the host and the iPad bring to a pairing, and what the library draws for them. -/
structure Meeting where
  host : Identity S
  hostEph : KxKeypair S
  hostHeader : ByteArr headerBytes
  store : IdentityStore σ
  st : σ
  pad : Identity S
  padEph : KxKeypair S
  padHeader : ByteArr headerBytes
  pinned : Option Bytes

namespace Meeting

variable (m : Meeting S σ)

/-- Each side has pinned the other or nothing, and the host can persist what it learns. -/
structure Honest : Prop where
  hostPin : m.store.loadPeer m.st = none ∨ m.store.loadPeer m.st = some m.pad.signPk
  saves : m.store.loadPeer m.st = none → (m.store.savePeer m.st m.pad.signPk).1 = true
  padPin : m.pinned = none ∨ m.pinned = some m.host.signPk.toList

/-- The host's `Establish`, on what it has received so far. -/
def establish (inbox : List Received) : SecureByteChannel.Established S σ :=
  ({} : SecureByteChannel S).establish { inbox } m.host .server m.store m.st m.hostEph m.hostHeader

/-- The host as a party: what it has said is what `Establish` writes on what it has heard. -/
def hostParty : Party UInt8 (List Received) where
  hear inbox piece := inbox ++ [.data piece]
  said inbox := ((m.establish inbox).self.raw.map ByteChannel.outbox).getD []

/-- Nothing has been received. -/
def start : Talk (List Received) (Handshake S) :=
  ⟨[], Handshake.establish m.pad m.padEph m.padHeader m.pinned, 0, 0⟩

/-! ### The records -/

/-- The host's pairing once it has the iPad's Hello. -/
def hostPairing : Crypto.Pairing S :=
  { me := m.host
    role := .server
    eph := m.hostEph
    peerEph := m.padEph.pk
    peerIdent := m.pad.signPk
    havePeerHello := true }

/-- The other end of it. -/
def padMirror : Crypto.Pairing S :=
  { me := m.pad
    role := .client
    eph := m.padEph
    peerEph := m.hostEph.pk
    peerIdent := m.host.signPk
    havePeerHello := true }

/-- The iPad's pairing once it has the host's Hello. -/
def padPairing : Pairing S :=
  { me := m.pad
    role := .client
    eph := m.padEph
    peerEph := m.hostEph.pk.toList
    peerIdent := m.host.signPk.toList
    havePeerHello := true }

/-- The three records of a side. -/
def records (p : Crypto.Pairing S) (header : ByteArr headerBytes) : List Bytes :=
  [p.hello, p.confirm, header.toList]

/-- All that the host has to say, record by record. -/
def hostScript : List Bytes := (records m.hostPairing m.hostHeader).map recordWire

/-- All that the pad has to say. -/
def padScript : List Bytes := (records m.padMirror m.padHeader).map recordWire

theorem mirrors : m.padMirror.Mirrors m.hostPairing := ⟨rfl, rfl, rfl, rfl, rfl⟩

/-- **The two transcripts are the same.** -/
theorem transcript_eq : m.padMirror.transcript = m.hostPairing.transcript :=
  Crypto.Pairing.transcript_inj.mpr ⟨rfl, rfl, rfl, rfl⟩

@[simp] theorem length_hello (p : Crypto.Pairing S) : p.hello.length = 64 := by
  simp [Crypto.Pairing.hello]

@[simp] theorem length_confirm (p : Crypto.Pairing S) : p.confirm.length = 64 :=
  List.Vector.toList_length _

/-- The records of a pairing can be framed. -/
theorem framed_records (p : Crypto.Pairing S) (header : ByteArr headerBytes) :
    Handshake.Framed (records p header) := by
  have hbound : kMaxFrame = 17825792 := rfl
  have hsmall : ∀ r : Bytes, 0 < r.length → r.length ≤ 64 → r ≠ [] ∧ r.length ≤ kMaxFrame :=
    fun r hpos hle => ⟨List.ne_nil_of_length_pos hpos, by omega⟩
  intro r hr
  simp only [records, List.mem_cons, List.not_mem_nil, or_false] at hr
  rcases hr with rfl | rfl | rfl
  · exact hsmall _ (by rw [length_hello]; decide) (by rw [length_hello])
  · exact hsmall _ (by rw [length_confirm]; decide) (by rw [length_confirm])
  · exact hsmall _ (by rw [List.Vector.toList_length]; decide)
      (by rw [List.Vector.toList_length]; decide)

/-! ### The host -/

/-- Behind the whole records there is a part of one. -/
theorem scan_of_cut {records : List Bytes} (hframed : Handshake.Framed records) {s part : Bytes}
    {k : ℕ} (hcut : Cut (records.map recordWire) s k part) (hk : k < records.length) :
    scanRecord part = .more := by
  have hdrop : (records.map recordWire).drop k =
      recordWire records[k] :: (records.drop (k + 1)).map recordWire := by
    rw [← List.map_drop, List.drop_eq_getElem_cons hk, List.map_cons]
  obtain ⟨hne, hmax⟩ := hframed records[k] (List.getElem_mem hk)
  have hshort : part.length < (recordWire records[k]).length :=
    hcut.short _ (by rw [hdrop]; rfl)
  have hfront : part <+: recordWire records[k] := by
    have hnext := hcut.next
    rw [hdrop, List.flatten_cons] at hnext
    exact List.prefix_of_prefix_length_le hnext (List.prefix_append _ _) (Nat.le_of_lt hshort)
  exact Crypto.scanRecord_part hne hmax hfront hshort

variable {m}

/-- An honest pad is accepted. -/
theorem host_accepts (hsign : S.SignCorrect) (hm : m.Honest) :
    m.hostPairing.consumePeerConfirm m.padMirror.confirm (m.store.loadPeer m.st) =
      (.ok, { m.hostPairing with confirmed := true }) := by
  have hverifies : m.hostPairing.Verifies m.padMirror.confirm :=
    m.hostPairing.verifies_confirm hsign rfl m.transcript_eq
  have hok := m.hostPairing.consumePeerConfirm_of_verifies rfl hm.hostPin hverifies
  exact Prod.ext hok (m.hostPairing.consumePeerConfirm_ok_snd hok)

theorem hello_host : ({ me := m.host, role := .server, eph := m.hostEph } :
    Crypto.Pairing S).hello = m.hostPairing.hello := rfl

/-- The host takes the pad's hello. -/
theorem host_greeted : ({ me := m.host, role := .server, eph := m.hostEph } :
    Crypto.Pairing S).consumePeerHello m.padMirror.hello = some m.hostPairing :=
  Crypto.Pairing.consumePeerHello_hello _ m.padMirror

/-- The channel of the host. -/
theorem makeChannel_host {keys : SessionKeys} (hkeys : m.hostPairing.sessionKeys = some keys) :
    ({ m.hostPairing with confirmed := true } : Crypto.Pairing S).makeChannel m.hostHeader =
      Crypto.SecureChannel.make keys.tx keys.rx m.hostHeader := by
  have hkept : ({ m.hostPairing with confirmed := true } : Crypto.Pairing S).sessionKeys =
      some keys := hkeys
  rw [Crypto.Pairing.makeChannel, hkept]

/-- What the host has said is on its channel. -/
theorem said_eq {inbox : List Received} {raw : ByteChannel}
    (h : (m.establish inbox).self.raw = some raw) : m.hostParty.said inbox = raw.outbox := by
  simp only [hostParty, h, Option.map_some, Option.getD_some]

theorem short_hello (p : Crypto.Pairing S) : p.hello.length < 2 ^ 32 := by
  rw [length_hello]
  decide

theorem short_confirm (p : Crypto.Pairing S) : p.confirm.length < 2 ^ 32 := by
  rw [length_confirm]
  decide

/-- The host waits for the Hello. -/
theorem said_hello {inbox : List Received} (hmore : scanRecord (arriving inbox) = .more) :
    m.hostParty.said inbox = recordWire m.hostPairing.hello := by
  obtain ⟨c₁, c₂, hwrite, hread, hout⟩ :=
    exchange_waits (c := { inbox }) rfl m.hostPairing.hello (short_hello _) hmore
  have hraw : (m.establish inbox).self.raw = some c₂ := by
    unfold establish SecureByteChannel.establish
    simp only [hello_host, hwrite, hread]
  rw [said_eq hraw, hout]
  rfl

/-- The host waits for the confirmation. -/
theorem said_confirm {inbox : List Received} {part : Bytes}
    (hstream : arriving inbox = recordWire m.padMirror.hello ++ part)
    (hmore : scanRecord part = .more) :
    m.hostParty.said inbox =
      recordWire m.hostPairing.hello ++ recordWire m.hostPairing.confirm := by
  obtain ⟨⟨hne, hmax⟩, -⟩ := List.forall_mem_cons.mp (framed_records m.padMirror m.padHeader)
  obtain ⟨c₁, c₂, hwrite, hread, hsends, harriving, hout⟩ :=
    exchange_ok (c := { inbox }) rfl m.hostPairing.hello (short_hello _) hne hmax hstream
  obtain ⟨c₃, c₄, hwrite', hread', hout'⟩ :=
    exchange_waits hsends m.hostPairing.confirm (short_confirm _) (by rw [harriving]; exact hmore)
  have hraw : (m.establish inbox).self.raw = some c₄ := by
    unfold establish SecureByteChannel.establish
    simp only [hello_host, hwrite, hread, host_greeted, hwrite', hread']
  rw [said_eq hraw, hout', hout]
  rfl

/-- The host waits for the header. -/
theorem said_header (hsign : S.SignCorrect) (hm : m.Honest) {keys : SessionKeys}
    (hkeys : m.hostPairing.sessionKeys = some keys) {inbox : List Received} {part : Bytes}
    (hstream : arriving inbox =
      recordWire m.padMirror.hello ++ (recordWire m.padMirror.confirm ++ part))
    (hmore : scanRecord part = .more) :
    m.hostParty.said inbox = recordWire m.hostPairing.hello ++
      recordWire m.hostPairing.confirm ++ recordWire m.hostHeader.toList := by
  obtain ⟨⟨hne, hmax⟩, hrest⟩ := List.forall_mem_cons.mp (framed_records m.padMirror m.padHeader)
  obtain ⟨⟨hne', hmax'⟩, -⟩ := List.forall_mem_cons.mp hrest
  have hheader : m.hostHeader.toList.length < 2 ^ 32 := by
    rw [List.Vector.toList_length]
    decide
  obtain ⟨c₁, c₂, hwrite, hread, hsends, harriving, hout⟩ :=
    exchange_ok (c := { inbox }) rfl m.hostPairing.hello (short_hello _) hne hmax hstream
  obtain ⟨c₃, c₄, hwrite', hread', hsends', harriving', hout'⟩ :=
    exchange_ok hsends m.hostPairing.confirm (short_confirm _) hne' hmax' harriving
  obtain ⟨c₅, c₆, hwrite'', hread'', hout''⟩ :=
    exchange_waits hsends' m.hostHeader.toList hheader (by rw [harriving']; exact hmore)
  have hchannel := makeChannel_host hkeys
  have hexchange : (SecureByteChannel.exchangeHeaders ({} : SecureByteChannel S) c₄
      (Crypto.SecureChannel.make keys.tx keys.rx m.hostHeader)).2.raw = some c₆ := by
    unfold SecureByteChannel.exchangeHeaders
    simp only [show (Crypto.SecureChannel.make keys.tx keys.rx m.hostHeader :
      Crypto.SecureChannel S).txHeader = m.hostHeader.toList from rfl, hwrite'', hread'']
  have hvalid : (Crypto.SecureChannel.make keys.tx keys.rx m.hostHeader :
    Crypto.SecureChannel S).valid = true := rfl
  have hraw : (m.establish inbox).self.raw = some c₆ := by
    unfold establish SecureByteChannel.establish
    simp only [hello_host, hwrite, hread, host_greeted, hwrite', hread', host_accepts hsign hm]
    unfold SecureByteChannel.finishEstablish
    by_cases hnone : m.store.loadPeer m.st = none
    · have hsaves : (m.store.savePeer m.st m.hostPairing.peerIdent).1 = true := hm.saves hnone
      simp only [if_pos hnone, hsaves, hchannel, hvalid, Bool.not_true, Bool.false_eq_true,
        if_false, hexchange]
    · simp only [if_neg hnone, hchannel, hvalid, Bool.not_true, Bool.false_eq_true, if_false,
        hexchange]
  rw [said_eq hraw, hout'', hout', hout]
  rfl

/-- **The host ends well** when it has received everything. -/
theorem establish_all (hsign : S.SignCorrect) (hm : m.Honest) {keys : SessionKeys}
    (hkeys : m.hostPairing.sessionKeys = some keys) {pull : S.secretstream.Pull}
    (hpull : S.initPull m.padHeader keys.rx = some pull) {inbox : List Received}
    (hstream : arriving inbox = m.padScript.flatten) :
    ∃ raw, arriving raw.inbox = [] ∧ raw.outbox = m.hostScript.flatten ∧ m.establish inbox =
      { result := .ok
        self :=
          { raw := some raw
            channel := { Crypto.SecureChannel.make keys.tx keys.rx m.hostHeader with
              pullState := some pull } }
        store := if m.store.loadPeer m.st = none then (m.store.savePeer m.st m.pad.signPk).2
          else m.st
        saved := if m.store.loadPeer m.st = none then some m.pad.signPk else none
        pairing := { m.hostPairing with confirmed := true } } := by
  have harriving : arriving ({ inbox } : ByteChannel).inbox = recordWire m.padMirror.hello ++
      (recordWire m.padMirror.confirm ++ (recordWire m.padHeader.toList ++ [])) := by
    rw [show arriving ({ inbox } : ByteChannel).inbox = _ from hstream]
    simp [padScript, records]
  have hverdict : (m.hostPairing.consumePeerConfirm m.padMirror.confirm
      (m.store.loadPeer m.st)).1 = .ok := by rw [host_accepts hsign hm]
  obtain ⟨raw, -, hrest, hout, hestablish⟩ := SecureByteChannel.establish_ok
    ({} : SecureByteChannel S) m.hostHeader rfl harriving host_greeted hverdict
    hm.saves hkeys hpull
  refine ⟨raw, hrest, ?_, hestablish⟩
  rw [hout]
  simp [hostScript, records]
  rfl

/-- What has been received, as the stream. -/
theorem arriving_after {pieces : List Bytes} (hpieces : ∀ p ∈ pieces, p ≠ []) :
    arriving (m.hostParty.after [] pieces) = pieces.flatten := by
  have hinbox : ∀ inbox : List Received,
      m.hostParty.after inbox pieces = inbox ++ pieces.map Received.data := by
    induction pieces with
    | nil => simp [Party.after]
    | cons p pieces ih =>
        intro inbox
        have hlater := ih (fun q hq => hpieces q (List.mem_cons_of_mem _ hq)) (inbox ++ [.data p])
        rw [Party.after, List.foldl_cons]
        exact hlater.trans (by simp)
  rw [hinbox, List.nil_append]
  clear hinbox
  induction pieces with
  | nil => rfl
  | cons p pieces ih =>
      obtain ⟨hp, hrest⟩ := List.forall_mem_cons.mp hpieces
      obtain ⟨b, bytes, rfl⟩ := List.exists_cons_of_ne_nil hp
      rw [List.map_cons, Core.arriving_data, ih hrest, List.flatten_cons]

/-- **The host speaks its records**, one ahead of the iPad's. -/
theorem host_speaks (hsign : S.SignCorrect) (hm : m.Honest) {keys : SessionKeys}
    (hkeys : m.hostPairing.sessionKeys = some keys) {pull : S.secretstream.Pull}
    (hpull : S.initPull m.padHeader keys.rx = some pull) :
    m.hostParty.Speaks [] m.hostScript m.padScript := by
  intro pieces hpieces hfront
  obtain ⟨k, hk, part, hcut⟩ := Dialogue.exists_cut hfront
  refine ⟨k, part, hcut, ?_⟩
  have hstream : arriving (m.hostParty.after [] pieces) = (m.padScript.take k).flatten ++ part :=
    (arriving_after hpieces).trans hcut.stream
  have hmore : k < 3 → scanRecord part = .more :=
    scan_of_cut (framed_records m.padMirror m.padHeader) hcut
  have hcases : k = 0 ∨ k = 1 ∨ k = 2 ∨ k = 3 := by
    have hthree : k ≤ 3 := hk
    omega
  rcases hcases with rfl | rfl | rfl | rfl
  · rw [said_hello (by rw [hstream]; exact hmore (by decide))]
    simp [hostScript, records]
  · rw [said_confirm (by rw [hstream]; simp [padScript, records])
      (hmore (by decide))]
    simp [hostScript, records]
  · rw [said_header hsign hm hkeys (by rw [hstream]; simp [padScript, records])
      (hmore (by decide))]
    simp [hostScript, records]
  · have hall : arriving (m.hostParty.after [] pieces) = m.padScript.flatten :=
      (arriving_after hpieces).trans (hcut.all (Nat.le_refl 3)).1
    obtain ⟨raw, -, hout, hestablish⟩ := establish_all hsign hm hkeys hpull hall
    have hraw : (m.establish (m.hostParty.after [] pieces)).self.raw = some raw := by
      rw [hestablish]
    rw [said_eq hraw, hout]
    rfl

/-! ### The iPad -/

variable (m)

/-- The call of the iPad's `establish`. -/
def padStart : Handshake S := Handshake.establish m.pad m.padEph m.padHeader m.pinned

/-- It has the host's Hello. -/
def padGreeted : Handshake S :=
  { m.padStart with
    pairing := m.padPairing
    transport := m.padStart.transport.sendFramed m.padPairing.confirm
    point := .peerConfirm }

/-- The channel that the iPad makes. -/
def padChannel (keys : SessionKeys) : SecureChannel S := .make keys.tx keys.rx m.padHeader

/-- It has the host's confirmation. -/
def padTrusting (keys : SessionKeys) : Handshake S :=
  { m.padGreeted with
    authenticated := some m.host.signPk.toList
    transport := { m.padGreeted.transport with
      channel := some (m.padChannel keys) }.sendFramed m.padHeader.toList
    point := .peerHeader }

/-- It has the host's header. -/
def padPaired (keys : SessionKeys) (pull : S.secretstream.Pull) : Handshake S :=
  { m.padTrusting keys with
    transport := { (m.padTrusting keys).transport with
      channel := some { m.padChannel keys with pull := some pull } }
    point := .done
    completion := some (.ok, if m.pinned = none then some m.host.signPk.toList else none) }

variable {m}

/-- The pad hears the host's hello. -/
theorem onFrame_hello : m.padStart.onFrame (some m.hostPairing.hello) = m.padGreeted := by
  have hconsumed : m.padStart.pairing.consumePeerHello m.hostPairing.hello = some m.padPairing := by
    have htake : m.hostPairing.hello.take 32 = m.hostEph.pk.toList :=
      List.take_left' m.hostEph.pk.toList_length
    have hdrop : m.hostPairing.hello.drop 32 = m.host.signPk.toList :=
      List.drop_left' m.hostEph.pk.toList_length
    have hlength : m.hostPairing.hello.length = kHelloSize := length_hello _
    rw [Pairing.consumePeerHello, if_pos hlength, htake, hdrop]
    rfl
  rw [Handshake.onFrame_consumed rfl hconsumed]
  rfl

/-- The pad accepts an honest host. -/
theorem pad_accepts (hsign : S.SignCorrect) (hm : m.Honest) :
    m.padPairing.consumePeerConfirm m.hostPairing.confirm m.pinned = .ok := by
  obtain ⟨hlength, hverify⟩ :=
    m.padMirror.verifies_confirm hsign (q := m.hostPairing) rfl m.transcript_eq.symm
  have hsigned : verify S m.padPairing.transcript m.padPairing.peerIdent m.hostPairing.confirm =
      true := by
    rw [verify, dif_pos ⟨List.Vector.toList_length _, hlength⟩]
    exact hverify
  rw [Pairing.consumePeerConfirm, if_pos ⟨rfl, length_confirm _⟩,
    if_neg (fun h => hm.padPin.elim h.1 h.2), if_pos hsigned]

/-- The pad hears the host's confirmation. -/
theorem onFrame_confirm (hsign : S.SignCorrect) (hm : m.Honest) {keys : SessionKeys}
    (hkeys : m.padMirror.sessionKeys = some keys) :
    m.padGreeted.onFrame (some m.hostPairing.confirm) = m.padTrusting keys := by
  have hpair : sessionKeyPair S m.padEph m.hostEph.pk.toList .client = some keys := by
    rw [sessionKeyPair, dif_pos (List.Vector.toList_length _)]
    exact hkeys
  have hmade : m.padPairing.makeChannel m.padHeader = some (m.padChannel keys) := by
    rw [Pairing.makeChannel, show sessionKeyPair S m.padPairing.eph m.padPairing.peerEph
      m.padPairing.role = some keys from hpair]
    rfl
  rw [Handshake.onFrame_accepted rfl (pad_accepts hsign hm) hmade]
  rfl

/-- The pad hears the host's header. -/
theorem onFrame_header {keys : SessionKeys} {pull : S.secretstream.Pull}
    (hpull : S.initPull m.hostHeader keys.rx = some pull) :
    (m.padTrusting keys).onFrame (some m.hostHeader.toList) = m.padPaired keys pull := by
  have hinit : (m.padChannel keys).initRx m.hostHeader.toList =
      some { m.padChannel keys with pull := some pull } := by
    rw [SecureChannel.initRx, dif_pos m.hostHeader.toList_length]
    show (S.initPull m.hostHeader keys.rx).map _ = _
    rw [hpull]
    rfl
  rw [Handshake.onFrame_opened rfl rfl hinit]
  rfl

theorem sent_sendFramed (t : SecureTransport S) {payload : Bytes}
    (hlength : payload.length < 2 ^ 32) :
    (t.sendFramed payload).sent = t.sent ++ recordWire payload := by
  have hheader : Crypto.lengthHeader (UInt32.ofNat payload.length) =
      LittleEndian.leBytes 4 payload.length := by
    rw [Crypto.lengthHeader_eq, UInt32.toNat_ofNat_of_lt' hlength]
  rw [SecureTransport.sendFramed, hheader]
  rfl

/-- At first the pad has sent its hello. -/
theorem sent_padStart : m.padStart.transport.sent = recordWire m.padMirror.hello :=
  sent_sendFramed _ (short_hello m.padMirror)

/-- After the host's hello it has sent its confirmation. -/
theorem sent_padGreeted : m.padGreeted.transport.sent =
    recordWire m.padMirror.hello ++ recordWire m.padMirror.confirm := by
  rw [← sent_padStart]
  exact sent_sendFramed _ (short_confirm m.padMirror)

/-- After the host's confirmation it has sent its header. -/
theorem sent_padTrusting (keys : SessionKeys) : (m.padTrusting keys).transport.sent =
    recordWire m.padMirror.hello ++ recordWire m.padMirror.confirm ++
      recordWire m.padHeader.toList := by
  have hheader : m.padHeader.toList.length < 2 ^ 32 := by
    rw [List.Vector.toList_length]
    decide
  rw [← sent_padGreeted]
  exact sent_sendFramed _ hheader

/-- The iPad after each of the host's records. -/
theorem onFrames_records (hsign : S.SignCorrect) (hm : m.Honest) {keys : SessionKeys}
    (hkeys : m.padMirror.sessionKeys = some keys) {pull : S.secretstream.Pull}
    (hpull : S.initPull m.hostHeader keys.rx = some pull) :
    let records := records m.hostPairing m.hostHeader
    m.padStart.onFrames (records.take 1) = m.padGreeted ∧
      m.padStart.onFrames (records.take 2) = m.padTrusting keys ∧
      m.padStart.onFrames (records.take 3) = m.padPaired keys pull := by
  have hgreeted : m.padStart.onFrames [m.hostPairing.hello] = m.padGreeted := onFrame_hello
  have htrusting : m.padStart.onFrames ([m.hostPairing.hello] ++ [m.hostPairing.confirm]) =
      m.padTrusting keys := by
    rw [Handshake.onFrames_append, hgreeted]
    exact onFrame_confirm hsign hm hkeys
  have hpaired : m.padStart.onFrames ([m.hostPairing.hello] ++ [m.hostPairing.confirm] ++
      [m.hostHeader.toList]) = m.padPaired keys pull := by
    rw [Handshake.onFrames_append, htrusting]
    exact onFrame_header hpull
  exact ⟨hgreeted, htrusting, hpaired⟩

/-- **The iPad hears the host**, whatever the pieces. -/
theorem pad_hears (hsign : S.SignCorrect) (hm : m.Honest) {keys : SessionKeys}
    (hkeys : m.padMirror.sessionKeys = some keys) {pull : S.secretstream.Pull}
    (hpull : S.initPull m.hostHeader keys.rx = some pull) {pieces : List Bytes}
    (hpieces : ∀ p ∈ pieces, p ≠ []) (hfront : pieces.flatten <+: m.hostScript.flatten) :
    ∃ k ≤ 3, ∃ part, Cut m.hostScript pieces.flatten k part ∧
      padParty.after m.padStart pieces =
        (m.padStart.onFrames ((records m.hostPairing m.hostHeader).take k)).withBuffer part := by
  obtain ⟨hgreeted, htrusting, -⟩ := onFrames_records hsign hm hkeys hpull
  have hwaits : m.padStart.WaitsFor (records m.hostPairing m.hostHeader) := by
    intro j hj
    have hcases : j = 0 ∨ j = 1 ∨ j = 2 := by
      have hthree : j < 3 := hj
      omega
    rcases hcases with rfl | rfl | rfl
    · show HandshakePoint.peerHello ≠ .done
      decide
    · rw [hgreeted]
      show HandshakePoint.peerConfirm ≠ .done
      decide
    · rw [htrusting]
      show HandshakePoint.peerHeader ≠ .done
      decide
  exact Handshake.hears_cut (framed_records m.hostPairing m.hostHeader) (Nat.le_refl 3) rfl hwaits
    hpieces hfront

/-- **The iPad speaks its records**, one ahead of the host's. -/
theorem pad_speaks (hsign : S.SignCorrect) (hm : m.Honest) {keys : SessionKeys}
    (hkeys : m.padMirror.sessionKeys = some keys) {pull : S.secretstream.Pull}
    (hpull : S.initPull m.hostHeader keys.rx = some pull) :
    padParty.Speaks m.padStart m.padScript m.hostScript := by
  intro pieces hpieces hfront
  obtain ⟨k, hk, part, hcut, hheard⟩ := pad_hears hsign hm hkeys hpull hpieces hfront
  obtain ⟨hgreeted, htrusting, hpaired⟩ := onFrames_records hsign hm hkeys hpull
  refine ⟨k, part, hcut, ?_⟩
  rw [hheard]
  have hcases : k = 0 ∨ k = 1 ∨ k = 2 ∨ k = 3 := by omega
  rcases hcases with rfl | rfl | rfl | rfl
  · show m.padStart.transport.sent = _
    rw [sent_padStart]
    simp [padScript, records]
  · rw [hgreeted]
    show m.padGreeted.transport.sent = _
    rw [sent_padGreeted]
    simp [padScript, records]
  · rw [htrusting]
    show (m.padTrusting keys).transport.sent = _
    rw [sent_padTrusting]
    simp [padScript, records]
  · rw [hpaired]
    show (m.padTrusting keys).transport.sent = _
    rw [sent_padTrusting]
    simp [padScript, records]

/-! ### Together -/

/-- The two are paired: the host with what it has received, and the iPad. -/
structure Paired (m : Meeting S σ) (inbox : List Received) (h : Handshake S) : Prop where
  host : (m.establish inbox).result = .ok
  pad : h.completion =
    some (.ok, if m.pinned = none then some m.host.signPk.toList else none)
  transcript : (m.establish inbox).pairing.transcript = h.pairing.transcript
  hostPeer : (m.establish inbox).pairing.peerIdent = m.pad.signPk
  padPeer : h.pairing.peerIdent = m.host.signPk.toList
  /-- The host has pinned the iPad now or before. -/
  saved : (m.establish inbox).saved =
    if m.store.loadPeer m.st = none then some m.pad.signPk else none
  /-- Crosswise: what one sends with is what the other receives with, from its header on. -/
  channels : ∃ (keys : SessionKeys) (pull pull' : S.secretstream.Pull),
    (m.establish inbox).pairing.sessionKeys = some keys ∧
      sessionKeyPair S h.pairing.eph h.pairing.peerEph h.pairing.role =
        some { rx := keys.tx, tx := keys.rx } ∧
      S.initPull m.padHeader keys.rx = some pull ∧ S.initPull m.hostHeader keys.tx = some pull' ∧
      (m.establish inbox).self.channel =
        { Crypto.SecureChannel.make keys.tx keys.rx m.hostHeader with pullState := some pull } ∧
      h.transport.channel =
        some { SecureChannel.make keys.rx keys.tx m.padHeader with pull := some pull' }
  /-- Nothing is left over on either side. -/
  hostRest : (m.establish inbox).self.raw.map (fun raw => arriving raw.inbox) = some []
  padRest : h.transport.buffer = []

/-- **An honest pairing ends well.**  In every schedule there are at most 328 deliveries, one a
byte, and when there is nothing more to deliver the two are paired. -/
theorem pairing_ends (hsign : S.SignCorrect) (hkx : S.KxContract) (hstream : S.StreamContract)
    (hm : m.Honest) {acts : List Dialogue.Act}
    (hrun : Runs.Admits (Dialogue.step m.hostParty padParty) (Delivers m.hostParty padParty)
      m.start acts) :
    acts.length ≤ 328 ∧
      (Quiet m.hostParty padParty
          (Runs.exec (Dialogue.step m.hostParty padParty) m.start acts) →
        m.Paired (Runs.exec (Dialogue.step m.hostParty padParty) m.start acts).left
          (Runs.exec (Dialogue.step m.hostParty padParty) m.start acts).right) := by
  obtain ⟨k₁, k₂, hkeys, hkeys'⟩ := Crypto.Pairing.sessionKeys_mirrors hkx m.mirrors
  obtain ⟨pull, hpull, -⟩ := hstream.inSync k₁ m.padHeader
  obtain ⟨pull', hpull', -⟩ := hstream.inSync k₂ m.hostHeader
  have hhost := host_speaks hsign hm hkeys hpull
  have hpad := pad_speaks hsign hm hkeys' hpull'
  constructor
  · have hcount := Dialogue.length_le hhost hpad hrun
    have hlength : ∀ (p : Crypto.Pairing S) (header : ByteArr headerBytes),
        ((records p header).map recordWire).flatten.length = 164 := by
      intro p header
      simp [records, headerBytes]
    have htotal : m.hostScript.flatten.length + m.padScript.flatten.length = 328 := by
      rw [hostScript, padScript, hlength, hlength]
    omega
  · intro hquiet
    have hlengths : m.hostScript.length = m.padScript.length := rfl
    obtain ⟨⟨pieces, hpieces, hheard, hleft⟩, pieces', hpieces', hheard', hright⟩ :=
      Dialogue.heard_all hlengths hhost hpad hrun hquiet
    have harriving : arriving (m.hostParty.after [] pieces) = m.padScript.flatten :=
      (arriving_after hpieces).trans hheard
    obtain ⟨raw, hrest, -, hestablish⟩ := establish_all hsign hm hkeys hpull
      harriving
    have hpaired : padParty.after m.padStart pieces' = m.padPaired ⟨k₂, k₁⟩ pull' := by
      have hfront : pieces'.flatten <+: m.hostScript.flatten := by rw [hheard']
      obtain ⟨k, hk, part, hcut, hafter⟩ :=
        pad_hears hsign hm hkeys' hpull' hpieces' hfront
      rw [hheard'] at hcut
      have hthree : 3 ≤ k := hcut.of_flatten
      obtain rfl : k = 3 := by omega
      rw [hafter, (hcut.all hthree).2, (onFrames_records hsign hm hkeys' hpull').2.2]
      rfl
    have hright' : (Runs.exec (Dialogue.step m.hostParty padParty) m.start acts).right =
        m.padPaired ⟨k₂, k₁⟩ pull' := hright.trans hpaired
    rw [show (Runs.exec (Dialogue.step m.hostParty padParty) m.start acts).left = _ from hleft,
      hright']
    constructor
    · rw [hestablish]
    · rfl
    · rw [hestablish]
      exact m.transcript_eq.symm
    · rw [hestablish]
      rfl
    · rfl
    · rw [hestablish]
    · rw [hestablish]
      refine ⟨⟨k₁, k₂⟩, pull, pull', hkeys, ?_, hpull, hpull', rfl, rfl⟩
      show sessionKeyPair S m.padEph m.hostEph.pk.toList .client = _
      rw [sessionKeyPair, dif_pos (List.Vector.toList_length _)]
      exact hkeys'
    · rw [hestablish]
      exact congrArg some hrest
    · rfl

/-- A host that pairs for the first time and an iPad that has pinned it, on paper. -/
def paperMeeting : Meeting Sodium.paper (Option PublicKey × List Bool) :=
  let host := Identity.ofSecret Sodium.paper (Sodium.arrOf 64 (5 * 2 ^ 256))
  { host
    hostEph := .ofSecret Sodium.paper (Sodium.arrOf 32 3)
    hostHeader := .replicate headerBytes 6
    store := .scripted
    st := (none, [])
    pad := .ofSecret Sodium.paper (Sodium.arrOf 64 (7 * 2 ^ 256))
    padEph := .ofSecret Sodium.paper (Sodium.arrOf 32 4)
    padHeader := .replicate headerBytes 8
    pinned := some host.signPk.toList }

theorem pairing_ends_paper :
    let acts : List Dialogue.Act :=
      [.toLeft 1, .toRight 70, .toLeft 99, .toRight 0, .toRight 99, .toLeft 99, .toRight 99]
    let t := Runs.exec (Dialogue.step paperMeeting.hostParty padParty) paperMeeting.start acts
    acts.length ≤ 328 ∧ paperMeeting.Paired t.left t.right := by
  intro acts t
  have hm : paperMeeting.Honest := ⟨Or.inl rfl, fun _ => rfl, Or.inr rfl⟩
  have hrun : Runs.Admits (Dialogue.step paperMeeting.hostParty padParty)
      (Delivers paperMeeting.hostParty padParty) paperMeeting.start acts := by decide +kernel
  have hquiet : Quiet paperMeeting.hostParty padParty t := by decide +kernel
  obtain ⟨hlength, hpaired⟩ := pairing_ends Sodium.paper_signCorrect Sodium.paper_kxContract
    Sodium.paper_streamContract hm hrun
  exact ⟨hlength, hpaired hquiet⟩

end Meeting

end TetherDisplay.Client
