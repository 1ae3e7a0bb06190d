import TetherDisplay.Client.HonestPairing
import TetherDisplay.Crypto.RecordLink

/-!
# Who meets whom

A pairing of the host and the iPad may come to nothing: one of them has pinned another device, what
is learned cannot be saved, the cable is pulled.  Whatever becomes of it, the two know whom they
have met.  Each opens with its Hello, and the identity in it is what the other checks, pins and
learns, or it does none of this (`host_meets`, `pad_meets`).  A host that has pinned another does
not take the iPad, and an iPad that has pinned another does not take the host.
-/

namespace TetherDisplay.Client

open Crypto (Sodium PublicKey IdentityStore SecureByteChannel recordWire scanRecord writeFramed
  readFramed)
open TetherDisplay.Core (ByteChannel Received arriving)
open Dialogue (Party Opened)

variable {S : Sodium} {σ : Type}

/-- A part of a Hello is not read yet. -/
theorem scanRecord_hello {hello heard : Bytes} (hne : hello ≠ [])
    (hmax : hello.length ≤ Crypto.kMaxFrame) (hpart : heard <+: recordWire hello)
    (hwhole : ¬ recordWire hello <+: heard) : scanRecord heard = .more := by
  have hshort : heard.length < (recordWire hello).length := by
    refine Nat.lt_of_le_of_ne hpart.length_le fun hlength => hwhole ?_
    rw [hpart.eq_of_length hlength]
  exact Crypto.scanRecord_part hne hmax hpart hshort

/-! ## What has been said stays said -/

namespace Handshake

/-- A frame that is heard takes nothing back of what has been sent. -/
theorem sent_onFrame (h : Handshake S) (frame : Option Bytes) :
    h.transport.sent <+: (h.onFrame frame).transport.sent := by
  unfold onFrame
  split
  · split
    · exact List.prefix_rfl
    · exact List.prefix_append _ _
  · split
    · exact List.prefix_rfl
    · split
      · exact List.prefix_rfl
      · exact List.prefix_rfl
      · exact List.prefix_rfl
      · dsimp only
        split
        · exact List.prefix_rfl
        · exact List.prefix_append _ _
  · split <;> exact List.prefix_rfl
  · exact List.prefix_rfl

/-- What has been sent stays so over the frames of a delivery. -/
theorem sent_readFrames (frames : ℕ) (h : Handshake S) :
    h.transport.sent <+: (h.readFrames frames).transport.sent := by
  induction frames generalizing h with
  | zero => exact List.prefix_rfl
  | succ frames ih =>
      unfold readFrames
      split
      · exact List.prefix_rfl
      · split
        · exact List.prefix_rfl
        · exact h.sent_onFrame none
        · next f buffer _ =>
            exact ((h.withBuffer buffer).sent_onFrame (some f)).trans (ih _)

/-- What has been sent stays so over a delivery. -/
theorem sent_onReceive (h : Handshake S) (d : Delivery) :
    h.transport.sent <+: (h.onReceive d).transport.sent := by
  unfold onReceive
  split
  · exact List.prefix_rfl
  · dsimp only
    split
    · split
      · exact (h.withBuffer (h.transport.buffer ++ d.data)).sent_onFrame none
      · exact List.prefix_rfl
    · exact (h.withBuffer (h.transport.buffer ++ d.data)).sent_readFrames 3

/-! ## The iPad -/

/-- Whom the iPad has met: it has all that came in its buffer and no Hello in it yet, or the Hello
was that of `ident`, or the handshake has failed. -/
structure Meets (h : Handshake S) (ident heard : Bytes) : Prop where
  waiting : h.point = .peerHello → h.transport.buffer = heard
  met : h.point ≠ .peerHello → h.pairing.peerIdent = ident ∨
    h.point = .done ∧ ∀ learned, h.completion ≠ some (.ok, learned)

/-- Behind the Hello nothing touches who the peer is. -/
theorem peerIdent_onFrame {h : Handshake S} (hpoint : h.point ≠ .peerHello)
    (frame : Option Bytes) :
    (h.onFrame frame).pairing.peerIdent = h.pairing.peerIdent ∧
      (h.onFrame frame).point ≠ .peerHello := by
  unfold onFrame
  split
  · next hfirst => exact absurd hfirst hpoint
  · split
    · exact ⟨rfl, by rintro ⟨⟩⟩
    · split
      · exact ⟨rfl, by rintro ⟨⟩⟩
      · exact ⟨rfl, by rintro ⟨⟩⟩
      · exact ⟨rfl, by rintro ⟨⟩⟩
      · dsimp only
        split
        · exact ⟨rfl, by rintro ⟨⟩⟩
        · exact ⟨rfl, by rintro ⟨⟩⟩
  · split
    · exact ⟨rfl, by rintro ⟨⟩⟩
    · exact ⟨rfl, by rintro ⟨⟩⟩
  · exact ⟨rfl, hpoint⟩

theorem peerIdent_readFrames (frames : ℕ) {h : Handshake S} (hpoint : h.point ≠ .peerHello) :
    (h.readFrames frames).pairing.peerIdent = h.pairing.peerIdent ∧
      (h.readFrames frames).point ≠ .peerHello := by
  induction frames generalizing h with
  | zero => exact ⟨rfl, hpoint⟩
  | succ frames ih =>
      unfold readFrames
      split
      · exact ⟨rfl, hpoint⟩
      · split
        · exact ⟨rfl, hpoint⟩
        · exact peerIdent_onFrame hpoint none
        · next f buffer _ =>
            obtain ⟨hident, hnext⟩ := peerIdent_onFrame (h := h.withBuffer buffer) hpoint (some f)
            obtain ⟨hlater, hlast⟩ := ih hnext
            exact ⟨hlater.trans hident, hlast⟩

/-- A handshake that has ended stays as it is. -/
theorem readFrames_done (frames : ℕ) {h : Handshake S} (hpoint : h.point = .done) :
    h.readFrames frames = h := by
  cases frames with
  | zero => rfl
  | succ frames =>
      unfold readFrames
      rw [hpoint]

/-- The first frame, or none. -/
theorem meets_hello {h : Handshake S} (hpoint : h.point = .peerHello) {ident : Bytes}
    {frame : Option Bytes} (hframe : ∀ f ∈ frame, f.drop 32 = ident) :
    (h.onFrame frame).point ≠ .peerHello ∧
      ((h.onFrame frame).pairing.peerIdent = ident ∨ (h.onFrame frame).point = .done ∧
        ∀ learned, (h.onFrame frame).completion ≠ some (.ok, learned)) := by
  unfold onFrame
  simp only [hpoint]
  cases hconsumed : frame.bind h.pairing.consumePeerHello with
  | none => exact ⟨by rintro ⟨⟩, .inr ⟨rfl, by rintro _ ⟨⟩⟩⟩
  | some pairing =>
      obtain ⟨f, hf, hhello⟩ := Option.bind_eq_some_iff.mp hconsumed
      rw [Pairing.consumePeerHello] at hhello
      split_ifs at hhello
      cases hhello
      exact ⟨by rintro ⟨⟩, .inl (hframe f hf)⟩

/-- **One delivery.**  What has come in begins with the Hello of `ident`, or is a part of it. -/
theorem Meets.onReceive {h : Handshake S} {ident heard hello : Bytes} (hmeets : h.Meets ident heard)
    (hident : hello.drop 32 = ident) (hne : hello ≠ []) (hmax : hello.length ≤ Crypto.kMaxFrame)
    {piece : Bytes}
    (hopened : heard ++ piece <+: recordWire hello ∨ recordWire hello <+: heard ++ piece) :
    (h.onReceive { data := piece }).Meets ident (heard ++ piece) := by
  by_cases hpoint : h.point = .peerHello
  · have hbuffer := hmeets.waiting hpoint
    have hdone : h.point ≠ .done := by
      rw [hpoint]
      rintro ⟨⟩
    rw [onReceive_eq hdone, hbuffer]
    by_cases hwhole : recordWire hello <+: heard ++ piece
    · obtain ⟨rest, hrest⟩ := hwhole
      have hscan : scanRecord (heard ++ piece) = .item hello (recordWire hello).length :=
        Crypto.scanRecord_item_iff.mpr ⟨hne, hmax, rfl, rest, hrest.symm⟩
      have hextract := extractFrame_scan (heard ++ piece)
      rw [hscan] at hextract
      have hfirst : (h.withBuffer (heard ++ piece)).readFrames 3 =
          ((h.withBuffer ((heard ++ piece).drop (recordWire hello).length)).onFrame
            (some hello)).readFrames 2 := by
        rw [readFrames]
        split
        · exact absurd ‹_› hdone
        · simp only [buffer_withBuffer, hextract]
          rfl
      obtain ⟨hleft, hmet⟩ := meets_hello
        (h := h.withBuffer ((heard ++ piece).drop (recordWire hello).length)) hpoint
        (show ∀ f ∈ some hello, f.drop 32 = ident by rintro _ ⟨⟩; exact hident)
      rw [hfirst]
      obtain ⟨hkept, hlast⟩ := peerIdent_readFrames 2 hleft
      refine ⟨fun hagain => absurd hagain hlast, fun _ => ?_⟩
      rcases hmet with hmet | ⟨hended, hfailed⟩
      · exact .inl (hkept.trans hmet)
      · rw [readFrames_done 2 hended]
        exact .inr ⟨hended, hfailed⟩
    · -- a part of the Hello is all there is
      have hpart := hopened.resolve_right hwhole
      have hmore := scanRecord_hello hne hmax hpart hwhole
      have hextract := extractFrame_scan (heard ++ piece)
      rw [hmore] at hextract
      have hwaits : (h.withBuffer (heard ++ piece)).readFrames 3 =
          h.withBuffer (heard ++ piece) := by
        rw [readFrames]
        split
        · rfl
        · simp only [buffer_withBuffer, hextract]
      rw [hwaits]
      exact ⟨fun _ => rfl, fun hagain => absurd hpoint hagain⟩
  · have hmet := hmeets.met hpoint
    by_cases hdone : h.point = .done
    · have hsame : h.onReceive { data := piece } = h := by
        unfold Handshake.onReceive
        rw [hdone]
      rw [hsame]
      exact ⟨fun hfirst => absurd hfirst hpoint, fun _ => hmet⟩
    · rw [onReceive_eq hdone]
      obtain ⟨hkept, hlast⟩ :=
        peerIdent_readFrames 3 (h := h.withBuffer (h.transport.buffer ++ piece)) hpoint
      refine ⟨fun hfirst => absurd hfirst hlast, fun _ => .inl (hkept.trans ?_)⟩
      exact hmet.resolve_right fun hended => hdone hended.1

end Handshake

namespace Meeting

variable {m : Meeting S σ}

/-- The iPad opens with its Hello. -/
theorem pad_opens : padParty.Opens m.padStart (recordWire m.padMirror.hello) := by
  intro pieces _
  have hgrows : ∀ h : Handshake S,
      h.transport.sent <+: padParty.said (padParty.after h pieces) := by
    induction pieces with
    | nil => exact fun h => List.prefix_rfl
    | cons p pieces ih =>
        intro h
        exact (h.sent_onReceive { data := p }).trans (ih (by simp_all) (h.onReceive { data := p }))
  rw [← sent_padStart]
  exact hgrows m.padStart

/-- **Whom the iPad has met.**  It ends well only with the host, and only if it has pinned the host
or nothing; then it learns the host if it had pinned nothing. -/
theorem pad_meets {h : Handshake S} {n : ℕ}
    (hopened : Opened padParty m.padStart (recordWire m.hostPairing.hello) h n)
    {learned : Option Bytes} (hcompletion : h.completion = some (.ok, learned)) :
    (m.pinned = none ∨ m.pinned = some m.host.signPk.toList) ∧
      learned = if m.pinned = none then some m.host.signPk.toList else none := by
  obtain ⟨⟨hne, hmax⟩, -⟩ := List.forall_mem_cons.mp (framed_records m.hostPairing m.hostHeader)
  have hdrop : m.hostPairing.hello.drop 32 = m.host.signPk.toList :=
    List.drop_left' m.hostEph.pk.toList_length
  obtain ⟨pieces, -, rfl, -, hagrees⟩ := hopened
  have hmeets : (padParty.after m.padStart pieces).Meets m.host.signPk.toList pieces.flatten ∧
      (padParty.after m.padStart pieces).Sound ∧
      (padParty.after m.padStart pieces).pinned = m.pinned := by
    clear hcompletion
    induction pieces using List.reverseRecOn with
    | nil =>
        refine ⟨⟨fun _ => rfl, fun hpoint => absurd rfl hpoint⟩, ?_, rfl⟩
        exact Handshake.sound_establish m.pad m.padEph m.padHeader m.pinned
    | append_singleton pieces piece ih =>
        have hflatten : (pieces ++ [piece]).flatten = pieces.flatten ++ piece := by
          rw [List.flatten_append, List.flatten_singleton]
        rw [hflatten] at hagrees ⊢
        have hfront : pieces.flatten <+: recordWire m.hostPairing.hello ∨
            recordWire m.hostPairing.hello <+: pieces.flatten := by
          rcases hagrees with hshort | hlong
          · exact .inl ((List.prefix_append _ _).trans hshort)
          · exact List.prefix_or_prefix_of_prefix (List.prefix_append _ _) hlong
        obtain ⟨hmeets, hsound, hpinned⟩ := ih hfront
        have hnext : padParty.after m.padStart (pieces ++ [piece]) =
            (padParty.after m.padStart pieces).onReceive { data := piece } := by
          simp only [Party.after, List.foldl_append, List.foldl_cons, List.foldl_nil]
          rfl
        rw [hnext]
        exact ⟨hmeets.onReceive hdrop hne hmax hagrees, hsound.onReceive _,
          (Handshake.pinned_onReceive _ _).trans hpinned⟩
  obtain ⟨hmeets, hsound, hpinned⟩ := hmeets
  obtain ⟨⟨-, htrusted⟩, hlearned⟩ := hsound.ok learned hcompletion
  have hpoint : (padParty.after m.padStart pieces).point ≠ .peerHello := by
    intro hfirst
    have hwaits := hsound.waiting (by rw [hfirst]; rintro ⟨⟩)
    cases hwaits.symm.trans hcompletion
  have hident := (hmeets.met hpoint).resolve_right fun hended => hended.2 learned hcompletion
  rw [hpinned, hident] at htrusted
  rw [Handshake.learned, hpinned, hident] at hlearned
  exact ⟨htrusted, hlearned⟩

/-! ## The host -/

/-- Reading sends nothing. -/
theorem readFramed_outbox (c : ByteChannel) : (readFramed c).2.outbox = c.outbox := by
  have hread := Crypto.readFramed_scan c
  cases hscan : scanRecord (arriving c.inbox) with
  | more =>
      rw [hscan] at hread
      rw [show readFramed c = _ from hread]
  | fail e =>
      rw [hscan] at hread
      obtain ⟨inbox, hframed, -⟩ := hread
      rw [hframed]
  | item record k =>
      rw [hscan] at hread
      obtain ⟨inbox, hframed, -⟩ := hread
      rw [hframed]

/-- Writing only adds to what has been sent. -/
theorem writeFramed_front (c : ByteChannel) (payload : Bytes) :
    c.outbox <+: (writeFramed c payload).2.outbox := by
  obtain ⟨part, -, hout, -⟩ := Crypto.writeFramed_outbox c payload
  rw [hout]
  exact List.prefix_append _ _

/-- From a verified peer on, what has been written stays written. -/
theorem finishEstablish_says (s : SecureByteChannel S) (store : IdentityStore σ) (st : σ)
    (pinned : Option PublicKey) (p : Crypto.Pairing S) (raw : ByteChannel)
    (header : Crypto.ByteArr Crypto.headerBytes) :
    ∃ raw', (s.finishEstablish store st pinned p raw header).self.raw = some raw' ∧
      raw.outbox <+: raw'.outbox := by
  have hexchange : ∀ channel, ∃ raw', (s.exchangeHeaders raw channel).2.raw = some raw' ∧
      raw.outbox <+: raw'.outbox := by
    intro channel
    have hfront := writeFramed_front raw channel.txHeader
    unfold SecureByteChannel.exchangeHeaders
    cases hwrite : writeFramed raw channel.txHeader with
    | mk sent raw₁ =>
        rw [hwrite] at hfront
        cases sent with
        | false => exact ⟨raw₁, rfl, hfront⟩
        | true =>
            have hkept := readFramed_outbox raw₁
            dsimp only
            cases hread : readFramed raw₁ with
            | mk peerHeader raw₂ =>
                rw [hread] at hkept
                have hall : raw.outbox <+: raw₂.outbox := hkept ▸ hfront
                cases peerHeader with
                | none => exact ⟨raw₂, rfl, hall⟩
                | some peerHeader =>
                    dsimp only
                    split <;> exact ⟨raw₂, rfl, hall⟩
  unfold SecureByteChannel.finishEstablish
  by_cases hnone : pinned = none
  · simp only [if_pos hnone]
    split
    · exact ⟨raw, rfl, List.prefix_rfl⟩
    · split
      · exact ⟨raw, rfl, List.prefix_rfl⟩
      · exact hexchange _
  · simp only [if_neg hnone, Bool.not_true, Bool.false_eq_true, if_false]
    split
    · exact ⟨raw, rfl, List.prefix_rfl⟩
    · exact hexchange _

/-- The host opens with its Hello. -/
theorem host_opens : m.hostParty.Opens [] (recordWire m.hostPairing.hello) := by
  intro pieces _
  generalize m.hostParty.after [] pieces = inbox
  have hsays : ∃ raw, (m.establish inbox).self.raw = some raw ∧
      recordWire m.hostPairing.hello <+: raw.outbox := by
    obtain ⟨c₁, hfirst, hsaid⟩ : ∃ c₁,
        writeFramed { inbox } m.hostPairing.hello = (true, c₁) ∧
          recordWire m.hostPairing.hello <+: c₁.outbox :=
      ⟨_, Crypto.writeFramed_ok rfl (short_hello m.hostPairing), List.prefix_rfl⟩
    unfold establish SecureByteChannel.establish
    simp only [hello_host, hfirst]
    have hkept := readFramed_outbox c₁
    cases hread : readFramed c₁ with
    | mk peerHello c₂ =>
        rw [hread] at hkept
        have hsaid₂ : recordWire m.hostPairing.hello <+: c₂.outbox := hkept ▸ hsaid
        cases peerHello with
        | none => exact ⟨c₂, rfl, hsaid₂⟩
        | some peerHello =>
            dsimp only
            split
            · exact ⟨c₂, rfl, hsaid₂⟩
            · next p _ =>
                have hfront := writeFramed_front c₂ p.confirm
                cases hwrite : writeFramed c₂ p.confirm with
                | mk sent c₃ =>
                    rw [hwrite] at hfront
                    have hsaid₃ := hsaid₂.trans hfront
                    cases sent with
                    | false => exact ⟨c₃, rfl, hsaid₃⟩
                    | true =>
                        have hkept' := readFramed_outbox c₃
                        dsimp only
                        cases hread' : readFramed c₃ with
                        | mk peerConfirm c₄ =>
                            rw [hread'] at hkept'
                            have hsaid₄ : recordWire m.hostPairing.hello <+: c₄.outbox :=
                              hkept' ▸ hsaid₃
                            cases peerConfirm with
                            | none => exact ⟨c₄, rfl, hsaid₄⟩
                            | some peerConfirm =>
                                dsimp only
                                split
                                · exact ⟨c₄, rfl, hsaid₄⟩
                                · exact ⟨c₄, rfl, hsaid₄⟩
                                · exact ⟨c₄, rfl, hsaid₄⟩
                                · next p' _ =>
                                    obtain ⟨raw, hraw, hlast⟩ := finishEstablish_says
                                      ({} : SecureByteChannel S) m.store m.st
                                      (m.store.loadPeer m.st) p' c₄ m.hostHeader
                                    exact ⟨raw, hraw, hsaid₄.trans hlast⟩
  obtain ⟨raw, hraw, hsaid⟩ := hsays
  rw [said_eq hraw]
  exact hsaid

/-- **Whom the host has met.**  It has not touched its store, or it has met the iPad and had pinned
it or nothing; then it has saved the iPad if it had pinned nothing. -/
theorem host_meets {inbox : List Received} {n : ℕ}
    (hopened : Opened m.hostParty [] (recordWire m.padMirror.hello) inbox n) :
    let e := m.establish inbox
    (e.result ≠ .ok ∧ e.store = m.st) ∨
      (m.store.loadPeer m.st = none ∨ m.store.loadPeer m.st = some m.pad.signPk) ∧
        (m.store.loadPeer m.st = none → e.store = (m.store.savePeer m.st m.pad.signPk).2) ∧
        (m.store.loadPeer m.st ≠ none → e.store = m.st) := by
  intro e
  obtain ⟨⟨hne, hmax⟩, -⟩ := List.forall_mem_cons.mp (framed_records m.padMirror m.padHeader)
  obtain ⟨pieces, hpieces, rfl, -, hagrees⟩ := hopened
  have harriving := arriving_after (m := m) hpieces
  rcases SecureByteChannel.establish_cases ({} : SecureByteChannel S)
      { inbox := m.hostParty.after [] pieces } m.host .server m.store m.st m.hostEph
      m.hostHeader with
    ⟨hresult, hstore, -⟩ | ⟨p, confirm, raw, hheard, -, hpinned, hrest⟩
  · exact .inl ⟨hresult, hstore⟩
  · -- the first record is the iPad's Hello
    have hident : p.peerIdent = m.pad.signPk := by
      rw [harriving] at hheard
      unfold SecureByteChannel.heard SecureByteChannel.greeted at hheard
      cases hscan : scanRecord pieces.flatten with
      | more => simp [hscan] at hheard
      | fail e => simp [hscan] at hheard
      | item hello k =>
          have hwhole : recordWire m.padMirror.hello <+: pieces.flatten := by
            rcases hagrees with hpart | hwhole
            · by_contra hnot
              cases hscan.symm.trans (scanRecord_hello hne hmax hpart hnot)
            · exact hwhole
          obtain ⟨rest, hflatten⟩ := hwhole
          have hitem : scanRecord pieces.flatten =
              .item m.padMirror.hello (recordWire m.padMirror.hello).length :=
            Crypto.scanRecord_item_iff.mpr ⟨hne, hmax, rfl, rest, hflatten.symm⟩
          simp only [hitem, host_greeted, Option.map_some] at hheard
          split at hheard
          · cases hheard
            rfl
          · cases hheard
    obtain ⟨-, hsave, hkeep, -⟩ := SecureByteChannel.finishEstablish_spec
      ({} : SecureByteChannel S) m.store m.st (m.store.loadPeer m.st)
      { p with confirmed := true } raw m.hostHeader
    rw [← hrest] at hsave hkeep
    rw [hident] at hpinned
    refine .inr ⟨hpinned, fun hnone => ?_, hkeep⟩
    have hsaved := hsave hnone
    rwa [show ({ p with confirmed := true } : Crypto.Pairing S).peerIdent = m.pad.signPk
      from hident] at hsaved

end Meeting

end TetherDisplay.Client
