import TetherDisplay.Crypto.FirstUse

/-!
# Reflection

One device calls `Establish` again and again, and nobody else is there: the attacker owns
the raw channel and has no identity key, so whatever it presents as a signature was made
by the device itself (`Keyless`).  When the signature was made does not matter, it may be
of another call that is still going on.

The transcript keeps two *different* identities apart, and nothing in `ConsumePeerHello` or
`ConsumePeerConfirm` sees to it that they are different.  As long as no peer names the
device's own identity in its Hello, no call succeeds and nothing is pinned
(`unreflected`).  A peer that sends back all it is sent does name it, and it is taken for
a trusted device and pinned (`echo_pinned`).
-/

namespace TetherDisplay.Crypto

open TetherDisplay.Core (ByteChannel Received arriving arriving_singleton)
open SecureByteChannel (greeted heard)

variable {S : Sodium} {σ : Type}

namespace Attempt

/-- The pairing that signs in the call, if it gets that far. -/
def signing (a : Attempt S) : Option (Pairing S) :=
  (greeted a.pairing (arriving a.raw.inbox)).map Prod.fst

/-- The Hello that the call reads names the device's own identity. -/
def NamesItself (a : Attempt S) : Prop := ∃ p, a.signing = some p ∧ p.peerIdent = a.me.signPk

/-- **Nobody but the devices of these calls has a key**: a confirmation that verifies is of
a transcript that one of the calls has signed. -/
def Keyless (calls : List (Attempt S)) : Prop :=
  ∀ a ∈ calls, ∀ p confirm, heard a.pairing (arriving a.raw.inbox) = some (p, confirm) →
    p.Verifies confirm →
      ∃ b ∈ calls, ∃ q, b.signing = some q ∧ q.me.signPk = p.peerIdent ∧
        q.transcript = p.transcript

/-- A pairing that has heard a confirmation has signed its own. -/
theorem signing_of_heard {a : Attempt S} {p : Pairing S} {confirm : Bytes}
    (h : heard a.pairing (arriving a.raw.inbox) = some (p, confirm)) : a.signing = some p := by
  unfold heard at h
  unfold signing
  cases hgreeted : greeted a.pairing (arriving a.raw.inbox) with
  | none => rw [hgreeted] at h; cases h
  | some r =>
      obtain ⟨p', rest⟩ := r
      simp only [hgreeted] at h
      split at h
      · cases h
        rfl
      · cases h

/-- The first round learns of the peer and leaves the pairing's own half as it is. -/
theorem me_of_signing {a : Attempt S} {p : Pairing S} (h : a.signing = some p) :
    p.me = a.me := by
  unfold signing greeted at h
  split at h
  · rename_i hello k hscan
    simp only [Option.map_map, Pairing.consumePeerHello] at h
    split at h
    · cases h
      rfl
    · cases h
  · cases h

/-- A confirmation that verifies in a run of one device is under its own identity. -/
theorem namesItself_of_keyless {me : Identity S} {calls : List (Attempt S)}
    (hme : ∀ a ∈ calls, a.me = me) (hkeyless : Keyless calls) {a : Attempt S} (ha : a ∈ calls)
    {p : Pairing S} {confirm : Bytes}
    (hheard : heard a.pairing (arriving a.raw.inbox) = some (p, confirm))
    (hverifies : p.Verifies confirm) : a.NamesItself := by
  obtain ⟨b, hb, q, hsigning, hident, -⟩ := hkeyless a ha p confirm hheard hverifies
  refine ⟨p, signing_of_heard hheard, ?_⟩
  rw [← hident, me_of_signing hsigning, hme b hb, hme a ha]

/-- **No reflection as long as nobody names the device's own identity**: no call returns
`Ok`, none calls `SavePeer`, and the store stays as it is. -/
theorem unreflected {me : Identity S} {store : IdentityStore σ} (st : σ)
    {calls : List (Attempt S)} (hme : ∀ a ∈ calls, a.me = me) (hkeyless : Keyless calls)
    (hothers : ∀ a ∈ calls, ¬ a.NamesItself) :
    (∀ before a later, calls = before ++ a :: later →
      (a.establish store (Runs.exec (after store) st before)).result ≠ .ok ∧
        (a.establish store (Runs.exec (after store) st before)).saved = none) ∧
      Runs.exec (after store) st calls = st := by
  have hstep : ∀ a ∈ calls, ∀ st, (a.establish store st).result ≠ .ok ∧
      after store st a = st ∧ (a.establish store st).saved = none := by
    intro a ha st
    rcases SecureByteChannel.establish_cases {} a.raw a.me a.role store st a.eph a.header with
      hfails | ⟨p, confirm, raw, hheard, hverifies, -, -⟩
    · exact hfails
    · exact absurd (namesItself_of_keyless hme hkeyless ha hheard hverifies) (hothers a ha)
  have hrun : ∀ front : List (Attempt S), front ⊆ calls →
      Runs.exec (after store) st front = st := by
    intro front hfront
    induction front with
    | nil => rfl
    | cons a front ih =>
        obtain ⟨ha, hrest⟩ := List.cons_subset.mp hfront
        rw [Runs.exec_cons, (hstep a ha st).2.1]
        exact ih hrest
  refine ⟨?_, hrun calls (List.Subset.refl calls)⟩
  rintro before a later rfl
  obtain ⟨hresult, -, hsaved⟩ := hstep a (by simp) (Runs.exec (after store) st before)
  exact ⟨hresult, hsaved⟩

/-- A peer that names another identity and sends the device's own signature back. -/
theorem unreflected_renamed :
    let x := Identity.ofSecret Sodium.paper (Sodium.arrOf 64 (5 * 2 ^ 256))
    let z := Identity.ofSecret Sodium.paper (Sodium.arrOf 64 (9 * 2 ^ 256))
    let e := KxKeypair.ofSecret Sodium.paper (Sodium.arrOf 32 3)
    let p : Pairing Sodium.paper := ⟨x, .server, e, e.pk, z.signPk, true, false⟩
    let hello := ({ p with me := z } : Pairing Sodium.paper).hello
    let a : Attempt Sodium.paper :=
      { raw := { inbox := [.data (recordWire hello ++ recordWire p.confirm)] }
        me := x
        role := .server
        eph := e
        header := .replicate headerBytes 6 }
    (a.establish .scripted (none, [])).result ≠ .ok ∧
      (a.establish .scripted (none, [])).saved = none := by
  intro x z e p hello a
  have hheard : heard a.pairing (arriving a.raw.inbox) = some (p, p.confirm) := by
    decide +kernel
  have hkeyless : Keyless [a] := by
    intro b hb q confirm hq hverifies
    obtain rfl := List.mem_singleton.mp hb
    rw [hheard, Option.some.injEq, Prod.mk.injEq] at hq
    obtain ⟨rfl, rfl⟩ := hq
    have hforged : ¬ p.Verifies p.confirm := by decide +kernel
    exact absurd hverifies hforged
  have hothers : ∀ b ∈ [a], ¬ b.NamesItself := by
    rintro b hb ⟨q, hsigning, hident⟩
    obtain rfl := List.mem_singleton.mp hb
    rw [signing_of_heard hheard, Option.some.injEq] at hsigning
    subst hsigning
    have hother : p.peerIdent ≠ x.signPk := by decide +kernel
    exact hother hident
  have hme : ∀ b ∈ [a], b.me = x := by
    intro b hb
    obtain rfl := List.mem_singleton.mp hb
    rfl
  obtain ⟨hrun, -⟩ := @unreflected Sodium.paper _ x .scripted (none, []) [a] hme hkeyless hothers
  exact hrun [] a [] rfl

/-- A call whose peer sends back all it is sent. -/
def echo (me : Identity S) (role : Role) (eph : KxKeypair S) (header : ByteArr headerBytes) :
    Attempt S :=
  let p : Pairing S := ⟨me, role, eph, eph.pk, me.signPk, true, false⟩
  { raw := { inbox := [.data (recordWire p.hello ++ (recordWire p.confirm ++
      (recordWire header.toList ++ [])))] }
    me, role, eph, header }

/-- The echoed pairing signs what it has sent. -/
theorem signing_echo (me : Identity S) (role : Role) (eph : KxKeypair S)
    (header : ByteArr headerBytes) :
    (echo me role eph header).signing = some ⟨me, role, eph, eph.pk, me.signPk, true, false⟩ := by
  let p : Pairing S := ⟨me, role, eph, eph.pk, me.signPk, true, false⟩
  have hlength : p.hello.length = 64 := by simp [Pairing.hello]
  have hne : p.hello ≠ [] := by
    intro hnil
    rw [hnil] at hlength
    cases hlength
  have hscan : scanRecord (arriving (echo me role eph header).raw.inbox) =
      .item p.hello (recordWire p.hello).length :=
    scanRecord_item_iff.mpr ⟨hne, by rw [hlength]; decide, rfl, _, arriving_singleton _⟩
  unfold signing greeted
  rw [hscan]
  have hhello := (echo me role eph header).pairing.consumePeerHello_hello p
  simp only [hhello, Option.map_some]
  rfl

/-- The echo has no key: what it sends back as a confirmation, the device has signed. -/
theorem keyless_echo (me : Identity S) (role : Role) (eph : KxKeypair S)
    (header : ByteArr headerBytes) : Keyless [echo me role eph header] := by
  intro a ha p confirm hheard _
  obtain rfl := List.mem_singleton.mp ha
  have hsigning := signing_of_heard hheard
  refine ⟨_, List.mem_singleton_self _, p, hsigning, ?_, rfl⟩
  rw [signing_echo, Option.some.injEq] at hsigning
  rw [← hsigning]

/-- **A device that has not been paired yet pairs with its own echo** and pins itself.
The last part says that the peer is one: what it has sent is what the device has sent. -/
theorem echo_pinned (hsign : S.SignCorrect) (hkx : S.KxContract) (hstream : S.StreamContract)
    (me : Identity S) (role : Role) (eph : KxKeypair S) (header : ByteArr headerBytes)
    (store : IdentityStore σ) (st : σ) (hnone : store.loadPeer st = none)
    (hsaves : (store.savePeer st me.signPk).1 = true) :
    let e := (echo me role eph header).establish store st
    e.result = .ok ∧ e.saved = some me.signPk ∧
      e.self.raw.map ByteChannel.outbox =
        some (arriving (echo me role eph header).raw.inbox) := by
  intro e
  let p : Pairing S := ⟨me, role, eph, eph.pk, me.signPk, true, false⟩
  have hhello : ({ me, role, eph } : Pairing S).consumePeerHello p.hello = some p :=
    Pairing.consumePeerHello_hello _ p
  -- The device's own signature verifies, since it is under its own identity.
  have hverdict : (p.consumePeerConfirm p.confirm (store.loadPeer st)).1 = .ok :=
    p.consumePeerConfirm_of_verifies rfl (Or.inl hnone) (p.verifies_confirm hsign rfl rfl)
  -- The session keys of a pairing with itself.
  have hkeys : ∃ keys, p.sessionKeys = some keys := by
    obtain ⟨k₁, k₂, hserver, hclient⟩ := hkx eph.sk eph.sk
    rw [← eph.pk_eq] at hserver hclient
    unfold Pairing.sessionKeys
    cases role with
    | server => exact ⟨_, hserver⟩
    | client => exact ⟨_, hclient⟩
  obtain ⟨keys, hkeys⟩ := hkeys
  obtain ⟨pull, hpull, -⟩ := hstream.inSync keys.rx header
  have harriving : arriving (echo me role eph header).raw.inbox =
      recordWire p.hello ++ (recordWire p.confirm ++ (recordWire header.toList ++ [])) :=
    arriving_singleton _
  have hsends : (echo me role eph header).raw.sends = [] := rfl
  obtain ⟨raw, -, -, hout, hestablish⟩ := SecureByteChannel.establish_ok {} header hsends
    harriving hhello hverdict (fun _ => hsaves) hkeys hpull
  have he : e = _ := hestablish
  rw [he, hnone]
  refine ⟨rfl, rfl, ?_⟩
  rw [Option.map_some, hout, harriving, List.append_nil]
  simp only [List.append_assoc]
  rfl

/-- The host of a fresh installation, in front of its own echo. -/
theorem echo_trusted :
    let x := Identity.ofSecret Sodium.paper (Sodium.arrOf 64 (5 * 2 ^ 256))
    let e := KxKeypair.ofSecret Sodium.paper (Sodium.arrOf 32 3)
    let a := echo x .server e (.replicate headerBytes 6)
    Keyless [a] ∧ IdentityStore.scripted.loadPeer (none, []) = none ∧
      a.raw.inbox.map Received.bytes =
        ((a.establish .scripted (none, [])).self.raw.map ByteChannel.outbox).toList ∧
      (a.establish .scripted (none, [])).result = .ok ∧
      (a.establish .scripted (none, [])).saved = some x.signPk := by
  intro x e a
  obtain ⟨hok, hsaved, hecho⟩ := echo_pinned Sodium.paper_signCorrect Sodium.paper_kxContract
    Sodium.paper_streamContract x .server e (.replicate headerBytes 6) .scripted (none, []) rfl rfl
  refine ⟨keyless_echo _ _ _ _, rfl, ?_, hok, hsaved⟩
  rw [hecho, Option.toList_some]
  exact congrArg (fun bytes => [bytes]) (arriving_singleton _).symm

end Attempt

end TetherDisplay.Crypto
