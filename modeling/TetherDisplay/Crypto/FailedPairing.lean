import TetherDisplay.Crypto.Completion

/-!
# A pairing that fails

`Establish` saves the peer before it makes the channel and exchanges the headers, so that a
peer that has signed and then goes away, or has brought a degenerate key, is pinned by a call
that fails.  The iPad saves the peer only when its handshake is complete.
-/

namespace TetherDisplay.Crypto

open TetherDisplay.Core (ByteChannel)

variable {S : Sodium} {σ : Type}

namespace Attempt

/-- A call that fails leaves what is pinned as it was. -/
def KeepsPin (s : SecureByteChannel S) (a : Attempt S) (store : IdentityStore σ) (st : σ) :
    Prop :=
  (a.establishOn s store st).result ≠ .ok →
    store.loadPeer (a.establishOn s store st).store = store.loadPeer st

/-- **A call that fails has pinned its peer** exactly when the peer's confirmation was
accepted, nothing was pinned before, and `SavePeer` changed that. -/
theorem keepsPin_iff (s : SecureByteChannel S) (a : Attempt S) (store : IdentityStore σ)
    (st : σ) :
    a.KeepsPin s store st ↔
      ((a.opened store st).isSome ∨ ∀ x ∈ a.accepted store st, store.loadPeer st = none →
        store.loadPeer (store.savePeer st x.1.peerIdent).2 = none) := by
  obtain ⟨raw, hleaves⟩ := a.establishOn_spec store st
  obtain ⟨hresult, -, hstore⟩ := hleaves s
  have hafter : store.loadPeer (a.storeAfter store st) = store.loadPeer st ↔
      ∀ x ∈ a.accepted store st, store.loadPeer st = none →
        store.loadPeer (store.savePeer st x.1.peerIdent).2 = none := by
    unfold storeAfter
    cases haccepted : a.accepted store st with
    | none => exact ⟨fun _ => (by rintro _ ⟨⟩), fun _ => rfl⟩
    | some x =>
        obtain ⟨p, line⟩ := x
        by_cases hload : store.loadPeer st = none
        · simp [hload]
        · simp [hload]
  rw [KeepsPin, hstore, hafter, ne_eq, hresult, or_iff_not_imp_left]

/-- The peer signs, and goes away before it has sent its header. -/
theorem peer_pinned_by_failure :
    let x := Identity.ofSecret Sodium.paper (Sodium.arrOf 64 (5 * 2 ^ 256))
    let y := Identity.ofSecret Sodium.paper (Sodium.arrOf 64 (7 * 2 ^ 256))
    let e := KxKeypair.ofSecret Sodium.paper (Sodium.arrOf 32 3)
    let f := KxKeypair.ofSecret Sodium.paper (Sodium.arrOf 32 4)
    let peer : Pairing Sodium.paper := ⟨y, .client, f, e.pk, x.signPk, true, false⟩
    let a : Attempt Sodium.paper :=
      { raw := { inbox := [.data (recordWire peer.hello ++ recordWire peer.confirm)] }
        me := x
        role := .server
        eph := e
        header := .replicate headerBytes 6 }
    ¬ a.KeepsPin {} IdentityStore.scripted (none, []) := by
  intro x y e f peer a h
  have hkept := h (by decide +kernel)
  exact absurd hkept (by decide +kernel)

end Attempt

end TetherDisplay.Crypto
