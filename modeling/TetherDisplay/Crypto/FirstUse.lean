import TetherDisplay.Crypto.SecureByteChannel
import TetherDisplay.Foundations.Runs

/-!
# Trust on first use

One identity store serves every call of `Establish`.  A run is a sequence of calls, each
on a fresh object, with whatever the raw channel delivers and however it fails; the store
may fail at any point too.  What is asked of the store is `Lawful`: a `SavePeer` that
reports success is seen by `LoadPeer`, and one that reports failure leaves what is pinned.

Then an identity once pinned stays pinned, and no call succeeds with another one
(`first_use_permanent`).  The one step behind this is `establish_pin`: a call that finds a
pin keeps it, and a call that succeeds leaves its own peer pinned.
-/

namespace TetherDisplay.Crypto

open TetherDisplay.Core (ByteChannel Received arriving)

variable {S : Sodium} {σ : Type}

/-- What is relied on of a store. -/
structure IdentityStore.Lawful (store : IdentityStore σ) : Prop where
  seen : ∀ st peer, (store.savePeer st peer).1 = true →
    store.loadPeer (store.savePeer st peer).2 = some peer
  kept : ∀ st peer, (store.savePeer st peer).1 = false →
    store.loadPeer (store.savePeer st peer).2 = store.loadPeer st

/-- A store in memory whose next calls of `SavePeer` succeed or fail as listed. -/
def IdentityStore.scripted : IdentityStore (Option PublicKey × List Bool) where
  loadPeer st := st.1
  savePeer
    | (pin, false :: saves), _ => (false, (pin, saves))
    | (_, true :: saves), peer => (true, (some peer, saves))
    | (_, []), peer => (true, (some peer, []))

/-- Such a store is lawful. -/
theorem IdentityStore.scripted_lawful : IdentityStore.scripted.Lawful where
  seen
    | (_, false :: _), _, h => by cases h
    | (_, true :: _), _, _ => rfl
    | (_, []), _, _ => rfl
  kept
    | (_, false :: _), _, _ => rfl
    | (_, true :: _), _, h => by cases h
    | (_, []), _, h => by cases h

variable (S) in
/-- The arguments of a call of `Establish`, and what the library draws during it. -/
structure Attempt where
  raw : ByteChannel
  me : Identity S
  role : Role
  eph : KxKeypair S
  header : ByteArr headerBytes

namespace Attempt

/-- The pairing that the call starts with. -/
def pairing (a : Attempt S) : Pairing S := { me := a.me, role := a.role, eph := a.eph }

/-- The call, on a fresh object. -/
def establish (a : Attempt S) (store : IdentityStore σ) (st : σ) :
    SecureByteChannel.Established S σ :=
  ({} : SecureByteChannel S).establish a.raw a.me a.role store st a.eph a.header

/-- What the call leaves of the store. -/
def after (store : IdentityStore σ) (st : σ) (a : Attempt S) : σ := (a.establish store st).store

/-- **One call.**  A pin that it finds is kept; if it succeeds its peer has signed and is
pinned, and is the peer that was pinned before if one was. -/
theorem establish_pin {store : IdentityStore σ} (hlawful : store.Lawful) (st : σ)
    (a : Attempt S) :
    (∀ pin, store.loadPeer st = some pin → store.loadPeer (after store st a) = some pin) ∧
      ((a.establish store st).result = .ok →
        store.loadPeer (after store st a) = some (a.establish store st).pairing.peerIdent ∧
          ∃ confirm, (a.establish store st).pairing.Verifies confirm) := by
  rcases SecureByteChannel.establish_cases {} a.raw a.me a.role store st a.eph a.header with
    ⟨hresult, hstore, -⟩ | ⟨p, confirm, raw, -, hverifies, hpinned, hrest⟩
  · refine ⟨fun pin hpin => ?_, fun hok => absurd hok hresult⟩
    rw [after, establish, hstore, hpin]
  · obtain ⟨hpairing, hsave, hkeep, hok⟩ := SecureByteChannel.finishEstablish_spec {} store st
      (store.loadPeer st) { p with confirmed := true } raw a.header
    rw [← hrest] at hpairing hsave hkeep hok
    constructor
    · intro pin hpin
      rw [after, establish, hkeep (by rw [hpin]; simp), hpin]
    · intro hresult
      have hpin : store.loadPeer (after store st a) = some p.peerIdent := by
        -- first use pins the peer; later its identity is the pin already
        rcases hpinned with hnone | hsome
        · rw [after, establish, hsave hnone]
          exact hlawful.seen st p.peerIdent ((hok hresult).1 hnone)
        · rw [after, establish, hkeep (by rw [hsome]; simp), hsome]
      rw [show (a.establish store st).pairing = _ from hpairing]
      exact ⟨hpin, confirm, hverifies⟩

/-- A pin is kept by every later call. -/
theorem pin_kept {store : IdentityStore σ} (hlawful : store.Lawful) {st : σ} {pin : PublicKey}
    (hpin : store.loadPeer st = some pin) (attempts : List (Attempt S)) :
    store.loadPeer (Runs.exec (after store) st attempts) = some pin := by
  have hstep : ∀ (st : σ) (a : Attempt S), store.loadPeer st = some pin →
      store.loadPeer (after store st a) = some pin :=
    fun st a hpin => (establish_pin hlawful st a).1 pin hpin
  exact Runs.exec_preserves hstep hpin attempts

/-- **Trust on first use is permanent.**  In a sequence of calls that share a store, what
is pinned never changes once it is set; the peer of a call that succeeds has signed its
transcript and is pinned from then on; and all calls that succeed have the same peer. -/
theorem first_use_permanent {store : IdentityStore σ} (hlawful : store.Lawful) (st : σ) :
    (∀ (before later : List (Attempt S)) (pin : PublicKey),
      store.loadPeer (Runs.exec (after store) st before) = some pin →
        store.loadPeer (Runs.exec (after store) st (before ++ later)) = some pin) ∧
    (∀ (before : List (Attempt S)) (a : Attempt S) (later : List (Attempt S)),
      let e := a.establish store (Runs.exec (after store) st before)
      e.result = .ok →
        (∃ confirm, e.pairing.Verifies confirm) ∧
          store.loadPeer (Runs.exec (after store) st (before ++ a :: later)) =
            some e.pairing.peerIdent) ∧
    (∀ (before : List (Attempt S)) (a : Attempt S) (between : List (Attempt S))
      (b : Attempt S),
      let e := a.establish store (Runs.exec (after store) st before)
      let e' := b.establish store (Runs.exec (after store) st (before ++ a :: between))
      e.result = .ok → e'.result = .ok → e'.pairing.peerIdent = e.pairing.peerIdent) := by
  have hkept : ∀ (before later : List (Attempt S)) (pin : PublicKey),
      store.loadPeer (Runs.exec (after store) st before) = some pin →
        store.loadPeer (Runs.exec (after store) st (before ++ later)) = some pin := by
    intro before later pin hpin
    rw [Runs.exec_append]
    exact pin_kept hlawful hpin later
  have hpinned : ∀ (before : List (Attempt S)) (a : Attempt S) (later : List (Attempt S)),
      let e := a.establish store (Runs.exec (after store) st before)
      e.result = .ok →
        (∃ confirm, e.pairing.Verifies confirm) ∧
          store.loadPeer (Runs.exec (after store) st (before ++ a :: later)) =
            some e.pairing.peerIdent := by
    intro before a later e hok
    obtain ⟨hpin, hsigned⟩ := (establish_pin hlawful _ a).2 hok
    refine ⟨hsigned, ?_⟩
    rw [Runs.exec_append, Runs.exec_cons]
    exact pin_kept hlawful hpin later
  refine ⟨hkept, hpinned, ?_⟩
  intro before a between b e e' hok hok'
  obtain ⟨-, hfirst⟩ := hpinned before a (between ++ [b]) hok
  obtain ⟨-, hsecond⟩ := hpinned (before ++ a :: between) b [] hok'
  have hsame : (before ++ a :: between) ++ [b] = before ++ a :: (between ++ [b]) := by
    rw [List.append_assoc, List.cons_append]
  rw [hsame, hfirst] at hsecond
  exact (Option.some.inj hsecond).symm

/-- The iPad pairs at its second attempt, the first one cannot be persisted; then another
device tries. -/
theorem first_use_permanent_stranger :
    let x := Identity.ofSecret Sodium.paper (Sodium.arrOf 64 (5 * 2 ^ 256))
    let y := Identity.ofSecret Sodium.paper (Sodium.arrOf 64 (7 * 2 ^ 256))
    let z := Identity.ofSecret Sodium.paper (Sodium.arrOf 64 (9 * 2 ^ 256))
    let e := KxKeypair.ofSecret Sodium.paper (Sodium.arrOf 32 3)
    let f := KxKeypair.ofSecret Sodium.paper (Sodium.arrOf 32 4)
    let header : ByteArr headerBytes := .replicate headerBytes 6
    let peer (i : Identity Sodium.paper) : Pairing Sodium.paper :=
      ⟨i, .client, f, e.pk, x.signPk, true, false⟩
    let call (i : Identity Sodium.paper) : Attempt Sodium.paper :=
      { raw := { inbox := [.data (recordWire (peer i).hello ++ recordWire (peer i).confirm ++
          recordWire header.toList)] }
        me := x
        role := .server
        eph := e
        header }
    let run := Runs.exec (after .scripted) ((none, [false]) : Option PublicKey × List Bool)
    ((call y).establish .scripted (run [call y])).result = .ok ∧
      IdentityStore.scripted.loadPeer (run ([call y] ++ call y :: [call z])) =
        some ((call y).establish .scripted (run [call y])).pairing.peerIdent := by
  intro x y z e f header peer call run
  have hok : ((call y).establish .scripted (run [call y])).result = .ok := by decide +kernel
  obtain ⟨-, hpinned, -⟩ := first_use_permanent (S := Sodium.paper)
    IdentityStore.scripted_lawful (none, [false])
  exact ⟨hok, (hpinned [call y] (call y) [call z] hok).2⟩

end Attempt

end TetherDisplay.Crypto
