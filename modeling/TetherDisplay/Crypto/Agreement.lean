import TetherDisplay.Crypto.SecureChannel
import TetherDisplay.Foundations.Runs

/-!
# Agreement of the handshake

Any number of devices run any number of pairings, each in either role, and everything
they send goes through the hands of an attacker: `Network` is the pairings that exist,
and a run is a sequence of calls on them, in any order, with whatever bytes the attacker
supplies.  There is no honest delivery at all; to deliver a message is to supply its bytes.

What the attacker cannot do is forge a signature.  `Unforgeable honest` states that of a
run: bytes that verify under an honest identity are over a transcript that a pairing of
that identity has confirmed.  Honest devices sign nothing else.

The result follows from two facts.  A transcript determines the five things it says
(`Pairing.transcript_inj`), so an accepted signature fixes them in the pairing that made
it; and both roles put their own identity in different places, so that pairing was in the
opposite role (`Pairing.mirrors_of_transcript`).
-/

namespace TetherDisplay.Crypto

variable (S : Sodium)

/-- Every pairing there is, and every pairing as it was when it signed its transcript and
when it accepted its peer. -/
structure Network where
  pairings : List (Pairing S) := []
  signed : List (Pairing S) := []
  accepted : List (Pairing S) := []
  deriving DecidableEq

/-- A call on one of the pairings, or a new one.  All bytes are the attacker's choice. -/
inductive Call where
  | create (me : Identity S) (role : Role) (eph : KxKeypair S)
  | consumePeerHello (i : ℕ) (bytes : Bytes)
  | confirm (i : ℕ)
  | consumePeerConfirm (i : ℕ) (bytes : Bytes) (pinned : Option PublicKey)

namespace Network

variable {S}

/-- A call of `ConsumePeerHello`. -/
def consumePeerHello (n : Network S) (i : ℕ) (bytes : Bytes) : Network S :=
  match n.pairings[i]? with
  | none => n
  | some p =>
      match p.consumePeerHello bytes with
      | none => n
      | some p => { n with pairings := n.pairings.set i p }

/-- A call of `Confirm`. -/
def confirm (n : Network S) (i : ℕ) : Network S :=
  match n.pairings[i]? with
  | none => n
  | some p => { n with signed := n.signed ++ [p] }

/-- A call of `ConsumePeerConfirm`. -/
def consumePeerConfirm (n : Network S) (i : ℕ) (bytes : Bytes)
    (pinned : Option PublicKey) : Network S :=
  match n.pairings[i]? with
  | none => n
  | some p =>
      let r := p.consumePeerConfirm bytes pinned
      { n with pairings := n.pairings.set i r.2
               accepted := if r.1 = .ok then n.accepted ++ [r.2] else n.accepted }

/-- One call. -/
def step (n : Network S) : Call S → Network S
  | .create me role eph => { n with pairings := n.pairings ++ [{ me, role, eph }] }
  | .consumePeerHello i bytes => n.consumePeerHello i bytes
  | .confirm i => n.confirm i
  | .consumePeerConfirm i bytes pinned => n.consumePeerConfirm i bytes pinned

/-- **Signatures of honest identities are not forged**: what verifies under one has been
signed by a pairing of it. -/
def Unforgeable (honest : PublicKey → Prop) (n : Network S) : Call S → Prop
  | .consumePeerConfirm i bytes _ =>
      match n.pairings[i]? with
      | none => True
      | some p => p.Verifies bytes → honest p.peerIdent →
          ∃ q ∈ n.signed, q.me.signPk = p.peerIdent ∧ q.transcript = p.transcript
  | _ => True

instance (honest : PublicKey → Prop) [DecidablePred honest] (n : Network S) :
    DecidablePred (n.Unforgeable honest)
  | .create _ _ _ => inferInstanceAs (Decidable True)
  | .consumePeerHello _ _ => inferInstanceAs (Decidable True)
  | .confirm _ => inferInstanceAs (Decidable True)
  | .consumePeerConfirm i bytes _ =>
      show Decidable (match n.pairings[i]? with
        | none => True
        | some p => p.Verifies bytes → honest p.peerIdent →
            ∃ q ∈ n.signed, q.me.signPk = p.peerIdent ∧ q.transcript = p.transcript) from
      match n.pairings[i]? with
      | none => inferInstanceAs (Decidable True)
      | some p => inferInstanceAs (Decidable (p.Verifies bytes → honest p.peerIdent →
          ∃ q ∈ n.signed, q.me.signPk = p.peerIdent ∧ q.transcript = p.transcript))

/-- **The invariant.**  Whoever has accepted another honest identity has a pairing of
that identity at its other end, and that pairing has signed. -/
def Agreed (honest : PublicKey → Prop) (n : Network S) : Prop :=
  ∀ p ∈ n.accepted, honest p.peerIdent → p.peerIdent ≠ p.me.signPk →
    ∃ q ∈ n.signed, q.Mirrors p

variable {honest : PublicKey → Prop}

theorem agreed_start : Agreed honest ({} : Network S) := by
  rintro p ⟨⟩

/-- A hello is neither signed nor accepted. -/
theorem consumePeerHello_logs (n : Network S) (i : ℕ) (bytes : Bytes) :
    (n.consumePeerHello i bytes).signed = n.signed ∧
      (n.consumePeerHello i bytes).accepted = n.accepted := by
  unfold consumePeerHello
  split
  · exact ⟨rfl, rfl⟩
  · split <;> exact ⟨rfl, rfl⟩

/-- A confirmation is signed. -/
theorem confirm_logs (n : Network S) (i : ℕ) :
    n.signed ⊆ (n.confirm i).signed ∧ (n.confirm i).accepted = n.accepted := by
  unfold confirm
  split
  · exact ⟨List.Subset.refl _, rfl⟩
  · exact ⟨List.subset_append_left _ _, rfl⟩

/-- A confirmation is accepted from one pairing at most, and then it verifies. -/
theorem consumePeerConfirm_logs (n : Network S) (i : ℕ) (bytes : Bytes)
    (pinned : Option PublicKey) :
    (n.consumePeerConfirm i bytes pinned).signed = n.signed ∧
      ∀ r ∈ (n.consumePeerConfirm i bytes pinned).accepted, r ∈ n.accepted ∨
        ∃ p, n.pairings[i]? = some p ∧ p.Verifies bytes ∧ r = { p with confirmed := true } := by
  unfold consumePeerConfirm
  cases hi : n.pairings[i]? with
  | none => exact ⟨rfl, fun r hr => Or.inl hr⟩
  | some p =>
      refine ⟨rfl, fun r hr => ?_⟩
      by_cases hok : (p.consumePeerConfirm bytes pinned).1 = .ok
      · simp only [if_pos hok, List.mem_append, List.mem_singleton] at hr
        refine hr.imp_right fun hr => ?_
        rw [hr, p.consumePeerConfirm_ok_snd hok]
        exact ⟨p, rfl, (p.consumePeerConfirm_eq_ok hok).2.2, rfl⟩
      · simp only [if_neg hok] at hr
        exact Or.inl hr

/-- **One call keeps the agreement**, an accepting one because its signature is not
forged. -/
theorem Agreed.step {n : Network S} {call : Call S} (h : Agreed honest n)
    (hguard : n.Unforgeable honest call) : Agreed honest (n.step call) := by
  cases call with
  | create me role eph => exact h
  | consumePeerHello i bytes =>
      obtain ⟨hsigned, haccepted⟩ := n.consumePeerHello_logs i bytes
      intro p hp hhonest hother
      obtain ⟨q, hq, hmirrors⟩ := h p (haccepted ▸ hp) hhonest hother
      exact ⟨q, hsigned.symm ▸ hq, hmirrors⟩
  | confirm i =>
      obtain ⟨hsigned, haccepted⟩ := n.confirm_logs i
      intro p hp hhonest hother
      obtain ⟨q, hq, hmirrors⟩ := h p (haccepted ▸ hp) hhonest hother
      exact ⟨q, hsigned hq, hmirrors⟩
  | consumePeerConfirm i bytes pinned =>
      obtain ⟨hsigned, haccepted⟩ := n.consumePeerConfirm_logs i bytes pinned
      intro r hr hhonest hother
      show ∃ q ∈ (n.consumePeerConfirm i bytes pinned).signed, q.Mirrors r
      rw [hsigned]
      -- `r` was accepted before, or its confirmation has just been, and is not forged
      rcases haccepted r hr with hr | ⟨p, hi, hverifies, rfl⟩
      · exact h r hr hhonest hother
      · simp only [Unforgeable, hi] at hguard
        obtain ⟨q, hq, hident, htranscript⟩ := hguard hverifies hhonest
        have hmirrors := Pairing.mirrors_of_transcript htranscript hident hother
        exact ⟨q, hq, hmirrors.role, hmirrors.ident, hmirrors.eph, hmirrors.peerEph,
          hmirrors.peerIdent⟩

/-- **It holds in all states of a run.** -/
theorem agreed_exec {calls : List (Call S)}
    (h : Runs.Admits step (Unforgeable honest) {} calls) :
    Agreed honest (Runs.exec step {} calls) := by
  have hstep : ∀ (n : Network S) (call : Call S), Agreed honest n →
      n.Unforgeable honest call → Agreed honest (n.step call) :=
    fun _ _ hagreed hguard => hagreed.step hguard
  exact Runs.exec_invariant hstep agreed_start h

/-- **Agreement against an active attacker.**  If a pairing `p` accepts as its peer an
honest identity other than its own, then a pairing of that identity has signed, in the
opposite role, with `p`'s peer ephemeral as its own, `p`'s ephemeral as its peer's and
`p`'s identity as its peer's; and the channels the two make have each other's keys. -/
theorem handshake_agreement (hkx : S.KxContract) {calls : List (Call S)}
    (hrun : Runs.Admits step (Unforgeable honest) {} calls) {p : Pairing S}
    (haccepted : p ∈ (Runs.exec step {} calls).accepted) (hhonest : honest p.peerIdent)
    (hother : p.peerIdent ≠ p.me.signPk) :
    ∃ q ∈ (Runs.exec step {} calls).signed,
      q.me.signPk = p.peerIdent ∧ q.role = p.role.opposite ∧ q.eph.pk = p.peerEph ∧
        q.peerEph = p.eph.pk ∧ q.peerIdent = p.me.signPk ∧
        ∃ k₁ k₂, ∀ header header',
          p.makeChannel header = SecureChannel.make k₁ k₂ header ∧
            q.makeChannel header' = SecureChannel.make k₂ k₁ header' := by
  obtain ⟨q, hq, hmirrors⟩ := agreed_exec hrun p haccepted hhonest hother
  obtain ⟨k₁, k₂, hp, hq'⟩ := Pairing.sessionKeys_mirrors hkx hmirrors
  refine ⟨q, hq, hmirrors.ident, hmirrors.role, hmirrors.eph, hmirrors.peerEph,
    hmirrors.peerIdent, k₂, k₁, fun header header' => ?_⟩
  simp only [Pairing.makeChannel, hp, hq', and_self]

/-- A server and a client that pair with each other through the network. -/
theorem handshake_agreement_pair :
    let x := Identity.ofSecret Sodium.paper (Sodium.arrOf 64 (5 * 2 ^ 256))
    let y := Identity.ofSecret Sodium.paper (Sodium.arrOf 64 (7 * 2 ^ 256))
    let e := KxKeypair.ofSecret Sodium.paper (Sodium.arrOf 32 3)
    let f := KxKeypair.ofSecret Sodium.paper (Sodium.arrOf 32 4)
    let p : Pairing Sodium.paper := ⟨x, .server, e, f.pk, y.signPk, true, true⟩
    let q : Pairing Sodium.paper := ⟨y, .client, f, e.pk, x.signPk, true, false⟩
    let calls : List (Call Sodium.paper) :=
      [.create x .server e, .create y .client f, .consumePeerHello 0 q.hello,
        .consumePeerHello 1 p.hello, .confirm 1, .consumePeerConfirm 0 q.confirm none]
    ∃ r ∈ (Runs.exec step {} calls).signed,
      r.me.signPk = p.peerIdent ∧ r.role = .client ∧ r.eph.pk = p.peerEph ∧
        r.peerEph = p.eph.pk ∧ r.peerIdent = p.me.signPk ∧
        ∃ k₁ k₂, ∀ header header',
          p.makeChannel header = SecureChannel.make k₁ k₂ header ∧
            r.makeChannel header' = SecureChannel.make k₂ k₁ header' := by
  intro x y e f p q calls
  have hrun : Runs.Admits step (Unforgeable fun _ => True) {} calls := by decide +kernel
  have haccepted : p ∈ (Runs.exec step {} calls).accepted := by decide +kernel
  have hother : p.peerIdent ≠ p.me.signPk := by decide +kernel
  exact handshake_agreement Sodium.paper_kxContract hrun haccepted trivial hother

end Network

end TetherDisplay.Crypto
