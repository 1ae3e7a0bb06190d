import Mathlib.Data.List.Basic
import Mathlib.Tactic.Common

/-!
# Authenticated streams

A stateful authenticated cipher: the sender's state turns a message into a record, the
receiver's state turns a record back into a message or rejects it, and both states move
on.  Two assumptions are made of such a cipher, one for each kind of result.

* `InSync s t`: a receiver in state `t` gets back whatever a sender in state `s` pushes,
  in order.  It is what lossless delivery rests on.
* `Exactly t expected`: a receiver in state `t` accepts the expected records, each in its
  turn, **and nothing else**.  It is the idealised cipher that no record can be forged,
  replayed or reordered against.

Either is stated of two states, for everything that may come, and comes with the one
step that a record takes (`InSync.step`, `Exactly.accepted`).
-/

universe u v

/-- The operations of a stateful authenticated cipher. -/
structure AuthStream (μ : Type u) (ρ : Type v) where
  Push : Type
  Pull : Type
  push : Push → μ → ρ × Push
  pull : Pull → ρ → Option (μ × Pull)

namespace AuthStream

variable {μ : Type u} {ρ : Type v} (A : AuthStream μ ρ)

/-- The records of a sequence of messages. -/
def pushAll : A.Push → List μ → List ρ
  | _, [] => []
  | s, m :: ms => (A.push s m).1 :: pushAll (A.push s m).2 ms

/-- The messages of a sequence of records, if every one of them is accepted. -/
def pullAll : A.Pull → List ρ → Option (List μ)
  | _, [] => some []
  | t, r :: rs =>
      match A.pull t r with
      | none => none
      | some (m, t) => (pullAll t rs).map (m :: ·)

/-- The receiver gets back whatever the sender pushes. -/
def InSync (s : A.Push) (t : A.Pull) : Prop :=
  ∀ ms, A.pullAll t (A.pushAll s ms) = some ms

variable {A}

/-- A sender and a receiver in step stay so across a record. -/
theorem InSync.step {s : A.Push} {t : A.Pull} (h : A.InSync s t) (m : μ) :
    ∃ t', A.pull t (A.push s m).1 = some (m, t') ∧ A.InSync (A.push s m).2 t' := by
  have hone := h [m]
  simp only [pushAll, pullAll] at hone
  cases hpull : A.pull t (A.push s m).1 with
  | none => rw [hpull] at hone; cases hone
  | some r =>
      obtain ⟨m', t'⟩ := r
      rw [hpull] at hone
      simp only [Option.map_some, Option.some.injEq, List.cons.injEq, and_true] at hone
      subst hone
      refine ⟨t', rfl, fun ms => ?_⟩
      have hmore := h (m' :: ms)
      simp only [pushAll, pullAll, hpull] at hmore
      obtain ⟨ms', hms', heq⟩ := Option.map_eq_some_iff.mp hmore
      rw [hms', (List.cons.inj heq).2]

/-- A relation that every record keeps, and under which it is accepted, keeps a sender
and a receiver in step. -/
theorem InSync.of_step {R : A.Push → A.Pull → Prop}
    (hstep : ∀ s t m, R s t → ∃ t', A.pull t (A.push s m).1 = some (m, t') ∧
      R (A.push s m).2 t') {s : A.Push} {t : A.Pull} (h : R s t) : A.InSync s t := by
  intro ms
  induction ms generalizing s t with
  | nil => rfl
  | cons m ms ih =>
      obtain ⟨t', hpull, hkept⟩ := hstep s t m h
      simp only [pushAll, pullAll, hpull, ih hkept, Option.map_some]

variable (A)

/-- The receiver accepts the expected records, each in its turn, and nothing else.
`expected` pairs each record with the message in it. -/
def Exactly : A.Pull → List (μ × ρ) → Prop
  | t, [] => ∀ r, A.pull t r = none
  | t, (m, r) :: expected =>
      (∃ t', A.pull t r = some (m, t') ∧ Exactly t' expected) ∧
        ∀ r', r' ≠ r → A.pull t r' = none

variable {A}

/-- **What is accepted is the next expected record**, and the receiver then expects the
rest. -/
theorem Exactly.accepted {t t' : A.Pull} {expected : List (μ × ρ)} {r : ρ} {m : μ}
    (h : A.Exactly t expected) (hpull : A.pull t r = some (m, t')) :
    ∃ rest, expected = (m, r) :: rest ∧ A.Exactly t' rest := by
  cases expected with
  | nil => rw [h r] at hpull; cases hpull
  | cons e rest =>
      obtain ⟨m₀, r₀⟩ := e
      obtain ⟨⟨t₀, haccept, hrest⟩, hreject⟩ := h
      by_cases hr : r = r₀
      · subst hr
        rw [haccept] at hpull
        cases hpull
        exact ⟨rest, rfl, hrest⟩
      · rw [hreject r hr] at hpull
        cases hpull

end AuthStream
