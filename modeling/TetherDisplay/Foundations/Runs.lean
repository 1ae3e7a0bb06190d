import Mathlib.Data.List.Basic
import Mathlib.Tactic.Common

/-!
# Runs of a deterministic machine

A machine takes an input to the next state.  Its runs are sequences of inputs, and
what an environment may do is a guard: an input may be offered in some states and not
in others.  `Admits guard s inputs` says that a run from `s` offers only what the guard
allows, each input judged in the state it is offered in.

`exec_invariant` packages the one induction over runs: a property that holds at the
start and that every allowed step keeps holds at the end of every allowed run.
`exec_preserves` is the same where every step is allowed.  `admits_of_states` is the way
back, from the states of a run to its guard.  `exec_refines` takes the runs of a machine to runs of
one that it refines, if each of its steps is matched by some steps of the other, or by none.
-/

namespace Runs

universe u v

variable {σ : Type u} {ι : Type v} (step : σ → ι → σ)

/-- The state after a sequence of inputs. -/
def exec (s : σ) (inputs : List ι) : σ := inputs.foldl step s

@[simp] theorem exec_nil (s : σ) : exec step s [] = s := rfl

@[simp] theorem exec_cons (s : σ) (i : ι) (inputs : List ι) :
    exec step s (i :: inputs) = exec step (step s i) inputs := rfl

/-- A run goes on from where its beginning has come to. -/
theorem exec_append (s : σ) (front back : List ι) :
    exec step s (front ++ back) = exec step (exec step s front) back :=
  List.foldl_append

theorem exec_concat (s : σ) (inputs : List ι) (i : ι) :
    exec step s (inputs ++ [i]) = step (exec step s inputs) i := by
  rw [exec_append, exec_cons, exec_nil]

/-- Every input of the run is allowed in the state it is offered in. -/
def Admits (guard : σ → ι → Prop) : σ → List ι → Prop
  | _, [] => True
  | s, i :: inputs => guard s i ∧ Admits guard (step s i) inputs

variable {step} {guard : σ → ι → Prop}

instance decidableAdmits [∀ s i, Decidable (guard s i)] :
    ∀ (s : σ) (inputs : List ι), Decidable (Admits step guard s inputs)
  | _, [] => inferInstanceAs (Decidable True)
  | s, i :: inputs =>
      have := decidableAdmits (step s i) inputs
      inferInstanceAs (Decidable (guard s i ∧ Admits step guard (step s i) inputs))

/-- A guard that holds of the inputs in every state. -/
theorem admits_of_forall {s : σ} {inputs : List ι} (h : ∀ i ∈ inputs, ∀ s, guard s i) :
    Admits step guard s inputs := by
  induction inputs generalizing s with
  | nil => trivial
  | cons i inputs ih =>
      obtain ⟨hi, hinputs⟩ := List.forall_mem_cons.mp h
      exact ⟨hi s, ih hinputs⟩

/-- The invariant rule of a machine in any environment. -/
theorem exec_preserves {P : σ → Prop} (hstep : ∀ s i, P s → P (step s i)) {s : σ} (hs : P s)
    (inputs : List ι) : P (exec step s inputs) := by
  induction inputs generalizing s with
  | nil => exact hs
  | cons i inputs ih => exact ih (hstep s i hs)

/-- **The invariant rule**, where the environment is held to a guard. -/
theorem exec_invariant {P : σ → Prop} (hstep : ∀ s i, P s → guard s i → P (step s i))
    {s : σ} (hs : P s) {inputs : List ι} (h : Admits step guard s inputs) :
    P (exec step s inputs) := by
  induction inputs generalizing s with
  | nil => exact hs
  | cons i inputs ih => exact ih (hstep s i hs h.1) h.2

/-- The beginning of a run that is admitted is. -/
theorem Admits.front {s : σ} {front back : List ι} (h : Admits step guard s (front ++ back)) :
    Admits step guard s front := by
  induction front generalizing s with
  | nil => trivial
  | cons i front ih => exact ⟨h.1, ih h.2⟩

/-- The rest of a run that is admitted is. -/
theorem Admits.back {s : σ} {front back : List ι} (h : Admits step guard s (front ++ back)) :
    Admits step guard (exec step s front) back := by
  induction front generalizing s with
  | nil => exact h
  | cons i front ih => exact ih h.2

/-- A run that two guards allow. -/
theorem Admits.and {guard' : σ → ι → Prop} {s : σ} {inputs : List ι}
    (h : Admits step guard s inputs) (h' : Admits step guard' s inputs) :
    Admits step (fun s i => guard s i ∧ guard' s i) s inputs := by
  induction inputs generalizing s with
  | nil => trivial
  | cons i inputs ih => exact ⟨⟨h.1, h'.1⟩, ih h.2 h'.2⟩

/-- Each input of an allowed run is allowed where it is offered. -/
theorem admits_iff {s : σ} {inputs : List ι} : Admits step guard s inputs ↔
    ∀ front i back, inputs = front ++ i :: back → guard (exec step s front) i := by
  induction inputs generalizing s with
  | nil => simp [Admits]
  | cons j inputs ih =>
      rw [Admits, ih]
      constructor
      · rintro ⟨hj, hinputs⟩ front i back h
        cases front with
        | nil =>
            cases h
            exact hj
        | cons k front =>
            cases h
            exact hinputs front i back rfl
      · intro h
        refine ⟨h [] j inputs rfl, fun front i back hinputs => ?_⟩
        exact h (j :: front) i back (by rw [hinputs]; rfl)

/-- A run whose states all have the property offers only what the guard allows, where a step
into a state with the property is one that the guard allows. -/
theorem admits_of_states {P Q : σ → Prop} (hguard : ∀ s i, Q s → P (step s i) → guard s i)
    (hstep : ∀ s i, Q s → Q (step s i)) {s : σ} (hs : Q s) {inputs : List ι}
    (h : ∀ front back, inputs = front ++ back → P (exec step s front)) :
    Admits step guard s inputs := by
  induction inputs generalizing s with
  | nil => trivial
  | cons i inputs ih =>
      refine ⟨hguard s i hs (h [i] inputs rfl), ih (hstep s i hs) fun front back hinputs => ?_⟩
      exact h (i :: front) back (by rw [hinputs]; rfl)

/-- **When a property holds throughout**: where a step from a state with the property keeps it
exactly when the guard allows the step, all states of a run have it exactly when the run is one
that the guard allows.  `Q` is an invariant of all runs. -/
theorem forall_front_iff {P Q : σ → Prop} (hstep : ∀ s i, Q s → Q (step s i))
    (hiff : ∀ s i, Q s → P s → (P (step s i) ↔ guard s i)) {s : σ} (hs : Q s) (hp : P s)
    {inputs : List ι} :
    (∀ front back, inputs = front ++ back → P (exec step s front)) ↔
      Admits step guard s inputs := by
  induction inputs generalizing s with
  | nil =>
      refine iff_of_true (fun front back h => ?_) trivial
      rw [(List.append_eq_nil_iff.mp h.symm).1]
      exact hp
  | cons i inputs ih =>
      constructor
      · intro h
        have hnext : P (step s i) := h [i] inputs rfl
        refine ⟨(hiff s i hs hp).mp hnext, (ih (hstep s i hs) hnext).mp ?_⟩
        exact fun front back hinputs => h (i :: front) back (by rw [hinputs]; rfl)
      · rintro ⟨hi, hinputs⟩ front back h
        cases front with
        | nil => exact hp
        | cons j front =>
            cases h
            exact (ih (hstep s i hs) ((hiff s i hs hp).mpr hi)).mpr hinputs front back rfl

/-- **The refinement rule**: where each step of a machine is matched by steps of another on what
`abs` shows of the state, so is each run. -/
theorem exec_refines {τ : Type*} {κ : Type*} {step' : τ → κ → τ} (abs : σ → τ) {P : σ → Prop}
    (hstep : ∀ s i, P s → P (step s i))
    (hmatch : ∀ s i, P s → ∃ inputs', abs (step s i) = exec step' (abs s) inputs') {s : σ}
    (hs : P s) (inputs : List ι) :
    ∃ inputs', abs (exec step s inputs) = exec step' (abs s) inputs' := by
  induction inputs generalizing s with
  | nil => exact ⟨[], rfl⟩
  | cons i inputs ih =>
      obtain ⟨first, hfirst⟩ := hmatch s i hs
      obtain ⟨later, hlater⟩ := ih (hstep s i hs)
      exact ⟨first ++ later, by rw [exec_cons, hlater, hfirst, exec_append]⟩

end Runs
