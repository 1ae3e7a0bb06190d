import Mathlib.Data.List.Basic
import Mathlib.Tactic.Common

/-!
# Programs with checked accesses

A program over a buffer can be written twice: plainly, with total reads and natural subtraction,
and with every access checked, so that it faults (`none`) at the first one outside.  `Agrees` says
that the two do the same from every state with an invariant, so that the checked program never
faults there; the rules follow the constructors of the program.  `Answers` is the same for a
program whose last state nobody looks at.
-/

namespace CheckedAccess

universe u

section Buffer

variable {β : Type u}

/-- The elements at `pos`, `pos + 1`, …, `pos + n - 1`, one checked access each. -/
def readAt (data : List β) (pos n : ℕ) : Option (List β) :=
  (List.range n).mapM fun i => data[pos + i]?

/-- `a - b` of an unsigned type, where it must not wrap around. -/
def sizeSub (a b : ℕ) : Option ℕ := if b ≤ a then some (a - b) else none

variable {data : List β} {pos n : ℕ}

/-- One byte after the other. -/
theorem readAt_succ : readAt data pos (n + 1) =
    (readAt data pos n).bind fun front => data[pos + n]?.map fun b => front ++ [b] := by
  have hlast : [n].mapM (fun i => data[pos + i]?) = data[pos + n]?.map fun b => [b] := by
    rw [List.mapM_cons, List.mapM_nil]
    cases data[pos + n]? <;> rfl
  rw [readAt, List.range_succ, List.mapM_append, ← readAt, hlast]
  cases readAt data pos n with
  | none => rfl
  | some front => cases data[pos + n]? <;> rfl

/-- Inside the buffer nothing faults. -/
theorem readAt_eq (h : pos + n ≤ data.length) :
    readAt data pos n = some ((data.drop pos).take n) := by
  induction n with
  | zero => rfl
  | succ n ih =>
      have hlast : pos + n < data.length := h
      rw [readAt_succ, ih (by omega), List.take_add_one, List.getElem?_drop,
        List.getElem?_eq_getElem hlast]
      rfl

example : readAt [1, 2, 3] 1 2 = some [2, 3] ∧ readAt [1, 2, 3] 2 2 = none := ⟨rfl, rfl⟩

theorem sizeSub_eq {a b : ℕ} (h : b ≤ a) : sizeSub a b = some (a - b) := if_pos h

end Buffer

section Programs

variable {σ α β : Type u} {I : σ → Prop} {c : StateT σ Option α} {f : σ → α × σ}

/-- From a state with the invariant the checked program does what the plain one does, and the
invariant is kept. -/
def Agrees (I : σ → Prop) (c : StateT σ Option α) (f : σ → α × σ) : Prop :=
  ∀ s, I s → c s = some (f s) ∧ I (f s).2

/-- From a state with the invariant the checked program answers what the plain one does. -/
def Answers (I : σ → Prop) (c : StateT σ Option α) (f : σ → α) : Prop :=
  ∀ s, I s → (c s).map Prod.fst = some (f s)

/-- A value agrees with itself. -/
theorem Agrees.pure (a : α) : Agrees I (Pure.pure a) fun s => (a, s) :=
  fun _ hs => ⟨rfl, hs⟩

/-- One read after another. -/
theorem Agrees.bind {k : α → StateT σ Option β} {g : α → σ → β × σ} (hc : Agrees I c f)
    (hk : ∀ a, Agrees I (k a) (g a)) : Agrees I (c >>= k) fun s => g (f s).1 (f s).2 := by
  intro s hs
  obtain ⟨hrun, hkept⟩ := hc s hs
  obtain ⟨hrun', hkept'⟩ := hk (f s).1 (f s).2 hkept
  refine ⟨?_, hkept'⟩
  rw [← hrun']
  show (c s).bind (fun p => k p.1 p.2) = _
  rw [hrun]
  rfl

theorem Answers.pure (a : α) : Answers I (Pure.pure a) fun _ => a :=
  fun _ _ => rfl

/-- An answer after a read. -/
theorem Agrees.bind_answers {k : α → StateT σ Option β} {g : α → σ → β} (hc : Agrees I c f)
    (hk : ∀ a, Answers I (k a) (g a)) : Answers I (c >>= k) fun s => g (f s).1 (f s).2 := by
  intro s hs
  obtain ⟨hrun, hkept⟩ := hc s hs
  rw [← hk (f s).1 (f s).2 hkept]
  show ((c s).bind fun p => k p.1 p.2).map Prod.fst = _
  rw [hrun]
  rfl

/-- Either answer. -/
theorem Answers.ite {p : Prop} [Decidable p] {c c' : StateT σ Option α} {f f' : σ → α}
    (h : Answers I c f) (h' : Answers I c' f') :
    Answers I (if p then c else c') fun s => if p then f s else f' s := by
  intro s hs
  by_cases hp : p
  · simp only [if_pos hp]
    exact h s hs
  · simp only [if_neg hp]
    exact h' s hs

end Programs

end CheckedAccess
