import Mathlib.Data.List.Basic
import Mathlib.Data.Option.Basic
import Mathlib.Tactic.Common

/-!
# One thing at a time, through one handle

A device hands out things through handles.  Its client opens a handle, acquires a thing through it
and releases the thing before it closes the handle, one at a time.  `Holding.step` is the device's
view of the client: what it holds, and `none` at the first event that is out of order.

In an orderly log nothing goes through a handle that is not open, at most one thing is held at a
time, and every thing acquired has been released once, but for the one that is held
(`acquisitions_eq`), as every handle opened has been closed once, but for the one that is open
(`openings_eq`).
-/

namespace Custody

universe u v

variable {η : Type u} {ι : Type v}

/-- What is done with handles and with the items that they give out. -/
inductive Event (η : Type u) (ι : Type v) where
  | opened (h : η)
  | used (h : η)
  | acquired (h : η) (i : ι)
  | released (h : η) (i : ι)
  | closed (h : η)
  deriving DecidableEq

/-- What the client has: an open handle, and a thing acquired through it. -/
structure Holding (η : Type u) (ι : Type v) where
  handle : Option η := none
  item : Option ι := none
  deriving DecidableEq

variable {d d' : Holding η ι} {log : List (Event η ι)}

/-- What an event acquires. -/
def Event.acquisition : Event η ι → List (η × ι)
  | .acquired h i => [(h, i)]
  | _ => []

/-- What an event releases. -/
def Event.release : Event η ι → List (η × ι)
  | .released h i => [(h, i)]
  | _ => []

/-- The things acquired, with their handles, in order. -/
def acquisitions (log : List (Event η ι)) : List (η × ι) := log.flatMap Event.acquisition

/-- The things released, with their handles, in order. -/
def releases (log : List (Event η ι)) : List (η × ι) := log.flatMap Event.release

/-- The thing that is held, with its handle. -/
def Holding.outstanding (d : Holding η ι) : List (η × ι) :=
  d.handle.toList.flatMap fun h => d.item.toList.map fun i => (h, i)

theorem outstanding_of_item (h : d.item = none) : d.outstanding = [] := by
  rw [Holding.outstanding, h]
  cases d.handle <;> rfl

theorem outstanding_eq {h : η} {i : ι} (hhandle : d.handle = some h) (hitem : d.item = some i) :
    d.outstanding = [(h, i)] := by
  rw [Holding.outstanding, hhandle, hitem]
  rfl

variable [DecidableEq η] [DecidableEq ι]

/-- An event, where it is allowed: one handle at a time, and one item of it. -/
def Holding.step (d : Holding η ι) : Event η ι → Option (Holding η ι)
  | .opened h => if d.handle = none ∧ d.item = none then some ⟨some h, none⟩ else none
  | .used h => if d.handle = some h then some d else none
  | .acquired h i =>
      if d.handle = some h ∧ d.item = none then some { d with item := some i } else none
  | .released h i =>
      if d.handle = some h ∧ d.item = some i then some { d with item := none } else none
  | .closed h => if d.handle = some h ∧ d.item = none then some {} else none

section Rules

variable (h : η) (i : ι)

@[simp] theorem step_opened : Holding.step {} (.opened h : Event η ι) = some ⟨some h, none⟩ := by
  rw [Holding.step, if_pos ⟨rfl, rfl⟩]

@[simp] theorem step_used (item : Option ι) :
    Holding.step ⟨some h, item⟩ (.used h) = some ⟨some h, item⟩ := by
  rw [Holding.step, if_pos rfl]

@[simp] theorem step_acquired :
    Holding.step ⟨some h, none⟩ (.acquired h i) = some ⟨some h, some i⟩ := by
  rw [Holding.step, if_pos ⟨rfl, rfl⟩]

@[simp] theorem step_released :
    Holding.step ⟨some h, some i⟩ (.released h i) = some ⟨some h, none⟩ := by
  rw [Holding.step, if_pos ⟨rfl, rfl⟩]

@[simp] theorem step_closed :
    Holding.step ⟨some h, none⟩ (.closed h : Event η ι) = some {} := by
  rw [Holding.step, if_pos ⟨rfl, rfl⟩]

/-- What is not held cannot be released. -/
theorem step_released_of_ne {i j : ι} (hne : i ≠ j) :
    Holding.step ⟨some h, some i⟩ (.released h j) = none := by
  rw [Holding.step, if_neg]
  rintro ⟨-, hheld⟩
  exact hne (Option.some.inj hheld)

end Rules

/-- What is held after a log, if it is orderly. -/
def run (d : Holding η ι) (log : List (Event η ι)) : Option (Holding η ι) :=
  log.foldlM Holding.step d

@[simp] theorem run_nil : run d [] = some d := rfl

@[simp] theorem run_cons (e : Event η ι) : run d (e :: log) = (d.step e).bind fun d => run d log :=
  rfl

/-- A log is run piece by piece. -/
theorem run_append (front back : List (Event η ι)) :
    run d (front ++ back) = (run d front).bind fun d => run d back :=
  List.foldlM_append

/-- One event acquires what is held after it and was not before, or releases it. -/
theorem step_outstanding {e : Event η ι} (h : d.step e = some d') :
    d.outstanding ++ e.acquisition = e.release ++ d'.outstanding := by
  cases e with
  | opened handle =>
      rw [Holding.step] at h
      split_ifs at h with hfree
      cases h
      rw [outstanding_of_item hfree.2, outstanding_of_item rfl]
      rfl
  | used handle =>
      rw [Holding.step] at h
      split_ifs at h
      cases h
      exact List.append_nil _
  | acquired handle i =>
      rw [Holding.step] at h
      split_ifs at h with hfree
      cases h
      have hheld : Holding.outstanding { d with item := some i } = [(handle, i)] :=
        outstanding_eq hfree.1 rfl
      rw [outstanding_of_item hfree.2, hheld]
      rfl
  | released handle i =>
      rw [Holding.step] at h
      split_ifs at h with hheld
      cases h
      rw [outstanding_eq hheld.1 hheld.2, outstanding_of_item rfl]
      rfl
  | closed handle =>
      rw [Holding.step] at h
      split_ifs at h with hfree
      cases h
      rw [outstanding_of_item hfree.2, outstanding_of_item rfl]
      rfl

/-- **Everything that is acquired is released once**, but for what is held. -/
theorem acquisitions_eq (h : run d log = some d') :
    d.outstanding ++ acquisitions log = releases log ++ d'.outstanding := by
  induction log generalizing d with
  | nil =>
      cases h
      exact List.append_nil _
  | cons e log ih =>
      rw [run_cons, Option.bind_eq_some_iff] at h
      obtain ⟨d₁, hstep, hlog⟩ := h
      calc d.outstanding ++ acquisitions (e :: log)
          = (d.outstanding ++ e.acquisition) ++ acquisitions log := by
            rw [acquisitions, List.flatMap_cons, ← acquisitions, List.append_assoc]
        _ = e.release ++ (d₁.outstanding ++ acquisitions log) := by
            rw [step_outstanding hstep, List.append_assoc]
        _ = e.release ++ (releases log ++ d'.outstanding) := by rw [ih hlog]
        _ = releases (e :: log) ++ d'.outstanding := by
            rw [releases, releases, List.flatMap_cons, List.append_assoc]

/-! ## Handles -/

/-- The handle that an event opens. -/
def Event.opening : Event η ι → List η
  | .opened h => [h]
  | _ => []

/-- The handle that an event closes. -/
def Event.closing : Event η ι → List η
  | .closed h => [h]
  | _ => []

/-- The handles opened, in order. -/
def openings (log : List (Event η ι)) : List η := log.flatMap Event.opening

/-- The handles closed, in order. -/
def closings (log : List (Event η ι)) : List η := log.flatMap Event.closing

/-- What is open was open, or has just been opened. -/
theorem step_handle {e : Event η ι} (h : d.step e = some d') :
    d.handle.toList ++ e.opening = e.closing ++ d'.handle.toList := by
  cases e with
  | opened handle =>
      rw [Holding.step] at h
      split_ifs at h with hfree
      cases h
      rw [hfree.1]
      rfl
  | closed handle =>
      rw [Holding.step] at h
      split_ifs at h with hopen
      cases h
      rw [hopen.1]
      rfl
  | used handle | acquired handle i | released handle i =>
      rw [Holding.step] at h
      split_ifs at h
      cases h
      exact List.append_nil _

/-- **Every handle that is opened is closed once**, but for the one that is open. -/
theorem openings_eq (h : run d log = some d') :
    d.handle.toList ++ openings log = closings log ++ d'.handle.toList := by
  induction log generalizing d with
  | nil =>
      cases h
      exact List.append_nil _
  | cons e log ih =>
      rw [run_cons, Option.bind_eq_some_iff] at h
      obtain ⟨d₁, hstep, hlog⟩ := h
      rw [openings, List.flatMap_cons, ← openings, ← List.append_assoc, step_handle hstep,
        List.append_assoc, ih hlog, closings, closings, List.flatMap_cons, List.append_assoc]

end Custody
