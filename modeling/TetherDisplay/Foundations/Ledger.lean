import Mathlib.Data.Fintype.Defs
import Mathlib.Data.List.Basic
import Mathlib.Logic.Function.Basic
import Mathlib.Tactic.Common

/-!
# Things that rest on one another

A system hands out things of several kinds, one of a kind at a time.  A thing may rest on others:
one of kind `k` is made with one of each kind in `needs k`, and these have to outlive it.
`Ledger.step` is the system's view of a client, and `none` at the first event that is out of
order: a thing acquired while one of its kind is still held, and so is lost, or without what it
needs; a thing used that is not held; a thing released under another that rests on it.

A client keeps a `Book`: what it holds, in a field for each kind, and the log of what it has done
about it.  `Book.Orderly` says that the log is in order and that the fields hold what the log
leaves it.  The rules `Orderly.acquire`, `Orderly.use` and `Orderly.drop` take a book through
its operations.  In an orderly book nothing is held without what it needs (`Orderly.supported`),
and of every kind what has been acquired has been released once, in the same order, but for what
is held (`Orderly.acquisitions_eq`).
-/

namespace Ledger

universe u v

variable {κ : Type u} {ι : Type v}

/-- What is done with the things of each kind. -/
inductive Event (κ : Type u) (ι : Type v) where
  | acquired (k : κ) (i : ι)
  | used (k : κ)
  | released (k : κ) (i : ι)
  deriving DecidableEq

/-- What is held of each kind. -/
abbrev Held (κ : Type u) (ι : Type v) := κ → Option ι

/-- Nothing is held without what it needs. -/
def Supported (needs : κ → List κ) (d : Held κ ι) : Prop :=
  ∀ k, (d k).isSome → ∀ j ∈ needs k, (d j).isSome

variable [DecidableEq κ] [DecidableEq ι] [Fintype κ] (needs : κ → List κ)

/-- An event, where it is allowed: a thing is held with all that it needs. -/
def step (d : Held κ ι) : Event κ ι → Option (Held κ ι)
  | .acquired k i =>
      if d k = none ∧ ∀ j ∈ needs k, (d j).isSome then some (Function.update d k (some i)) else none
  | .used k => if (d k).isSome then some d else none
  | .released k i =>
      if d k = some i ∧ ∀ j, k ∈ needs j → d j = none then some (Function.update d k none) else none

/-- What is held after a log, if it is in order. -/
def run (d : Held κ ι) (log : List (Event κ ι)) : Option (Held κ ι) :=
  log.foldlM (step needs) d

variable {needs} {d d' : Held κ ι} {log : List (Event κ ι)}

@[simp] theorem run_nil : run needs d [] = some d := rfl

@[simp] theorem run_cons (e : Event κ ι) :
    run needs d (e :: log) = (step needs d e).bind fun d => run needs d log := rfl

/-- A log is run piece by piece. -/
theorem run_append (front back : List (Event κ ι)) :
    run needs d (front ++ back) = (run needs d front).bind fun d => run needs d back :=
  List.foldlM_append

theorem run_concat (h : run needs d log = some d') (e : Event κ ι) :
    run needs d (log ++ [e]) = step needs d' e := by
  rw [run_append, h, Option.bind_some, run_cons]
  cases step needs d' e <;> rfl

omit [DecidableEq ι] [Fintype κ] in
/-- What is acquired with all that it needs is supported. -/
theorem Supported.acquire (h : Supported needs d) {k : κ} (hneeds : ∀ j ∈ needs k, (d j).isSome)
    (i : ι) : Supported needs (Function.update d k (some i)) := by
  have hkept : ∀ j, (d j).isSome → (Function.update d k (some i) j).isSome := by
    intro j hj
    by_cases hjk : j = k
    · rw [hjk, Function.update_self]
      rfl
    · rwa [Function.update_of_ne hjk]
  intro m hm j hj
  by_cases hmk : m = k
  · exact hkept j (hneeds j (hmk ▸ hj))
  · rw [Function.update_of_ne hmk] at hm
    exact hkept j (h m hm j hj)

omit [DecidableEq ι] [Fintype κ] in
/-- The rest is still supported when something goes that nobody needs. -/
theorem Supported.release (h : Supported needs d) {k : κ} (hfree : ∀ j, k ∈ needs j → d j = none) :
    Supported needs (Function.update d k none) := by
  intro m hm j hj
  have hmk : m ≠ k := by
    rintro rfl
    rw [Function.update_self] at hm
    cases hm
  rw [Function.update_of_ne hmk] at hm
  have hjk : j ≠ k := by
    rintro rfl
    rw [hfree m hj] at hm
    cases hm
  rw [Function.update_of_ne hjk]
  exact h m hm j hj

/-- One event leaves nothing without what it needs. -/
theorem Supported.step (h : Supported needs d) {e : Event κ ι} (hstep : step needs d e = some d') :
    Supported needs d' := by
  cases e with
  | acquired k i =>
      rw [Ledger.step] at hstep
      split_ifs at hstep with hallowed
      cases hstep
      exact h.acquire hallowed.2 i
  | used k =>
      rw [Ledger.step] at hstep
      split_ifs at hstep
      cases hstep
      exact h
  | released k i =>
      rw [Ledger.step] at hstep
      split_ifs at hstep with hallowed
      cases hstep
      exact h.release hallowed.2

/-- A log that is allowed keeps everything supported. -/
theorem Supported.run (h : Supported needs d) (hrun : run needs d log = some d') :
    Supported needs d' := by
  induction log generalizing d with
  | nil =>
      cases hrun
      exact h
  | cons e log ih =>
      rw [run_cons, Option.bind_eq_some_iff] at hrun
      obtain ⟨d₁, hstep, hlog⟩ := hrun
      exact ih (h.step hstep) hlog

/-! ## What is acquired and released -/

/-- What an event acquires of a kind. -/
def Event.acquisition (k : κ) : Event κ ι → List ι
  | .acquired j i => if j = k then [i] else []
  | _ => []

/-- What an event releases of a kind. -/
def Event.release (k : κ) : Event κ ι → List ι
  | .released j i => if j = k then [i] else []
  | _ => []

/-- The things of a kind acquired, in order. -/
def acquisitions (k : κ) (log : List (Event κ ι)) : List ι := log.flatMap (Event.acquisition k)

/-- The things of a kind released, in order. -/
def releases (k : κ) (log : List (Event κ ι)) : List ι := log.flatMap (Event.release k)

/-- One event acquires what is held of a kind after it and was not before, or releases it. -/
theorem step_held {e : Event κ ι} (h : step needs d e = some d') (k : κ) :
    (d k).toList ++ e.acquisition k = e.release k ++ (d' k).toList := by
  cases e with
  | acquired j i =>
      rw [Ledger.step] at h
      split_ifs at h with hallowed
      cases h
      by_cases hjk : j = k
      · subst hjk
        rw [hallowed.1, Function.update_self, Event.acquisition, if_pos rfl]
        rfl
      · rw [Function.update_of_ne (Ne.symm hjk), Event.acquisition, if_neg hjk]
        exact List.append_nil _
  | used j =>
      rw [Ledger.step] at h
      split_ifs at h
      cases h
      exact List.append_nil _
  | released j i =>
      rw [Ledger.step] at h
      split_ifs at h with hallowed
      cases h
      by_cases hjk : j = k
      · subst hjk
        rw [hallowed.1, Function.update_self, Event.release, if_pos rfl]
        rfl
      · rw [Function.update_of_ne (Ne.symm hjk), Event.release, if_neg hjk]
        exact List.append_nil _

/-- **Everything that is acquired is released once**, but for what is held. -/
theorem acquisitions_eq (h : run needs d log = some d') (k : κ) :
    (d k).toList ++ acquisitions k log = releases k log ++ (d' k).toList := by
  induction log generalizing d with
  | nil =>
      cases h
      exact List.append_nil _
  | cons e log ih =>
      rw [run_cons, Option.bind_eq_some_iff] at h
      obtain ⟨d₁, hstep, hlog⟩ := h
      calc (d k).toList ++ acquisitions k (e :: log)
          = ((d k).toList ++ e.acquisition k) ++ acquisitions k log := by
            rw [acquisitions, List.flatMap_cons, ← acquisitions, List.append_assoc]
        _ = e.release k ++ ((d₁ k).toList ++ acquisitions k log) := by
            rw [step_held hstep, List.append_assoc]
        _ = e.release k ++ (releases k log ++ (d' k).toList) := by rw [ih hlog]
        _ = releases k (e :: log) ++ (d' k).toList := by
            rw [releases, releases, List.flatMap_cons, List.append_assoc]

/-! ## Books -/

/-- What a client holds, and what it has done. -/
structure Book (κ : Type u) (ι : Type v) where
  held : Held κ ι := fun _ => none
  log : List (Event κ ι) := []

namespace Book

variable (b : Book κ ι) (k : κ) (i : ι)

/-- A thing is acquired. -/
def acquire : Book κ ι where
  held := Function.update b.held k (some i)
  log := b.log ++ [.acquired k i]

/-- The thing in the field is used, or what takes the place of a thing where there is none. -/
def use : Book κ ι := { b with log := b.log ++ [.used k] }

/-- What is in the field is released, and the field is cleared. -/
def drop : Book κ ι :=
  match b.held k with
  | some i => { held := Function.update b.held k none, log := b.log ++ [.released k i] }
  | none => b

omit [DecidableEq ι] [Fintype κ] in
@[simp] theorem held_acquire : (b.acquire k i).held = Function.update b.held k (some i) := rfl

omit [DecidableEq κ] [DecidableEq ι] [Fintype κ] in
@[simp] theorem held_use : (b.use k).held = b.held := rfl

omit [DecidableEq ι] [Fintype κ] in
@[simp] theorem held_drop : (b.drop k).held = Function.update b.held k none := by
  unfold drop
  cases hk : b.held k with
  | none =>
      funext j
      by_cases hjk : j = k
      · rw [hjk, Function.update_self, hk]
      · rw [Function.update_of_ne hjk]
  | some i => rfl

variable (needs) in
/-- The log is in order, and leaves what the fields hold. -/
structure Orderly : Prop where
  run_log : run needs (fun _ => none) b.log = some b.held

variable {b k}

omit [DecidableEq ι] [Fintype κ] in
theorem drop_of_none (h : b.held k = none) : b.drop k = b := by
  rw [drop, h]

theorem orderly_empty : (({} : Book κ ι)).Orderly needs := ⟨rfl⟩

/-- Whatever is held in order is supported. -/
theorem Orderly.supported (h : b.Orderly needs) : Supported needs b.held :=
  Supported.run (d := fun _ => none) (fun _ h => by cases h) h.run_log

/-- What has been acquired has been released once, in the same order, but for what is held. -/
theorem Orderly.acquisitions_eq (h : b.Orderly needs) (k : κ) :
    acquisitions k b.log = releases k b.log ++ (b.held k).toList :=
  Ledger.acquisitions_eq h.run_log k

/-- An acquisition in order. -/
theorem Orderly.acquire (h : b.Orderly needs) (hfree : b.held k = none)
    (hneeds : ∀ j ∈ needs k, (b.held j).isSome) (i : ι) : (b.acquire k i).Orderly needs where
  run_log := by
    rw [Book.acquire, run_concat h.run_log, Ledger.step, if_pos ⟨hfree, hneeds⟩]

/-- A use in order. -/
theorem Orderly.use (h : b.Orderly needs) (hheld : (b.held k).isSome) :
    (b.use k).Orderly needs where
  run_log := by
    rw [Book.use, run_concat h.run_log, Ledger.step, if_pos hheld]

/-- A release in order. -/
theorem Orderly.drop (h : b.Orderly needs) (hfree : ∀ j, k ∈ needs j → b.held j = none) :
    (b.drop k).Orderly needs := by
  unfold Book.drop
  cases hk : b.held k with
  | none => exact h
  | some i => exact ⟨by rw [run_concat h.run_log, Ledger.step, if_pos ⟨hk, hfree⟩]⟩

/-! ### Which kinds are held -/

variable (needs) in
/-- The book is in order, and what is held is of the kinds `ks`. -/
structure Stands (ks : List κ) (b : Book κ ι) : Prop where
  orderly : b.Orderly needs
  held_iff : ∀ k, (b.held k).isSome ↔ k ∈ ks

variable (needs) in
/-- The book is in order, and nothing is held of the kinds `ks`. -/
structure Cleared (ks : List κ) (b : Book κ ι) : Prop where
  orderly : b.Orderly needs
  held_eq : ∀ k ∈ ks, b.held k = none

variable {ks : List κ}

/-- One more thing is held. -/
theorem Stands.acquire (h : b.Stands needs ks) (hfree : k ∉ ks) (hneeds : ∀ j ∈ needs k, j ∈ ks)
    (i : ι) : (b.acquire k i).Stands needs (k :: ks) where
  orderly := by
    have hnone : b.held k = none := by
      rw [← Option.not_isSome_iff_eq_none, h.held_iff]
      exact hfree
    exact h.orderly.acquire hnone (fun j hj => (h.held_iff j).mpr (hneeds j hj)) i
  held_iff j := by
    rw [held_acquire]
    by_cases hjk : j = k
    · subst hjk
      simp
    · rw [Function.update_of_ne hjk, h.held_iff, List.mem_cons, or_iff_right hjk]

theorem Stands.use (h : b.Stands needs ks) (hk : k ∈ ks) : (b.use k).Stands needs ks where
  orderly := h.orderly.use ((h.held_iff k).mpr hk)
  held_iff := h.held_iff

/-- One less is. -/
theorem Cleared.drop (h : b.Cleared needs ks) (hfree : ∀ j, k ∈ needs j → j ∈ ks) :
    (b.drop k).Cleared needs (k :: ks) where
  orderly := h.orderly.drop fun j hj => h.held_eq j (hfree j hj)
  held_eq j hj := by
    rw [held_drop]
    by_cases hjk : j = k
    · rw [hjk, Function.update_self]
    · rw [Function.update_of_ne hjk]
      exact h.held_eq j ((List.mem_cons.mp hj).resolve_left hjk)

/-- Where everything has been given back, everything acquired has been released. -/
theorem Stands.all_released (h : b.Stands needs []) (k : κ) :
    acquisitions k b.log = releases k b.log := by
  have hnone : b.held k = none := by
    rw [← Option.not_isSome_iff_eq_none, h.held_iff]
    exact List.not_mem_nil
  rw [h.orderly.acquisitions_eq k, hnone, Option.toList_none, List.append_nil]

/-- Where nothing is held of any kind. -/
theorem Cleared.stands (h : b.Cleared needs ks) (hall : ∀ k, k ∈ ks) : b.Stands needs [] where
  orderly := h.orderly
  held_iff k := by
    rw [h.held_eq k (hall k)]
    simp

end Book

end Ledger
