import TetherDisplay.Foundations.Runs
import Mathlib.Data.List.Infix
import Mathlib.Logic.Function.Basic
import Mathlib.Tactic.Common

/-!
# Sending under a lock

Any number of threads pass items to one channel.  A thread that has an item to send waits
for a lock, holds it while the channel writes the item, and gives it back.  The channel
writes an item in pieces and may refuse it at any point, so the lock is all that keeps the
pieces of different items apart.

* `Wiring` says what a channel writes for an item, which may depend on the items before:
  the item as it is, or a record of a cipher in a certain state.
* `Sender` is the lock, the channel, and where each thread is in the code of a send.
  `Sender.step` is one step of one thread.
* `Valid` holds of every run: one thread at a time is inside, and the items of each thread
  are begun in the order in which they are handed over.
* `WellWritten` holds as long as no send is begun after one has been refused: what has been
  written is the items begun, one after the other, up to a rest of the last one.

The steps of the threads may come in any order; the rules are stated for one step.  A thread
never waits for good: the one that is inside comes out by steps of its own, and then the lock is
free for the thread (`Valid.comesOut`).
-/

namespace LockedSender

universe u v w

variable {θ : Type u} {δ : Type v} {β : Type w}

/-! ## What a channel writes -/

/-- What a channel writes for the next item, and what that leaves of its state. -/
structure Wiring (δ : Type v) (β : Type w) where
  State : Type
  wire : State → δ → List β × State

namespace Wiring

/-- A channel that writes every item in the same way. -/
def plain (f : δ → List β) : Wiring δ β where
  State := Unit
  wire _ d := (f d, ())

variable (W : Wiring δ β)

/-- The state of the wiring after some items. -/
def after : W.State → List δ → W.State
  | s, [] => s
  | s, d :: ds => after (W.wire s d).2 ds

/-- What is written for a sequence of items. -/
def wires : W.State → List δ → List β
  | _, [] => []
  | s, d :: ds => (W.wire s d).1 ++ wires (W.wire s d).2 ds

/-- The state after one more item. -/
theorem after_concat (s : W.State) (ds : List δ) (d : δ) :
    W.after s (ds ++ [d]) = (W.wire (W.after s ds) d).2 := by
  induction ds generalizing s with
  | nil => rfl
  | cons e ds ih => exact ih (W.wire s e).2

/-- One more item on the wire. -/
theorem wires_concat (s : W.State) (ds : List δ) (d : δ) :
    W.wires s (ds ++ [d]) = W.wires s ds ++ (W.wire (W.after s ds) d).1 := by
  induction ds generalizing s with
  | nil => exact List.append_nil _
  | cons e ds ih =>
      show (W.wire s e).1 ++ W.wires (W.wire s e).2 (ds ++ [d]) = _
      rw [ih, ← List.append_assoc]
      rfl

/-- A wiring without state. -/
theorem wires_plain (f : δ → List β) (ds : List δ) :
    (plain f).wires () ds = ds.flatMap f := by
  induction ds with
  | nil => rfl
  | cons d ds ih => exact congrArg (f d ++ ·) ih

end Wiring

/-! ## The sender -/

/-- Where a thread is in the code of a send. -/
inductive Stage (δ : Type v) (β : Type w) where
  /-- Before the lock. -/
  | waiting (d : δ)
  /-- The channel is writing, and has `rest` still to write. -/
  | writing (d : δ) (rest : List β)
  /-- The channel has refused the item. -/
  | refused
  /-- About to give the lock back. -/
  | leaving

namespace Stage

/-- The item that has not been taken or refused yet. -/
def item : Stage δ β → Option δ
  | .waiting d => some d
  | .writing d _ => some d
  | .refused => none
  | .leaving => none

/-- The thread holds the mutex. -/
def Inside : Stage δ β → Prop
  | .waiting _ => False
  | _ => True

/-- The item that the channel is writing. -/
def current : Option (Stage δ β) → List δ
  | some (.writing d _) => [d]
  | _ => []

/-- The item that waits for the lock. -/
def pending : Option (Stage δ β) → List δ
  | some (.waiting d) => [d]
  | _ => []

end Stage

/-- What a channel has done: it has written a piece, or refused an item. -/
inductive Output (β : Type w) where
  | wrote (bytes : List β)
  | refused
  deriving DecidableEq, Repr

/-- The channel has refused the bytes. -/
def Output.isRefused : Output β → Bool
  | .refused => true
  | .wrote _ => false

/-- All that has been written. -/
def written : List (Output β) → List β
  | [] => []
  | .wrote bytes :: output => bytes ++ written output
  | .refused :: output => written output

/-- What has been written after the first item that was refused. -/
def writtenAfterRefusal : List (Output β) → List β
  | [] => []
  | .wrote _ :: output => writtenAfterRefusal output
  | .refused :: output => written output

theorem written_append (front back : List (Output β)) :
    written (front ++ back) = written front ++ written back := by
  induction front with
  | nil => rfl
  | cons o front ih =>
      cases o with
      | wrote bytes =>
          show bytes ++ written (front ++ back) = _
          rw [ih, ← List.append_assoc]
          rfl
      | refused => exact ih

/-- A refusal counts from where it stands. -/
theorem writtenAfterRefusal_append (front back : List (Output β)) :
    writtenAfterRefusal (front ++ back) =
      if front.any Output.isRefused then writtenAfterRefusal front ++ written back
      else writtenAfterRefusal back := by
  induction front with
  | nil => rfl
  | cons o front ih =>
      cases o with
      | wrote bytes => exact ih
      | refused => exact written_append front back

/-- A lock, a channel behind it, and the threads that send.  `handed`, `begun` and `sent`
record the items that threads have come with, that the channel has been given, and that it
has taken as a whole. -/
structure Sender (θ : Type u) (W : Wiring δ β) where
  mutex : Option θ := none
  stage : θ → Option (Stage δ β) := fun _ => none
  link : W.State
  output : List (Output β) := []
  handed : List (θ × δ) := []
  begun : List (θ × δ) := []
  sent : List (θ × δ) := []

/-- The steps of a thread that is in the code of a send; how the channel writes is up to
the channel. -/
inductive Act where
  | lock
  | write (n : ℕ)
  | accept
  | refuse
  | acknowledge
  | unlock
  deriving DecidableEq, Repr

/-- The items of one thread. -/
def itemsBy [DecidableEq θ] (t : θ) (log : List (θ × δ)) : List δ :=
  (log.filter fun entry => entry.1 = t).map Prod.snd

theorem itemsBy_append [DecidableEq θ] (t : θ) (front back : List (θ × δ)) :
    itemsBy t (front ++ back) = itemsBy t front ++ itemsBy t back := by
  simp [itemsBy]

/-- Whose item it is. -/
theorem mem_itemsBy [DecidableEq θ] {t : θ} {d : δ} {log : List (θ × δ)} :
    d ∈ itemsBy t log ↔ (t, d) ∈ log := by
  simp [itemsBy]

theorem itemsBy_self [DecidableEq θ] (t : θ) (d : δ) : itemsBy t [(t, d)] = [d] := by
  simp [itemsBy]

theorem itemsBy_of_ne [DecidableEq θ] {t t' : θ} (h : t' ≠ t) (d : δ) :
    itemsBy t [(t', d)] = [] := by
  simp [itemsBy, h]

/-- Each entry of one kind has an entry of another kind before it. -/
def Preceded {ε : Type*} (P Q : ε → Prop) (log : List ε) : Prop :=
  ∀ front x back, log = front ++ x :: back → P x → ∃ y ∈ front, Q y

theorem Preceded.nil {ε : Type*} (P Q : ε → Prop) : Preceded P Q [] := by
  intro front x back hlog
  simp at hlog

/-- One more entry, with what must precede it. -/
theorem Preceded.concat {ε : Type*} {P Q : ε → Prop} {log : List ε} (h : Preceded P Q log)
    {x : ε} (hx : P x → ∃ y ∈ log, Q y) : Preceded P Q (log ++ [x]) := by
  intro front z back hlog hz
  rcases List.eq_nil_or_concat back with rfl | ⟨back, w, rfl⟩
  · obtain ⟨rfl, hsame⟩ := List.append_inj' hlog rfl
    obtain rfl := List.singleton_inj.mp hsame
    exact hx hz
  · rw [List.concat_eq_append, ← List.cons_append, ← List.append_assoc] at hlog
    obtain ⟨hlog, -⟩ := List.append_inj' hlog rfl
    exact h front z back hlog hz

namespace Sender

variable {W : Wiring δ β}

/-- Some item has been refused. -/
def torn (s : Sender θ W) : Bool := s.output.any Output.isRefused

section

variable [DecidableEq θ]

/-- A thread comes with an item. -/
def hand (s : Sender θ W) (t : θ) (d : δ) : Sender θ W :=
  { s with stage := Function.update s.stage t (some (.waiting d))
           handed := s.handed ++ [(t, d)] }

/-- A step that the thread cannot take leaves everything as it is. -/
def step (s : Sender θ W) (t : θ) : Act → Sender θ W
  | .lock =>
      match s.mutex, s.stage t with
      | none, some (.waiting d) =>
          let (bytes, link) := W.wire s.link d
          { s with mutex := some t
                   stage := Function.update s.stage t (some (.writing d bytes))
                   link
                   begun := s.begun ++ [(t, d)] }
      | _, _ => s
  | .write n =>
      match s.stage t with
      | some (.writing d rest) =>
          { s with stage := Function.update s.stage t (some (.writing d (rest.drop n)))
                   output := s.output ++ [.wrote (rest.take n)] }
      | _ => s
  | .accept =>
      match s.stage t with
      | some (.writing d []) =>
          { s with stage := Function.update s.stage t (some .leaving)
                   sent := s.sent ++ [(t, d)] }
      | _ => s
  | .refuse =>
      match s.stage t with
      | some (.writing _ _) =>
          { s with stage := Function.update s.stage t (some .refused)
                   output := s.output ++ [.refused] }
      | _ => s
  | .acknowledge =>
      match s.stage t with
      | some .refused => { s with stage := Function.update s.stage t (some .leaving) }
      | _ => s
  | .unlock =>
      match s.stage t with
      | some .leaving => { s with mutex := none, stage := Function.update s.stage t none }
      | _ => s

/-- The thread has an item and the lock is free. -/
def Enters (s : Sender θ W) (t : θ) : Act → Prop
  | .lock => s.mutex = none ∧ ∃ d, s.stage t = some (.waiting d)
  | _ => False

/-- What a step that is not idle does. -/
inductive Move (s : Sender θ W) (t : θ) : Act → Sender θ W → Prop where
  | lock (d : δ) (hfree : s.mutex = none) (hstage : s.stage t = some (.waiting d)) :
      Move s t .lock
        { s with mutex := some t
                 stage := Function.update s.stage t (some (.writing d (W.wire s.link d).1))
                 link := (W.wire s.link d).2
                 begun := s.begun ++ [(t, d)] }
  | write (n : ℕ) (d : δ) (rest : List β) (hstage : s.stage t = some (.writing d rest)) :
      Move s t (.write n)
        { s with stage := Function.update s.stage t (some (.writing d (rest.drop n)))
                 output := s.output ++ [.wrote (rest.take n)] }
  | accept (d : δ) (hstage : s.stage t = some (.writing d [])) :
      Move s t .accept
        { s with stage := Function.update s.stage t (some .leaving)
                 sent := s.sent ++ [(t, d)] }
  | refuse (d : δ) (rest : List β) (hstage : s.stage t = some (.writing d rest)) :
      Move s t .refuse
        { s with stage := Function.update s.stage t (some .refused)
                 output := s.output ++ [.refused] }
  | acknowledge (hstage : s.stage t = some .refused) :
      Move s t .acknowledge { s with stage := Function.update s.stage t (some .leaving) }
  | unlock (hstage : s.stage t = some .leaving) :
      Move s t .unlock { s with mutex := none, stage := Function.update s.stage t none }

/-- **What a step does**: nothing, or one of six things. -/
theorem step_cases (s : Sender θ W) (t : θ) (a : Act) :
    s.step t a = s ∨ Move s t a (s.step t a) := by
  cases a with
  | lock =>
      simp only [step]
      split
      · exact Or.inr (.lock _ ‹_› ‹_›)
      · exact Or.inl rfl
  | write n =>
      simp only [step]
      split
      · exact Or.inr (.write n _ _ ‹_›)
      · exact Or.inl rfl
  | accept =>
      simp only [step]
      split
      · exact Or.inr (.accept _ ‹_›)
      · exact Or.inl rfl
  | refuse =>
      simp only [step]
      split
      · exact Or.inr (.refuse _ _ ‹_›)
      · exact Or.inl rfl
  | acknowledge =>
      simp only [step]
      split
      · exact Or.inr (.acknowledge ‹_›)
      · exact Or.inl rfl
  | unlock =>
      simp only [step]
      split
      · exact Or.inr (.unlock ‹_›)
      · exact Or.inl rfl

instance decidableEnters (s : Sender θ W) (t : θ) : ∀ a, Decidable (s.Enters t a)
  | .lock =>
      match hmutex : s.mutex, hstage : s.stage t with
      | none, some (.waiting d) => isTrue ⟨hmutex, d, hstage⟩
      | some _, _ => isFalse fun h => by cases hmutex.symm.trans h.1
      | none, none => isFalse fun ⟨_, _, h⟩ => by cases hstage.symm.trans h
      | none, some (.writing _ _) => isFalse fun ⟨_, _, h⟩ => by cases hstage.symm.trans h
      | none, some .refused => isFalse fun ⟨_, _, h⟩ => by cases hstage.symm.trans h
      | none, some .leaving => isFalse fun ⟨_, _, h⟩ => by cases hstage.symm.trans h
  | .write _ | .accept | .refuse | .acknowledge | .unlock => isFalse id

/-- A step of one thread leaves the others where they are. -/
theorem stage_step_of_ne {s : Sender θ W} {t t' : θ} (h : t' ≠ t) (a : Act) :
    (s.step t a).stage t' = s.stage t' := by
  rcases s.step_cases t a with hidle | hmove
  · rw [hidle]
  · generalize s.step t a = s' at hmove ⊢
    cases hmove
    all_goals exact Function.update_of_ne h _ _

/-- A thread that is not sending takes no step. -/
theorem step_of_idle {s : Sender θ W} {t : θ} (h : s.stage t = none) (a : Act) :
    s.step t a = s := by
  cases a <;> simp [step, h]

/-- A thread that has been refused does nothing before it has taken note of it. -/
theorem step_of_refused {s : Sender θ W} {t : θ} (h : s.stage t = some .refused) {a : Act}
    (ha : a ≠ .acknowledge) : s.step t a = s := by
  cases a with
  | acknowledge => exact absurd rfl ha
  | _ => simp [step, h]

/-- A thread that is leaving gives the lock back. -/
theorem step_of_leaving {s : Sender θ W} {t : θ} (h : s.stage t = some .leaving) (a : Act) :
    s.step t a = s ∨ (s.step t a).stage t = none := by
  cases a with
  | unlock => exact Or.inr (by simp [step, h])
  | _ => exact Or.inl (by simp [step, h])

/-! ## Every run -/

/-- **The invariant of every run.**  The thread that holds the lock is the one thread
inside, and of what a thread has handed over all but the item it waits with is begun. -/
structure Valid (start : W.State) (s : Sender θ W) : Prop where
  holder : ∀ t, s.mutex = some t ↔ ∃ st, s.stage t = some st ∧ st.Inside
  link : s.link = W.after start (s.begun.map Prod.snd)
  fifo : ∀ t, itemsBy t s.handed = itemsBy t s.begun ++ Stage.pending (s.stage t)

theorem valid_start (start : W.State) : Valid start ({ link := start } : Sender θ W) where
  holder t := ⟨fun h => (by cases h), fun ⟨_, h, _⟩ => (by cases h)⟩
  link := rfl
  fifo _ := rfl

section

variable {start : W.State} {s : Sender θ W} {t : θ}

/-- Mutual exclusion. -/
theorem Valid.alone (h : Valid start s) {t' : θ} {st st' : Stage δ β}
    (hstage : s.stage t = some st) (hinside : st.Inside) (hstage' : s.stage t' = some st')
    (hinside' : st'.Inside) : t' = t := by
  have hmutex := (h.holder t).mpr ⟨st, hstage, hinside⟩
  have hmutex' := (h.holder t').mpr ⟨st', hstage', hinside'⟩
  exact Option.some.inj (hmutex'.symm.trans hmutex)

/-- A thread that is inside and stays inside keeps the lock. -/
theorem Valid.holder_update (h : Valid start s) {st st' : Stage δ β}
    (hstage : s.stage t = some st) (hinside : st.Inside) (hinside' : st'.Inside) (t' : θ) :
    s.mutex = some t' ↔
      ∃ st'', Function.update s.stage t (some st') t' = some st'' ∧ st''.Inside := by
  by_cases ht : t' = t
  · subst ht
    rw [Function.update_self]
    exact ⟨fun _ => ⟨st', rfl, hinside'⟩, fun _ => (h.holder t').mpr ⟨st, hstage, hinside⟩⟩
  · rw [Function.update_of_ne ht]
    exact h.holder t'

/-- A step that begins no item and takes none off the queue keeps the order of the items. -/
theorem Valid.fifo_update (h : Valid start s) {st : Option (Stage δ β)}
    (hpending : Stage.pending st = Stage.pending (s.stage t)) (t' : θ) :
    itemsBy t' s.handed =
      itemsBy t' s.begun ++ Stage.pending (Function.update s.stage t st t') := by
  by_cases ht : t' = t
  · subst ht
    rw [Function.update_self, hpending]
    exact h.fifo t'
  · rw [Function.update_of_ne ht]
    exact h.fifo t'

/-- **One step keeps it.** -/
theorem Valid.step (h : Valid start s) (t : θ) (a : Act) : Valid start (s.step t a) := by
  rcases s.step_cases t a with hidle | hmove
  · rwa [hidle]
  generalize s.step t a = s' at hmove ⊢
  cases hmove with
  | lock d hfree hstage =>
      refine ⟨fun t' => ?_, ?_, fun t' => ?_⟩
      · -- nobody was inside, and now `t` is
        by_cases ht : t' = t
        · subst ht
          simp only [Function.update_self]
          exact ⟨fun _ => ⟨_, rfl, trivial⟩, fun _ => trivial⟩
        · simp only [Function.update_of_ne ht]
          refine ⟨fun heq => absurd (Option.some.inj heq).symm ht, fun hst => ?_⟩
          have hmutex := (h.holder t').mpr hst
          rw [hfree] at hmutex
          cases hmutex
      · simp only [List.map_append, List.map_cons, List.map_nil, W.after_concat, ← h.link]
      · have hfifo := h.fifo t'
        by_cases ht : t' = t
        · subst ht
          rw [hstage] at hfifo
          simp only [Function.update_self, itemsBy_append, itemsBy_self]
          rw [hfifo]
          exact (List.append_nil _).symm
        · simp only [Function.update_of_ne ht, itemsBy_append, itemsBy_of_ne (Ne.symm ht),
            List.append_nil]
          exact hfifo
  | write n d rest hstage =>
      exact ⟨h.holder_update hstage trivial trivial, h.link,
        h.fifo_update (by rw [hstage]; rfl)⟩
  | accept d hstage =>
      exact ⟨h.holder_update hstage trivial trivial, h.link,
        h.fifo_update (by rw [hstage]; rfl)⟩
  | refuse d rest hstage =>
      exact ⟨h.holder_update hstage trivial trivial, h.link,
        h.fifo_update (by rw [hstage]; rfl)⟩
  | acknowledge hstage =>
      exact ⟨h.holder_update hstage trivial trivial, h.link,
        h.fifo_update (by rw [hstage]; rfl)⟩
  | unlock hstage =>
      refine ⟨fun t' => ?_, h.link, h.fifo_update (by rw [hstage]; rfl)⟩
      -- only `t` was inside, and now nobody is
      refine ⟨fun hnone => (by cases hnone), fun ⟨st, hst, hinside⟩ => ?_⟩
      by_cases ht : t' = t
      · subst ht
        simp only [Function.update_self] at hst
        cases hst
      · simp only [Function.update_of_ne ht] at hst
        exact absurd (h.alone hstage trivial hst hinside) ht

/-- The items of a thread are begun in the order in which it comes with them. -/
theorem Valid.begun_prefix (h : Valid start s) (t : θ) :
    itemsBy t s.begun <+: itemsBy t s.handed := ⟨_, (h.fifo t).symm⟩

/-- The state of the channel is told by the items begun. -/
theorem Valid.link_eq {s' : Sender θ W} (h : Valid start s) (h' : Valid start s')
    (hbegun : s'.begun = s.begun) : s'.link = s.link := by
  rw [h'.link, h.link, hbegun]

/-- One more item is begun. -/
theorem Valid.wires_concat {s' : Sender θ W} (h : Valid start s) (h' : Valid start s') {x : θ × δ}
    (hbegun : s'.begun = s.begun ++ [x]) :
    W.wires start (s'.begun.map Prod.snd) =
        W.wires start (s.begun.map Prod.snd) ++ (W.wire s.link x.2).1 ∧
      s'.link = (W.wire s.link x.2).2 := by
  rw [h'.link, hbegun, List.map_append, List.map_singleton, W.wires_concat, W.after_concat,
    ← h.link]
  exact ⟨rfl, rfl⟩

/-- A thread that is not sending comes with an item. -/
theorem Valid.hand (h : Valid start s) (hidle : s.stage t = none) (d : δ) :
    Valid start (s.hand t d) := by
  refine ⟨fun t' => ?_, h.link, fun t' => ?_⟩
  · have hholder := h.holder t'
    by_cases ht : t' = t
    · subst ht
      rw [hidle] at hholder
      simp only [Sender.hand, Function.update_self]
      rw [hholder]
      exact ⟨fun ⟨_, hst, _⟩ => (by cases hst),
        fun ⟨_, hst, hinside⟩ => (by cases hst; exact hinside.elim)⟩
    · simp only [Sender.hand, Function.update_of_ne ht]
      exact hholder
  · have hfifo := h.fifo t'
    by_cases ht : t' = t
    · subst ht
      rw [hidle] at hfifo
      simp only [Sender.hand, itemsBy_append, itemsBy_self, Function.update_self, hfifo]
      exact congrArg (· ++ [d]) (List.append_nil _)
    · simp only [Sender.hand, itemsBy_append, itemsBy_of_ne (Ne.symm ht), List.append_nil,
        Function.update_of_ne ht]
      exact hfifo

end

/-- Every item that a thread is sending, or the channel has begun or taken, has the
property. -/
structure Every (Q : θ → δ → Prop) (s : Sender θ W) : Prop where
  stage : ∀ t st d, s.stage t = some st → st.item = some d → Q t d
  begun : ∀ x ∈ s.begun, Q x.1 x.2
  sent : ∀ x ∈ s.sent, Q x.1 x.2

omit [DecidableEq θ] in
theorem Every.mono {Q Q' : θ → δ → Prop} {s : Sender θ W} (h : s.Every Q)
    (hQ : ∀ t d, Q t d → Q' t d) : s.Every Q' where
  stage t st d hst hd := hQ t d (h.stage t st d hst hd)
  begun x hx := hQ x.1 x.2 (h.begun x hx)
  sent x hx := hQ x.1 x.2 (h.sent x hx)

/-- One more item is handed over. -/
theorem Every.hand {Q : θ → δ → Prop} {s : Sender θ W} (h : s.Every Q) {t : θ} {d : δ}
    (hitem : Q t d) : (s.hand t d).Every Q := by
  refine ⟨fun t' st d' hst hd => ?_, h.begun, h.sent⟩
  by_cases ht : t' = t
  · subst ht
    simp only [Sender.hand, Function.update_self, Option.some.injEq] at hst
    subst hst
    cases hd
    exact hitem
  · simp only [Sender.hand, Function.update_of_ne ht] at hst
    exact h.stage t' st d' hst hd

/-- The item that a thread is sending is the one it came with. -/
theorem item_of_step {s : Sender θ W} {t t' : θ} {a : Act} {st' : Stage δ β} {d : δ}
    (hstage : (s.step t a).stage t' = some st') (hitem : st'.item = some d) :
    ∃ st, s.stage t' = some st ∧ st.item = some d := by
  by_cases ht : t' = t
  · subst ht
    rcases s.step_cases t' a with hidle | hmove
    · rw [hidle] at hstage
      exact ⟨st', hstage, hitem⟩
    generalize s.step t' a = s' at hmove hstage
    cases hmove with
    | lock e hfree hbefore =>
        obtain rfl := Option.some.inj ((Function.update_self t' _ s.stage).symm.trans hstage)
        exact ⟨_, hbefore, hitem⟩
    | write n e rest hbefore =>
        obtain rfl := Option.some.inj ((Function.update_self t' _ s.stage).symm.trans hstage)
        exact ⟨_, hbefore, hitem⟩
    | accept e hbefore =>
        obtain rfl := Option.some.inj ((Function.update_self t' _ s.stage).symm.trans hstage)
        cases hitem
    | refuse e rest hbefore =>
        obtain rfl := Option.some.inj ((Function.update_self t' _ s.stage).symm.trans hstage)
        cases hitem
    | acknowledge hbefore =>
        obtain rfl := Option.some.inj ((Function.update_self t' _ s.stage).symm.trans hstage)
        cases hitem
    | unlock hbefore =>
        have hnone := (Function.update_self t' none s.stage).symm.trans hstage
        cases hnone
  · rw [stage_step_of_ne ht] at hstage
    exact ⟨st', hstage, hitem⟩

/-- The channel takes an item only when it has been written. -/
theorem sent_step (s : Sender θ W) (t : θ) (a : Act) :
    (s.step t a).sent = s.sent ∨
      ∃ d, s.stage t = some (.writing d []) ∧ (s.step t a).sent = s.sent ++ [(t, d)] := by
  rcases s.step_cases t a with hidle | hmove
  · rw [hidle]
    exact Or.inl rfl
  generalize s.step t a = s' at hmove ⊢
  cases hmove with
  | accept d hstage => exact Or.inr ⟨d, hstage, rfl⟩
  | _ => exact Or.inl rfl

/-- What comes before an item of some kind is there when the channel takes the item. -/
theorem sent_preceded {P Q : θ × δ → Prop} {s : Sender θ W} {t : θ} (h : Preceded P Q s.sent)
    (hitem : ∀ d, s.stage t = some (.writing d []) → P (t, d) → ∃ y ∈ s.sent, Q y) (a : Act) :
    Preceded P Q (s.step t a).sent := by
  rcases s.sent_step t a with hsame | ⟨d, hstage, hsent⟩
  · rwa [hsame]
  · rw [hsent]
    exact h.concat (hitem d hstage)

/-- What has been sent stays so. -/
theorem sent_subset_step (s : Sender θ W) (t : θ) (a : Act) : s.sent ⊆ (s.step t a).sent := by
  rcases s.sent_step t a with hsame | ⟨d, hstage, hsent⟩
  · rw [hsame]
    exact List.Subset.refl _
  · rw [hsent]
    exact List.subset_append_left _ _

/-- Only a refusal tears. -/
theorem torn_step {s : Sender θ W} {t : θ} {a : Act} (ha : a ≠ .refuse) :
    (s.step t a).torn = s.torn := by
  rcases s.step_cases t a with hidle | hmove
  · rw [hidle]
  generalize s.step t a = s' at hmove ⊢
  cases hmove with
  | refuse d rest hstage => exact absurd rfl ha
  | write n d rest hstage => simp [torn, Output.isRefused]
  | _ => rfl

/-- Only a refusal refuses. -/
theorem refused_step {s : Sender θ W} {t t' : θ} {a : Act} (ha : a ≠ .refuse)
    (h : (s.step t a).stage t' = some .refused) : s.stage t' = some .refused := by
  by_cases ht : t' = t
  · subst ht
    rcases s.step_cases t' a with hidle | hmove
    · rwa [hidle] at h
    generalize s.step t' a = s' at hmove h
    cases hmove with
    | refuse d rest hstage => exact absurd rfl ha
    | _ => simp at h
  · rwa [stage_step_of_ne ht] at h

/-- The channel begins an item only when its thread gets the lock. -/
theorem begun_step (s : Sender θ W) (t : θ) (a : Act) :
    (s.step t a).begun = s.begun ∨
      ∃ d, s.stage t = some (.waiting d) ∧ (s.step t a).begun = s.begun ++ [(t, d)] := by
  rcases s.step_cases t a with hidle | hmove
  · rw [hidle]
    exact Or.inl rfl
  generalize s.step t a = s' at hmove ⊢
  cases hmove with
  | lock d hfree hstage => exact Or.inr ⟨d, hstage, rfl⟩
  | _ => exact Or.inl rfl

/-- A step sends no items but those that threads have come with. -/
theorem Every.step {Q : θ → δ → Prop} {s : Sender θ W} (h : s.Every Q) (t : θ) (a : Act) :
    (s.step t a).Every Q where
  stage t' st' d hstage hitem := by
    obtain ⟨st, hbefore, hsame⟩ := item_of_step hstage hitem
    exact h.stage t' st d hbefore hsame
  begun x hx := by
    rcases s.begun_step t a with hbegun | ⟨d, hstage, hbegun⟩
    · exact h.begun x (hbegun ▸ hx)
    · rcases List.mem_append.mp (hbegun ▸ hx) with hx | hx
      · exact h.begun x hx
      · obtain rfl := List.mem_singleton.mp hx
        exact h.stage t _ d hstage rfl
  sent x hx := by
    rcases s.sent_step t a with hsent | ⟨d, hstage, hsent⟩
    · exact h.sent x (hsent ▸ hx)
    · rcases List.mem_append.mp (hsent ▸ hx) with hx | hx
      · exact h.sent x hx
      · obtain rfl := List.mem_singleton.mp hx
        exact h.stage t _ d hstage rfl

theorem handed_step {s : Sender θ W} (t : θ) (a : Act) : (s.step t a).handed = s.handed := by
  rcases s.step_cases t a with hidle | hmove
  · rw [hidle]
  generalize s.step t a = s' at hmove ⊢
  cases hmove
  all_goals rfl

/-- What has been written stays written. -/
theorem written_step (s : Sender θ W) (t : θ) (a : Act) :
    ∃ more, written (s.step t a).output = written s.output ++ more := by
  rcases s.step_cases t a with hidle | hmove
  · rw [hidle]
    exact ⟨[], (List.append_nil _).symm⟩
  generalize s.step t a = s' at hmove ⊢
  cases hmove with
  | write n d rest hstage => exact ⟨_, written_append s.output [.wrote (rest.take n)]⟩
  | refuse d rest hstage => exact ⟨_, written_append s.output [.refused]⟩
  | _ => exact ⟨[], (List.append_nil _).symm⟩

/-- A thread is in the code of a send only if it was before. -/
theorem isSome_of_step {s : Sender θ W} {t t' : θ} {a : Act}
    (h : ((s.step t a).stage t').isSome) : (s.stage t').isSome := by
  by_cases ht : t' = t
  · subst ht
    rcases s.step_cases t' a with hidle | hmove
    · rwa [hidle] at h
    generalize s.step t' a = s' at hmove h
    cases hmove with
    | unlock hstage =>
        simp only [Function.update_self] at h
        cases h
    | _ => simp only [*, Option.isSome_some]
  · rwa [stage_step_of_ne ht] at h

/-- All that the channel has begun for a thread it has taken, or is still writing. -/
def Kept (s : Sender θ W) (t : θ) : Prop :=
  itemsBy t s.begun = itemsBy t s.sent ++ Stage.current (s.stage t)

/-- What is handed over is kept. -/
theorem Kept.hand {s : Sender θ W} {t t' : θ} (h : s.stage t' = some .refused ∨ s.Kept t')
    (hidle : s.stage t = none) (d : δ) :
    (s.hand t d).stage t' = some .refused ∨ (s.hand t d).Kept t' := by
  unfold Kept at h ⊢
  by_cases ht : t' = t
  · subst ht
    simp only [hidle, reduceCtorEq, false_or] at h
    simp only [Sender.hand, Function.update_self]
    exact Or.inr h
  · simp only [Sender.hand, Function.update_of_ne ht]
    exact h

/-- A thread loses an item only by a refusal, which it then acknowledges. -/
theorem Kept.step {s : Sender θ W} {t t' : θ} {a : Act}
    (h : s.stage t' = some .refused ∨ s.Kept t')
    (hack : a = .acknowledge → s.stage t = some .refused → t' ≠ t) :
    (s.step t a).stage t' = some .refused ∨ (s.step t a).Kept t' := by
  by_cases ht : t' = t
  · subst ht
    rcases s.step_cases t' a with hidle | hmove
    · rwa [hidle]
    generalize s.step t' a = s' at hmove ⊢
    unfold Kept at h ⊢
    cases hmove with
    | lock d hfree hstage =>
        simp only [hstage, Option.some.injEq, reduceCtorEq, false_or] at h
        simp only [Function.update_self, itemsBy_append, itemsBy_self, h]
        exact Or.inr (congrArg (· ++ [d]) (List.append_nil _))
    | write n d rest hstage =>
        simp only [hstage, Option.some.injEq, reduceCtorEq, false_or] at h
        simp only [Function.update_self, h]
        exact Or.inr rfl
    | accept d hstage =>
        simp only [hstage, Option.some.injEq, reduceCtorEq, false_or] at h
        simp only [Function.update_self, itemsBy_append, itemsBy_self, h]
        exact Or.inr (List.append_nil _).symm
    | refuse d rest hstage => exact Or.inl (Function.update_self t' _ _)
    | acknowledge hstage => exact absurd rfl (hack rfl hstage)
    | unlock hstage =>
        simp only [hstage, Option.some.injEq, reduceCtorEq, false_or] at h
        simp only [Function.update_self, h]
        exact Or.inr rfl
  · rw [stage_step_of_ne ht]
    unfold Kept at h ⊢
    rw [stage_step_of_ne ht]
    rcases s.step_cases t a with hidle | hmove
    · rwa [hidle]
    generalize s.step t a = s' at hmove ⊢
    cases hmove with
    | lock d hfree hstage =>
        simpa only [itemsBy_append, itemsBy_of_ne (Ne.symm ht), List.append_nil] using h
    | accept d hstage =>
        simpa only [itemsBy_append, itemsBy_of_ne (Ne.symm ht), List.append_nil] using h
    | _ => exact h

end

/-! ## The way out -/

section

variable [DecidableEq θ] {s : Sender θ W} {t : θ}

/-- One step of one thread. -/
def stepOf (s : Sender θ W) (x : θ × Act) : Sender θ W := s.step x.1 x.2

/-- A thread whose item the channel is writing is out when the channel has written the rest. -/
theorem exec_writing {d : δ} {rest : List β} (hstage : s.stage t = some (.writing d rest)) :
    let s' := Runs.exec stepOf s [(t, .write rest.length), (t, .accept), (t, .unlock)]
    s'.mutex = none ∧ s'.stage = Function.update s.stage t none := by
  simp [stepOf, step, hstage]

theorem exec_leaving (hstage : s.stage t = some .leaving) :
    let s' := Runs.exec stepOf s [(t, .unlock)]
    s'.mutex = none ∧ s'.stage = Function.update s.stage t none := by
  simp [stepOf, step, hstage]

/-- A thread that waits for a lock that is free gets through. -/
theorem exec_waiting {d : δ} (hfree : s.mutex = none) (hstage : s.stage t = some (.waiting d)) :
    let s' := Runs.exec stepOf s ((t, .lock) ::
      [(t, .write (W.wire s.link d).1.length), (t, .accept), (t, .unlock)])
    s'.stage t = none := by
  simp [stepOf, step, hstage, hfree]

/-- The thread that is inside comes out, if nothing is refused. -/
theorem Valid.freed {start : W.State} (h : Valid start s)
    (hunrefused : ∀ t, s.stage t ≠ some .refused) :
    ∃ acts : List (θ × Act), (∀ x ∈ acts, x.2 ≠ .refuse) ∧
      (Runs.exec stepOf s acts).mutex = none ∧
      ∀ t, (Runs.exec stepOf s acts).stage t = none ∨
        (Runs.exec stepOf s acts).stage t = s.stage t ∧ s.mutex ≠ some t := by
  cases hmutex : s.mutex with
  | none => exact ⟨[], by simp, hmutex, fun t => Or.inr ⟨rfl, by simp⟩⟩
  | some u =>
      have hupdate {s' : Sender θ W} (hs' : s'.stage = Function.update s.stage u none) (t : θ) :
          s'.stage t = none ∨ s'.stage t = s.stage t ∧ some u ≠ some t := by
        rw [hs']
        by_cases ht : t = u
        · subst ht
          exact Or.inl (by rw [Function.update_self])
        · exact Or.inr ⟨Function.update_of_ne ht _ _, fun heq =>
            ht (Option.some.inj heq).symm⟩
      obtain ⟨st, hstage, hinside⟩ := (h.holder u).mp hmutex
      cases st with
      | waiting d => exact hinside.elim
      | refused => exact absurd hstage (hunrefused u)
      | writing d rest =>
          obtain ⟨hfree, hstages⟩ := exec_writing hstage
          exact ⟨_, by simp, hfree, hupdate hstages⟩
      | leaving =>
          obtain ⟨hfree, hstages⟩ := exec_leaving hstage
          exact ⟨_, by simp, hfree, hupdate hstages⟩

/-- **A thread that sends comes out**, by its own steps and those of the thread that is inside,
if nothing is refused. -/
theorem Valid.comesOut {start : W.State} (h : Valid start s)
    (hunrefused : ∀ t, s.stage t ≠ some .refused) (t : θ) :
    ∃ acts : List (θ × Act), (∀ x ∈ acts, x.2 ≠ .refuse) ∧
      (Runs.exec stepOf s acts).stage t = none := by
  obtain ⟨acts, hacts, hfree, hstages⟩ := h.freed hunrefused
  rcases hstages t with hout | ⟨hsame, hother⟩
  · exact ⟨acts, hacts, hout⟩
  cases hstage : s.stage t with
  | none => exact ⟨acts, hacts, hsame.trans hstage⟩
  | some st =>
      have hwaiting : ∃ d, st = .waiting d := by
        have hholder := h.holder t
        cases st with
        | waiting d => exact ⟨d, rfl⟩
        | _ => exact absurd (hholder.mpr ⟨_, hstage, trivial⟩) hother
      obtain ⟨d, rfl⟩ := hwaiting
      have hthrough := exec_waiting hfree (hsame.trans hstage)
      rw [← Runs.exec_append] at hthrough
      refine ⟨_, fun x hx => ?_, hthrough⟩
      rcases List.mem_append.mp hx with hx | hx
      · exact hacts x hx
      · simp only [List.mem_cons, List.not_mem_nil, or_false] at hx
        rcases hx with rfl | rfl | rfl | rfl <;> simp

end

/-! ## Runs in which nothing is begun after a refusal -/

/-- The thread that holds the lock, and where it is. -/
def inside (s : Sender θ W) : Option (θ × Stage δ β) :=
  s.mutex.bind fun t => (s.stage t).map fun st => (t, st)

/-- Nothing has been refused: what has been written is what the channel writes for the items
begun, and of the last one only a part while the channel is writing it. -/
def Intact (start : W.State) (s : Sender θ W) : Prop :=
  match s.inside with
  | none | some (_, .leaving) =>
      written s.output = W.wires start (s.begun.map Prod.snd) ∧ s.sent = s.begun
  | some (t, .writing d rest) =>
      s.begun = s.sent ++ [(t, d)] ∧
        ∃ part, written s.output = W.wires start (s.sent.map Prod.snd) ++ part ∧
          part ++ rest = (W.wire (W.after start (s.sent.map Prod.snd)) d).1
  | some (_, .waiting _) | some (_, .refused) => False

/-- The items that the channel has written to the last symbol. -/
def complete (s : Sender θ W) : List δ :=
  match s.inside with
  | some (_, .writing _ (_ :: _)) => s.sent.map Prod.snd
  | _ => s.begun.map Prod.snd

/-- An item has been refused, and the channel has written nothing since. -/
structure Cut (start : W.State) (s : Sender θ W) : Prop where
  written_prefix : written s.output <+: W.wires start (s.begun.map Prod.snd)
  after : writtenAfterRefusal s.output = []
  quiet : ∀ t d rest, s.stage t ≠ some (.writing d rest)

/-- **What is written**: whole items up to a refusal, and after one a cut. -/
def WellWritten (start : W.State) (s : Sender θ W) : Prop :=
  (s.torn = false ∧ s.Intact start) ∨ (s.torn = true ∧ s.Cut start)

theorem wellWritten_start (start : W.State) :
    WellWritten start ({ link := start } : Sender θ W) := Or.inl ⟨rfl, rfl, rfl⟩

/-- Before the first refusal nothing has been written after it. -/
theorem writtenAfterRefusal_of_intact {output : List (Output β)}
    (h : output.any Output.isRefused = false) : writtenAfterRefusal output = [] := by
  induction output with
  | nil => rfl
  | cons o output ih =>
      cases o with
      | wrote bytes => exact ih h
      | refused => cases h

section

variable {start : W.State} {s : Sender θ W} {t : θ}

theorem inside_of_mutex {st : Stage δ β} (hmutex : s.mutex = some t)
    (hstage : s.stage t = some st) : s.inside = some (t, st) := by
  rw [inside, hmutex]
  exact congrArg (Option.map _) hstage

theorem Valid.inside [DecidableEq θ] (h : Valid start s) {st : Stage δ β}
    (hstage : s.stage t = some st) (hinside : st.Inside) : s.inside = some (t, st) :=
  inside_of_mutex ((h.holder t).mpr ⟨st, hstage, hinside⟩) hstage

theorem Intact.writing [DecidableEq θ] (h : s.Intact start) (hvalid : Valid start s) {d : δ}
    {rest : List β} (hstage : s.stage t = some (.writing d rest)) :
    s.begun = s.sent ++ [(t, d)] ∧
      ∃ part, written s.output = W.wires start (s.sent.map Prod.snd) ++ part ∧
        part ++ rest = (W.wire (W.after start (s.sent.map Prod.snd)) d).1 := by
  unfold Intact at h
  rwa [hvalid.inside hstage trivial] at h

/-- What is left of an item completes what the channel writes for the items begun. -/
theorem Intact.written_rest [DecidableEq θ] (h : s.Intact start) (hvalid : Valid start s) {d : δ}
    {rest : List β} (hstage : s.stage t = some (.writing d rest)) :
    written s.output ++ rest = W.wires start (s.begun.map Prod.snd) := by
  obtain ⟨hbegun, part, hwritten, hpart⟩ := h.writing hvalid hstage
  rw [hwritten, List.append_assoc, hpart, hbegun]
  simp only [List.map_append, List.map_cons, List.map_nil, W.wires_concat]

theorem Intact.step [DecidableEq θ] (h : s.Intact start) (hvalid : Valid start s)
    (htorn : s.torn = false) (t : θ) (a : Act) : WellWritten start (s.step t a) := by
  have hintact := h
  have hnext := hvalid.step t a
  rcases s.step_cases t a with hidle | hmove
  · rw [hidle]
    exact Or.inl ⟨htorn, h⟩
  generalize s.step t a = s' at hmove hnext ⊢
  unfold Intact at h
  cases hmove with
  | lock d hfree hstage =>
      rw [inside, hfree] at h
      refine Or.inl ⟨htorn, ?_⟩
      unfold Intact
      rw [hnext.inside (Function.update_self t _ _) trivial]
      refine ⟨by rw [h.2], [], ?_, ?_⟩
      · rw [List.append_nil, h.2]
        exact h.1
      · rw [List.nil_append, h.2, ← hvalid.link]
  | write n d rest hstage =>
      obtain ⟨hbegun, part, hwritten, hpart⟩ := hintact.writing hvalid hstage
      refine Or.inl ⟨by simpa [torn, Output.isRefused] using htorn, ?_⟩
      unfold Intact
      rw [hnext.inside (Function.update_self t _ _) trivial]
      refine ⟨hbegun, part ++ rest.take n, ?_, ?_⟩
      · rw [written_append, hwritten, List.append_assoc]
        simp [written]
      · rw [List.append_assoc, List.take_append_drop, hpart]
  | accept d hstage =>
      obtain ⟨hbegun, -⟩ := hintact.writing hvalid hstage
      have hwritten := hintact.written_rest hvalid hstage
      refine Or.inl ⟨htorn, ?_⟩
      unfold Intact
      rw [hnext.inside (Function.update_self t _ _) trivial]
      exact ⟨by rw [← hwritten, List.append_nil], hbegun.symm⟩
  | refuse d rest hstage =>
      have hwritten := hintact.written_rest hvalid hstage
      refine Or.inr ⟨by simp [torn, Output.isRefused], ?_, ?_, fun t' d' rest' hst => ?_⟩
      · rw [← hwritten, written_append]
        simp [written]
      · rw [writtenAfterRefusal_append, if_neg (by simpa [torn] using htorn)]
        rfl
      · have hother := hnext.alone (Function.update_self t _ _) trivial hst trivial
        subst hother
        simp only [Function.update_self] at hst
        cases hst
  | acknowledge hstage =>
      rw [hvalid.inside hstage trivial] at h
      exact h.elim
  | unlock hstage =>
      rw [hvalid.inside hstage trivial] at h
      exact Or.inl ⟨htorn, h⟩

/-- **What has been written**: whole items, and a part of the one that comes next. -/
theorem Intact.complete (h : s.Intact start) :
    ∃ part, written s.output = W.wires start s.complete ++ part ∧
      (part = [] ∧ s.complete = s.begun.map Prod.snd ∨
        ∃ d rest, rest ≠ [] ∧ part ++ rest = (W.wire (W.after start s.complete) d).1 ∧
          s.begun.map Prod.snd = s.complete ++ [d]) := by
  unfold Intact at h
  unfold Sender.complete
  cases hinside : s.inside with
  | none =>
      simp only [hinside] at h ⊢
      exact ⟨[], by rw [List.append_nil, h.1], Or.inl ⟨rfl, trivial⟩⟩
  | some entry =>
      obtain ⟨t, st⟩ := entry
      cases st with
      | leaving =>
          simp only [hinside] at h ⊢
          exact ⟨[], by rw [List.append_nil, h.1], Or.inl ⟨rfl, trivial⟩⟩
      | writing d rest =>
          simp only [hinside] at h ⊢
          obtain ⟨hbegun, part, hwritten, hpart⟩ := h
          cases rest with
          | nil =>
              refine ⟨[], ?_, Or.inl ⟨rfl, rfl⟩⟩
              rw [List.append_nil] at hpart
              simp only [hwritten, hbegun, hpart, List.map_append, List.map_cons, List.map_nil,
                W.wires_concat, List.append_nil]
          | cons b rest =>
              exact ⟨part, hwritten, Or.inr ⟨d, b :: rest, List.cons_ne_nil _ _, hpart,
                by simp [hbegun]⟩⟩
      | waiting d => simp only [hinside] at h
      | refused => simp only [hinside] at h

/-- What is complete has been begun. -/
theorem Intact.complete_prefix (h : s.Intact start) :
    s.complete <+: s.begun.map Prod.snd := by
  obtain ⟨part, -, ⟨-, heq⟩ | ⟨d, rest, -, -, heq⟩⟩ := h.complete
  · rw [heq]
  · rw [heq]
    exact List.prefix_append _ _

/-- While the lock is free there is no part of an item. -/
theorem Intact.free (h : s.Intact start) (hfree : s.mutex = none) :
    written s.output = W.wires start s.complete ∧ s.complete = s.sent.map Prod.snd := by
  have hinside : s.inside = none := by rw [inside, hfree]; rfl
  unfold Intact at h
  unfold Sender.complete
  simp only [hinside] at h ⊢
  rw [h.2]
  exact ⟨h.1, rfl⟩

/-- The channel has taken all that it has begun for a thread that is not in the code of a
send. -/
theorem Intact.itemsBy_sent [DecidableEq θ] (h : s.Intact start) (hidle : s.stage t = none) :
    itemsBy t s.sent = itemsBy t s.begun := by
  unfold Intact at h
  cases hinside : s.inside with
  | none =>
      simp only [hinside] at h
      rw [h.2]
  | some entry =>
      obtain ⟨t', st⟩ := entry
      cases st with
      | leaving =>
          simp only [hinside] at h
          rw [h.2]
      | writing d rest =>
          simp only [hinside] at h
          have hother : t' ≠ t := by
            rintro rfl
            obtain ⟨t'', -, hst⟩ := Option.bind_eq_some_iff.mp hinside
            obtain ⟨st, hstage, heq⟩ := Option.map_eq_some_iff.mp hst
            cases heq
            rw [hidle] at hstage
            cases hstage
          rw [h.1, itemsBy_append, itemsBy_of_ne hother, List.append_nil]
      | waiting d => simp only [hinside] at h
      | refused => simp only [hinside] at h

/-- A refused item leaves the channel as it is, if nothing more is begun. -/
theorem Cut.step [DecidableEq θ] (h : s.Cut start) (htorn : s.torn = true) {a : Act}
    (hfresh : ¬ s.Enters t a) : WellWritten start (s.step t a) := by
  rcases s.step_cases t a with hidle | hmove
  · rw [hidle]
    exact Or.inr ⟨htorn, h⟩
  generalize s.step t a = s' at hmove ⊢
  have hquiet : ∀ (st : Option (Stage δ β)), (∀ d rest, st ≠ some (.writing d rest)) →
      ∀ t' d rest, Function.update s.stage t st t' ≠ some (.writing d rest) := by
    intro st hst t' d rest
    by_cases ht : t' = t
    · subst ht
      rw [Function.update_self]
      exact hst d rest
    · rw [Function.update_of_ne ht]
      exact h.quiet t' d rest
  cases hmove with
  | lock d hfree hstage => exact absurd ⟨hfree, d, hstage⟩ hfresh
  | write n d rest hstage => exact absurd hstage (h.quiet t d rest)
  | accept d hstage => exact absurd hstage (h.quiet t d [])
  | refuse d rest hstage => exact absurd hstage (h.quiet t d rest)
  | acknowledge hstage =>
      exact Or.inr ⟨htorn, h.written_prefix, h.after, hquiet _ (fun _ _ h => (by cases h))⟩
  | unlock hstage =>
      exact Or.inr ⟨htorn, h.written_prefix, h.after, hquiet _ (fun _ _ h => (by cases h))⟩

/-- **One step keeps what is written well written**, if it does not begin an item after one
has been refused. -/
theorem WellWritten.step [DecidableEq θ] (h : s.WellWritten start) (hvalid : Valid start s)
    {a : Act} (hfresh : s.Enters t a → s.torn = false) : WellWritten start (s.step t a) := by
  rcases h with ⟨htorn, hintact⟩ | ⟨htorn, hcut⟩
  · exact hintact.step hvalid htorn t a
  · refine hcut.step htorn fun henters => ?_
    rw [hfresh henters] at htorn
    cases htorn

/-- Handing an item over writes nothing. -/
theorem WellWritten.hand [DecidableEq θ] (h : s.WellWritten start) (hvalid : Valid start s)
    (hidle : s.stage t = none) (d : δ) : WellWritten start (s.hand t d) := by
  have hinside : (s.hand t d).inside = s.inside := by
    unfold Sender.inside Sender.hand
    cases hmutex : s.mutex with
    | none => rfl
    | some t' =>
        -- the thread that holds the lock is not the one that comes
        have ht : t' ≠ t := by
          rintro rfl
          obtain ⟨st, hst, -⟩ := (hvalid.holder t').mp hmutex
          rw [hidle] at hst
          cases hst
        exact congrArg (Option.map _) (Function.update_of_ne ht _ _)
  rcases h with ⟨htorn, hintact⟩ | ⟨htorn, hcut⟩
  · refine Or.inl ⟨htorn, ?_⟩
    unfold Intact at hintact ⊢
    rwa [hinside]
  · refine Or.inr ⟨htorn, hcut.written_prefix, hcut.after, fun t' d' rest hst => ?_⟩
    by_cases ht : t' = t
    · subst ht
      simp only [Sender.hand, Function.update_self] at hst
      cases hst
    · simp only [Sender.hand, Function.update_of_ne ht] at hst
      exact hcut.quiet t' d' rest hst

/-- **What has been written is a prefix of what the channel writes for the items begun**, and
nothing of it came after a refusal. -/
theorem WellWritten.written_prefix (h : s.WellWritten start) :
    written s.output <+: W.wires start (s.begun.map Prod.snd) ∧
      writtenAfterRefusal s.output = [] := by
  rcases h with ⟨htorn, hintact⟩ | ⟨htorn, hcut⟩
  · refine ⟨?_, writtenAfterRefusal_of_intact htorn⟩
    unfold Intact at hintact
    split at hintact
    · exact ⟨[], by rw [List.append_nil, hintact.1]⟩
    · exact ⟨[], by rw [List.append_nil, hintact.1]⟩
    · rename_i t d rest hinside
      obtain ⟨hbegun, part, hwritten, hpart⟩ := hintact
      refine ⟨rest, ?_⟩
      rw [hwritten, List.append_assoc, hpart, hbegun]
      simp only [List.map_append, List.map_cons, List.map_nil, W.wires_concat]
    · exact hintact.elim
    · exact hintact.elim
  · exact ⟨hcut.written_prefix, hcut.after⟩

end

end Sender

end LockedSender
