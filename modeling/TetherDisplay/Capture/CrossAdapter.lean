import TetherDisplay.Foundations.Runs
import Mathlib.Data.List.Basic
import Mathlib.Tactic.Common

/-!
# The bridge between adapters

`cross_adapter.cpp`: one texture that two devices share under a keyed mutex.  It is released with a
key and acquired with that key only: the producer takes it with 0 and leaves it with 1, and the
consumer the other way round.  Any number of threads may call `Produce` and `Consume`, and each call
goes through its steps in its own time; a thread may also die, in the middle of one or later.

The mutex is the system's, and a parameter: `KeyedMutex` is what it may answer, and `Documented`
what is known of the answers.  Of a release that fails nothing is known.  A thread that dies with
the mutex abandons it, and the next `AcquireSync` says so with `WAIT_ABANDONED`, whatever its key.

The bridge is a place for one frame.  Whatever the mutex answers, at most one call has the texture
at a time; and as long as the mutex has neither been abandoned to another call nor refused a
release, the frames go across one by one: what has been consumed is what has been produced, in
order, but for one at most (`frames_cross`).  `Produce` and `Consume` take `WAIT_ABANDONED` for an
acquisition, and that keeps the bridge going: as long as no release has failed a frame can still go
in or out, even if the thread that had the texture is dead (`keeps_going`).
-/

namespace TetherDisplay.Capture

/-- The two sides of the bridge, `Produce` and `Consume`. -/
inductive Side where
  | producer
  | consumer
  deriving DecidableEq

/-- `kKeyProducer` and `kKeyConsumer`. -/
def Side.key : Side → ℕ
  | .producer => 0
  | .consumer => 1

/-- The side that the texture is released to. -/
def Side.other : Side → Side
  | .producer => .consumer
  | .consumer => .producer

/-- An `HRESULT` of the mutex. -/
inductive HResult where
  | ok
  /-- `WAIT_ABANDONED`. -/
  | abandoned
  | failed
  deriving DecidableEq

/-- `Acquired`: an abandoned mutex has been acquired too. -/
def acquired (hr : HResult) : Bool := hr == .ok || hr == .abandoned

/-! ## The mutex -/

/-- `IDXGIKeyedMutex`: what `AcquireSync` and `ReleaseSync` may answer to a call with a key, and the
state that they leave, and what it makes of the death of the thread of a call. -/
structure KeyedMutex where
  State : Type
  start : State
  acquireSync : State → (call key : ℕ) → HResult → State → Prop
  releaseSync : State → (call key : ℕ) → HResult → State → Prop
  died : State → (call : ℕ) → State

/-- Whose turn it is. -/
inductive Turn where
  | free (key : ℕ)
  /-- One of the calls has it. -/
  | held (call : ℕ)
  /-- The call that had it is dead. -/
  | abandoned
  deriving DecidableEq

/-- **What is documented of the mutex**, told by whose turn it is.  At first it accepts key 0 only.
`AcquireSync` succeeds with the key that it has been released with, or, as abandoned, when the owner
has died; any other answer does not acquire.  A release that succeeds frees it for its key. -/
structure KeyedMutex.Documented (K : KeyedMutex) (turn : K.State → Turn) : Prop where
  start : turn K.start = .free 0
  ok : ∀ {m i key m'}, K.acquireSync m i key .ok m' → turn m = .free key ∧ turn m' = .held i
  abandoned : ∀ {m i key m'},
    K.acquireSync m i key .abandoned m' → turn m = .abandoned ∧ turn m' = .held i
  failed : ∀ {m i key m'}, K.acquireSync m i key .failed m' → turn m' = turn m
  released : ∀ {m i key m'},
    turn m = .held i → K.releaseSync m i key .ok m' → turn m' = .free key
  died : ∀ {m i}, turn m = .held i → turn (K.died m i) = .abandoned
  /-- Only the death of the owner counts. -/
  spared : ∀ {m i}, turn m ≠ .held i → turn (K.died m i) = turn m

/-- The mutex does not hold up a call whose turn it is. -/
structure KeyedMutex.Serves (K : KeyedMutex) (turn : K.State → Turn) : Prop where
  grants : ∀ {m key} i, turn m = .free key → ∃ m', K.acquireSync m i key .ok m'
  passesOn : ∀ {m} i key, turn m = .abandoned → ∃ m', K.acquireSync m i key .abandoned m'
  releases : ∀ {m i} key, turn m = .held i → ∃ m', K.releaseSync m i key .ok m'

/-- A mutex that does what is documented, and whose releases may fail and leave it as it was. -/
abbrev documentedMutex : KeyedMutex where
  State := Turn
  start := .free 0
  acquireSync m i key hr m' := (hr = .ok ∧ m = .free key ∧ m' = .held i) ∨
    (hr = .abandoned ∧ m = .abandoned ∧ m' = .held i) ∨ (hr = .failed ∧ m' = m)
  releaseSync m i key hr m' := (hr = .ok ∧ m = .held i ∧ m' = .free key) ∨ (hr = .failed ∧ m' = m)
  died m i := if m = .held i then .abandoned else m

/-- It does what is documented. -/
theorem documented_documentedMutex : documentedMutex.Documented id where
  start := rfl
  ok h := by
    rcases h with h | h | h
    · exact h.2
    · cases h.1
    · cases h.1
  abandoned h := by
    rcases h with h | h | h
    · cases h.1
    · exact h.2
    · cases h.1
  failed h := by
    rcases h with h | h | h
    · cases h.1
    · cases h.1
    · exact h.2
  released _ h := by
    rcases h with h | h
    · exact h.2.2
    · cases h.1
  died h := if_pos h
  spared h := if_neg h

/-- It holds nobody up whose turn it is. -/
theorem serves_documentedMutex : documentedMutex.Serves id where
  grants i h := ⟨.held i, Or.inl ⟨rfl, h, rfl⟩⟩
  passesOn i _ h := ⟨.held i, Or.inr (Or.inl ⟨rfl, h, rfl⟩)⟩
  releases key h := ⟨.free key, Or.inl ⟨rfl, h, rfl⟩⟩

/-! ## The bridge -/

/-- What a call of `Produce` or `Consume` does next. -/
inductive Stage where
  | acquiring
  | copying
  /-- The copy is in the producer's context only. -/
  | flushing
  | releasing
  | returned (ok : Bool)
  /-- Its thread has died. -/
  | dead
  deriving DecidableEq

/-- A call of `Produce` or of `Consume`. -/
structure BridgeCall (T : Type) where
  side : Side
  /-- `src`, for a `Produce`. -/
  src : T
  stage : Stage := .acquiring

/-- A bridge whose `Init` has worked, and the calls that there have been. -/
structure CrossAdapterBridge (K : KeyedMutex) (T : Type) where
  surface : Option T := none
  mutex : K.State := K.start
  calls : List (BridgeCall T) := []
  /-- What has been put into the texture. -/
  produced : List T := []
  /-- What has been copied out of it. -/
  consumed : List (Option T) := []

/-- Between the two calls of the mutex. -/
def Stage.Inside : Stage → Prop
  | .copying | .flushing | .releasing => True
  | .acquiring | .returned _ | .dead => False

instance : DecidablePred Stage.Inside
  | .copying | .flushing | .releasing => inferInstanceAs (Decidable True)
  | .acquiring | .returned _ | .dead => inferInstanceAs (Decidable False)

namespace CrossAdapterBridge

variable {K : KeyedMutex} {T : Type} (b : CrossAdapterBridge K T)

/-- A call goes on. -/
def setStage (i : ℕ) (c : BridgeCall T) (stage : Stage) : CrossAdapterBridge K T :=
  { b with calls := b.calls.set i { c with stage } }

/-- The next step of a call, with what the mutex answers, if it is asked, and is left as. -/
def advance (i : ℕ) (c : BridgeCall T) (hr : HResult) (mutex : K.State) :
    CrossAdapterBridge K T :=
  match c.stage with
  | .acquiring =>
      { b.setStage i c (if acquired hr then .copying else .returned false) with mutex }
  | .copying =>
      match c.side with
      | .producer => b.setStage i c .flushing
      | .consumer => { b.setStage i c .releasing with consumed := b.consumed ++ [b.surface] }
  | .flushing =>
      { b.setStage i c .releasing with
        surface := some c.src
        produced := b.produced ++ [c.src] }
  | .releasing => { b.setStage i c (.returned (hr == .ok)) with mutex }
  | .returned _ | .dead => b

/-- What happens next. -/
inductive Act (K : KeyedMutex) (T : Type) where
  /-- `usable`: neither pointer is null. -/
  | call (side : Side) (src : T) (usable : Bool)
  | advance (i : ℕ) (hr : HResult) (mutex : K.State)
  /-- The thread of a call dies, in the middle of it or later. -/
  | die (i : ℕ)

/-- One step. -/
def step : Act K T → CrossAdapterBridge K T
  | .call side src usable =>
      { b with calls := b.calls ++
          [{ side, src, stage := if usable then .acquiring else .returned false }] }
  | .advance i hr mutex =>
      match b.calls[i]? with
      | none => b
      | some c => b.advance i c hr mutex
  | .die i =>
      match b.calls[i]? with
      | none => b
      | some c => { b.setStage i c .dead with mutex := K.died b.mutex i }

/-- **The mutex answers as it may**; a call that it lets wait takes no step. -/
def Answered : Act K T → Prop
  | .advance i hr mutex => ∀ c ∈ b.calls[i]?,
      (c.stage = .acquiring → K.acquireSync b.mutex i c.side.key hr mutex) ∧
        (c.stage = .releasing → K.releaseSync b.mutex i c.side.other.key hr mutex)
  | _ => True

/-- No release fails. -/
def Released : Act K T → Prop
  | .advance i hr _ => ∀ c ∈ b.calls[i]?, c.stage = .releasing → hr = .ok
  | _ => True

/-- No call acquires an abandoned mutex. -/
def Unabandoned : Act K T → Prop
  | .advance i hr _ => ∀ c ∈ b.calls[i]?, c.stage = .acquiring → hr ≠ .abandoned
  | _ => True

instance (b : CrossAdapterBridge documentedMutex T) : DecidablePred b.Answered
  | .advance i hr mutex => inferInstanceAs (Decidable (∀ c ∈ b.calls[i]?,
      (c.stage = .acquiring → documentedMutex.acquireSync b.mutex i c.side.key hr mutex) ∧
        (c.stage = .releasing → documentedMutex.releaseSync b.mutex i c.side.other.key hr mutex)))
  | .call _ _ _ | .die _ => isTrue trivial

instance : DecidablePred b.Released
  | .advance i hr _ => inferInstanceAs
      (Decidable (∀ c ∈ b.calls[i]?, c.stage = .releasing → hr = .ok))
  | .call _ _ _ | .die _ => isTrue trivial

instance : DecidablePred b.Unabandoned
  | .advance i hr _ => inferInstanceAs
      (Decidable (∀ c ∈ b.calls[i]?, c.stage = .acquiring → hr ≠ .abandoned))
  | .call _ _ _ | .die _ => isTrue trivial

/-- The bridge after a run. -/
def after (acts : List (Act K T)) : CrossAdapterBridge K T := Runs.exec step {} acts

/-! ## What a step can do -/

/-- The steps that are not idle, one for each line of `Produce` and `Consume`. -/
inductive Move : Act K T → CrossAdapterBridge K T → Prop where
  | called (side : Side) (src : T) (usable : Bool) (d : BridgeCall T) (hout : ¬ d.stage.Inside) :
      Move (.call side src usable) { b with calls := b.calls ++ [d] }
  | acquires (i : ℕ) (c : BridgeCall T) (hr : HResult) (m : K.State) (hcall : b.calls[i]? = some c)
      (hstage : c.stage = .acquiring) (hgot : hr = .ok ∨ hr = .abandoned) :
      Move (.advance i hr m) { b.setStage i c .copying with mutex := m }
  | turnedAway (i : ℕ) (c : BridgeCall T) (m : K.State) (hcall : b.calls[i]? = some c)
      (hstage : c.stage = .acquiring) :
      Move (.advance i .failed m) { b.setStage i c (.returned false) with mutex := m }
  | copied (i : ℕ) (c : BridgeCall T) (hr : HResult) (m : K.State) (hcall : b.calls[i]? = some c)
      (hside : c.side = .producer) (hstage : c.stage = .copying) :
      Move (.advance i hr m) (b.setStage i c .flushing)
  | consumed (i : ℕ) (c : BridgeCall T) (hr : HResult) (m : K.State) (hcall : b.calls[i]? = some c)
      (hside : c.side = .consumer) (hstage : c.stage = .copying) :
      Move (.advance i hr m)
        { b.setStage i c .releasing with consumed := b.consumed ++ [b.surface] }
  | flushed (i : ℕ) (c : BridgeCall T) (hr : HResult) (m : K.State) (hcall : b.calls[i]? = some c)
      (hstage : c.stage = .flushing) :
      Move (.advance i hr m)
        { b.setStage i c .releasing with
          surface := some c.src
          produced := b.produced ++ [c.src] }
  | released (i : ℕ) (c : BridgeCall T) (hr : HResult) (m : K.State) (hcall : b.calls[i]? = some c)
      (hstage : c.stage = .releasing) :
      Move (.advance i hr m) { b.setStage i c (.returned (hr == .ok)) with mutex := m }
  | died (i : ℕ) (c : BridgeCall T) (hcall : b.calls[i]? = some c) :
      Move (.die i) { b.setStage i c .dead with mutex := K.died b.mutex i }

/-- **What a step does**: nothing, or one of eight things. -/
theorem step_cases (act : Act K T) : b.step act = b ∨ Move b act (b.step act) := by
  cases act with
  | call side src usable =>
      refine Or.inr (.called side src usable _ ?_)
      cases usable <;> exact id
  | advance i hr m =>
      rw [step]
      cases hcall : b.calls[i]? with
      | none => exact Or.inl rfl
      | some c =>
          dsimp only
          rw [advance]
          cases hstage : c.stage with
          | acquiring =>
              cases hr with
              | ok => exact Or.inr (.acquires i c _ m hcall hstage (Or.inl rfl))
              | abandoned => exact Or.inr (.acquires i c _ m hcall hstage (Or.inr rfl))
              | failed => exact Or.inr (.turnedAway i c m hcall hstage)
          | copying =>
              cases hside : c.side with
              | producer => exact Or.inr (.copied i c hr m hcall hside hstage)
              | consumer => exact Or.inr (.consumed i c hr m hcall hside hstage)
          | flushing => exact Or.inr (.flushed i c hr m hcall hstage)
          | releasing => exact Or.inr (.released i c hr m hcall hstage)
          | returned ok => exact Or.inl rfl
          | dead => exact Or.inl rfl
  | die i =>
      rw [step]
      cases hcall : b.calls[i]? with
      | none => exact Or.inl rfl
      | some c => exact Or.inr (.died i c hcall)

variable {b} {i : ℕ} {c : BridgeCall T}

theorem getElem?_setStage_self (hcall : b.calls[i]? = some c) (stage : Stage) :
    (b.setStage i c stage).calls[i]? = some { c with stage } := by
  have hlength := (List.getElem?_eq_some_iff.mp hcall).1
  exact List.getElem?_set_self hlength

theorem getElem?_setStage_ne {j : ℕ} (hne : j ≠ i) (stage : Stage) :
    (b.setStage i c stage).calls[j]? = b.calls[j]? := List.getElem?_set_ne hne.symm

/-- A call after another has come. -/
theorem getElem?_concat_cases {calls : List (BridgeCall T)} {d e : BridgeCall T} {j : ℕ}
    (hd : (calls ++ [e])[j]? = some d) : calls[j]? = some d ∨ d = e := by
  rcases Nat.lt_or_ge j calls.length with hj | hj
  · exact Or.inl ((List.getElem?_append_left hj).symm.trans hd)
  · rw [List.getElem?_append_right hj] at hd
    exact Or.inr (List.mem_singleton.mp (List.mem_of_getElem? hd))

/-- A call after another has gone on, or after it has itself. -/
theorem getElem?_setStage_cases {stage : Stage} {j : ℕ} {d : BridgeCall T}
    (hcall : b.calls[i]? = some c) (hd : (b.setStage i c stage).calls[j]? = some d) :
    j = i ∧ d = { c with stage } ∨ j ≠ i ∧ b.calls[j]? = some d := by
  by_cases hne : j = i
  · subst hne
    rw [getElem?_setStage_self hcall] at hd
    exact Or.inl ⟨rfl, (Option.some.inj hd).symm⟩
  · rw [getElem?_setStage_ne hne] at hd
    exact Or.inr ⟨hne, hd⟩

/-! ## Who has the texture -/

/-- **Exclusion**: a call between the two calls of the mutex is the one that holds it. -/
def Exclusive (turn : K.State → Turn) (b : CrossAdapterBridge K T) : Prop :=
  ∀ i c, b.calls[i]? = some c → c.stage.Inside → turn b.mutex = .held i

section

variable {turn : K.State → Turn}

/-- While nobody holds the mutex, nobody is inside. -/
theorem Exclusive.not_inside (h : b.Exclusive turn) (hfree : ∀ i, turn b.mutex ≠ .held i)
    (hcall : b.calls[i]? = some c) : ¬ c.stage.Inside :=
  fun hinside => hfree i (h i c hcall hinside)

/-- While one call is inside, no other is. -/
theorem Exclusive.not_inside_other (h : b.Exclusive turn) (hcall : b.calls[i]? = some c)
    (hinside : c.stage.Inside) {j : ℕ} {d : BridgeCall T} (hne : j ≠ i)
    (hd : b.calls[j]? = some d) : ¬ d.stage.Inside := by
  intro hinside'
  cases (h i c hcall hinside).symm.trans (h j d hd hinside')
  exact hne rfl

/-- One who acquires the mutex has found it free, or abandoned, and has it. -/
theorem turn_acquired (hK : K.Documented turn) {m m' : K.State} {key : ℕ} {hr : HResult}
    (hgot : hr = .ok ∨ hr = .abandoned) (hanswer : K.acquireSync m i key hr m') :
    (turn m = .free key ∨ hr = .abandoned ∧ turn m = .abandoned) ∧ turn m' = .held i := by
  rcases hgot with rfl | rfl
  · exact ⟨Or.inl (hK.ok hanswer).1, (hK.ok hanswer).2⟩
  · exact ⟨Or.inr ⟨rfl, (hK.abandoned hanswer).1⟩, (hK.abandoned hanswer).2⟩

/-- **One step keeps the exclusion**, whatever the mutex answers. -/
theorem Exclusive.step (hK : K.Documented turn) (h : b.Exclusive turn) {act : Act K T}
    (hanswered : b.Answered act) : (b.step act).Exclusive turn := by
  rcases b.step_cases act with hidle | hmove
  · rwa [hidle]
  generalize b.step act = b' at hmove ⊢
  intro j d hd hinside
  cases hmove with
  | called side src usable e hout =>
      rcases getElem?_concat_cases hd with hd | rfl
      · exact h j d hd hinside
      · exact absurd hinside hout
  | acquires i c hr m hcall hstage hgot =>
      obtain ⟨hfound, hheld⟩ := turn_acquired hK hgot ((hanswered c hcall).1 hstage)
      rcases getElem?_setStage_cases hcall hd with ⟨rfl, -⟩ | ⟨-, hd⟩
      · exact hheld
      · refine absurd hinside (h.not_inside (fun k hk => ?_) hd)
        rcases hfound with hfree | ⟨-, habandoned⟩
        · cases hfree.symm.trans hk
        · cases habandoned.symm.trans hk
  | turnedAway i c m hcall hstage =>
      have hsame : turn m = turn b.mutex := hK.failed ((hanswered c hcall).1 hstage)
      rcases getElem?_setStage_cases hcall hd with ⟨-, rfl⟩ | ⟨-, hd⟩
      · exact hinside.elim
      · exact hsame.trans (h j d hd hinside)
  | copied i c hr m hcall hside hstage =>
      rcases getElem?_setStage_cases hcall hd with ⟨rfl, -⟩ | ⟨-, hd⟩
      · exact h j c hcall (by rw [hstage]; trivial)
      · exact h j d hd hinside
  | consumed i c hr m hcall hside hstage =>
      rcases getElem?_setStage_cases hcall hd with ⟨rfl, -⟩ | ⟨-, hd⟩
      · exact h j c hcall (by rw [hstage]; trivial)
      · exact h j d hd hinside
  | flushed i c hr m hcall hstage =>
      rcases getElem?_setStage_cases hcall hd with ⟨rfl, -⟩ | ⟨-, hd⟩
      · exact h j c hcall (by rw [hstage]; trivial)
      · exact h j d hd hinside
  | released i c hr m hcall hstage =>
      -- even if the release fails, the one that had the texture is out
      rcases getElem?_setStage_cases hcall hd with ⟨-, rfl⟩ | ⟨hne, hd⟩
      · exact hinside.elim
      · exact absurd hinside (h.not_inside_other hcall (by rw [hstage]; trivial) hne hd)
  | died i c hcall =>
      rcases getElem?_setStage_cases hcall hd with ⟨-, rfl⟩ | ⟨hne, hd⟩
      · exact hinside.elim
      · have hheld := h j d hd hinside
        exact (hK.spared fun hown => hne (Turn.held.inj (hheld.symm.trans hown))).trans hheld

/-! ## What is in the texture -/

/-- A frame is in the texture that has not been consumed. -/
def Full (b : CrossAdapterBridge K T) : Prop := b.produced.map some = b.consumed ++ [b.surface]

/-- What has been produced has been consumed. -/
def Empty (b : CrossAdapterBridge K T) : Prop := b.produced.map some = b.consumed

/-- What a call that has the texture finds in it, or leaves there. -/
def Has (b : CrossAdapterBridge K T) (c : BridgeCall T) : Prop :=
  match c.side, c.stage with
  | .producer, .copying | .producer, .flushing | .consumer, .releasing => b.Empty
  | .producer, .releasing | .consumer, .copying => b.Full
  | _, _ => False

/-- A call that has the texture knows what is in it. -/
theorem Has.full_or_empty (h : b.Has c) : b.Full ∨ b.Empty := by
  unfold Has at h
  split at h
  all_goals first | exact Or.inl h | exact Or.inr h | exact h.elim

/-- **Whose turn it is** while no release has failed: a side's, or that of a call that has the
texture, or the one that had it is dead. -/
inductive Going (turn : K.State → Turn) (b : CrossAdapterBridge K T) : Prop where
  | free (side : Side) (hturn : turn b.mutex = .free side.key)
  | held (i : ℕ) (c : BridgeCall T) (hturn : turn b.mutex = .held i)
      (hcall : b.calls[i]? = some c) (hinside : c.stage.Inside)
  | abandoned (hturn : turn b.mutex = .abandoned)

/-- **Where the frame is** while, besides, nobody has acquired an abandoned mutex. -/
structure Placed (turn : K.State → Turn) (b : CrossAdapterBridge K T) : Prop where
  producers : turn b.mutex = .free Side.producer.key → b.Empty
  consumers : turn b.mutex = .free Side.consumer.key → b.Full
  has : ∀ (i : ℕ) (c : BridgeCall T), b.calls[i]? = some c → c.stage.Inside → b.Has c
  abandoned : turn b.mutex = .abandoned → b.Full ∨ b.Empty

/-- Whoever's turn it is, one frame is in the texture or none. -/
theorem Going.full_or_empty (h : b.Going turn) (hplaced : b.Placed turn) : b.Full ∨ b.Empty := by
  cases h with
  | free side hturn =>
      cases side with
      | producer => exact Or.inr (hplaced.producers hturn)
      | consumer => exact Or.inl (hplaced.consumers hturn)
  | held i c hturn hcall hinside => exact (hplaced.has i c hcall hinside).full_or_empty
  | abandoned hturn => exact hplaced.abandoned hturn

/-- The call that has the texture takes a step within, or another call takes one outside. -/
theorem Going.set (h : b.Going turn) {b' : CrossAdapterBridge K T} {stage : Stage}
    (hcall : b.calls[i]? = some c) (hcalls : b'.calls = (b.setStage i c stage).calls)
    (hturn' : turn b'.mutex = turn b.mutex) (hkeeps : c.stage.Inside → stage.Inside) :
    b'.Going turn := by
  cases h with
  | free side hturn => exact .free side (hturn'.trans hturn)
  | abandoned hturn => exact .abandoned (hturn'.trans hturn)
  | held k d hturn hd hinside =>
      by_cases hki : k = i
      · subst hki
        cases hcall.symm.trans hd
        refine .held k { c with stage } (hturn'.trans hturn) ?_ (hkeeps hinside)
        rw [hcalls]
        exact getElem?_setStage_self hcall stage
      · refine .held k d (hturn'.trans hturn) ?_ hinside
        rw [hcalls, getElem?_setStage_ne hki]
        exact hd

/-- **One step keeps the bridge going**, if no release fails. -/
theorem Going.step (hK : K.Documented turn) (h : b.Going turn) (hexclusive : b.Exclusive turn)
    {act : Act K T} (hanswered : b.Answered act) (hreleased : b.Released act) :
    (b.step act).Going turn := by
  rcases b.step_cases act with hidle | hmove
  · rwa [hidle]
  generalize b.step act = b' at hmove ⊢
  cases hmove with
  | called side src usable e hout =>
      cases h with
      | free side hturn => exact .free side hturn
      | abandoned hturn => exact .abandoned hturn
      | held k d hturn hd hinside =>
          have hlength := (List.getElem?_eq_some_iff.mp hd).1
          exact .held k d hturn ((List.getElem?_append_left hlength).trans hd) hinside
  | acquires i c hr m hcall hstage hgot =>
      have hheld := (turn_acquired hK hgot ((hanswered c hcall).1 hstage)).2
      exact .held i { c with stage := .copying } hheld (getElem?_setStage_self hcall _) trivial
  | turnedAway i c m hcall hstage =>
      refine h.set hcall rfl (hK.failed ((hanswered c hcall).1 hstage)) fun hinside => ?_
      rw [hstage] at hinside
      exact hinside
  | copied i c hr m hcall hside hstage => exact h.set hcall rfl rfl fun _ => trivial
  | consumed i c hr m hcall hside hstage => exact h.set hcall rfl rfl fun _ => trivial
  | flushed i c hr m hcall hstage => exact h.set hcall rfl rfl fun _ => trivial
  | released i c hr m hcall hstage =>
      have hheld := hexclusive i c hcall (by rw [hstage]; trivial)
      obtain rfl : hr = .ok := hreleased c hcall hstage
      exact .free c.side.other (hK.released hheld ((hanswered c hcall).2 hstage))
  | died i c hcall =>
      by_cases hown : turn b.mutex = .held i
      · exact .abandoned (hK.died hown)
      · exact h.set hcall rfl (hK.spared hown) fun hinside =>
          absurd (hexclusive i c hcall hinside) hown

/-- The key tells the side. -/
theorem Side.key_injective {side side' : Side} (h : side.key = side'.key) : side = side' := by
  cases side <;> cases side' <;> first | rfl | cases h

/-- A call goes on, and the others find what they found. -/
theorem placed_set (hexclusive : b.Exclusive turn)
    {b' : CrossAdapterBridge K T} {stage : Stage} (hcall : b.calls[i]? = some c)
    (hinside : c.stage.Inside) (hcalls : b'.calls = (b.setStage i c stage).calls)
    (hmutex : b'.mutex = b.mutex) (hhas : b'.Has { c with stage }) : b'.Placed turn := by
  have hheld := hexclusive i c hcall hinside
  have hother {t : Turn} (ht : turn b'.mutex = t) : t = .held i := by
    rw [← ht, hmutex]
    exact hheld
  refine ⟨fun ht => (by cases hother ht), fun ht => (by cases hother ht),
    fun j d hd hinside' => ?_, fun ht => (by cases hother ht)⟩
  rw [hcalls] at hd
  rcases getElem?_setStage_cases hcall hd with ⟨-, rfl⟩ | ⟨hne, hd⟩
  · exact hhas
  · exact absurd hinside' (hexclusive.not_inside_other hcall hinside hne hd)

/-- **One step keeps the frame where it belongs**, if nobody takes an abandoned mutex besides. -/
theorem Placed.step (hK : K.Documented turn) (h : b.Placed turn) (hexclusive : b.Exclusive turn)
    (hgoing : b.Going turn) {act : Act K T} (hanswered : b.Answered act) (hreleased : b.Released act)
    (hunabandoned : b.Unabandoned act) : (b.step act).Placed turn := by
  rcases b.step_cases act with hidle | hmove
  · rwa [hidle]
  generalize b.step act = b' at hmove ⊢
  cases hmove with
  | called side src usable e hout =>
      refine { h with has := fun j d hd hinside => ?_ }
      rcases getElem?_concat_cases hd with hd | rfl
      · exact h.has j d hd hinside
      · exact absurd hinside hout
  | acquires i c hr m hcall hstage hgot =>
      obtain ⟨hfound, hheld⟩ := turn_acquired hK hgot ((hanswered c hcall).1 hstage)
      have hfree : turn b.mutex = .free c.side.key :=
        hfound.resolve_right fun ⟨habandoned, _⟩ => hunabandoned c hcall hstage habandoned
      refine ⟨fun ht => (by cases hheld.symm.trans ht), fun ht => (by cases hheld.symm.trans ht),
        fun j d hd hinside => ?_, fun ht => (by cases hheld.symm.trans ht)⟩
      rcases getElem?_setStage_cases hcall hd with ⟨-, rfl⟩ | ⟨-, hd⟩
      · -- it is the turn of this side, and the frame is where it is wanted
        show b.Has { c with stage := .copying }
        unfold Has
        cases hside : c.side with
        | producer =>
            rw [hside] at hfree
            exact h.producers hfree
        | consumer =>
            rw [hside] at hfree
            exact h.consumers hfree
      · exact absurd hinside (hexclusive.not_inside
          (fun k hk => by cases hfree.symm.trans hk) hd)
  | turnedAway i c m hcall hstage =>
      have hsame : turn m = turn b.mutex := hK.failed ((hanswered c hcall).1 hstage)
      refine ⟨fun ht => h.producers (hsame.symm.trans ht),
        fun ht => h.consumers (hsame.symm.trans ht), fun j d hd hinside => ?_,
        fun ht => h.abandoned (hsame.symm.trans ht)⟩
      rcases getElem?_setStage_cases hcall hd with ⟨-, rfl⟩ | ⟨-, hd⟩
      · exact hinside.elim
      · exact h.has j d hd hinside
  | copied i c hr m hcall hside hstage =>
      have hhas := h.has i c hcall (by rw [hstage]; trivial)
      refine placed_set hexclusive hcall (by rw [hstage]; trivial) rfl rfl ?_
      unfold Has at hhas ⊢
      rw [hside, hstage] at hhas
      rw [hside]
      exact hhas
  | consumed i c hr m hcall hside hstage =>
      have hhas := h.has i c hcall (by rw [hstage]; trivial)
      refine placed_set hexclusive hcall (by rw [hstage]; trivial) rfl rfl ?_
      unfold Has at hhas ⊢
      rw [hside, hstage] at hhas
      rw [hside]
      exact hhas
  | flushed i c hr m hcall hstage =>
      have hhas := h.has i c hcall (by rw [hstage]; trivial)
      refine placed_set hexclusive hcall (by rw [hstage]; trivial) rfl rfl ?_
      unfold Has at hhas ⊢
      rw [hstage] at hhas
      cases hside : c.side with
      | producer =>
          rw [hside] at hhas
          have hempty : b.produced.map some = b.consumed := hhas
          show (b.produced ++ [c.src]).map some = b.consumed ++ [some c.src]
          rw [List.map_append, hempty]
          rfl
      | consumer =>
          rw [hside] at hhas
          exact hhas.elim
  | released i c hr m hcall hstage =>
      have hinside : c.stage.Inside := by rw [hstage]; trivial
      have hhas := h.has i c hcall hinside
      obtain rfl : hr = .ok := hreleased c hcall hstage
      have hfree : turn m = .free c.side.other.key :=
        hK.released (hexclusive i c hcall hinside) ((hanswered c hcall).2 hstage)
      unfold Has at hhas
      rw [hstage] at hhas
      refine ⟨fun ht => ?_, fun ht => ?_, fun j d hd hinside' => ?_,
        fun ht => (by cases hfree.symm.trans ht)⟩
      · have hside := Side.key_injective (Turn.free.inj (hfree.symm.trans ht))
        cases hc : c.side <;> rw [hc] at hside hhas <;> first | exact hhas | cases hside
      · have hside := Side.key_injective (Turn.free.inj (hfree.symm.trans ht))
        cases hc : c.side <;> rw [hc] at hside hhas <;> first | exact hhas | cases hside
      · rcases getElem?_setStage_cases hcall hd with ⟨-, rfl⟩ | ⟨hne, hd⟩
        · exact hinside'.elim
        · exact absurd hinside' (hexclusive.not_inside_other hcall hinside hne hd)
  | died i c hcall =>
      have hhas : ∀ (j : ℕ) (d : BridgeCall T), (b.setStage i c .dead).calls[j]? = some d →
          d.stage.Inside → b.Has d := by
        intro j d hd hinside
        rcases getElem?_setStage_cases hcall hd with ⟨-, rfl⟩ | ⟨-, hd⟩
        · exact hinside.elim
        · exact h.has j d hd hinside
      by_cases hown : turn b.mutex = .held i
      · have hgone := hK.died hown
        exact ⟨fun ht => (by cases hgone.symm.trans ht), fun ht => (by cases hgone.symm.trans ht),
          hhas, fun _ => hgoing.full_or_empty h⟩
      · have hsame := hK.spared hown
        exact ⟨fun ht => h.producers (hsame.symm.trans ht),
          fun ht => h.consumers (hsame.symm.trans ht), hhas,
          fun ht => h.abandoned (hsame.symm.trans ht)⟩

/-! ## Runs -/

theorem exclusive_new (turn : K.State → Turn) : Exclusive turn ({} : CrossAdapterBridge K T) :=
  fun i c hcall => by cases hcall

theorem going_new (hK : K.Documented turn) : Going turn ({} : CrossAdapterBridge K T) :=
  .free .producer hK.start

theorem placed_new (hK : K.Documented turn) : Placed turn ({} : CrossAdapterBridge K T) where
  producers _ := rfl
  consumers ht := by cases hK.start.symm.trans ht
  has i c hcall := by cases hcall
  abandoned _ := Or.inr rfl

/-- The exclusion in all states of a run. -/
theorem exclusive_after (hK : K.Documented turn) {acts : List (Act K T)}
    (h : Runs.Admits step Answered {} acts) : (after acts).Exclusive turn :=
  Runs.exec_invariant (fun _ _ hexclusive hanswered => hexclusive.step hK hanswered)
    (exclusive_new turn) h

/-- Whose turn it is, in all states of a run without failed releases. -/
theorem going_after (hK : K.Documented turn) {acts : List (Act K T)}
    (h : Runs.Admits step Answered {} acts) (hreleased : Runs.Admits step Released {} acts) :
    (after acts).Exclusive turn ∧ (after acts).Going turn :=
  Runs.exec_invariant
    (P := fun b : CrossAdapterBridge K T => b.Exclusive turn ∧ b.Going turn)
    (fun _ _ hb hact => ⟨hb.1.step hK hact.1, hb.2.step hK hb.1 hact.1 hact.2⟩)
    ⟨exclusive_new turn, going_new hK⟩ (h.and hreleased)

/-- Where the frame is, in all states of a run where nobody takes an abandoned mutex besides. -/
theorem placed_after (hK : K.Documented turn) {acts : List (Act K T)}
    (h : Runs.Admits step Answered {} acts) (hreleased : Runs.Admits step Released {} acts)
    (hunabandoned : Runs.Admits step Unabandoned {} acts) : (after acts).Placed turn :=
  (Runs.exec_invariant
    (P := fun b : CrossAdapterBridge K T => b.Exclusive turn ∧ b.Going turn ∧ b.Placed turn)
    (fun _ _ hb hact =>
      ⟨hb.1.step hK hact.1, hb.2.1.step hK hb.1 hact.1 hact.2.1,
        hb.2.2.step hK hb.1 hb.2.1 hact.1 hact.2.1 hact.2.2⟩)
    ⟨exclusive_new turn, going_new hK, placed_new hK⟩ (h.and (hreleased.and hunabandoned))).2.2

/-- **Frames cross one by one.**  In every run of calls of `Produce` and `Consume`, by any number of
threads, in any order of their steps, and whatever the mutex answers and whichever threads die: at
most one call is between the two calls of the mutex.  As long as, besides, no release fails and
nobody acquires an abandoned mutex, what has been consumed is what has been produced, in the same
order, but for one frame at most, which is still in the texture. -/
theorem frames_cross (hK : K.Documented turn) {acts : List (Act K T)}
    (h : Runs.Admits step Answered {} acts) :
    let b := after acts
    (∀ (i j : ℕ) (c d : BridgeCall T), b.calls[i]? = some c → b.calls[j]? = some d →
        c.stage.Inside → d.stage.Inside → i = j) ∧
      (Runs.Admits step Released {} acts → Runs.Admits step Unabandoned {} acts →
        b.consumed = (b.produced.take b.consumed.length).map some ∧
          b.consumed.length ≤ b.produced.length ∧
          b.produced.length ≤ b.consumed.length + 1) := by
  intro b
  refine ⟨fun i j c d hc hd hinside hinside' => ?_, fun hreleased hunabandoned => ?_⟩
  · by_contra hne
    exact (exclusive_after hK h).not_inside_other hd hinside' hne hc hinside
  · have hlength : b.produced.length = (b.produced.map some).length := by rw [List.length_map]
    rw [List.map_take]
    rcases (going_after hK h hreleased).2.full_or_empty
      (placed_after hK h hreleased hunabandoned) with hfull | hempty
    · have hfull : b.produced.map some = b.consumed ++ [b.surface] := hfull
      rw [hfull, List.length_append] at hlength
      rw [hfull, List.take_left]
      refine ⟨rfl, ?_⟩
      rw [hlength]
      exact ⟨Nat.le_succ _, Nat.le_refl _⟩
    · have hempty : b.produced.map some = b.consumed := hempty
      rw [hempty] at hlength
      rw [hempty, List.take_length]
      refine ⟨rfl, ?_⟩
      rw [hlength]
      exact ⟨Nat.le_refl _, Nat.le_succ _⟩

/-- One frame has crossed, and the thread that has produced the second one is dead. -/
theorem frames_cross_one :
    let acts : List (Act documentedMutex ℕ) := [.call .producer 7 true, .call .consumer 0 true,
      .advance 1 .failed (.free 0), .advance 0 .ok (.held 0), .advance 0 .ok (.held 0),
      .advance 0 .ok (.held 0), .advance 0 .ok (.free 1), .call .consumer 0 true,
      .advance 2 .ok (.held 2), .advance 2 .ok (.held 2), .advance 2 .ok (.free 0),
      .call .producer 8 true, .advance 3 .ok (.held 3), .die 3]
    let b := after acts
    b.consumed = (b.produced.take b.consumed.length).map some ∧ b.consumed = [some 7] := by
  intro acts b
  have hanswered : Runs.Admits step Answered {} acts := by decide +kernel
  have hcross := frames_cross documented_documentedMutex hanswered
  exact ⟨(hcross.2 (by decide +kernel) (by decide +kernel)).1, by decide +kernel⟩

/-! ## Going on -/

/-- The frames that have gone in or out. -/
def moves (b : CrossAdapterBridge K T) : ℕ := b.produced.length + b.consumed.length

/-- A frame can still go in or out, with answers that the mutex may give. -/
def Passes (b : CrossAdapterBridge K T) : Prop :=
  ∃ later : List (Act K T), Runs.Admits step Answered b later ∧
    b.moves < (Runs.exec step b later).moves

/-- The next step of a call that is there. -/
theorem step_advance (hcall : b.calls[i]? = some c) (hr : HResult) (m : K.State) :
    b.step (.advance i hr m) = b.advance i c hr m := by
  show (match b.calls[i]? with | none => b | some c => b.advance i c hr m) = _
  rw [hcall]

/-- More can pass where more can after a step. -/
theorem Passes.of_step {act : Act K T} (hanswered : b.Answered act) (h : (b.step act).Passes)
    (hmoves : b.moves ≤ (b.step act).moves) : b.Passes := by
  obtain ⟨later, hlater, hmore⟩ := h
  exact ⟨act :: later, ⟨hanswered, hlater⟩, Nat.lt_of_le_of_lt hmoves hmore⟩

theorem passes_of_step {act : Act K T} (hanswered : b.Answered act)
    (hmore : b.moves < (b.step act).moves) : b.Passes := ⟨[act], ⟨hanswered, trivial⟩, hmore⟩

/-- A step that asks the mutex nothing. -/
theorem answered_of_stage (hcall : b.calls[i]? = some c) (hacquiring : c.stage ≠ .acquiring)
    (hreleasing : c.stage ≠ .releasing) (hr : HResult) (m : K.State) :
    b.Answered (.advance i hr m) := by
  intro d hd
  cases hcall.symm.trans hd
  exact ⟨fun h => absurd h hacquiring, fun h => absurd h hreleasing⟩

/-- A producer that has copied its frame. -/
theorem passes_flushing (hcall : b.calls[i]? = some c) (hstage : c.stage = .flushing) :
    b.Passes := by
  have hanswered : b.Answered (.advance i .ok b.mutex) :=
    answered_of_stage hcall (by simp [hstage]) (by simp [hstage]) _ _
  refine passes_of_step hanswered ?_
  rw [step_advance hcall, advance, hstage]
  simp only [moves, setStage, List.length_append, List.length_singleton]
  omega

/-- A call that has the texture and has moved nothing yet. -/
theorem passes_copying (hcall : b.calls[i]? = some c) (hstage : c.stage = .copying) :
    b.Passes := by
  have hanswered : b.Answered (.advance i .ok b.mutex) :=
    answered_of_stage hcall (by simp [hstage]) (by simp [hstage]) _ _
  cases hside : c.side with
  | producer =>
      have hstep : b.step (.advance i .ok b.mutex) = b.setStage i c .flushing := by
        rw [step_advance hcall, advance, hstage]
        dsimp only
        rw [hside]
      have hnext : (b.step (.advance i .ok b.mutex)).calls[i]? =
          some { c with stage := .flushing } := by
        rw [hstep]
        exact getElem?_setStage_self hcall _
      refine Passes.of_step hanswered (passes_flushing hnext rfl) ?_
      rw [hstep]
      exact Nat.le_refl _
  | consumer =>
      refine passes_of_step hanswered ?_
      rw [step_advance hcall, advance, hstage]
      dsimp only
      rw [hside]
      simp only [moves, setStage, List.length_append, List.length_singleton]
      omega

/-- A call that acquires the mutex gets through. -/
theorem passes_acquired {side : Side} (src : T) {hr : HResult} {m : K.State}
    (hgot : acquired hr = true) (hanswer : K.acquireSync b.mutex b.calls.length side.key hr m) :
    b.Passes := by
  have hcalled : (b.step (.call side src true)).calls[b.calls.length]? = some { side, src } :=
    List.getElem?_concat_length
  have hanswered : (b.step (.call side src true)).Answered (.advance b.calls.length hr m) := by
    intro d hd
    cases hcalled.symm.trans hd
    exact ⟨fun _ => hanswer, fun h => by cases h⟩
  have hacquired : (b.step (.call side src true)).step (.advance b.calls.length hr m) =
      { (b.step (.call side src true)).setStage b.calls.length { side, src } .copying with
        mutex := m } := by
    rw [step_advance hcalled, advance]
    simp only [hgot, if_true]
  have hcall : b.Answered (.call side src true) := trivial
  refine Passes.of_step hcall (Passes.of_step hanswered ?_ ?_) (Nat.le_refl _)
  · rw [hacquired]
    refine passes_copying (i := b.calls.length) (c := { side, src, stage := .copying }) ?_ rfl
    exact getElem?_setStage_self hcalled _
  · rw [hacquired]
    exact Nat.le_refl _

/-- **The bridge keeps going.**  As long as no release has failed, a frame can still go in or out,
now or after more calls and steps, whichever threads have died in the middle of a call: the next
call is told that the mutex is abandoned, and has acquired it. -/
theorem keeps_going (hK : K.Documented turn) (hserves : K.Serves turn) {acts : List (Act K T)}
    (h : Runs.Admits step Answered {} acts) (hreleased : Runs.Admits step Released {} acts)
    (src : T) : (after acts).Passes := by
  obtain ⟨hexclusive, hgoing⟩ := going_after hK h hreleased
  generalize after acts = b at hexclusive hgoing
  cases hgoing with
  | free side hturn =>
      obtain ⟨m, hanswer⟩ := hserves.grants b.calls.length hturn
      exact passes_acquired src rfl hanswer
  | abandoned hturn =>
      obtain ⟨m, hanswer⟩ := hserves.passesOn b.calls.length Side.producer.key hturn
      exact passes_acquired src rfl hanswer
  | held i c hturn hcall hinside =>
      cases hstage : c.stage with
      | copying => exact passes_copying hcall hstage
      | flushing => exact passes_flushing hcall hstage
      | releasing =>
          -- it releases the texture, and the other side gets through
          obtain ⟨m, hanswer⟩ := hserves.releases c.side.other.key hturn
          have hanswered : b.Answered (.advance i .ok m) := by
            intro d hd
            cases hcall.symm.trans hd
            exact ⟨fun hacquiring => (by cases hstage.symm.trans hacquiring), fun _ => hanswer⟩
          have hstep : b.step (.advance i .ok m) =
              { b.setStage i c (.returned true) with mutex := m } := by
            rw [step_advance hcall, advance, hstage]
            rfl
          have hfree := hK.released hturn hanswer
          refine Passes.of_step hanswered ?_ (by rw [hstep]; exact Nat.le_refl _)
          rw [hstep]
          obtain ⟨m', hanswer'⟩ := hserves.grants
            { b.setStage i c (.returned true) with mutex := m }.calls.length hfree
          exact passes_acquired src rfl hanswer'
      | acquiring | returned | dead =>
          rw [hstage] at hinside
          exact hinside.elim

/-- A thread has died with the texture in its hands. -/
theorem keeps_going_dead :
    let acts : List (Act documentedMutex ℕ) :=
      [.call .producer 7 true, .advance 0 .ok (.held 0), .die 0]
    (after acts).mutex = Turn.abandoned ∧ (after acts).Passes := by
  intro acts
  exact ⟨rfl, keeps_going documented_documentedMutex serves_documentedMutex
    (by decide +kernel) (by decide +kernel) 8⟩

end

end CrossAdapterBridge

end TetherDisplay.Capture
