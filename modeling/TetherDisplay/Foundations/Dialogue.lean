import TetherDisplay.Foundations.Runs
import Mathlib.Algebra.Order.Group.Nat
import Mathlib.Data.List.Infix

/-!
# Two parties in dialogue

Two parties are connected by a reliable channel in each direction.  What one of them has said
arrives at the other in order, in pieces of any size and after any time.  A `Party` is a state that
hears pieces, and what a party in this state has said so far.

Both have a script of messages.  A party `Speaks` its script if it is always one message ahead:
when it has heard `k` whole messages of the other, and a part of the next, it has said `k + 1` of
its own.  Two such parties never wait for each other in vain.  While anything is still to be heard
something is in transit (`heard_all`), and the number of deliveries is bounded (`length_le`), so
every schedule ends with both having heard everything.

Of parties that do not keep to a script this much is left: a party that `Opens` with a message is
heard to have opened with it, or with a front of it, in any schedule (`opened_exec`).
-/

namespace Dialogue

universe u v w

variable {α : Type u} {σ : Type v} {τ : Type w}

/-! ## Whole messages -/

/-- The stream is `k` whole messages of the script and a part of the next. -/
structure Cut (script : List (List α)) (s : List α) (k : ℕ) (part : List α) : Prop where
  stream : s = (script.take k).flatten ++ part
  next : part <+: (script.drop k).flatten
  short : ∀ m ∈ (script.drop k).head?, part.length < m.length

variable {script : List (List α)} {s part : List α} {k : ℕ}

theorem Cut.cons {m : List α} (h : Cut script s k part) :
    Cut (m :: script) (m ++ s) (k + 1) part where
  stream := by
    rw [h.stream, List.take_succ_cons, List.flatten_cons, List.append_assoc]
  next := h.next
  short := h.short

/-- No whole message yet. -/
theorem Cut.zero (hnext : s <+: script.flatten) (hshort : ∀ m ∈ script.head?, s.length < m.length) :
    Cut script s 0 s where
  stream := rfl
  next := hnext
  short := hshort

/-- A stream that begins like the script is cut somewhere. -/
theorem exists_cut (hfront : s <+: script.flatten) :
    ∃ k ≤ script.length, ∃ part, Cut script s k part := by
  induction script generalizing s with
  | nil =>
      refine ⟨0, Nat.le_refl 0, s, Cut.zero hfront fun m hm => ?_⟩
      cases hm
  | cons m script ih =>
      by_cases hwhole : m.length ≤ s.length
      · obtain ⟨rest, rfl⟩ : m <+: s :=
          List.prefix_of_prefix_length_le (List.prefix_append m script.flatten) hfront hwhole
        obtain ⟨k, hk, part, hcut⟩ := ih ((List.prefix_append_right_inj m).mp hfront)
        exact ⟨k + 1, Nat.succ_le_succ hk, part, hcut.cons⟩
      · refine ⟨0, Nat.zero_le _, s, Cut.zero hfront fun m' hm' => ?_⟩
        obtain rfl : m = m' := Option.some.inj hm'
        exact Nat.lt_of_not_le hwhole

/-- The stream goes on. -/
theorem Cut.append {t part' : List α} {k' : ℕ} (h : Cut script s k part)
    (h' : Cut (script.drop k) (part ++ t) k' part') : Cut script (s ++ t) (k + k') part' where
  stream := by
    rw [h.stream, List.append_assoc, h'.stream, List.take_add, List.flatten_append,
      List.append_assoc]
  next := by
    have hnext := h'.next
    rwa [List.drop_drop] at hnext
  short := by
    have hshort := h'.short
    rwa [List.drop_drop] at hshort

/-- A stream that is as long as one message more has it as a whole. -/
theorem Cut.length_lt (h : Cut script s k part) (hk : k < script.length) {j : ℕ} (hj : k < j) :
    s.length < (script.take j).flatten.length := by
  have hdrop : script.drop k = script[k] :: script.drop (k + 1) := List.drop_eq_getElem_cons hk
  have hshort : part.length < script[k].length := h.short _ (by rw [hdrop]; rfl)
  have hnext : (script.take (k + 1)).flatten.length =
      (script.take k).flatten.length + script[k].length := by
    rw [List.take_succ_eq_append_getElem hk, List.flatten_append, List.length_append,
      List.flatten_singleton]
  have hfront : (script.take (k + 1)).flatten.length ≤ (script.take j).flatten.length := by
    have htake : script.take (k + 1) <+: script.take j := List.take_prefix_take_left hj
    exact htake.flatten.length_le
  rw [h.stream, List.length_append]
  omega

/-- With all messages there is no part left. -/
theorem Cut.all (h : Cut script s k part) (hk : script.length ≤ k) :
    s = script.flatten ∧ part = [] := by
  have hpart : part = [] := by
    have hnext := h.next
    rw [List.drop_of_length_le hk, List.flatten_nil] at hnext
    exact List.prefix_nil.mp hnext
  rw [h.stream, hpart, List.append_nil, List.take_of_length_le hk]
  exact ⟨rfl, rfl⟩

/-- The whole script is cut at its end. -/
theorem Cut.of_flatten (h : Cut script script.flatten k part) : script.length ≤ k := by
  by_contra hk
  have hlt := h.length_lt (Nat.lt_of_not_le hk) (Nat.lt_of_not_le hk)
  rw [List.take_length] at hlt
  exact Nat.lt_irrefl _ hlt

/-! ## Parties -/

/-- How a state hears a piece, and what has been said by a party in that state. -/
structure Party (α : Type u) (σ : Type v) where
  hear : σ → List α → σ
  said : σ → List α

/-- A party that has heard these pieces. -/
def Party.after (P : Party α σ) (start : σ) (pieces : List (List α)) : σ :=
  pieces.foldl P.hear start

/-- The party speaks its own script, one message ahead of the other's. -/
def Party.Speaks (P : Party α σ) (start : σ) (own other : List (List α)) : Prop :=
  ∀ pieces : List (List α), (∀ p ∈ pieces, p ≠ []) → pieces.flatten <+: other.flatten →
    ∃ k part, Cut other pieces.flatten k part ∧
      P.said (P.after start pieces) = (own.take (k + 1)).flatten

/-- The two parties, and how much each of them has heard. -/
structure Talk (σ : Type v) (τ : Type w) where
  left : σ
  right : τ
  heardLeft : ℕ := 0
  heardRight : ℕ := 0

/-- The next `n + 1` symbols arrive, or as many as have been said. -/
inductive Act where
  | toLeft (n : ℕ)
  | toRight (n : ℕ)
  deriving DecidableEq, Repr

section Deliveries

variable (P : Party α σ) (Q : Party α τ)

/-- What is in transit to the left party. -/
def forLeft (t : Talk σ τ) : List α := (Q.said t.right).drop t.heardLeft

/-- What is in transit to the right party. -/
def forRight (t : Talk σ τ) : List α := (P.said t.left).drop t.heardRight

/-- One delivery. -/
def step (t : Talk σ τ) : Act → Talk σ τ
  | .toLeft n =>
      let piece := (forLeft Q t).take (n + 1)
      { t with left := P.hear t.left piece, heardLeft := t.heardLeft + piece.length }
  | .toRight n =>
      let piece := (forRight P t).take (n + 1)
      { t with right := Q.hear t.right piece, heardRight := t.heardRight + piece.length }

/-- There is something to deliver. -/
def Delivers (t : Talk σ τ) : Act → Prop
  | .toLeft _ => forLeft Q t ≠ []
  | .toRight _ => forRight P t ≠ []

/-- Nothing is in transit. -/
def Quiet (t : Talk σ τ) : Prop := forLeft Q t = [] ∧ forRight P t = []

instance [DecidableEq α] (t : Talk σ τ) : DecidablePred (Delivers P Q t)
  | .toLeft _ => inferInstanceAs (Decidable (forLeft Q t ≠ []))
  | .toRight _ => inferInstanceAs (Decidable (forRight P t ≠ []))

instance [DecidableEq α] (t : Talk σ τ) : Decidable (Quiet P Q t) :=
  inferInstanceAs (Decidable (forLeft Q t = [] ∧ forRight P t = []))

end Deliveries

/-! ## What has been heard -/

/-- The party has heard the first `n` symbols of the other's script. -/
def Heard (P : Party α σ) (start : σ) (other : List (List α)) (state : σ) (n : ℕ) : Prop :=
  ∃ pieces : List (List α), (∀ p ∈ pieces, p ≠ []) ∧ pieces.flatten <+: other.flatten ∧
    pieces.flatten.length = n ∧ state = P.after start pieces

/-- Nothing has been heard at first. -/
theorem heard_start (P : Party α σ) (start : σ) (other : List (List α)) :
    Heard P start other start 0 := by
  refine ⟨[], fun p hp => ?_, List.nil_prefix, rfl, rfl⟩
  cases hp

variable {P : Party α σ} {Q : Party α τ} {start state : σ} {own other : List (List α)} {n : ℕ}

/-- One more piece is heard. -/
theorem Heard.hear (h : Heard P start other state n) {piece : List α} (hne : piece ≠ [])
    (hnext : piece <+: other.flatten.drop n) :
    Heard P start other (P.hear state piece) (n + piece.length) := by
  obtain ⟨pieces, hpieces, hfront, hlength, rfl⟩ := h
  have hflatten : (pieces ++ [piece]).flatten = pieces.flatten ++ piece := by
    rw [List.flatten_append, List.flatten_singleton]
  refine ⟨pieces ++ [piece], ?_, ?_, ?_, ?_⟩
  · intro p hp
    rcases List.mem_append.mp hp with hold | hnew
    · exact hpieces p hold
    · rw [List.mem_singleton.mp hnew]
      exact hne
  · obtain ⟨rest, hrest⟩ := hfront
    rw [← hrest, ← hlength, List.drop_left] at hnext
    rw [hflatten, ← hrest]
    exact (List.prefix_append_right_inj _).mpr hnext
  · rw [hflatten, List.length_append, hlength]
  · simp only [Party.after, List.foldl_append, List.foldl_cons, List.foldl_nil]

/-- What a party has said is a front of its script. -/
theorem Heard.said (h : Heard P start other state n) (hspeaks : P.Speaks start own other) :
    ∃ k, P.said state = (own.take (k + 1)).flatten ∧
      ∃ s part, Cut other s k part ∧ s.length = n := by
  obtain ⟨pieces, hpieces, hfront, hlength, rfl⟩ := h
  obtain ⟨k, part, hcut, hsaid⟩ := hspeaks pieces hpieces hfront
  exact ⟨k, hsaid, pieces.flatten, part, hcut, hlength⟩

/-- What has been said is the beginning of the script. -/
theorem Heard.said_front (h : Heard P start other state n) (hspeaks : P.Speaks start own other) :
    P.said state <+: own.flatten := by
  obtain ⟨k, hsaid, -⟩ := h.said hspeaks
  rw [hsaid]
  exact (List.take_prefix (k + 1) own).flatten

/-- A party that has heard as much as there is has heard it all. -/
theorem Heard.all (h : Heard P start other state n) (hn : other.flatten.length ≤ n) :
    ∃ pieces : List (List α), (∀ p ∈ pieces, p ≠ []) ∧ pieces.flatten = other.flatten ∧
      state = P.after start pieces := by
  obtain ⟨pieces, hpieces, hfront, hlength, hstate⟩ := h
  exact ⟨pieces, hpieces, hfront.eq_of_length_le (by omega), hstate⟩

/-! ## The dialogue -/

section Run

variable {left : σ} {right : τ} {leftScript rightScript : List (List α)}

/-- Each of them has heard a front of the other's script. -/
def Sound (P : Party α σ) (Q : Party α τ) (left : σ) (right : τ)
    (leftScript rightScript : List (List α)) (t : Talk σ τ) : Prop :=
  Heard P left rightScript t.left t.heardLeft ∧ Heard Q right leftScript t.right t.heardRight

/-- **One delivery keeps both sides in their scripts.** -/
theorem Sound.step {t : Talk σ τ} {act : Act}
    (h : Sound P Q left right leftScript rightScript t)
    (hleft : P.Speaks left leftScript rightScript)
    (hright : Q.Speaks right rightScript leftScript) (hact : Delivers P Q t act) :
    Sound P Q left right leftScript rightScript (step P Q t act) := by
  cases act with
  | toLeft n =>
      have hsaid := h.2.said_front hright
      refine ⟨h.1.hear ?_ ?_, h.2⟩
      · intro hnone
        rcases List.take_eq_nil_iff.mp hnone with hzero | hnil
        · cases hzero
        · exact hact hnil
      · exact (List.take_prefix _ _).trans (hsaid.drop t.heardLeft)
  | toRight n =>
      have hsaid := h.1.said_front hleft
      refine ⟨h.1, h.2.hear ?_ ?_⟩
      · intro hnone
        rcases List.take_eq_nil_iff.mp hnone with hzero | hnil
        · cases hzero
        · exact hact hnil
      · exact (List.take_prefix _ _).trans (hsaid.drop t.heardRight)

/-- It holds in all states of a run. -/
theorem sound_exec (hleft : P.Speaks left leftScript rightScript)
    (hright : Q.Speaks right rightScript leftScript) {acts : List Act}
    (hrun : Runs.Admits (step P Q) (Delivers P Q) ⟨left, right, 0, 0⟩ acts) :
    Sound P Q left right leftScript rightScript
      (Runs.exec (step P Q) ⟨left, right, 0, 0⟩ acts) := by
  have hstart : Sound P Q left right leftScript rightScript ⟨left, right, 0, 0⟩ :=
    ⟨heard_start P left rightScript, heard_start Q right leftScript⟩
  exact Runs.exec_invariant (fun t act h hact => h.step hleft hright hact) hstart hrun

/-- Every delivery delivers something. -/
theorem length_add_le {t : Talk σ τ} {acts : List Act}
    (hrun : Runs.Admits (step P Q) (Delivers P Q) t acts) :
    acts.length + (t.heardLeft + t.heardRight) ≤
      (Runs.exec (step P Q) t acts).heardLeft + (Runs.exec (step P Q) t acts).heardRight := by
  induction acts generalizing t with
  | nil => simp
  | cons act acts ih =>
      obtain ⟨hact, hrest⟩ := hrun
      have hmore : t.heardLeft + t.heardRight + 1 ≤
          (step P Q t act).heardLeft + (step P Q t act).heardRight := by
        cases act with
        | toLeft n =>
            have hpos : 0 < (forLeft Q t).length := List.length_pos_of_ne_nil hact
            simp only [step, List.length_take]
            omega
        | toRight n =>
            have hpos : 0 < (forRight P t).length := List.length_pos_of_ne_nil hact
            simp only [step, List.length_take]
            omega
      have hlater := ih hrest
      rw [Runs.exec_cons, List.length_cons]
      omega

/-- **Every schedule ends**: there are no more deliveries than symbols to say. -/
theorem length_le (hleft : P.Speaks left leftScript rightScript)
    (hright : Q.Speaks right rightScript leftScript) {acts : List Act}
    (hrun : Runs.Admits (step P Q) (Delivers P Q) ⟨left, right, 0, 0⟩ acts) :
    acts.length ≤ leftScript.flatten.length + rightScript.flatten.length := by
  have hcount := length_add_le hrun
  obtain ⟨⟨pieces, -, hfront, hlength, -⟩, pieces', -, hfront', hlength', -⟩ :=
    sound_exec hleft hright hrun
  have hl := hfront.length_le
  have hr := hfront'.length_le
  simp only at hcount
  omega

/-- **And it ends well**: when nothing is in transit, each has heard all that the other has to
say.  The one that had heard fewer messages could not have been left without the next. -/
theorem heard_all (hlengths : leftScript.length = rightScript.length)
    (hleft : P.Speaks left leftScript rightScript)
    (hright : Q.Speaks right rightScript leftScript) {acts : List Act}
    (hrun : Runs.Admits (step P Q) (Delivers P Q) ⟨left, right, 0, 0⟩ acts)
    (hquiet : Quiet P Q (Runs.exec (step P Q) ⟨left, right, 0, 0⟩ acts)) :
    (∃ pieces : List (List α), (∀ p ∈ pieces, p ≠ []) ∧ pieces.flatten = rightScript.flatten ∧
      (Runs.exec (step P Q) ⟨left, right, 0, 0⟩ acts).left = P.after left pieces) ∧
    ∃ pieces : List (List α), (∀ p ∈ pieces, p ≠ []) ∧ pieces.flatten = leftScript.flatten ∧
      (Runs.exec (step P Q) ⟨left, right, 0, 0⟩ acts).right = Q.after right pieces := by
  obtain ⟨hheard, hheard'⟩ := sound_exec hleft hright hrun
  obtain ⟨hforLeft, hforRight⟩ := hquiet
  generalize Runs.exec (step P Q) ⟨left, right, 0, 0⟩ acts = t at *
  obtain ⟨a, hsaid, s, part, hcut, hlength⟩ := hheard.said hleft
  obtain ⟨b, hsaid', s', part', hcut', hlength'⟩ := hheard'.said hright
  -- Whatever has been said has been heard.
  have hall : (rightScript.take (b + 1)).flatten.length ≤ s.length := by
    rw [forLeft, hsaid'] at hforLeft
    rw [hlength]
    exact List.drop_eq_nil_iff.mp hforLeft
  have hall' : (leftScript.take (a + 1)).flatten.length ≤ s'.length := by
    rw [forRight, hsaid] at hforRight
    rw [hlength']
    exact List.drop_eq_nil_iff.mp hforRight
  have hahead : a < rightScript.length → b + 1 ≤ a := by
    intro ha
    by_contra hb
    have hlt := hcut.length_lt ha (Nat.lt_of_not_le hb)
    omega
  have hahead' : b < leftScript.length → a + 1 ≤ b := by
    intro hb
    by_contra ha
    have hlt := hcut'.length_lt hb (Nat.lt_of_not_le ha)
    omega
  obtain ⟨hs, -⟩ := hcut.all (by omega)
  obtain ⟨hs', -⟩ := hcut'.all (by omega)
  rw [hs] at hlength
  rw [hs'] at hlength'
  exact ⟨hheard.all (Nat.le_of_eq hlength), hheard'.all (Nat.le_of_eq hlength')⟩

end Run

/-! ## How a party opens -/

/-- Whatever it has heard, this is what the party has begun with. -/
def Party.Opens (P : Party α σ) (start : σ) (first : List α) : Prop :=
  ∀ pieces : List (List α), (∀ p ∈ pieces, p ≠ []) → first <+: P.said (P.after start pieces)

/-- What the party has heard does not go against what the other has opened with. -/
def Opened (P : Party α σ) (start : σ) (first : List α) (state : σ) (n : ℕ) : Prop :=
  ∃ pieces : List (List α), (∀ p ∈ pieces, p ≠ []) ∧ state = P.after start pieces ∧
    pieces.flatten.length = n ∧ (pieces.flatten <+: first ∨ first <+: pieces.flatten)

theorem opened_start (P : Party α σ) (start : σ) (first : List α) : Opened P start first start 0 :=
  ⟨[], fun _ hp => absurd hp List.not_mem_nil, rfl, rfl, .inl List.nil_prefix⟩

/-- One more piece is heard. -/
theorem Opened.hear {first said piece : List α} (h : Opened P start first state n)
    (hsaid : first <+: said) (hne : piece ≠ []) (hnext : piece <+: said.drop n) :
    Opened P start first (P.hear state piece) (n + piece.length) := by
  obtain ⟨pieces, hpieces, rfl, rfl, hagrees⟩ := h
  have hflatten : (pieces ++ [piece]).flatten = pieces.flatten ++ piece := by
    rw [List.flatten_append, List.flatten_singleton]
  refine ⟨pieces ++ [piece], ?_, ?_, ?_, ?_⟩
  · intro p hp
    rcases List.mem_append.mp hp with hold | hnew
    · exact hpieces p hold
    · rw [List.mem_singleton.mp hnew]
      exact hne
  · simp only [Party.after, List.foldl_append, List.foldl_cons, List.foldl_nil]
  · rw [hflatten, List.length_append]
  · rw [hflatten]
    rcases hagrees with hshort | hlong
    · -- both are fronts of what has been said
      obtain ⟨rest, rfl⟩ := hshort.trans hsaid
      rw [List.drop_left] at hnext
      exact List.prefix_or_prefix_of_prefix ((List.prefix_append_right_inj _).mpr hnext) hsaid
    · exact .inr (hlong.trans (List.prefix_append _ _))

/-- **In any dialogue** each party has heard what the other has opened with, or a front of it,
whatever the two make of what they hear. -/
theorem opened_exec {left : σ} {right : τ} {leftFirst rightFirst : List α}
    (hleft : P.Opens left leftFirst) (hright : Q.Opens right rightFirst) {acts : List Act}
    (hrun : Runs.Admits (step P Q) (Delivers P Q) ⟨left, right, 0, 0⟩ acts) :
    let t := Runs.exec (step P Q) ⟨left, right, 0, 0⟩ acts
    Opened P left rightFirst t.left t.heardLeft ∧
      Opened Q right leftFirst t.right t.heardRight := by
  refine Runs.exec_invariant (P := fun t : Talk σ τ =>
    Opened P left rightFirst t.left t.heardLeft ∧ Opened Q right leftFirst t.right t.heardRight)
    ?_ ⟨opened_start P left rightFirst, opened_start Q right leftFirst⟩ hrun
  rintro t act ⟨hl, hr⟩ hact
  cases act with
  | toLeft n =>
      have hsaid : rightFirst <+: Q.said t.right := by
        obtain ⟨pieces, hpieces, hstate, -⟩ := hr
        exact hstate ▸ hright pieces hpieces
      refine ⟨hl.hear hsaid ?_ (List.take_prefix _ _), hr⟩
      intro hnone
      rcases List.take_eq_nil_iff.mp hnone with hzero | hnil
      · cases hzero
      · exact hact hnil
  | toRight n =>
      have hsaid : leftFirst <+: P.said t.left := by
        obtain ⟨pieces, hpieces, hstate, -⟩ := hl
        exact hstate ▸ hleft pieces hpieces
      refine ⟨hl, hr.hear hsaid ?_ (List.take_prefix _ _)⟩
      intro hnone
      rcases List.take_eq_nil_iff.mp hnone with hzero | hnil
      · cases hzero
      · exact hact hnil

end Dialogue
