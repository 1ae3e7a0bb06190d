import Mathlib.Data.List.Infix
import Mathlib.Tactic.Common

/-!
# Searching a text for a pattern

`find` gives the first position of a pattern in a text, and `findFrom` the first one from a
position on.  The patterns of interest begin with a marker `m`, and so can only stand where the
text has a marker: a stretch without one is skipped (`find_append`), and a stretch that begins with
the only marker it has is skipped when the pattern does not stand there (`find_mark`).

`Precedes q p s` says that whenever `p` occurs in `s`, the pattern `q` occurs before it.  It is kept
when the text is extended to the left by a stretch that `p` does not begin in.
-/

namespace Search

universe u

variable {α : Type u} [DecidableEq α]

/-- The first position of the pattern in the text. -/
def find (p : List α) : List α → Option ℕ
  | [] => if p = [] then some 0 else none
  | b :: t => if p <+: b :: t then some 0 else (find p t).map (· + 1)

/-- The first position from `pos` on. -/
def findFrom (p s : List α) (pos : ℕ) : Option ℕ :=
  if pos ≤ s.length then (find p (s.drop pos)).map (· + pos) else none

variable {m : α} {p q s t : List α}

/-- What stands in front is found there. -/
theorem find_front (h : p <+: s) : find p s = some 0 := by
  cases s with
  | nil => rw [find, if_pos (List.prefix_nil.mp h)]
  | cons b t => rw [find, if_pos h]

/-- What does not stand in front is looked for behind. -/
theorem find_cons_of_neg {b : α} (h : ¬ p <+: b :: t) :
    find p (b :: t) = (find p t).map (· + 1) := by
  rw [find, if_neg h]

/-- A pattern that is found fits in the rest of the text. -/
theorem add_length_le_of_find {i : ℕ} (h : find p s = some i) : i + p.length ≤ s.length := by
  induction s generalizing i with
  | nil =>
      rw [find] at h
      split_ifs at h with hp
      cases h
      simp [hp]
  | cons b t ih =>
      rw [find] at h
      split_ifs at h with hp
      · cases h
        simpa using hp.length_le
      · obtain ⟨j, hj, rfl⟩ := Option.map_eq_some_iff.mp h
        have hle := ih hj
        simp only [List.length_cons]
        omega

omit [DecidableEq α] in
theorem not_prefix_of_head {a b : α} (h : a ≠ b) : ¬ a :: p <+: b :: s := by
  rintro ⟨r, hr⟩
  exact h (List.cons.inj hr).1

/-- **A stretch without the marker is skipped.** -/
theorem find_append (h : m ∉ s) (t : List α) :
    find (m :: q) (s ++ t) = (find (m :: q) t).map (· + s.length) := by
  induction s with
  | nil => simp
  | cons b s ih =>
      obtain ⟨hb, hs⟩ := not_or.mp (mt List.mem_cons.mpr h)
      rw [List.cons_append, find_cons_of_neg (not_prefix_of_head hb), ih hs, Option.map_map]
      congr 1

/-- A stretch with one marker, where the pattern does not stand. -/
theorem find_mark (h : m ∉ s) (hp : ¬ m :: q <+: m :: (s ++ t)) :
    find (m :: q) (m :: (s ++ t)) = (find (m :: q) t).map (· + (s.length + 1)) := by
  rw [find_cons_of_neg hp, find_append h, Option.map_map]
  congr 1

omit [DecidableEq α] in
/-- Texts up to the first marker are told by what they are a prefix of. -/
theorem eq_of_marked {a b x y : List α} (ha : m ∉ a) (hb : m ∉ b)
    (h : a ++ m :: x <+: b ++ m :: y) : a = b := by
  induction a generalizing b with
  | nil =>
      cases b with
      | nil => rfl
      | cons c b =>
          obtain ⟨r, hr⟩ := h
          exact absurd (List.cons.inj hr).1 (List.ne_of_not_mem_cons hb)
  | cons c a ih =>
      cases b with
      | nil =>
          obtain ⟨r, hr⟩ := h
          exact absurd (List.cons.inj hr).1.symm (List.ne_of_not_mem_cons ha)
      | cons d b =>
          obtain ⟨hcd, hrest⟩ := List.cons_prefix_cons.mp h
          rw [hcd, ih (List.not_mem_of_not_mem_cons ha) (List.not_mem_of_not_mem_cons hb) hrest]

/-! ## What follows a pattern -/

/-- The text behind the first occurrence. -/
def after (p s : List α) : Option (List α) := (find p s).map fun i => s.drop (i + p.length)

theorem after_front (p t : List α) : after p (p ++ t) = some t := by
  rw [after, find_front (List.prefix_append p t), Option.map_some, Nat.zero_add, List.drop_left]

/-- The search passes over what has no mark. -/
theorem after_append (h : m ∉ s) (t : List α) : after (m :: q) (s ++ t) = after (m :: q) t := by
  rw [after, after, find_append h, Option.map_map]
  congr 1
  funext i
  rw [Function.comp_apply, Nat.add_right_comm, Nat.add_comm, List.drop_length_add_append]

/-- The search passes over a mark that is another's. -/
theorem after_mark (h : m ∉ s) (hp : ¬ m :: q <+: m :: (s ++ t)) :
    after (m :: q) (m :: (s ++ t)) = after (m :: q) t := by
  rw [after, after, find_mark h hp, Option.map_map]
  congr 1
  funext i
  have hindex : i + (s.length + 1) + (m :: q).length = s.length + (i + (m :: q).length) + 1 := by
    omega
  rw [Function.comp_apply, hindex, List.drop_succ_cons, List.drop_length_add_append]

/-! ## The order of two patterns -/

/-- Wherever `p` occurs first, `q` has occurred before. -/
def Precedes (q p s : List α) : Prop :=
  ∀ i, find p s = some i → ∃ j, find q s = some j ∧ j < i

theorem precedes_nil (hp : p ≠ []) : Precedes q p [] := by
  intro i h
  rw [find, if_neg hp] at h
  cases h

variable {p' q' : List α}

/-- What has no mark may stand before. -/
theorem Precedes.append (h : Precedes (m :: q') (m :: p') t) (hs : m ∉ s) :
    Precedes (m :: q') (m :: p') (s ++ t) := by
  intro i hi
  rw [find_append hs] at hi ⊢
  obtain ⟨i, hfind, rfl⟩ := Option.map_eq_some_iff.mp hi
  obtain ⟨j, hj, hlt⟩ := h i hfind
  exact ⟨j + s.length, by rw [hj]; rfl, by omega⟩

/-- A stretch with one marker, where `p` does not stand. -/
theorem Precedes.mark (h : Precedes (m :: q') (m :: p') t) (hs : m ∉ s)
    (hp : ¬ m :: p' <+: m :: (s ++ t)) : Precedes (m :: q') (m :: p') (m :: (s ++ t)) := by
  intro i hi
  rw [find_mark hs hp] at hi
  obtain ⟨i, hfind, rfl⟩ := Option.map_eq_some_iff.mp hi
  by_cases hq : m :: q' <+: m :: (s ++ t)
  · exact ⟨0, find_front hq, by omega⟩
  · obtain ⟨j, hj, hlt⟩ := h i hfind
    exact ⟨j + (s.length + 1), by rw [find_mark hs hq, hj]; rfl, by omega⟩

/-- `q` stands at the front of the text and `p` does not. -/
theorem precedes_front (hq : m :: q' <+: m :: s) (hp : ¬ m :: p' <+: m :: s) :
    Precedes (m :: q') (m :: p') (m :: s) := by
  intro i hi
  rw [find_cons_of_neg hp] at hi
  obtain ⟨i, -, rfl⟩ := Option.map_eq_some_iff.mp hi
  exact ⟨0, find_front hq, by omega⟩

end Search
