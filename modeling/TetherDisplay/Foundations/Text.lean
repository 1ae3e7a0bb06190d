import Mathlib.Data.List.DropRight
import Mathlib.Tactic.Common

/-!
# Lines, blanks and separators

A text is a list of characters.  The operations of the C++ string library are written with
positions: `getline` reads up to a newline, `find` and `find_first_not_of` give indices that
`substr` is called with.  Each has a description without positions: `splitOn` for the lines
(`splitOn_eq`), `dropWhile` from both ends for the blanks around a text (`trim_eq`), and
`takeWhile` for what stands before a separator (`upTo_eq`, `cut_eq`).
-/

namespace Text

universe u

variable {α : Type u} [DecidableEq α]

/-- The bytes of an ASCII text. -/
def ascii (s : String) : List UInt8 := s.toList.map fun c => c.toUInt8

theorem ascii_append (s t : String) : ascii (s ++ t) = ascii s ++ ascii t := by
  simp [ascii]

/-! ## Lines -/

/-- The lines that `getline` reads, where `line` has been read of the first one.  At the end of
the text a line that was begun is a line; an empty one is not. -/
def linesFrom (nl : α) (line : List α) : List α → List (List α)
  | [] => if line = [] then [] else [line]
  | b :: t => if b = nl then line :: linesFrom nl [] t else linesFrom nl (line ++ [b]) t

/-- The lines of a text. -/
def lines (nl : α) (text : List α) : List (List α) := linesFrom nl [] text

@[simp] theorem lines_nil (nl : α) : lines nl [] = [] := rfl

/-- The lines are the pieces, but for an empty last one. -/
theorem splitOn_eq_linesFrom {nl : α} {line : List α} (h : nl ∉ line) (text : List α) :
    (line ++ text).splitOn nl = linesFrom nl line text ∨
      (line ++ text).splitOn nl = linesFrom nl line text ++ [[]] := by
  induction text generalizing line with
  | nil =>
      rw [List.append_nil, List.splitOn_eq_singleton h, linesFrom]
      split_ifs with hline
      · exact Or.inr (by rw [hline]; rfl)
      · exact Or.inl rfl
  | cons b t ih =>
      rw [linesFrom]
      split_ifs with hb
      · subst hb
        rw [List.splitOn_append_cons_self_of_not_mem h]
        have hempty : b ∉ ([] : List α) := List.not_mem_nil
        rcases ih hempty with ht | ht
        · exact Or.inl (congrArg (line :: ·) ht)
        · exact Or.inr (congrArg (line :: ·) ht)
      · have hline : nl ∉ line ++ [b] := by simp [h, Ne.symm hb]
        simpa using ih hline

/-- **The lines are the pieces between the newlines**, less an empty one after the last. -/
theorem splitOn_eq (nl : α) (text : List α) :
    text.splitOn nl = lines nl text ∨ text.splitOn nl = lines nl text ++ [[]] := by
  have hempty : nl ∉ ([] : List α) := List.not_mem_nil
  exact splitOn_eq_linesFrom hempty text

/-! ## Blanks -/

/-- The text from its first to its last character that is no blank, by positions. -/
def trim (blank : α → Bool) (s : List α) : List α :=
  match s.findIdx? fun b => !blank b, s.reverse.findIdx? fun b => !blank b with
  | some b, some k =>
      let e := s.length - 1 - k
      (s.drop b).take (e - b + 1)
  | _, _ => []

omit [DecidableEq α] in
/-- What is dropped at the end. -/
theorem rdropWhile_eq_take (p : α → Bool) (l : List α) :
    l.rdropWhile p = l.take (l.length - l.reverse.findIdx fun b => !p b) := by
  rw [List.rdropWhile, List.dropWhile_eq_drop_findIdx_not, List.reverse_drop,
    List.reverse_reverse, List.length_reverse]

omit [DecidableEq α] in
/-- **Trimming drops the blanks of both ends.** -/
theorem trim_eq (blank : α → Bool) (s : List α) :
    trim blank s = (s.dropWhile blank).rdropWhile blank := by
  set solid : α → Bool := fun b => !blank b with hsolid
  by_cases hsome : ∃ b ∈ s, solid b
  · have hrev : ∃ b ∈ s.reverse, solid b := by simpa using hsome
    set b := s.findIdx solid with hb
    set k := s.reverse.findIdx solid with hk
    have hlt : b < s.length := List.findIdx_lt_length.mpr hsome
    -- The last solid character stands at or after the first one.
    have hdrop : (s.drop b).reverse.findIdx solid < (s.drop b).reverse.length := by
      have hmem : s[b] ∈ (s.drop b).reverse := by
        rw [List.mem_reverse, List.drop_eq_getElem_cons hlt]
        exact List.mem_cons_self ..
      exact List.findIdx_lt_length.mpr ⟨s[b], hmem, List.findIdx_getElem⟩
    have hback : (s.drop b).reverse.findIdx solid = k := by
      have happend : s.reverse = (s.drop b).reverse ++ (s.take b).reverse := by
        rw [← List.reverse_append, List.take_append_drop]
      rw [hk, happend, List.findIdx_append, if_pos hdrop]
    rw [hback, List.length_reverse, List.length_drop] at hdrop
    have htrim : trim blank s = (s.drop b).take (s.length - 1 - k - b + 1) := by
      simp only [trim, ← hsolid, List.findIdx?_eq_some_of_exists hsome,
        List.findIdx?_eq_some_of_exists hrev, ← hb, ← hk]
    rw [htrim, List.dropWhile_eq_drop_findIdx_not, rdropWhile_eq_take, ← hsolid, ← hb, hback,
      List.length_drop]
    congr 1
    omega
  · have hnone : s.findIdx? solid = none := List.findIdx?_eq_none_iff.mpr (by simpa using hsome)
    have hdrop : s.dropWhile blank = [] :=
      List.dropWhile_eq_nil_iff.mpr (by simpa [hsolid] using hsome)
    have htrim : trim blank s = [] := by simp only [trim, ← hsolid, hnone]
    rw [htrim, hdrop, List.rdropWhile_nil]

/-! ## Separators -/

/-- The text before the first `c`, or all of it: `substr(0, find(c))`. -/
def upTo (c : α) (s : List α) : List α :=
  match s.findIdx? (· = c) with
  | some i => s.take i
  | none => s

/-- The text before and after the first `c`. -/
def cut (c : α) (s : List α) : Option (List α × List α) :=
  (s.findIdx? (· = c)).map fun i => (s.take i, s.drop (i + 1))

theorem findIdx?_eq_ite (c : α) (s : List α) :
    s.findIdx? (· = c) = if c ∈ s then some (s.findIdx (· = c)) else none := by
  split_ifs with h
  · exact List.findIdx?_eq_some_of_exists ⟨c, h, by simp⟩
  · exact List.findIdx?_eq_none_iff.mpr fun b hb => by
      simpa using fun hbc : b = c => h (hbc ▸ hb)

theorem takeWhile_ne_eq (c : α) (s : List α) :
    s.takeWhile (· ≠ c) = s.take (s.findIdx (· = c)) := by
  rw [List.takeWhile_eq_take_findIdx_not]
  simp

theorem dropWhile_ne_eq (c : α) (s : List α) :
    s.dropWhile (· ≠ c) = s.drop (s.findIdx (· = c)) := by
  rw [List.dropWhile_eq_drop_findIdx_not]
  simp

/-- The text up to a character. -/
theorem upTo_eq (c : α) (s : List α) : upTo c s = s.takeWhile (· ≠ c) := by
  rw [upTo, findIdx?_eq_ite]
  split_ifs with h
  · exact (takeWhile_ne_eq c s).symm
  · refine (List.takeWhile_eq_self_iff.mpr fun b hb => ?_).symm
    simpa using fun hbc : b = c => h (hbc ▸ hb)

/-- The two sides of a character. -/
theorem cut_eq (c : α) (s : List α) : cut c s =
    if c ∈ s then some (s.takeWhile (· ≠ c), (s.dropWhile (· ≠ c)).tail) else none := by
  rw [cut, findIdx?_eq_ite]
  split_ifs with h
  · rw [takeWhile_ne_eq, dropWhile_ne_eq, List.tail_drop]
    rfl
  · rfl

end Text
