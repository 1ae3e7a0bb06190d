import Mathlib.Data.List.MinMax
import Mathlib.Tactic.Common

/-!
# Keeping the best so far

A loop that goes over a list and keeps the best element it has met computes the `argmin` of the
list, where what it compares by is the order of a key (`scan_eq`, `keep_eq`).  So what it keeps is
an optimum, and two orders of one list can only differ in elements with the same key
(`key_eq_of_perm`).
-/

namespace Selection

universe u v

variable {α : Type u} {κ : Type v} [LinearOrder κ] {key : α → κ} {better : α → α → Bool}

/-- The loop over the elements of interest, from nothing. -/
def scan (interest : α → Bool) (better : α → α → Bool) (l : List α) : Option α :=
  l.foldl (fun best a =>
    if !interest a then best
    else
      match best with
      | none => some a
      | some b => if better a b then some a else best) none

/-- The loop from a first element. -/
def keep (better : α → α → Bool) (front : α) (rest : List α) : α :=
  rest.foldl (fun best a => if better a best then a else best) front

/-- The comparison is the key's on these elements. -/
def Compares (better : α → α → Bool) (key : α → κ) (l : List α) : Prop :=
  ∀ a ∈ l, ∀ b ∈ l, (better a b = true ↔ key a < key b)

/-- Fewer are compared as well. -/
theorem Compares.mono {l l' : List α} (h : Compares better key l) (hsub : l' ⊆ l) :
    Compares better key l' :=
  fun a ha b hb => h a (hsub ha) b (hsub hb)

/-- **From nothing** the loop finds the `argmin` of the elements of interest. -/
theorem scan_eq {interest : α → Bool} {l : List α}
    (h : Compares better key (l.filter interest)) :
    scan interest better l = (l.filter interest).argmin key := by
  induction l using List.reverseRecOn with
  | nil => rfl
  | append_singleton l a ih =>
      rw [List.filter_append] at h
      have hfront := ih (h.mono (List.subset_append_left _ _))
      rw [scan, List.foldl_append, ← scan, List.foldl_cons, List.foldl_nil, hfront,
        List.filter_append]
      cases ha : interest a with
      | false => simp [ha]
      | true =>
          have hlast : [a].filter interest = [a] := by simp [ha]
          rw [hlast, List.argmin_concat]
          cases hbest : (l.filter interest).argmin key with
          | none => rfl
          | some b =>
              have hiff := h a (by simp [ha]) b
                (List.mem_append_left _ (List.argmin_mem hbest))
              simp [hiff]

/-- **From the first element** it finds the `argmin` of all. -/
theorem keep_eq {front : α} {rest : List α} (h : Compares better key (front :: rest)) :
    (front :: rest).argmin key = some (keep better front rest) := by
  induction rest using List.reverseRecOn with
  | nil => rfl
  | append_singleton rest a ih =>
      have hsub : front :: rest ⊆ front :: (rest ++ [a]) :=
        List.cons_subset_cons _ (List.subset_append_left _ _)
      have hfront := ih (h.mono hsub)
      have hiff := h a (by simp) _ (hsub (List.argmin_mem hfront))
      have hkeep : keep better front (rest ++ [a]) =
          if better a (keep better front rest) then a else keep better front rest := by
        rw [keep, List.foldl_append]
        rfl
      rw [← List.cons_append, List.argmin_concat, hfront, hkeep]
      simp only [hiff]
      split_ifs <;> rfl

/-- The best of a list has the same key in every order of the list. -/
theorem key_eq_of_perm {l l' : List α} (h : l.Perm l') {m m' : α} (hm : m ∈ l.argmin key)
    (hm' : m' ∈ l'.argmin key) : key m = key m' :=
  le_antisymm (List.le_of_mem_argmin (h.mem_iff.mpr (List.argmin_mem hm')) hm)
    (List.le_of_mem_argmin (h.mem_iff.mp (List.argmin_mem hm)) hm')

end Selection
