/-
Module: HftAlgorithms.Lib.TextSearch
Purpose: Searching a text for a pattern from a place on, as string libraries do it,
  and where the pattern is found: behind whatever it starts nowhere in.
Trusted boundary: none
Main exports: TextSearch.find, TextSearch.substr, TextSearch.Skips,
  TextSearch.find_of_skips, TextSearch.find_zero_of_skips,
  TextSearch.find_eq_none_of_skips,
  TextSearch.find_item, TextSearch.find_item_eq_none,
  TextSearch.find_isSome_iff, TextSearch.infix_append_cons_iff
-/
import Mathlib.Data.List.Infix
import Mathlib.Algebra.Order.Ring.Nat

namespace TextSearch

variable {α : Type*}

/-- `substr`: so many items from a place on, or as many as there are. -/
def substr (text : List α) (start count : Nat) : List α := (text.drop start).take count

/-- The pattern starts nowhere in the first text when the second follows it. -/
def Skips (pattern : List α) : List α → List α → Prop
  | [], _ => True
  | item :: before, rest => ¬ pattern <+: item :: (before ++ rest) ∧ Skips pattern before rest

/-! ### Texts that are skipped -/

theorem skips_append {pattern first second rest : List α} :
    Skips pattern (first ++ second) rest ↔
      Skips pattern first (second ++ rest) ∧ Skips pattern second rest := by
  induction first with
  | nil => simp [Skips]
  | cons item first inductionHypothesis =>
      simp [Skips, inductionHypothesis, and_assoc]

/-- A pattern does not start where its first item is not. -/
theorem skips_of_notMem {head : α} {pattern before : List α} (absent : head ∉ before)
    (rest : List α) : Skips (head :: pattern) before rest := by
  induction before with
  | nil => trivial
  | cons item before inductionHypothesis =>
      rw [List.mem_cons, not_or] at absent
      refine ⟨?_, inductionHypothesis absent.2⟩
      rw [List.cons_prefix_cons]
      exact fun both => absent.1 both.1

/-- What follows a separator that the pattern lacks does not help it to begin. -/
theorem prefix_of_prefix_append_cons {separator : α} {pattern first second : List α}
    (absent : separator ∉ pattern) (begins : pattern <+: first ++ separator :: second) :
    pattern <+: first := by
  induction first generalizing pattern with
  | nil =>
      cases pattern with
      | nil => exact List.nil_prefix
      | cons head pattern =>
          rw [List.nil_append, List.cons_prefix_cons] at begins
          exact absurd (List.mem_cons.mpr (Or.inl begins.1.symm)) absent
  | cons item first inductionHypothesis =>
      cases pattern with
      | nil => exact List.nil_prefix
      | cons head pattern =>
          rw [List.cons_append, List.cons_prefix_cons] at begins
          rw [List.mem_cons, not_or] at absent
          exact List.cons_prefix_cons.mpr ⟨begins.1, inductionHypothesis absent.2 begins.2⟩

/-- A pattern without the separator lies on one side of it. -/
theorem infix_append_cons_iff {separator : α} {pattern first second : List α}
    (absent : separator ∉ pattern) :
    pattern <:+: first ++ separator :: second ↔ pattern <:+: first ∨ pattern <:+: second := by
  constructor
  · intro within
    induction first with
    | nil =>
        rcases List.infix_cons_iff.mp within with begins | later
        · have nothing := @prefix_of_prefix_append_cons _ _ _ [] _ absent begins
          exact Or.inl nothing.isInfix
        · exact Or.inr later
    | cons item first inductionHypothesis =>
        rw [List.cons_append, List.infix_cons_iff] at within
        rw [List.infix_cons_iff]
        rcases within with begins | later
        · have here := @prefix_of_prefix_append_cons _ _ _ (item :: first) _ absent begins
          exact Or.inl (Or.inl here)
        · exact (inductionHypothesis later).imp_left Or.inr
  · rintro (⟨left, right, rfl⟩ | ⟨left, right, rfl⟩)
    · exact ⟨left, right ++ separator :: second, by simp⟩
    · exact ⟨first ++ separator :: left, right, by simp⟩

/-! ### Searching -/

section Find

variable [DecidableEq α]

/-- The first place at which the pattern stands; the text starts at `pos`. -/
def findAt (pattern : List α) (pos : Nat) : List α → Option Nat
  | [] => if pattern = [] then some pos else none
  | item :: rest =>
      if pattern <+: item :: rest then some pos else findAt pattern (pos + 1) rest

/-- `find`: the first place from `start` on, `none` for `npos`. -/
def find (pattern text : List α) (start : Nat) : Option Nat :=
  if start ≤ text.length then findAt pattern start (text.drop start) else none

variable {pattern : List α}

theorem findAt_of_prefix {rest : List α} (here : pattern <+: rest) (pos : Nat) :
    findAt pattern pos rest = some pos := by
  cases rest with
  | nil => simp [findAt, List.prefix_nil.mp here]
  | cons item rest => simp [findAt, here]

theorem findAt_of_skips {before rest : List α} (skips : Skips pattern before rest) (pos : Nat) :
    findAt pattern pos (before ++ rest) = findAt pattern (pos + before.length) rest := by
  induction before generalizing pos with
  | nil => rfl
  | cons item before inductionHypothesis =>
      rw [List.cons_append, findAt, if_neg skips.1, inductionHypothesis skips.2,
        List.length_cons, Nat.add_assoc, Nat.add_comm 1]

theorem find_eq_findAt (front text : List α) :
    find pattern (front ++ text) front.length = findAt pattern front.length text := by
  simp [find]

/-- The pattern is found behind what it skips. -/
theorem find_of_skips {before rest : List α} (skips : Skips pattern before rest)
    (here : pattern <+: rest) (front : List α) :
    find pattern (front ++ (before ++ rest)) front.length =
      some (front.length + before.length) := by
  rw [find_eq_findAt, findAt_of_skips skips, findAt_of_prefix here]

theorem find_zero_of_skips {before rest : List α} (skips : Skips pattern before rest)
    (here : pattern <+: rest) : find pattern (before ++ rest) 0 = some before.length := by
  have found := find_of_skips skips here []
  rwa [List.nil_append, List.length_nil, Nat.zero_add] at found

/-- It is found nowhere if it skips all the rest. -/
theorem find_eq_none_of_skips {before : List α} (nonempty : pattern ≠ [])
    (skips : Skips pattern before []) (front : List α) :
    find pattern (front ++ before) front.length = none := by
  have searched := findAt_of_skips skips front.length
  rw [List.append_nil] at searched
  rw [find_eq_findAt, searched, findAt, if_neg nonempty]

/-- A single item is found behind items that differ from it. -/
theorem find_item {text front before rest : List α} {item : α} {start : Nat}
    (whole : text = front ++ (before ++ item :: rest)) (here : start = front.length)
    (absent : item ∉ before) : find [item] text start = some (start + before.length) := by
  have skips : Skips [item] before (item :: rest) := skips_of_notMem absent _
  rw [whole, here]
  exact find_of_skips skips (List.prefix_append [item] _) front

theorem find_item_eq_none {text front before : List α} {item : α} {start : Nat}
    (whole : text = front ++ before) (here : start = front.length) (absent : item ∉ before) :
    find [item] text start = none := by
  have skips : Skips [item] before [] := skips_of_notMem absent _
  rw [whole, here]
  exact find_eq_none_of_skips (by simp) skips front

theorem findAt_isSome_iff {text : List α} (pos : Nat) :
    (findAt pattern pos text).isSome ↔ pattern <:+: text := by
  induction text generalizing pos with
  | nil =>
      by_cases empty : pattern = []
      · simp [findAt, empty]
      · simp [findAt, empty]
  | cons item text inductionHypothesis =>
      by_cases here : pattern <+: item :: text
      · simp [findAt, here, here.isInfix]
      · simp [findAt, here, inductionHypothesis, List.infix_cons_iff]

/-- A search from the start finds what the text contains. -/
theorem find_isSome_iff (text : List α) : (find pattern text 0).isSome ↔ pattern <:+: text := by
  simp [find, findAt_isSome_iff]

theorem pos_le_of_findAt {text : List α} {pos found : Nat}
    (at_found : findAt pattern pos text = some found) : pos ≤ found := by
  induction text generalizing pos with
  | nil =>
      rw [findAt] at at_found
      split at at_found
      · cases at_found
        exact Nat.le_refl _
      · cases at_found
  | cons item text inductionHypothesis =>
      rw [findAt] at at_found
      split at at_found
      · cases at_found
        exact Nat.le_refl _
      · exact Nat.le_of_succ_le (inductionHypothesis at_found)

/-- A search finds nothing before its start. -/
theorem start_le_of_find {text : List α} {start found : Nat}
    (at_found : find pattern text start = some found) : start ≤ found := by
  rw [find] at at_found
  split at at_found
  · exact pos_le_of_findAt at_found
  · cases at_found

end Find

/-! ### Cutting -/

theorem drop_append_append (front middle rest : List α) :
    (front ++ (middle ++ rest)).drop (front.length + middle.length) = rest := by
  rw [← List.append_assoc, ← List.length_append, List.drop_left]

theorem substr_append (front middle rest : List α) :
    substr (front ++ (middle ++ rest)) front.length middle.length = middle := by
  simp [substr]

end TextSearch
