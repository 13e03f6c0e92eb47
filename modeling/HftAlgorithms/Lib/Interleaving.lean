/-
Module: HftAlgorithms.Lib.Interleaving
Purpose: Sequences that interleave the same rows, one row for each key, and
  machines whose state at a key is moved by the inputs of that key alone: such a
  machine cannot tell two interleavings apart.
Trusted boundary: none
Main exports: Interleaving.row, Interleaving.SameRows, Interleaving.SameRows.perm,
  Interleaving.part_foldl, Interleaving.SameRows.part_foldl
-/
import Mathlib.Data.List.Perm.Basic

namespace Interleaving

variable {ι κ σ ε : Type*} [DecidableEq κ] (key : ι → κ)

/-- The inputs of one key, in their order. -/
def row (k : κ) (inputs : List ι) : List ι := inputs.filter fun input => key input = k

/-- Every key has the same inputs in the same order. -/
def SameRows (first second : List ι) : Prop := ∀ k, row key k first = row key k second

variable {key}

theorem row_cons (k : κ) (input : ι) (inputs : List ι) :
    row key k (input :: inputs) =
      if key input = k then input :: row key k inputs else row key k inputs := by
  simp only [row, List.filter_cons, decide_eq_true_eq]

theorem row_eq_nil {k : κ} {inputs : List ι} (absent : ∀ input ∈ inputs, key input ≠ k) :
    row key k inputs = [] := by
  apply List.filter_eq_nil_iff.mpr
  intro input member
  simpa using absent input member

/-- The keys that occur are enough to compare. -/
theorem sameRows_iff_of_occurring {first second : List ι} :
    SameRows key first second ↔
      ∀ input ∈ first ++ second, row key (key input) first = row key (key input) second := by
  constructor
  · exact fun same input _ => same (key input)
  · intro same k
    by_cases occurs : ∃ input ∈ first ++ second, key input = k
    · obtain ⟨input, member, rfl⟩ := occurs
      exact same input member
    · have absent : ∀ input ∈ first ++ second, key input ≠ k :=
        fun input member here => occurs ⟨input, member, here⟩
      rw [row_eq_nil fun input member => absent input (List.mem_append_left _ member),
        row_eq_nil fun input member => absent input (List.mem_append_right _ member)]

instance decidableSameRows [DecidableEq ι] (first second : List ι) :
    Decidable (SameRows key first second) :=
  have : Decidable (∀ input ∈ first ++ second,
      row key (key input) first = row key (key input) second) := List.decidableBAll _ _
  decidable_of_iff' _ sameRows_iff_of_occurring

/-- Interleavings of the same rows have the same inputs. -/
theorem SameRows.perm [DecidableEq ι] {first second : List ι}
    (same : SameRows key first second) : first.Perm second := by
  apply List.perm_iff_count.mpr
  intro input
  have here : ∀ inputs : List ι, (row key (key input) inputs).count input = inputs.count input :=
    fun inputs => List.count_filter (by simp)
  rw [← here first, ← here second, same (key input)]

section Machine

variable {next : σ → ι → σ} {part : σ → κ → ε} {step : ε → ι → ε} {invariant : σ → Prop}

/-- The part of the state at a key is moved by the key's row. -/
theorem part_foldl (keeps : ∀ state input, invariant state → invariant (next state input))
    (alone : ∀ state input k, invariant state →
      part (next state input) k =
        if key input = k then step (part state k) input else part state k)
    {state : σ} (initial : invariant state) (inputs : List ι) (k : κ) :
    part (inputs.foldl next state) k = (row key k inputs).foldl step (part state k) := by
  induction inputs generalizing state with
  | nil => rfl
  | cons input inputs inductionHypothesis =>
      rw [List.foldl_cons, inductionHypothesis (keeps state input initial), row_cons,
        alone state input k initial]
      split
      · rfl
      · rfl

/-- Interleavings of the same rows lead to the same parts. -/
theorem SameRows.part_foldl {first second : List ι} (same : SameRows key first second)
    (keeps : ∀ state input, invariant state → invariant (next state input))
    (alone : ∀ state input k, invariant state →
      part (next state input) k =
        if key input = k then step (part state k) input else part state k)
    {state : σ} (initial : invariant state) (k : κ) :
    part (first.foldl next state) k = part (second.foldl next state) k := by
  rw [Interleaving.part_foldl keeps alone initial first,
    Interleaving.part_foldl keeps alone initial second, same k]

end Machine

end Interleaving
