/-
Module: HftAlgorithms.Lib.OverlapLog
Purpose: A log ordered by a key, a prefix of it up to one key and a suffix of it
  from another: the part in both, and how the three make up the log.
Trusted boundary: none
Main exports: OverlapLog.Ordered, OverlapLog.upTo, OverlapLog.since,
  OverlapLog.between, OverlapLog.exists_before_after
-/
import Mathlib.Data.List.Basic

namespace OverlapLog

variable {μ : Type*} (key : μ → Nat)

/-- Keys increase along the log. -/
def Ordered (log : List μ) : Prop :=
  log.Pairwise fun earlier later => key earlier < key later

/-- The prefix up to and including key `k`. -/
def upTo (k : Nat) (log : List μ) : List μ :=
  log.filter fun message => key message ≤ k

/-- The suffix from key `j` on. -/
def since (j : Nat) (log : List μ) : List μ :=
  log.filter fun message => j ≤ key message

/-- What is in both. -/
def between (j k : Nat) (log : List μ) : List μ :=
  log.filter fun message => j ≤ key message ∧ key message ≤ k

variable {key}

theorem Ordered.filter {log : List μ} (ordered : Ordered key log) (keep : μ → Bool) :
    Ordered key (log.filter keep) :=
  List.Pairwise.filter keep ordered

/-- An ordered log splits at any key. -/
theorem Ordered.filter_lt_append_filter_ge {log : List μ} (ordered : Ordered key log) (t : Nat) :
    (log.filter fun message => key message < t) ++ (log.filter fun message => t ≤ key message) =
      log := by
  induction log with
  | nil => rfl
  | cons message rest inductionHypothesis =>
      obtain ⟨first, later⟩ := List.pairwise_cons.mp ordered
      by_cases before : key message < t
      · rw [List.filter_cons_of_pos (by simpa using before),
          List.filter_cons_of_neg (by simpa using before), List.cons_append,
          inductionHypothesis later]
      · -- everything after `message` has a larger key, so the first part is empty
        have reached : t ≤ key message := Nat.le_of_not_lt before
        have nothing : rest.filter (fun other => key other < t) = [] := by
          rw [List.filter_eq_nil_iff]
          intro other member
          have larger := first other member
          simp
          omega
        have everything : rest.filter (fun other => t ≤ key other) = rest := by
          rw [List.filter_eq_self]
          intro other member
          have larger := first other member
          simp
          omega
        rw [List.filter_cons_of_neg (by simpa using reached),
          List.filter_cons_of_pos (by simpa using reached), nothing, everything]
        rfl

/-- A prefix and a suffix that leave no gap make up the log, with the part in both counted
once. -/
theorem Ordered.exists_before_after {log : List μ} (ordered : Ordered key log) {j k : Nat}
    (noGap : j ≤ k + 1) :
    ∃ before after, log = before ++ between key j k log ++ after ∧
      upTo key k log = before ++ between key j k log ∧
      since key j log = between key j k log ++ after := by
  have early : upTo key k log =
      (log.filter fun message => key message < j) ++ between key j k log := by
    have split := (ordered.filter fun message => key message ≤ k).filter_lt_append_filter_ge j
    rw [List.filter_filter, List.filter_filter] at split
    refine split.symm.trans ?_
    congr 1
    · apply List.filter_congr
      intro message _
      by_cases before : key message < j
      · have within : key message ≤ k := by omega
        simp [before, within]
      · simp [before]
    · apply List.filter_congr
      intro message _
      simp
  have late : since key j log =
      between key j k log ++ (log.filter fun message => k + 1 ≤ key message) := by
    have split := (ordered.filter fun message => j ≤ key message).filter_lt_append_filter_ge (k + 1)
    rw [List.filter_filter, List.filter_filter] at split
    refine split.symm.trans ?_
    congr 1
    · apply List.filter_congr
      intro message _
      have within : key message < k + 1 ↔ key message ≤ k := Nat.lt_succ_iff
      simp only [within, Bool.decide_and, Bool.and_comm]
    · apply List.filter_congr
      intro message _
      by_cases past : k + 1 ≤ key message
      · have from_j : j ≤ key message := Nat.le_trans noGap past
        simp [past, from_j]
      · simp [past]
  refine ⟨_, _, ?_, early, late⟩
  rw [List.append_assoc, ← late]
  exact (ordered.filter_lt_append_filter_ge j).symm

end OverlapLog
