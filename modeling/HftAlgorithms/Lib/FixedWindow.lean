/-
Module: HftAlgorithms.Lib.FixedWindow
Purpose: Rate limiting by a window that is restarted by the first arrival a full
  width after its start: what it bounds, which is each window, and what follows
  for intervals that are laid across a restart.
Trusted boundary: none
Main exports: FixedWindow.Window, FixedWindow.refresh, FixedWindow.letIn,
  FixedWindow.Paced, FixedWindow.Paced.refresh, FixedWindow.Paced.letIn
-/
import Mathlib.Algebra.Order.Ring.Int
import Mathlib.Data.List.Count

namespace FixedWindow

/-- When the window was started, and how much has been admitted since. -/
structure Window where
  start : Int
  count : Nat
deriving DecidableEq

/-- An arrival at `now` restarts a window whose width has passed. -/
def refresh (width : Int) (window : Window) (now : Int) : Window :=
  if width ≤ now - window.start then ⟨now, 0⟩ else window

/-- One more is let in. -/
def letIn (window : Window) : Window := { window with count := window.count + 1 }

/-- How many of the times lie between two instants, both included. -/
def between (start stop : Int) (times : List Int) : Nat :=
  times.countP fun time => start ≤ time ∧ time ≤ stop

/-- Counting what satisfies one of two conditions. -/
theorem countP_le_add {α : Type*} {whole first second : α → Bool} {list : List α}
    (covers : ∀ item ∈ list, whole item → first item ∨ second item) :
    list.countP whole ≤ list.countP first + list.countP second := by
  induction list with
  | nil => exact Nat.zero_le _
  | cons item list inductionHypothesis =>
      have tail := inductionHypothesis fun other member =>
        covers other (List.mem_cons_of_mem _ member)
      have head := covers item List.mem_cons_self
      rw [List.countP_cons, List.countP_cons, List.countP_cons]
      cases here : whole item with
      | false =>
          rw [if_neg Bool.false_ne_true]
          omega
      | true =>
          rcases head here with one | two
          · rw [if_pos rfl, if_pos one]
            omega
          · rw [if_pos rfl, if_pos two]
            omega

/-- What holds of the admitted times when at most `limit` are admitted in a window: those of the
present window are at most its count, those less than a width before it are of one window as well,
and so no interval shorter than the width has more than both together. -/
structure Paced (width : Int) (limit : Nat) (window : Window) (latest : Int) (times : List Int) :
    Prop where
  started : window.start ≤ latest
  past : ∀ time ∈ times, time ≤ latest
  inside : ∀ time ∈ times, time < window.start + width
  counted : times.countP (fun time => window.start ≤ time) ≤ window.count
  limited : window.count ≤ limit
  before : times.countP (fun time => window.start - width < time ∧ time < window.start) ≤ limit
  anywhere : ∀ start stop, stop - start < width → between start stop times ≤ 2 * limit

variable {width : Int} {limit : Nat} {window : Window} {latest now : Int} {times : List Int}

theorem paced_nil (start : Int) :
    Paced width limit ⟨start, 0⟩ start [] where
  started := le_refl start
  past _ member := absurd member List.not_mem_nil
  inside _ member := absurd member List.not_mem_nil
  counted := le_refl 0
  limited := Nat.zero_le limit
  before := Nat.zero_le limit
  anywhere _ _ _ := Nat.zero_le _

/-- Time passes. -/
theorem Paced.later (paced : Paced width limit window latest times) (passes : latest ≤ now) :
    Paced width limit window now times :=
  { paced with
    started := paced.started.trans passes
    past := fun time member => (paced.past time member).trans passes }

/-- A restart leaves the window that was closed wholly less than a width behind, or older. -/
theorem Paced.refresh (paced : Paced width limit window latest times) (positive : 0 < width)
    (passes : latest ≤ now) :
    Paced width limit (FixedWindow.refresh width window now) now times := by
  rw [FixedWindow.refresh]
  split
  · rename_i ended
    have early : ∀ time ∈ times, time < now := by
      intro time member
      have inside := paced.inside time member
      omega
    have past := (paced.later passes).past
    refine ⟨le_refl now, past, ?_, ?_, Nat.zero_le limit, ?_, paced.anywhere⟩
    · intro time member
      have before := early time member
      change time < now + width
      omega
    · have none : times.countP (fun time => now ≤ time) = 0 := by
        rw [List.countP_eq_zero]
        intro time member
        have before := early time member
        simp only [decide_eq_true_eq]
        omega
      exact le_of_eq none
    · refine le_trans (List.countP_mono_left ?_) (paced.counted.trans paced.limited)
      intro time _ close
      simp only [decide_eq_true_eq] at close ⊢
      omega
  · exact paced.later passes

/-- After the refresh the window is open. -/
theorem lt_refresh (positive : 0 < width) :
    now < (FixedWindow.refresh width window now).start + width := by
  rw [FixedWindow.refresh]
  split
  · change now < now + width
    omega
  · omega

/-- Admitting below the limit: whatever interval the new time closes has the present window on one
side of the restart and less than a width on the other. -/
theorem Paced.letIn (paced : Paced width limit window now times) (room : window.count < limit)
    (open_window : now < window.start + width) :
    Paced width limit (FixedWindow.letIn window) now (times ++ [now]) := by
  have started := paced.started
  refine ⟨started, ?_, ?_, ?_, room, ?_, ?_⟩
  · intro time member
    rcases List.mem_append.mp member with before | here
    · exact paced.past time before
    · exact le_of_eq (List.mem_singleton.mp here)
  · intro time member
    rcases List.mem_append.mp member with before | here
    · exact paced.inside time before
    · rw [List.mem_singleton.mp here]
      exact open_window
  · rw [List.countP_append]
    have counted := paced.counted
    have one : [now].countP (fun time => window.start ≤ time) ≤ 1 := List.countP_le_length
    change _ ≤ window.count + 1
    exact Nat.add_le_add counted one
  · rw [List.countP_append]
    have none :
        [now].countP (fun time => window.start - width < time ∧ time < window.start) = 0 := by
      rw [List.countP_eq_zero]
      intro time member
      rw [List.mem_singleton.mp member]
      simp only [decide_eq_true_eq]
      omega
    exact (le_of_eq (congrArg (_ + ·) none)).trans paced.before
  · intro start stop short
    rw [between, List.countP_append]
    by_cases closed : start ≤ now ∧ now ≤ stop
    · have split : times.countP (fun time => start ≤ time ∧ time ≤ stop) ≤
          times.countP (fun time => window.start ≤ time) +
            times.countP (fun time => window.start - width < time ∧ time < window.start) := by
        apply countP_le_add
        intro time _ close
        simp only [decide_eq_true_eq] at close ⊢
        omega
      have one : [now].countP (fun time => start ≤ time ∧ time ≤ stop) ≤ 1 :=
        List.countP_le_length
      have counted := paced.counted
      have before := paced.before
      omega
    · have none : [now].countP (fun time => start ≤ time ∧ time ≤ stop) = 0 := by
        rw [List.countP_eq_zero]
        intro time member
        rw [List.mem_singleton.mp member]
        simpa using closed
      rw [none]
      exact paced.anywhere start stop short

end FixedWindow
