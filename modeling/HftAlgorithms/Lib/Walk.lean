/-
Module: HftAlgorithms.Lib.Walk
Purpose: Loops that take one item a turn until a turn takes none, run with a
  budget of turns: which states they reach, and when the budget is enough.
Trusted boundary: none
Main exports: Walk.after, Walk.run, Walk.after_project, Walk.isSome_run_of_after,
  Walk.run_eq_none, Walk.Takes, Walk.Takes.run
-/
import Mathlib.Init

namespace Walk

variable {σ ο : Type*} (turn : σ → Option (ο × σ))

/-- The state after so many turns, if the loop lasts as long. -/
def after : Nat → σ → Option σ
  | 0, state => some state
  | turns + 1, state => (turn state).bind fun taken => after turns taken.2

/-- The items that the loop takes, if it ends within the budget of turns. -/
def run : Nat → σ → Option (List ο)
  | 0, state =>
      match turn state with
      | none => some []
      | some _ => none
  | budget + 1, state =>
      match turn state with
      | none => some []
      | some (item, next) => (run budget next).map (item :: ·)

variable {turn} {state next later last : σ} {item : ο} {items more : List ο} {budget turns : Nat}

theorem run_of_ended (ended : turn state = none) : run turn budget state = some [] := by
  cases budget with
  | zero => rw [run, ended]
  | succ budget => rw [run, ended]

theorem run_of_took (took : turn state = some (item, next)) :
    run turn (budget + 1) state = (run turn budget next).map (item :: ·) := by
  rw [run, took]

theorem isSome_run_of_took (took : turn state = some (item, next)) :
    (run turn budget state).isSome ↔ 0 < budget ∧ (run turn (budget - 1) next).isSome := by
  cases budget with
  | zero =>
      rw [run, took]
      simp
  | succ budget =>
      rw [run_of_took took]
      simp

theorem after_succ_of_took (took : turn state = some (item, next)) :
    after turn (turns + 1) state = after turn turns next := by
  rw [after, took]
  rfl

/-- One turn more at the end. -/
theorem after_succ (reached : after turn turns state = some later) :
    after turn (turns + 1) state = (turn later).map Prod.snd := by
  induction turns generalizing state with
  | zero =>
      cases reached
      rw [after]
      cases turn later <;> rfl
  | succ turns inductionHypothesis =>
      cases took : turn state with
      | none =>
          rw [after, took] at reached
          cases reached
      | some taken =>
          obtain ⟨item, next⟩ := taken
          rw [after_succ_of_took took] at reached ⊢
          exact inductionHypothesis reached

/-- A loop on more state comes through the same states as the loop that it contains. -/
theorem after_project {τ : Type*} {turnMore : τ → Option (ο × τ)} {project : τ → σ}
    (commutes : ∀ more, (turnMore more).map (fun taken => project taken.2) =
      (turn (project more)).map Prod.snd) (turns : Nat) (more : τ) :
    (after turnMore turns more).map project = after turn turns (project more) := by
  induction turns generalizing more with
  | zero => rfl
  | succ turns inductionHypothesis =>
      have same := commutes more
      rw [after, after]
      cases here : turn (project more) with
      | none =>
          rw [here, Option.map_none, Option.map_eq_none_iff] at same
          simp [same]
      | some taken =>
          rw [here, Option.map_some, Option.map_eq_some_iff] at same
          obtain ⟨takenMore, tookMore, projected⟩ := same
          rw [tookMore, Option.bind_some, Option.bind_some, inductionHypothesis, projected]

/-- A loop that comes through a state needs the turns up to it and what it needs from there. -/
theorem isSome_run_of_after (reached : after turn turns state = some later) :
    (run turn budget state).isSome ↔
      turns ≤ budget ∧ (run turn (budget - turns) later).isSome := by
  induction turns generalizing state budget with
  | zero =>
      cases reached
      simp
  | succ turns inductionHypothesis =>
      cases took : turn state with
      | none =>
          rw [after, took] at reached
          cases reached
      | some taken =>
          obtain ⟨item, next⟩ := taken
          rw [after_succ_of_took took] at reached
          rw [isSome_run_of_took took, inductionHypothesis reached, Nat.sub_sub, Nat.add_comm 1]
          have enough : 0 < budget ∧ turns ≤ budget - 1 ↔ turns + 1 ≤ budget := by omega
          rw [← and_assoc, enough]

/-- A loop that comes back to states it always takes something in never ends. -/
theorem run_eq_none {stuck : σ → Prop}
    (again : ∀ state, stuck state → ∃ item next, turn state = some (item, next) ∧ stuck next)
    (here : stuck state) : run turn budget state = none := by
  induction budget generalizing state with
  | zero =>
      obtain ⟨item, next, took, -⟩ := again state here
      rw [run, took]
  | succ budget inductionHypothesis =>
      obtain ⟨item, next, took, stuckNext⟩ := again state here
      rw [run_of_took took, inductionHypothesis stuckNext]
      rfl

variable (turn) in
/-- From one state the loop takes the items and is in another. -/
inductive Takes : σ → List ο → σ → Prop where
  | nothing (state : σ) : Takes state [] state
  | item {state next last : σ} {item : ο} {items : List ο}
      (took : turn state = some (item, next)) (rest : Takes next items last) :
      Takes state (item :: items) last

theorem Takes.append (first : Takes turn state items later) (second : Takes turn later more last) :
    Takes turn state (items ++ more) last := by
  induction first with
  | nothing _ => exact second
  | item took _ inductionHypothesis => exact .item took (inductionHypothesis second)

/-- A loop that has ended has taken the items within as many turns. -/
theorem Takes.run (takes : Takes turn state items last) (ended : turn last = none)
    (enough : items.length ≤ budget) : Walk.run turn budget state = some items := by
  induction takes generalizing budget with
  | nothing _ => exact run_of_ended ended
  | item took _ inductionHypothesis =>
      cases budget with
      | zero => cases enough
      | succ budget =>
          rw [run_of_took took, inductionHypothesis ended (Nat.le_of_succ_le_succ enough)]
          rfl

end Walk
