/-
Module: HftAlgorithms.Lib.StateMachine
Purpose: Runs of a deterministic machine over a list of inputs: what a whole run
  keeps when every step keeps it, and what a run emits.
Trusted boundary: none
Main exports: StateMachine.Along, StateMachine.invariant_foldl,
  StateMachine.invariant_everywhere, StateMachine.everywhere_iff_along,
  StateMachine.exists_added_trans, StateMachine.related_foldl,
  StateMachine.exists_of_not_along, StateMachine.measure_foldl,
  StateMachine.emitted, StateMachine.emitted_append_held, StateMachine.MarksAtOnce,
  StateMachine.exists_round_of_mark
-/
import Mathlib.Data.List.Infix
import Mathlib.Algebra.BigOperators.Group.List.Basic

namespace StateMachine

variable {σ ι ο : Type*}

/-!
A machine is its step function `next`; the state after a run is
`List.foldl next`.  `Along` speaks about every step of a run together with the
state that step starts in, so an assumption on the environment ("this input
never comes in that state") is one `Along` hypothesis.
-/

/-- Every step of the run, taken from the state it starts in, satisfies `allowed`. -/
def Along (next : σ → ι → σ) (allowed : σ → ι → Prop) : σ → List ι → Prop
  | _, [] => True
  | state, input :: inputs =>
      allowed state input ∧ Along next allowed (next state input) inputs

instance decidableAlong (next : σ → ι → σ) (allowed : σ → ι → Prop)
    [decidableStep : ∀ state input, Decidable (allowed state input)] :
    ∀ (state : σ) (inputs : List ι), Decidable (Along next allowed state inputs)
  | _, [] => isTrue trivial
  | state, input :: inputs =>
      have := decidableAlong next allowed (next state input) inputs
      inferInstanceAs (Decidable (_ ∧ _))

/-- Everything a run emits, in order. -/
def emitted (next : σ → ι → σ) (emit : σ → ι → List ο) : σ → List ι → List ο
  | _, [] => []
  | state, input :: inputs => emit state input ++ emitted next emit (next state input) inputs

section Along

variable {next : σ → ι → σ} {allowed weaker : σ → ι → Prop} {invariant : σ → Prop}

@[simp] theorem along_nil (state : σ) : Along next allowed state [] := trivial

@[simp] theorem along_cons (state : σ) (input : ι) (inputs : List ι) :
    Along next allowed state (input :: inputs) ↔
      allowed state input ∧ Along next allowed (next state input) inputs := Iff.rfl

theorem along_append (state : σ) (first second : List ι) :
    Along next allowed state (first ++ second) ↔
      Along next allowed state first ∧ Along next allowed (first.foldl next state) second := by
  induction first generalizing state with
  | nil => simp
  | cons input inputs inductionHypothesis =>
      simp [inductionHypothesis, and_assoc]

/-- Two stretches of a logged run make one. -/
theorem exists_added_trans {log later last : List ι} {first second third : σ}
    (one : ∃ added, later = log ++ added ∧ second = added.foldl next first ∧
      Along next allowed first added)
    (two : ∃ added, last = later ++ added ∧ third = added.foldl next second ∧
      Along next allowed second added) :
    ∃ added, last = log ++ added ∧ third = added.foldl next first ∧
      Along next allowed first added := by
  obtain ⟨added, grown, reached, along⟩ := one
  obtain ⟨more, grownAgain, reachedAgain, alongAgain⟩ := two
  refine ⟨added ++ more, ?_, ?_, ?_⟩
  · rw [grownAgain, grown, List.append_assoc]
  · rw [reachedAgain, reached, List.foldl_append]
  · rw [reached] at alongAgain
    exact (along_append _ _ _).mpr ⟨along, alongAgain⟩

/-- A prefix of an allowed run is allowed. -/
theorem Along.earlier {state : σ} {earlier inputs : List ι}
    (run : Along next allowed state inputs) (isPrefix : earlier <+: inputs) :
    Along next allowed state earlier := by
  obtain ⟨later, rfl⟩ := isPrefix
  exact ((along_append state earlier later).mp run).1

/-- Every input of an allowed run is allowed somewhere. -/
theorem Along.exists_of_mem {state : σ} {inputs : List ι} (run : Along next allowed state inputs)
    {input : ι} (member : input ∈ inputs) : ∃ before, allowed before input := by
  induction inputs generalizing state with
  | nil => exact absurd member List.not_mem_nil
  | cons first inputs inductionHypothesis =>
      rcases List.mem_cons.mp member with rfl | later
      · exact ⟨state, run.1⟩
      · exact inductionHypothesis run.2 later

/-- A property of every state on the way is a property of the start and of each step's result. -/
theorem along_of_prefixes {property : σ → Prop} {state : σ} {inputs : List ι}
    (everywhere : ∀ earlier, earlier <+: inputs → property (earlier.foldl next state)) :
    Along next (fun before input => property (next before input)) state inputs := by
  induction inputs generalizing state with
  | nil => trivial
  | cons input inputs inductionHypothesis =>
      refine ⟨everywhere [input] ⟨inputs, rfl⟩, inductionHypothesis ?_⟩
      intro earlier isPrefix
      exact everywhere (input :: earlier) (List.cons_prefix_cons.mpr ⟨rfl, isPrefix⟩)

/-- Two conditions along one run. -/
theorem Along.and {also : σ → ι → Prop} {state : σ} {inputs : List ι}
    (run : Along next allowed state inputs) (other : Along next also state inputs) :
    Along next (fun before input => allowed before input ∧ also before input) state inputs := by
  induction inputs generalizing state with
  | nil => trivial
  | cons input inputs inductionHypothesis =>
      exact ⟨⟨run.1, other.1⟩, inductionHypothesis run.2 other.2⟩

/-- What is known of every input joins what is allowed at every step. -/
theorem Along.and_inputs {property : ι → Prop} {state : σ} {inputs : List ι}
    (run : Along next allowed state inputs) (every : ∀ input ∈ inputs, property input) :
    Along next (fun before input => property input ∧ allowed before input) state inputs := by
  induction inputs generalizing state with
  | nil => trivial
  | cons input inputs inductionHypothesis =>
      refine ⟨⟨every input List.mem_cons_self, run.1⟩, inductionHypothesis run.2 ?_⟩
      intro later member
      exact every later (List.mem_cons_of_mem _ member)

/-- What holds of every input holds along the run. -/
theorem along_of_forall {property : ι → Prop} {state : σ} {inputs : List ι}
    (every : ∀ input ∈ inputs, property input) :
    Along next (fun _ input => property input) state inputs := by
  induction inputs generalizing state with
  | nil => trivial
  | cons input inputs inductionHypothesis =>
      refine ⟨every input List.mem_cons_self, inductionHypothesis ?_⟩
      intro later member
      exact every later (List.mem_cons_of_mem _ member)

/-- An invariant of every allowed step is an invariant of every allowed run. -/
theorem invariant_foldl
    (step : ∀ state input, invariant state → allowed state input → invariant (next state input))
    {state : σ} {inputs : List ι} (initial : invariant state)
    (run : Along next allowed state inputs) : invariant (inputs.foldl next state) := by
  induction inputs generalizing state with
  | nil => exact initial
  | cons input inputs inductionHypothesis =>
      exact inductionHypothesis (step state input initial run.1) run.2

/-- The same in every state on the way. -/
theorem invariant_everywhere
    (step : ∀ state input, invariant state → allowed state input → invariant (next state input))
    {state : σ} {inputs : List ι} (initial : invariant state)
    (run : Along next allowed state inputs) :
    ∀ earlier, earlier <+: inputs → invariant (earlier.foldl next state) := by
  intro earlier isPrefix
  exact invariant_foldl step initial (run.earlier isPrefix)

/-- Two machines that take the same inputs stay related if every allowed step of the one keeps the
relation. -/
theorem related_foldl {τ : Type*} {follow : τ → ι → τ} {related : σ → τ → Prop}
    (step : ∀ state other input, related state other → allowed state input →
      related (next state input) (follow other input))
    {state : σ} {other : τ} {inputs : List ι} (initial : related state other)
    (run : Along next allowed state inputs) :
    related (inputs.foldl next state) (inputs.foldl follow other) := by
  induction inputs generalizing state other with
  | nil => exact initial
  | cons input inputs inductionHypothesis =>
      exact inductionHypothesis (step state other input initial run.1) run.2

/-- A run with a step that is not allowed comes to such a step. -/
theorem exists_of_not_along {state : σ} {inputs : List ι}
    (breach : ¬ Along next allowed state inputs) :
    ∃ earlier input later, inputs = earlier ++ input :: later ∧
      ¬ allowed (earlier.foldl next state) input := by
  induction inputs generalizing state with
  | nil => exact absurd trivial breach
  | cons first inputs inductionHypothesis =>
      by_cases here : allowed state first
      · have later : ¬ Along next allowed (next state first) inputs :=
          fun run => breach ⟨here, run⟩
        obtain ⟨earlier, input, rest, split, refused⟩ := inductionHypothesis later
        exact ⟨first :: earlier, input, rest, by rw [split, List.cons_append], refused⟩
      · exact ⟨[], first, inputs, rfl, here⟩

/-- An invariant that needs no assumption on the inputs. -/
theorem invariant_foldl_always
    (step : ∀ state input, invariant state → invariant (next state input))
    {state : σ} (initial : invariant state) (inputs : List ι) :
    invariant (inputs.foldl next state) := by
  induction inputs generalizing state with
  | nil => exact initial
  | cons input inputs inductionHypothesis =>
      exact inductionHypothesis (step state input initial)

/-- Where allowed steps keep an invariant that implies a property, and a step that is not allowed
breaks the property, the property holds along a run exactly when every step is allowed.  The inputs
may all be known to be `good`. -/
theorem everywhere_iff_along_of_inputs {property : σ → Prop} {good : ι → Prop}
    (implies : ∀ state, invariant state → property state)
    (step : ∀ state input, good input → invariant state → allowed state input →
      invariant (next state input))
    (breaks : ∀ state input, good input → invariant state → property (next state input) →
      allowed state input)
    {state : σ} (initial : invariant state) {inputs : List ι}
    (every : ∀ input ∈ inputs, good input) :
    (∀ earlier, earlier <+: inputs → property (earlier.foldl next state)) ↔
      Along next allowed state inputs := by
  constructor
  · intro everywhere
    induction inputs generalizing state with
    | nil => trivial
    | cons input inputs inductionHypothesis =>
        have here := every input List.mem_cons_self
        have first := breaks state input here initial (everywhere [input] ⟨inputs, rfl⟩)
        refine ⟨first, inductionHypothesis (step state input here initial first)
          (fun later member => every later (List.mem_cons_of_mem _ member)) ?_⟩
        intro earlier isPrefix
        exact everywhere (input :: earlier) (List.cons_prefix_cons.mpr ⟨rfl, isPrefix⟩)
  · intro run earlier isPrefix
    refine implies _ (invariant_foldl ?_ initial ((run.earlier isPrefix).and_inputs
      fun input member => every input (isPrefix.subset member)))
    intro before input kept here
    exact step before input here.1 kept here.2

/-- The same where nothing is known of the inputs. -/
theorem everywhere_iff_along {property : σ → Prop}
    (implies : ∀ state, invariant state → property state)
    (step : ∀ state input, invariant state → allowed state input → invariant (next state input))
    (breaks : ∀ state input, invariant state → property (next state input) → allowed state input)
    {state : σ} (initial : invariant state) (inputs : List ι) :
    (∀ earlier, earlier <+: inputs → property (earlier.foldl next state)) ↔
      Along next allowed state inputs :=
  everywhere_iff_along_of_inputs implies (fun state input (_ : True) => step state input)
    (fun state input _ => breaks state input) initial (fun _ _ => trivial)

/-- What an invariant gives at one step, it gives at every step of a run. -/
theorem Along.of_invariant
    (step : ∀ state input, invariant state → allowed state input → invariant (next state input))
    (here : ∀ state input, invariant state → allowed state input → weaker state input)
    {state : σ} {inputs : List ι} (initial : invariant state)
    (run : Along next allowed state inputs) : Along next weaker state inputs := by
  induction inputs generalizing state with
  | nil => trivial
  | cons input inputs inductionHypothesis =>
      exact ⟨here state input initial run.1,
        inductionHypothesis (step state input initial run.1) run.2⟩

/-- The same for an invariant that needs no assumption on the inputs. -/
theorem along_of_invariant_always
    (step : ∀ state input, invariant state → invariant (next state input))
    (here : ∀ state input, invariant state → allowed state input)
    {state : σ} (initial : invariant state) (inputs : List ι) :
    Along next allowed state inputs := by
  induction inputs generalizing state with
  | nil => trivial
  | cons input inputs inductionHypothesis =>
      exact ⟨here state input initial, inductionHypothesis (step state input initial)⟩

/-- Two conditions that agree wherever the invariant holds agree along every run, if the invariant
lasts as long as they do. -/
theorem along_congr_of_invariant {also : σ → ι → Prop}
    (step : ∀ state input, invariant state → allowed state input → invariant (next state input))
    (agree : ∀ state input, invariant state → (allowed state input ↔ also state input))
    {state : σ} (initial : invariant state) (inputs : List ι) :
    Along next allowed state inputs ↔ Along next also state inputs := by
  induction inputs generalizing state with
  | nil => exact Iff.rfl
  | cons input inputs inductionHypothesis =>
      rw [along_cons, along_cons, ← agree state input initial]
      exact and_congr_right fun here => inductionHypothesis (step state input initial here)

/-- A machine that carries more state runs as its projection does. -/
theorem along_project {τ : Type*} {nextMore : τ → ι → τ} {project : τ → σ}
    (commutes : ∀ state input, project (nextMore state input) = next (project state) input)
    (state : τ) (inputs : List ι) :
    Along nextMore (fun before input => allowed (project before) input) state inputs ↔
      Along next allowed (project state) inputs := by
  induction inputs generalizing state with
  | nil => exact Iff.rfl
  | cons input inputs inductionHypothesis =>
      rw [along_cons, along_cons, inductionHypothesis, commutes]

/-- A measure that each allowed step moves by the step's own gain is, after an allowed run, moved
by the sum of the gains. -/
theorem measure_foldl {M : Type*} [AddCommMonoid M] {measure : σ → M} {gain : ι → M}
    (step : ∀ state input, invariant state → allowed state input → invariant (next state input))
    (moves : ∀ state input, invariant state → allowed state input →
      measure (next state input) = measure state + gain input)
    {state : σ} {inputs : List ι} (initial : invariant state)
    (run : Along next allowed state inputs) :
    measure (inputs.foldl next state) = measure state + (inputs.map gain).sum := by
  induction inputs generalizing state with
  | nil => simp
  | cons input inputs inductionHypothesis =>
      rw [List.foldl_cons, inductionHypothesis (step state input initial run.1) run.2,
        moves state input initial run.1, List.map_cons, List.sum_cons, add_assoc]

end Along

section Emitted

variable (next : σ → ι → σ) (emit : σ → ι → List ο)

@[simp] theorem emitted_nil (state : σ) : emitted next emit state [] = [] := rfl

@[simp] theorem emitted_cons (state : σ) (input : ι) (inputs : List ι) :
    emitted next emit state (input :: inputs) =
      emit state input ++ emitted next emit (next state input) inputs := rfl

theorem emitted_append (state : σ) (first second : List ι) :
    emitted next emit state (first ++ second) =
      emitted next emit state first ++ emitted next emit (first.foldl next state) second := by
  induction first generalizing state with
  | nil => rfl
  | cons input inputs inductionHypothesis =>
      rw [List.cons_append, emitted_cons, emitted_cons, inductionHypothesis, List.append_assoc,
        List.foldl_cons]

/-- A property of what each step emits holds of everything the run emits. -/
theorem emitted_forall {next : σ → ι → σ} {emit : σ → ι → List ο} {property : ο → Prop}
    {state : σ} {inputs : List ι}
    (steps : Along next (fun state input => ∀ output ∈ emit state input, property output)
      state inputs) :
    ∀ output ∈ emitted next emit state inputs, property output := by
  induction inputs generalizing state with
  | nil => simp
  | cons input inputs inductionHypothesis =>
      intro output member
      rcases List.mem_append.mp member with here | later
      · exact steps.1 output here
      · exact inductionHypothesis steps.2 output later

/-- Two machines that go the same way and emit related things at each step do so over a run. -/
theorem emitted_forall₂ {κ : Type*} {next follow : σ → ι → σ} {emit : σ → ι → List ο}
    {other : σ → ι → List κ} {related : ο → κ → Prop}
    (same : ∀ state input, next state input = follow state input)
    (step : ∀ state input, List.Forall₂ related (emit state input) (other state input))
    (state : σ) (inputs : List ι) :
    List.Forall₂ related (emitted next emit state inputs) (emitted follow other state inputs) := by
  induction inputs generalizing state with
  | nil => exact List.Forall₂.nil
  | cons input inputs inductionHypothesis =>
      have later := inductionHypothesis (next state input)
      rw [emitted_cons, emitted_cons, ← same]
      exact List.rel_append (step state input) later

/-- What is picked out of everything a run emits is picked out at each step. -/
theorem filterMap_emitted {κ : Type*} (pick : ο → Option κ) (state : σ) (inputs : List ι) :
    (emitted next emit state inputs).filterMap pick =
      emitted next (fun state input => (emit state input).filterMap pick) state inputs := by
  induction inputs generalizing state with
  | nil => rfl
  | cons input inputs inductionHypothesis =>
      rw [emitted_cons, emitted_cons, List.filterMap_append, inductionHypothesis]

/-- A machine that passes on what arrives or holds it back, first in and first out, at every step
does so over a run: nothing is lost, nothing comes twice and nothing overtakes. -/
theorem emitted_append_held {next : σ → ι → σ} {emit : σ → ι → List ο} {allowed : σ → ι → Prop}
    {invariant : σ → Prop} {held : σ → List ο} {arrive : ι → List ο}
    (step : ∀ state input, invariant state → allowed state input → invariant (next state input))
    (conserves : ∀ state input, invariant state → allowed state input →
      emit state input ++ held (next state input) = held state ++ arrive input)
    {state : σ} {inputs : List ι} (initial : invariant state)
    (run : Along next allowed state inputs) :
    emitted next emit state inputs ++ held (inputs.foldl next state) =
      held state ++ inputs.flatMap arrive := by
  induction inputs generalizing state with
  | nil => simp
  | cons input inputs inductionHypothesis =>
      have here := conserves state input initial run.1
      have later := inductionHypothesis (step state input initial run.1) run.2
      rw [emitted_cons, List.foldl_cons, List.append_assoc, later, ← List.append_assoc, here,
        List.flatMap_cons, List.append_assoc]

end Emitted

/-! ### Marks in a log

A loop goes on round by round and appends to a log.  Where a mark can only be the first that a
round logs, each mark in the log shows the state in which its round began.
-/

section Marks

variable {log : σ → List ι} {mark : ι} {opening : σ → List ι → Prop} {state halfway later : σ}

/-- A mark in two lists put together is in the first or in the second. -/
theorem split_of_append {first second before behind : List ι}
    (split : first ++ second = before ++ mark :: behind) :
    (∃ rest, first = before ++ mark :: rest ∧ behind = rest ++ second) ∨
      ∃ within, before = first ++ within ∧ second = within ++ mark :: behind := by
  rcases List.append_eq_append_iff.mp split with ⟨within, head, tail⟩ | ⟨within, head, tail⟩
  · exact Or.inr ⟨within, head, tail⟩
  · cases within with
    | nil => exact Or.inr ⟨[], by simpa using head.symm, tail.symm⟩
    | cons input within =>
        obtain ⟨rfl, rfl⟩ := List.cons.inj tail
        exact Or.inl ⟨within, head, rfl⟩

/-- What is logged between two states has the mark at its beginning or not at all, and behind the
mark there is an opening of the earlier state. -/
def MarksAtOnce (log : σ → List ι) (mark : ι) (opening : σ → List ι → Prop) (state later : σ) :
    Prop :=
  ∃ added, log later = log state ++ added ∧
    ∀ before behind, added = before ++ mark :: behind → before = [] ∧ opening state behind

theorem marksAtOnce_of_not_mem {added : List ι} (grown : log later = log state ++ added)
    (absent : mark ∉ added) : MarksAtOnce log mark opening state later := by
  refine ⟨added, grown, ?_⟩
  rintro before behind rfl
  exact absurd (List.mem_append_right before List.mem_cons_self) absent

/-- The mark comes first, and no other behind it. -/
theorem marksAtOnce_of_opening {behind : List ι} (grown : log later = log state ++ mark :: behind)
    (absent : mark ∉ behind) (opens : opening state behind) :
    MarksAtOnce log mark opening state later := by
  refine ⟨mark :: behind, grown, ?_⟩
  intro before rest split
  cases before with
  | nil =>
      cases split
      exact ⟨rfl, opens⟩
  | cons input before =>
      obtain ⟨-, tail⟩ := List.cons.inj split
      exact absurd (tail ▸ List.mem_append_right before List.mem_cons_self) absent

/-- An opening is told by how the log goes on, so it does not matter what is logged later. -/
theorem MarksAtOnce.append (marks : MarksAtOnce log mark opening state halfway)
    (grows : ∀ behind more, opening state behind → opening state (behind ++ more))
    {added : List ι} (grown : log later = log halfway ++ added) (absent : mark ∉ added) :
    MarksAtOnce log mark opening state later := by
  obtain ⟨first, early, atOnce⟩ := marks
  refine ⟨first ++ added, by rw [grown, early, List.append_assoc], ?_⟩
  intro before behind split
  rcases split_of_append split with ⟨rest, within, rfl⟩ | ⟨within, -, tail⟩
  · obtain ⟨isFirst, opens⟩ := atOnce before rest within
    exact ⟨isFirst, grows rest added opens⟩
  · exact absurd (tail ▸ List.mem_append_right within List.mem_cons_self) absent

section Rounds

variable {run : Nat → σ → σ} (zero : ∀ state, run 0 state = state)
  (round : ∀ state, ∃ turned, MarksAtOnce log mark opening state turned ∧
    ((∀ rounds, run (rounds + 1) state = run rounds turned) ∨
      ∀ rounds, run (rounds + 1) state = turned))

include zero round

/-- A loop of such rounds does nothing but append to its log. -/
theorem log_of_rounds (rounds : Nat) (state : σ) :
    ∃ added, log (run rounds state) = log state ++ added := by
  induction rounds generalizing state with
  | zero => exact ⟨[], by rw [zero, List.append_nil]⟩
  | succ rounds inductionHypothesis =>
      obtain ⟨turned, ⟨first, grown, -⟩, goesOn | stops⟩ := round state
      · obtain ⟨second, grownAgain⟩ := inductionHypothesis turned
        exact ⟨first ++ second, by rw [goesOn, grownAgain, grown, List.append_assoc]⟩
      · exact ⟨first, by rw [stops, grown]⟩

/-- Each mark that the loop logs is the first that one of its rounds has logged: what stands in
front of it is the log with which that round began, and behind it there is an opening of the state
in which the round began. -/
theorem exists_round_of_mark
    (grows : ∀ state behind more, opening state behind → opening state (behind ++ more))
    {rounds : Nat} {before behind : List ι}
    (found : log (run rounds state) = log state ++ (before ++ mark :: behind)) :
    ∃ earlier < rounds, log (run earlier state) = log state ++ before ∧
      opening (run earlier state) behind := by
  induction rounds generalizing state before with
  | zero =>
      rw [zero] at found
      simp at found
  | succ rounds inductionHypothesis =>
      obtain ⟨turned, ⟨first, grown, atOnce⟩, goesOn | stops⟩ := round state
      · obtain ⟨second, grownAgain⟩ := log_of_rounds zero round rounds turned
        rw [goesOn, grownAgain, grown, List.append_assoc, List.append_cancel_left_eq] at found
        rcases split_of_append found with ⟨rest, within, rfl⟩ | ⟨within, rfl, tail⟩
        · obtain ⟨rfl, opens⟩ := atOnce before rest within
          refine ⟨0, Nat.succ_pos rounds, by rw [zero, List.append_nil], ?_⟩
          rw [zero]
          exact grows state rest second opens
        · obtain ⟨earlier, less, logged, opens⟩ :=
            inductionHypothesis (by rw [grownAgain, tail] : log (run rounds turned) =
              log turned ++ (within ++ mark :: behind))
          refine ⟨earlier + 1, Nat.succ_lt_succ less, ?_, ?_⟩
          · rw [goesOn, logged, grown, List.append_assoc]
          · rw [goesOn]
            exact opens
      · rw [stops, grown, List.append_cancel_left_eq] at found
        obtain ⟨rfl, opens⟩ := atOnce before behind found
        refine ⟨0, Nat.succ_pos rounds, by rw [zero, List.append_nil], ?_⟩
        rw [zero]
        exact opens

end Rounds

end Marks

end StateMachine
