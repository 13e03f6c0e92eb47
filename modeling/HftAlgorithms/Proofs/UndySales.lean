/-
Module: HftAlgorithms.Proofs.UndySales
Purpose: How long step 5 of the creation arb lasts.  The loop over the UNDY sells
  counts an attempt only where it finds a bid, so its limit of five attempts bounds
  the turns with a bid and no others.
Trusted boundary: none
Main exports: Run.sellLoop, Run.SalesEnded, Run.sellUndy_isSome_iff,
  Run.sellLoop_ends_within_iff
-/
import HftAlgorithms.Proofs.BotRuns
import Mathlib.Data.Nat.Count
import Mathlib.Data.Nat.Find

namespace HftAlgorithms

namespace Run

/-! ### The loop over its readings -/

/-- Step 5, with nothing but what it reads: `bids turn` and `positions turn` are the readings of a
turn, the position being read before the turn begins.  The number of turns taken; `none` when the
loop has not ended after `fuel` tests. -/
def sellLoop (bids positions : Nat → Int32) : Nat → Nat → Nat → Option Nat
  | 0, _, _ => none
  | fuel + 1, turn, attempts =>
      if positions turn > 0 ∧ attempts < 5 then
        if bids turn ≤ 0 then sellLoop bids positions fuel (turn + 1) attempts
        else sellLoop bids positions fuel (turn + 1) (attempts + 1)
      else some turn

/-- The loop has ended within so many turns. -/
def EndsWithin (bids positions : Nat → Int32) (limit : Nat) : Prop :=
  ∃ turns, turns ≤ limit ∧ sellLoop bids positions (limit + 1) 0 0 = some turns

/-- Before a turn the position is gone, or five turns have found a bid. -/
def SalesEnded (bids positions : Nat → Int32) (turn : Nat) : Prop :=
  positions turn ≤ 0 ∨ 5 ≤ Nat.count (fun earlier => bids earlier > 0) turn

section Readings

variable (bids positions : Nat → Int32)

theorem salesEnded_iff (turn : Nat) :
    SalesEnded bids positions turn ↔
      ¬ (positions turn > 0 ∧ Nat.count (fun earlier => bids earlier > 0) turn < 5) := by
  rw [SalesEnded, not_and_or, Nat.not_lt, gt_iff_lt, Int32.not_lt]

/-- A turn with a bid is an attempt, a turn without one is none. -/
theorem count_succ (turn : Nat) :
    Nat.count (fun earlier => bids earlier > 0) (turn + 1) =
      if bids turn ≤ 0 then Nat.count (fun earlier => bids earlier > 0) turn
      else Nat.count (fun earlier => bids earlier > 0) turn + 1 := by
  rw [Nat.count_succ]
  by_cases missing : bids turn ≤ 0
  · simp [missing]
  · simp [missing]

/-- The loop stops at the first turn at which the sales have ended. -/
theorem sellLoop_eq_some_iff (fuel turn last : Nat) :
    sellLoop bids positions fuel turn (Nat.count (fun earlier => bids earlier > 0) turn) =
        some last ↔
      turn ≤ last ∧ last < turn + fuel ∧ SalesEnded bids positions last ∧
        ∀ earlier, turn ≤ earlier → earlier < last → ¬ SalesEnded bids positions earlier := by
  induction fuel generalizing turn with
  | zero =>
      rw [sellLoop]
      constructor
      · intro impossible
        cases impossible
      · rintro ⟨above, below, -⟩
        omega
  | succ fuel inductionHypothesis =>
      by_cases ended : SalesEnded bids positions turn
      · rw [sellLoop, if_neg ((salesEnded_iff bids positions turn).mp ended)]
        constructor
        · intro same
          cases same
          exact ⟨Nat.le_refl _, by omega, ended, fun earlier above below => by omega⟩
        · rintro ⟨above, -, -, first⟩
          rcases Nat.eq_or_lt_of_le above with rfl | later
          · rfl
          · exact absurd ended (first turn (Nat.le_refl _) later)
      · have goesOn := not_not.mp ((salesEnded_iff bids positions turn).not.mp ended)
        have rest : sellLoop bids positions (fuel + 1) turn
            (Nat.count (fun earlier => bids earlier > 0) turn) =
              sellLoop bids positions fuel (turn + 1)
                (Nat.count (fun earlier => bids earlier > 0) (turn + 1)) := by
          rw [sellLoop, if_pos goesOn, count_succ]
          split <;> rfl
        rw [rest, inductionHypothesis]
        constructor
        · rintro ⟨above, below, there, first⟩
          refine ⟨by omega, by omega, there, ?_⟩
          intro earlier from_ before
          rcases Nat.eq_or_lt_of_le from_ with rfl | later
          · exact ended
          · exact first earlier later before
        · rintro ⟨above, below, there, first⟩
          have later : turn ≠ last := by
            rintro rfl
            exact ended there
          exact ⟨by omega, by omega, there, fun earlier after => first earlier (by omega)⟩

end Readings

/-! ### The loop of the bot -/

/-- What one turn of `sellUndy` does to the run. -/
def sellTurn (world : World) (run : Run) : Run :=
  if run.bestBid world SYM_UNDY ≤ 0 then run.quoted
  else (run.quoted.sendNewOrder world SYM_UNDY .SELL (run.getPosition SYM_UNDY).toUInt32
    (run.bestBid world SYM_UNDY)).1

/-- The bids that the turns from here on would read. -/
def bidReadings (world : World) (run : Run) (turn : Nat) : Int32 :=
  ((sellTurn world)^[turn] run).bestBid world SYM_UNDY

/-- The positions that they would begin with. -/
def positionReadings (world : World) (run : Run) (turn : Nat) : Int32 :=
  ((sellTurn world)^[turn] run).getPosition SYM_UNDY

theorem sellUndy_succ (world : World) (run : Run) (fuel attempts : Nat) :
    sellUndy world (fuel + 1) attempts (run.getPosition SYM_UNDY) run =
      if run.getPosition SYM_UNDY > 0 ∧ attempts < 5 then
        sellUndy world fuel (if run.bestBid world SYM_UNDY ≤ 0 then attempts else attempts + 1)
          ((run.sellTurn world).getPosition SYM_UNDY) (run.sellTurn world)
      else (run, some ()) := by
  rw [sellUndy]
  split
  · dsimp only
    by_cases missing : run.bestBid world SYM_UNDY ≤ 0
    · simp only [sellTurn, if_pos missing]
    · simp only [sellTurn, if_neg missing]
  · rfl

/-- Step 5 of the bot ends exactly as the loop over its own readings does. -/
theorem sellUndy_isSome_iff (world : World) (run : Run) (fuel turn attempts : Nat) :
    (sellUndy world fuel attempts (run.positionReadings world turn)
        ((sellTurn world)^[turn] run)).2.isSome =
      (sellLoop (run.bidReadings world) (run.positionReadings world) fuel turn
        attempts).isSome := by
  induction fuel generalizing turn attempts with
  | zero => rfl
  | succ fuel inductionHypothesis =>
      have advanced : sellTurn world ((sellTurn world)^[turn] run) =
          (sellTurn world)^[turn + 1] run := (Function.iterate_succ_apply' _ _ _).symm
      have step := sellUndy_succ world ((sellTurn world)^[turn] run) fuel attempts
      rw [advanced] at step
      apply (congrArg (fun done : Run × Option Unit => done.2.isSome) step).trans
      rw [sellLoop]
      by_cases goesOn : run.positionReadings world turn > 0 ∧ attempts < 5
      · have goesOnHere : ((sellTurn world)^[turn] run).getPosition SYM_UNDY > 0 ∧ attempts < 5 :=
          goesOn
        rw [if_pos goesOnHere, if_pos goesOn]
        apply (inductionHypothesis (turn + 1) _).trans
        by_cases missing : run.bidReadings world turn ≤ 0
        · have missingHere : ((sellTurn world)^[turn] run).bestBid world SYM_UNDY ≤ 0 := missing
          rw [if_pos missingHere, if_pos missing]
        · have foundHere : ¬ ((sellTurn world)^[turn] run).bestBid world SYM_UNDY ≤ 0 := missing
          rw [if_neg foundHere, if_neg missing]
      · have endsHere : ¬ (((sellTurn world)^[turn] run).getPosition SYM_UNDY > 0 ∧ attempts < 5) :=
          goesOn
        rw [if_neg endsHere, if_neg goesOn]
        rfl

/-! ### The bound -/

theorem endsWithin_iff (bids positions : Nat → Int32) (limit : Nat) :
    EndsWithin bids positions limit ↔ ∃ turn, turn ≤ limit ∧ SalesEnded bids positions turn := by
  classical
  have stops := sellLoop_eq_some_iff bids positions (limit + 1) 0
  rw [Nat.count_zero] at stops
  constructor
  · rintro ⟨turns, within, ended⟩
    exact ⟨turns, within, ((stops turns).mp ended).2.2.1⟩
  · rintro ⟨turn, within, ended⟩
    have some_turn : ∃ turn, SalesEnded bids positions turn := ⟨turn, ended⟩
    have earliest := Nat.find_min' some_turn ended
    refine ⟨Nat.find some_turn, by omega, (stops _).mpr ⟨Nat.zero_le _, by omega,
      Nat.find_spec some_turn, ?_⟩⟩
    intro earlier _ before
    exact Nat.find_min some_turn before

/-- Step 5 ends within a number of turns exactly if within that number the position is gone or five
turns have found a bid; and so does the bot's own loop, on what it reads. -/
theorem sellLoop_ends_within_iff (limit : Nat) :
    (∀ bids positions, EndsWithin bids positions limit ↔
      ∃ turn, turn ≤ limit ∧ SalesEnded bids positions turn) ∧
    ∀ world run,
      (sellUndy world (limit + 1) 0 (run.getPosition SYM_UNDY) run).2.isSome ↔
        EndsWithin (run.bidReadings world) (run.positionReadings world) limit := by
  refine ⟨fun bids positions => endsWithin_iff bids positions limit, ?_⟩
  intro world run
  have same : (sellUndy world (limit + 1) 0 (run.getPosition SYM_UNDY) run).2.isSome =
      (sellLoop (run.bidReadings world) (run.positionReadings world) (limit + 1) 0 0).isSome :=
    sellUndy_isSome_iff world run (limit + 1) 0 0
  rw [same, Option.isSome_iff_exists]
  constructor
  · rintro ⟨turns, ended⟩
    have stops := sellLoop_eq_some_iff (run.bidReadings world) (run.positionReadings world)
      (limit + 1) 0 turns
    rw [Nat.count_zero] at stops
    have within := (stops.mp ended).2.1
    exact ⟨turns, by omega, ended⟩
  · rintro ⟨turns, -, ended⟩
    exact ⟨turns, ended⟩

/-- Nobody bids for anything. -/
def bidless : World := { secondsWorld with bestBidPrice := fun _ _ => 0 }

/-- A bot that the service has just given nine UNDY. -/
def longUndy : Run :=
  Run.new { loggedInBot with manager := SymbolManager.empty.onFill SYM_UNDY .BUY 9 1000 } []

theorem sellUndy_bidless (fuel : Nat) {run : Run} (long : run.getPosition SYM_UNDY > 0) :
    (sellUndy bidless fuel 0 (run.getPosition SYM_UNDY) run).2 = none := by
  induction fuel generalizing run with
  | zero => rfl
  | succ fuel inductionHypothesis =>
      have missing : run.bestBid bidless SYM_UNDY ≤ 0 := Int32.le_refl 0
      have stays : (run.sellTurn bidless).getPosition SYM_UNDY > 0 := by
        rw [sellTurn, if_pos missing]
        exact long
      rw [sellUndy_succ, if_pos ⟨long, by decide⟩, if_pos missing]
      exact inductionHypothesis stays

/-- Without a bid the loop makes no attempt, and a long position keeps it going for ever: on
readings that never change, and in a run of the bot. -/
theorem sellLoop_without_bids :
    (∀ limit, ¬ EndsWithin (fun _ => 0) (fun _ => 9) limit) ∧
    ∀ fuel, (sellUndy bidless fuel 0 (longUndy.getPosition SYM_UNDY) longUndy).2 = none := by
  constructor
  · intro limit ends
    obtain ⟨turn, -, ended⟩ := (endsWithin_iff _ _ limit).mp ends
    rcases ended with flat | attempted
    · have flat : (9 : Int32) ≤ 0 := flat
      exact absurd flat (by decide)
    · simp at attempted
  · intro fuel
    have long : longUndy.getPosition SYM_UNDY > 0 := by decide
    exact sellUndy_bidless fuel long

end Run

end HftAlgorithms
