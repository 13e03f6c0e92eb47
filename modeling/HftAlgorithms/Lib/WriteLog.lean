/-
Module: HftAlgorithms.Lib.WriteLog
Purpose: What a loop puts into memory while it reads a stream piece by piece: the
  writes lie end to end, come to one write of what has been delivered, and stay
  below a bound just if that does.
Trusted boundary: none
Main exports: MemoryWrite, MemoryWrite.applyAll, ChunkedStream.readInto,
  ChunkedStream.applyAll_readInto, ChunkedStream.readInto_below_iff
-/
import HftAlgorithms.Lib.ChunkedStream

/-- Some items, put into memory one after the other. -/
structure MemoryWrite (α : Type*) where
  offset : Nat
  items : List α
deriving DecidableEq

namespace MemoryWrite

variable {α : Type*}

/-- The first place behind the items. -/
def limit (write : MemoryWrite α) : Nat := write.offset + write.items.length

def apply (memory : Nat → α) (write : MemoryWrite α) : Nat → α :=
  fun index =>
    if index < write.offset then memory index
    else write.items.getD (index - write.offset) (memory index)

def applyAll (memory : Nat → α) (writes : List (MemoryWrite α)) : Nat → α :=
  writes.foldl apply memory

@[simp] theorem applyAll_nil (memory : Nat → α) : applyAll memory [] = memory := rfl

@[simp] theorem applyAll_cons (memory : Nat → α) (write : MemoryWrite α)
    (writes : List (MemoryWrite α)) :
    applyAll memory (write :: writes) = applyAll (apply memory write) writes := rfl

@[simp] theorem apply_nil (memory : Nat → α) (offset : Nat) :
    apply memory ⟨offset, []⟩ = memory := by
  funext index
  simp [apply]

/-- Two writes that lie end to end are one. -/
theorem apply_append (memory : Nat → α) (offset : Nat) (first second : List α) :
    apply (apply memory ⟨offset, first⟩) ⟨offset + first.length, second⟩ =
      apply memory ⟨offset, first ++ second⟩ := by
  funext index
  by_cases before : index < offset
  · have beforeBoth : index < offset + first.length := Nat.lt_add_right _ before
    simp [apply, before, beforeBoth]
  · by_cases within : index < offset + first.length
    · have place : index - offset < first.length := by omega
      simp [apply, before, within, List.getD_eq_getElem?_getD, List.getElem?_append_left place]
    · have place : first.length ≤ index - offset := by omega
      have rest : index - offset - first.length = index - (offset + first.length) := by omega
      simp [apply, before, within, List.getD_eq_getElem?_getD, List.getElem?_append_right place,
        List.getElem?_eq_none place, rest]

theorem apply_zero (memory : Nat → α) (items : List α) (index : Nat) :
    apply memory ⟨0, items⟩ index = items.getD index (memory index) := by
  simp [apply]

end MemoryWrite

namespace ChunkedStream

variable {α : Type*}

/-- The writes of a loop that asks on until all the missing items have come: each piece is put
behind the one before. -/
def readInto (offset missing : Nat) (stream : ChunkedStream α) : List (MemoryWrite α) :=
  if missing = 0 then []
  else
    if _ : (stream.recv missing).1.length = 0 then []
    else
      let got := stream.recv missing
      ⟨offset, got.1⟩ :: readInto (offset + got.1.length) (missing - got.1.length) got.2
termination_by missing
decreasing_by
  have asked := length_recv_le missing stream
  omega

theorem readInto_turn {offset missing : Nat} {stream : ChunkedStream α}
    (some_missing : missing ≠ 0) (goesOn : stream.items ≠ []) :
    stream.readInto offset missing =
      let got := stream.recv missing
      ⟨offset, got.1⟩ :: readInto (offset + got.1.length) (missing - got.1.length) got.2 := by
  have delivered : (stream.recv missing).1.length ≠ 0 := by
    simpa [recv_eq_nil_iff some_missing] using goesOn
  rw [readInto, if_neg some_missing]
  exact dif_neg delivered

/-- Nothing is written where nothing is missing or nothing comes. -/
theorem readInto_of_none {offset missing : Nat} {stream : ChunkedStream α}
    (nothing : missing = 0 ∨ stream.items = []) : stream.readInto offset missing = [] := by
  rw [readInto]
  split
  · rfl
  · rename_i some_missing
    have ended := (recv_eq_nil_iff some_missing stream).mpr (nothing.resolve_left some_missing)
    simp [ended]

/-- What a turn delivers and what the later ones may, together. -/
theorem take_recv (missing : Nat) (stream : ChunkedStream α) :
    stream.items.take missing =
      (stream.recv missing).1 ++
        (stream.recv missing).2.items.take (missing - (stream.recv missing).1.length) := by
  rw [← recv_append missing stream, List.take_append,
    List.take_of_length_le (length_recv_le missing stream)]

/-- The writes together put what has been delivered at the offset. -/
theorem applyAll_readInto (memory : Nat → α) (offset missing : Nat) (stream : ChunkedStream α) :
    MemoryWrite.applyAll memory (stream.readInto offset missing) =
      MemoryWrite.apply memory ⟨offset, stream.items.take missing⟩ := by
  induction missing using Nat.strongRecOn generalizing memory offset stream with
  | ind missing inductionHypothesis =>
      by_cases nothing : missing = 0 ∨ stream.items = []
      · rw [readInto_of_none nothing]
        rcases nothing with rfl | ended
        · simp
        · simp [ended]
      · rw [not_or] at nothing
        have delivered : (stream.recv missing).1.length ≠ 0 := by
          simpa [recv_eq_nil_iff nothing.1] using nothing.2
        rw [readInto_turn nothing.1 nothing.2, MemoryWrite.applyAll_cons,
          inductionHypothesis _ (by omega), MemoryWrite.apply_append, ← take_recv]

/-- All of them end by a bound just if what is delivered does. -/
theorem readInto_below_iff {offset missing bound : Nat} {stream : ChunkedStream α}
    (room : offset ≤ bound) :
    (∀ write ∈ stream.readInto offset missing, write.limit ≤ bound) ↔
      offset + min missing stream.items.length ≤ bound := by
  induction missing using Nat.strongRecOn generalizing offset stream with
  | ind missing inductionHypothesis =>
      by_cases nothing : missing = 0 ∨ stream.items = []
      · rw [readInto_of_none nothing]
        rcases nothing with rfl | ended
        · simpa using room
        · simpa [ended] using room
      · rw [not_or] at nothing
        have delivered : (stream.recv missing).1.length ≠ 0 := by
          simpa [recv_eq_nil_iff nothing.1] using nothing.2
        have asked := length_recv_le missing stream
        have lengths := congrArg List.length (recv_append missing stream)
        rw [List.length_append] at lengths
        rw [readInto_turn nothing.1 nothing.2, List.forall_mem_cons]
        simp only [MemoryWrite.limit]
        constructor
        · rintro ⟨first, later⟩
          have rest := (inductionHypothesis _ (by omega) first).mp later
          omega
        · intro below
          have first : offset + (stream.recv missing).1.length ≤ bound := by omega
          exact ⟨first, (inductionHypothesis _ (by omega) first).mpr (by omega)⟩

end ChunkedStream
