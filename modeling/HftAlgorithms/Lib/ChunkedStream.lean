/-
Module: HftAlgorithms.Lib.ChunkedStream
Purpose: A stream that arrives in pieces, read by asking for a number of items and
  getting some of them.  Reading on until that many have come gives the same
  items however the stream was cut.
Trusted boundary: none
Main exports: ChunkedStream, ChunkedStream.items, ChunkedStream.recv,
  ChunkedStream.readExactly, ChunkedStream.readExactly_of_le,
  ChunkedStream.readExactly_of_lt, ChunkedStream.readAll,
  ChunkedStream.readAll_eq_items
-/
import Mathlib.Data.List.Basic
import Mathlib.Algebra.Order.Ring.Nat

/-- A stream that is still to come, piece by piece; no piece is empty. -/
structure ChunkedStream (α : Type*) where
  chunks : List (List α)
  nonempty : ∀ chunk ∈ chunks, chunk ≠ []

namespace ChunkedStream

variable {α : Type*}

/-- Everything that is still to come. -/
def items (stream : ChunkedStream α) : List α := stream.chunks.flatten

/-- Ask for some items: the next piece is delivered, or as much of it as was asked for.  Nothing is
delivered once the stream has ended. -/
def recv (asked : Nat) : ChunkedStream α → List α × ChunkedStream α
  | ⟨[], nonempty⟩ => ([], ⟨[], nonempty⟩)
  | ⟨chunk :: rest, nonempty⟩ =>
      if fits : chunk.length ≤ asked then
        (chunk, ⟨rest, fun later member => nonempty later (List.mem_cons_of_mem _ member)⟩)
      else
        (chunk.take asked, ⟨chunk.drop asked :: rest, by
          intro later member
          rcases List.mem_cons.mp member with rfl | within
          · simpa using fits
          · exact nonempty later (List.mem_cons_of_mem _ within)⟩)

/-- What is delivered and what is left are what was to come. -/
theorem recv_append (asked : Nat) (stream : ChunkedStream α) :
    (stream.recv asked).1 ++ (stream.recv asked).2.items = stream.items := by
  rcases stream with ⟨_ | ⟨chunk, rest⟩, nonempty⟩
  · rfl
  · rw [recv]
    split
    · rfl
    · simp [items, ← List.append_assoc]

theorem length_recv_le (asked : Nat) (stream : ChunkedStream α) :
    (stream.recv asked).1.length ≤ asked := by
  rcases stream with ⟨_ | ⟨chunk, rest⟩, nonempty⟩
  · exact Nat.zero_le asked
  · rw [recv]
    split
    · assumption
    · simp

/-- Whoever asks for something gets something, up to the end of the stream. -/
theorem recv_eq_nil_iff {asked : Nat} (some_asked : asked ≠ 0) (stream : ChunkedStream α) :
    (stream.recv asked).1 = [] ↔ stream.items = [] := by
  rcases stream with ⟨_ | ⟨chunk, rest⟩, nonempty⟩
  · simp [recv, items]
  · have first : chunk ≠ [] := nonempty chunk List.mem_cons_self
    rw [recv]
    split <;> simp [items, first, some_asked]

/-- Ask on until all the missing items have come, or the stream has ended. -/
def readExactly (missing : Nat) (stream : ChunkedStream α) :
    Option (List α) × ChunkedStream α :=
  if missing = 0 then (some [], stream)
  else
    if _ : (stream.recv missing).1.length = 0 then (none, (stream.recv missing).2)
    else
      let got := stream.recv missing
      let later := readExactly (missing - got.1.length) got.2
      (later.1.map (got.1 ++ ·), later.2)
termination_by missing
decreasing_by
  have asked := length_recv_le missing stream
  omega

/-- One turn of the loop, while items are missing and the stream goes on. -/
theorem readExactly_turn {missing : Nat} {stream : ChunkedStream α} (some_missing : missing ≠ 0)
    (goesOn : stream.items ≠ []) :
    stream.readExactly missing =
      let got := stream.recv missing
      let later := got.2.readExactly (missing - got.1.length)
      (later.1.map (got.1 ++ ·), later.2) := by
  have delivered : (stream.recv missing).1.length ≠ 0 := by
    simpa [recv_eq_nil_iff some_missing] using goesOn
  rw [readExactly, if_neg some_missing]
  exact dif_neg delivered

/-- A stream that is long enough gives the items asked for and keeps the others. -/
theorem readExactly_of_le {missing : Nat} {stream : ChunkedStream α}
    (enough : missing ≤ stream.items.length) :
    (stream.readExactly missing).1 = some (stream.items.take missing) ∧
      (stream.readExactly missing).2.items = stream.items.drop missing := by
  induction missing using Nat.strongRecOn generalizing stream with
  | ind missing inductionHypothesis =>
      by_cases none_missing : missing = 0
      · rw [readExactly, if_pos none_missing]
        simp [none_missing]
      have goesOn : stream.items ≠ [] := by
        rintro ended
        simp [ended] at enough
        exact none_missing enough
      have delivered : (stream.recv missing).1.length ≠ 0 := by
        simpa [recv_eq_nil_iff none_missing] using goesOn
      have asked := length_recv_le missing stream
      have whole := recv_append missing stream
      have lengths := congrArg List.length whole
      rw [List.length_append] at lengths
      obtain ⟨read, left⟩ :=
        @inductionHypothesis (missing - (stream.recv missing).1.length) (by omega)
          (stream.recv missing).2 (by omega)
      rw [readExactly_turn none_missing goesOn]
      constructor
      · simp only [read, Option.map_some, Option.some.injEq]
        rw [← whole, List.take_append, List.take_of_length_le asked]
      · simp only [left]
        rw [← whole, List.drop_append, List.drop_of_length_le asked, List.nil_append]

/-- A stream that ends too early fails the read. -/
theorem readExactly_of_lt {missing : Nat} {stream : ChunkedStream α}
    (short : stream.items.length < missing) : (stream.readExactly missing).1 = none := by
  induction missing using Nat.strongRecOn generalizing stream with
  | ind missing inductionHypothesis =>
      have some_missing : missing ≠ 0 := Nat.ne_zero_of_lt short
      by_cases ended : stream.items = []
      · have nothing : (stream.recv missing).1.length = 0 := by
          simpa [recv_eq_nil_iff some_missing] using ended
        rw [readExactly, if_neg some_missing]
        simp only [dif_pos nothing]
      · have delivered : (stream.recv missing).1.length ≠ 0 := by
          simpa [recv_eq_nil_iff some_missing] using ended
        have lengths := congrArg List.length (recv_append missing stream)
        rw [List.length_append] at lengths
        have later : ((stream.recv missing).2.readExactly
            (missing - (stream.recv missing).1.length)).1 = none :=
          inductionHypothesis _ (by omega) (by omega)
        rw [readExactly_turn some_missing ended]
        simp [later]

/-- A read that succeeds has taken what it was asked for off the start of the stream. -/
theorem readExactly_eq_some {missing : Nat} {stream : ChunkedStream α} {got : List α}
    (read : (stream.readExactly missing).1 = some got) :
    got.length = missing ∧ got ++ (stream.readExactly missing).2.items = stream.items := by
  rcases Nat.lt_or_ge stream.items.length missing with short | enough
  · simp [readExactly_of_lt short] at read
  · obtain ⟨taken, left⟩ := readExactly_of_le enough
    rw [taken, Option.some.injEq] at read
    subst read
    constructor
    · simp [enough]
    · rw [left, List.take_append_drop]

theorem length_readExactly_of_some {missing : Nat} {stream : ChunkedStream α} {got : List α}
    (read : (stream.readExactly missing).1 = some got) :
    missing + (stream.readExactly missing).2.items.length = stream.items.length := by
  obtain ⟨length, whole⟩ := readExactly_eq_some read
  rw [← whole, List.length_append, length]

/-- A read that fails has come to the end of the stream. -/
theorem items_of_readExactly_none {missing : Nat} {stream : ChunkedStream α}
    (failed : (stream.readExactly missing).1 = none) :
    (stream.readExactly missing).2.items = [] := by
  induction missing using Nat.strongRecOn generalizing stream with
  | ind missing inductionHypothesis =>
      by_cases none_missing : missing = 0
      · rw [readExactly, if_pos none_missing] at failed
        cases failed
      by_cases ended : stream.items = []
      · have nothing := (recv_eq_nil_iff none_missing stream).mpr ended
        have whole := recv_append missing stream
        rw [nothing, ended, List.nil_append] at whole
        rw [readExactly, if_neg none_missing, dif_pos (by simp [nothing])]
        exact whole
      · have delivered : (stream.recv missing).1.length ≠ 0 := by
          simpa [recv_eq_nil_iff none_missing] using ended
        have asked := length_recv_le missing stream
        rw [readExactly_turn none_missing ended] at failed ⊢
        simp only [Option.map_eq_none_iff] at failed
        exact inductionHypothesis _ (by omega) failed

/-- Ask on until the stream has ended. -/
def readAll (asked : Nat) (stream : ChunkedStream α) : List α :=
  if _ : (stream.recv asked).1.length = 0 then []
  else (stream.recv asked).1 ++ readAll asked (stream.recv asked).2
termination_by stream.items.length
decreasing_by
  have lengths := congrArg List.length (recv_append asked stream)
  rw [List.length_append] at lengths
  omega

/-- Everything that was to come has come then. -/
theorem readAll_eq_items {asked : Nat} (some_asked : asked ≠ 0) (stream : ChunkedStream α) :
    stream.readAll asked = stream.items := by
  induction length : stream.items.length using Nat.strongRecOn generalizing stream with
  | ind length inductionHypothesis =>
      have whole := recv_append asked stream
      have lengths := congrArg List.length whole
      rw [List.length_append] at lengths
      rw [readAll]
      split
      · rename_i nothing
        exact ((recv_eq_nil_iff some_asked stream).mp (List.length_eq_zero_iff.mp nothing)).symm
      · rw [inductionHypothesis _ (by omega) _ rfl, whole]

end ChunkedStream
