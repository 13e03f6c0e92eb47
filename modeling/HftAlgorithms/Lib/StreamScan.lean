/-
Module: HftAlgorithms.Lib.StreamScan
Purpose: Reading a stream of messages up to and including the first one that has
  a verdict: what has been read, what is left, and what ended it.
Trusted boundary: none
Main exports: StreamScan.scan, StreamScan.scanUntil, StreamScan.scan_append_cons,
  StreamScan.scanUntil_append_cons, StreamScan.silent_or_split,
  StreamScan.confirmed_iff
-/
import Mathlib.Data.List.Basic

namespace StreamScan

variable {μ β : Type*}

/-- A finished scan. -/
structure Scan (μ : Type*) (β : Type*) where
  read : List μ
  unread : List μ
  verdict : Option β

/-- Read until a message has a verdict, or the stream ends. -/
def scan (verdict : μ → Option β) : List μ → Scan μ β
  | [] => ⟨[], [], none⟩
  | message :: rest =>
      match verdict message with
      | some value => ⟨[message], rest, some value⟩
      | none =>
          let later := scan verdict rest
          ⟨message :: later.read, later.unread, later.verdict⟩

/-- The same with a deadline: the scan ends without a verdict when it is late at the top of its
`count`th turn. -/
def scanUntil (late : Nat → Bool) (verdict : μ → Option β) : Nat → List μ → Scan μ β
  | _, [] => ⟨[], [], none⟩
  | count, message :: rest =>
      if late count then ⟨[], message :: rest, none⟩
      else
        match verdict message with
        | some value => ⟨[message], rest, some value⟩
        | none =>
            let later := scanUntil late verdict (count + 1) rest
            ⟨message :: later.read, later.unread, later.verdict⟩

/-- A scan that is never late is one without a deadline. -/
theorem scanUntil_never (verdict : μ → Option β) (count : Nat) (stream : List μ) :
    scanUntil (fun _ => false) verdict count stream = scan verdict stream := by
  induction stream generalizing count with
  | nil => rfl
  | cons message rest inductionHypothesis =>
      rw [scanUntil, scan, if_neg Bool.false_ne_true, inductionHypothesis]

/-- What is read and what is left are the stream. -/
theorem read_append_unread (late : Nat → Bool) (verdict : μ → Option β) (count : Nat)
    (stream : List μ) :
    (scanUntil late verdict count stream).read ++ (scanUntil late verdict count stream).unread =
      stream := by
  induction stream generalizing count with
  | nil => rfl
  | cons message rest inductionHypothesis =>
      rw [scanUntil]
      split
      · rfl
      · split
        · rfl
        · exact congrArg (message :: ·) (inductionHypothesis (count + 1))

theorem scan_read_append_unread (verdict : μ → Option β) (stream : List μ) :
    (scan verdict stream).read ++ (scan verdict stream).unread = stream := by
  rw [← scanUntil_never verdict 0 stream]
  exact read_append_unread _ verdict 0 stream

/-- A verdict is that of the last message read. -/
theorem exists_last_of_verdict {late : Nat → Bool} {verdict : μ → Option β} {count : Nat}
    {stream : List μ} {value : β}
    (ended : (scanUntil late verdict count stream).verdict = some value) :
    ∃ earlier message, (scanUntil late verdict count stream).read = earlier ++ [message] ∧
      verdict message = some value := by
  induction stream generalizing count with
  | nil => cases ended
  | cons message rest inductionHypothesis =>
      rw [scanUntil] at ended ⊢
      split at ended
      · cases ended
      · rename_i onTime
        rw [if_neg onTime]
        cases ends : verdict message with
        | some found =>
            rw [ends] at ended
            cases ended
            exact ⟨[], message, rfl, ends⟩
        | none =>
            rw [ends] at ended
            obtain ⟨earlier, last, read, stops⟩ := inductionHypothesis ended
            exact ⟨message :: earlier, last, congrArg (message :: ·) read, stops⟩

/-- On time, the first message with a verdict ends the scan. -/
theorem scanUntil_append_cons {late : Nat → Bool} {verdict : μ → Option β} {count : Nat}
    {earlier : List μ} (silent : ∀ message ∈ earlier, verdict message = none)
    (onTime : ∀ turn, turn ≤ earlier.length → late (count + turn) = false)
    {message : μ} {value : β} (ends : verdict message = some value) (later : List μ) :
    scanUntil late verdict count (earlier ++ message :: later) =
      ⟨earlier ++ [message], later, some value⟩ := by
  induction earlier generalizing count with
  | nil =>
      have now : late count = false := onTime 0 (Nat.zero_le _)
      rw [List.nil_append, scanUntil, now, if_neg Bool.false_ne_true, ends]
      rfl
  | cons first rest inductionHypothesis =>
      have now : late count = false := onTime 0 (Nat.zero_le _)
      have tail : scanUntil late verdict (count + 1) (rest ++ message :: later) =
          ⟨rest ++ [message], later, some value⟩ := by
        apply inductionHypothesis fun other member => silent other (List.mem_cons_of_mem _ member)
        intro turn within
        rw [Nat.add_assoc, Nat.add_comm 1 turn]
        exact onTime (turn + 1) (Nat.succ_le_succ within)
      rw [List.cons_append, scanUntil, now, if_neg Bool.false_ne_true,
        silent first List.mem_cons_self, tail]
      rfl

/-- A silent stream gives no verdict, on time or late. -/
theorem verdict_scanUntil_of_silent {late : Nat → Bool} {verdict : μ → Option β} {count : Nat}
    {stream : List μ} (silent : ∀ message ∈ stream, verdict message = none) :
    (scanUntil late verdict count stream).verdict = none := by
  induction stream generalizing count with
  | nil => rfl
  | cons first rest inductionHypothesis =>
      rw [scanUntil]
      split
      · rfl
      · rw [silent first List.mem_cons_self]
        exact inductionHypothesis fun other member => silent other (List.mem_cons_of_mem _ member)

variable {verdict : μ → Option β}

@[simp] theorem scan_nil : scan verdict [] = ⟨[], [], none⟩ := rfl

theorem scan_cons_of_some {message : μ} {value : β} (ends : verdict message = some value)
    (rest : List μ) : scan verdict (message :: rest) = ⟨[message], rest, some value⟩ := by
  rw [scan, ends]

theorem scan_cons_of_none {message : μ} (goesOn : verdict message = none) (rest : List μ) :
    scan verdict (message :: rest) =
      ⟨message :: (scan verdict rest).read, (scan verdict rest).unread,
        (scan verdict rest).verdict⟩ := by
  rw [scan, goesOn]

/-- The first message with a verdict ends the scan. -/
theorem scan_append_cons {earlier : List μ} (silent : ∀ message ∈ earlier, verdict message = none)
    {message : μ} {value : β} (ends : verdict message = some value) (later : List μ) :
    scan verdict (earlier ++ message :: later) = ⟨earlier ++ [message], later, some value⟩ := by
  induction earlier with
  | nil => exact scan_cons_of_some ends later
  | cons first rest inductionHypothesis =>
      have tail : scan verdict (rest ++ message :: later) =
          ⟨rest ++ [message], later, some value⟩ :=
        inductionHypothesis fun other member => silent other (List.mem_cons_of_mem _ member)
      rw [List.cons_append, scan_cons_of_none (silent first List.mem_cons_self), tail]
      rfl

/-- A silent stream is read to its end. -/
theorem scan_of_silent {stream : List μ} (silent : ∀ message ∈ stream, verdict message = none) :
    scan verdict stream = ⟨stream, [], none⟩ := by
  induction stream with
  | nil => rfl
  | cons first rest inductionHypothesis =>
      have tail := inductionHypothesis fun other member =>
        silent other (List.mem_cons_of_mem _ member)
      rw [scan_cons_of_none (silent first List.mem_cons_self), tail]

/-- Every stream is silent, or splits at its first message with a verdict. -/
theorem silent_or_split (verdict : μ → Option β) (stream : List μ) :
    (∀ message ∈ stream, verdict message = none) ∨
      ∃ earlier message value later, stream = earlier ++ message :: later ∧
        (∀ other ∈ earlier, verdict other = none) ∧ verdict message = some value := by
  induction stream with
  | nil => exact Or.inl fun message member => absurd member List.not_mem_nil
  | cons first rest inductionHypothesis =>
      cases ends : verdict first with
      | some value => exact Or.inr ⟨[], first, value, rest, rfl, by simp, ends⟩
      | none =>
          rcases inductionHypothesis with silent | split
          · left
            intro message member
            rcases List.mem_cons.mp member with rfl | later
            · exact ends
            · exact silent message later
          · right
            obtain ⟨earlier, message, value, later, rfl, silent, stops⟩ := split
            refine ⟨first :: earlier, message, value, later, rfl, ?_, stops⟩
            intro other member
            rcases List.mem_cons.mp member with rfl | within
            · exact ends
            · exact silent other within

/-! ### What a positive verdict rests on

A scan that ends in `true` should have read something that confirms it.  Whether it has is
decided by the first telling message: one that ends the scan, or that confirms it already. -/

section Attribution

variable {accept : μ → Option Bool} {confirms : μ → Prop} {tells truthful : μ → Bool}

/-- Every positive verdict is confirmed exactly when the first telling message is truthful: one
that confirms a positive verdict, or gives a negative one. -/
theorem confirmed_iff
    (ends : ∀ message value, accept message = some value →
      tells message = true ∧ (truthful message = true ↔ (value = true → confirms message)))
    (goesOn : ∀ message, accept message = none →
      (tells message = true ∧ truthful message = true ∧ confirms message) ∨
        (tells message = false ∧ ¬ confirms message))
    (stream : List μ) :
    ((scan accept stream).verdict = some true →
        ∃ message ∈ (scan accept stream).read, confirms message) ↔
      ∀ first, stream.find? tells = some first → truthful first = true := by
  induction stream with
  | nil => simp
  | cons message rest inductionHypothesis =>
      cases stops : accept message with
      | some value =>
          obtain ⟨telling, truth⟩ := ends message value stops
          simp [scan_cons_of_some stops, telling, truth]
      | none =>
          rw [scan_cons_of_none stops]
          rcases goesOn message stops with ⟨telling, truth, confirmed⟩ | ⟨quiet, unconfirmed⟩
          · simp [telling, truth, confirmed]
          · simpa [quiet, unconfirmed] using inductionHypothesis

end Attribution

end StreamScan
