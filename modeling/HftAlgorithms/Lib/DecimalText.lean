/-
Module: HftAlgorithms.Lib.DecimalText
Purpose: Signed words as decimal text: how they are written, how `stoi` reads the
  number a text begins with, and that it reads back what was written, whatever
  follows, as long as that does not go on with a digit.
Trusted boundary: none
Main exports: DecimalText.toText, DecimalText.StoiError, DecimalText.stoi,
  DecimalText.stoi_toText, DecimalText.mem_toText, DecimalText.notMem_toText
-/
import Mathlib.Data.List.TakeWhile
import Mathlib.Data.Int.Order.Basic

namespace DecimalText

/-- `to_string`. -/
def toText (value : Int) : List Char :=
  if value < 0 then '-' :: Nat.toDigits 10 value.natAbs else Nat.toDigits 10 value.natAbs

/-- `isspace`, in the C locale. -/
def isSpace (char : Char) : Bool :=
  char = ' ' ∨ char = '\t' ∨ char = '\n' ∨ char = '\x0b' ∨ char = '\x0c' ∨ char = '\r'

/-- The exceptions of `stoi`. -/
inductive StoiError where
  | invalidArgument
  | outOfRange
deriving DecidableEq, Repr

/-- The digits a text begins with, as a number. -/
def leadingDigits (text : List Char) : Option Nat :=
  let digits := text.takeWhile Char.isDigit
  if digits = [] then none else some (Nat.ofDigitChars 10 digits 0)

/-- An optional sign and some digits, to the first character that is none. -/
def leadingInt (text : List Char) : Option Int :=
  match text with
  | '-' :: rest => (leadingDigits rest).map fun (value : Nat) => -(value : Int)
  | '+' :: rest => (leadingDigits rest).map Int.ofNat
  | rest => (leadingDigits rest).map Int.ofNat

/-- `stoi`, for a 32-bit `int`. -/
def stoi (text : List Char) : Except StoiError Int32 :=
  match leadingInt (text.dropWhile isSpace) with
  | none => .error .invalidArgument
  | some value =>
      if Int32.minValue.toInt ≤ value ∧ value ≤ Int32.maxValue.toInt then .ok (Int32.ofInt value)
      else .error .outOfRange

/-! ### Reading back -/

/-- The text does not go on with a digit. -/
def NoDigit (text : List Char) : Prop := ∀ char ∈ text.head?, char.isDigit = false

theorem isDigit_of_mem {value : Nat} {char : Char} (member : char ∈ Nat.toDigits 10 value) :
    char.isDigit = true :=
  Nat.isDigit_of_mem_toDigits (by decide) (by decide) member

theorem leadingDigits_toDigits (value : Nat) {rest : List Char} (ends : NoDigit rest) :
    leadingDigits (Nat.toDigits 10 value ++ rest) = some value := by
  have digits : ∀ char ∈ Nat.toDigits 10 value, char.isDigit = true :=
    fun char member => isDigit_of_mem member
  have stops : rest.takeWhile Char.isDigit = [] := by
    cases rest with
    | nil => rfl
    | cons char rest => simp [ends char (by simp)]
  have taken : (Nat.toDigits 10 value ++ rest).takeWhile Char.isDigit = Nat.toDigits 10 value := by
    rw [List.takeWhile_append_of_pos digits, stops, List.append_nil]
  simp [leadingDigits, taken, Nat.toDigits_ne_nil, Nat.ofDigitChars_ten_toDigits]

/-- A number that is written begins with a digit or with a minus sign. -/
theorem head_toText (value : Int) :
    ∃ char rest, toText value = char :: rest ∧ (char.isDigit = true ∨ char = '-') := by
  rw [toText]
  split
  · exact ⟨'-', _, rfl, Or.inr rfl⟩
  · cases digits : Nat.toDigits 10 value.natAbs with
    | nil => exact absurd digits Nat.toDigits_ne_nil
    | cons char rest =>
        have member : char ∈ Nat.toDigits 10 value.natAbs := by simp [digits]
        exact ⟨char, rest, rfl, Or.inl (isDigit_of_mem member)⟩

theorem mem_toText {value : Int} {char : Char} (member : char ∈ toText value) :
    char.isDigit = true ∨ char = '-' := by
  rw [toText] at member
  split at member
  · rcases List.mem_cons.mp member with rfl | digit
    · exact Or.inr rfl
    · exact Or.inl (isDigit_of_mem digit)
  · exact Or.inl (isDigit_of_mem member)

theorem notMem_toText {value : Int} {char : Char} (other : char.isDigit = false)
    (noSign : char ≠ '-') : char ∉ toText value := by
  intro member
  rcases mem_toText member with digit | minus
  · rw [other] at digit
    cases digit
  · exact noSign minus

theorem leadingInt_toText (value : Int) {rest : List Char} (ends : NoDigit rest) :
    leadingInt (toText value ++ rest) = some value := by
  rw [toText]
  split
  · rename_i negative
    have whole : -(value.natAbs : Int) = value := by omega
    rw [List.cons_append, leadingInt, leadingDigits_toDigits _ ends, Option.map_some, whole]
  · rename_i nonneg
    have digits := leadingDigits_toDigits value.natAbs ends
    have natural : Int.ofNat value.natAbs = value := by
      simp only [Int.ofNat_eq_natCast]
      omega
    cases written : Nat.toDigits 10 value.natAbs with
    | nil => exact absurd written Nat.toDigits_ne_nil
    | cons char later =>
        have digit : char.isDigit = true := by
          apply @isDigit_of_mem value.natAbs
          rw [written]
          exact List.mem_cons_self
        rw [written, List.cons_append] at digits
        rw [List.cons_append, leadingInt]
        · rw [digits, Option.map_some, natural]
        · rintro rest same
          cases same
          exact absurd digit (by decide)
        · rintro rest same
          cases same
          exact absurd digit (by decide)

/-- A signed word is read back as it was written. -/
theorem stoi_toText (value : Int32) {rest : List Char} (ends : NoDigit rest) :
    stoi (toText value.toInt ++ rest) = .ok value := by
  obtain ⟨char, later, written, kind⟩ := head_toText value.toInt
  have visible : isSpace char = false := by
    rcases kind with digit | rfl
    · by_contra space
      simp only [isSpace, Bool.not_eq_false, decide_eq_true_eq] at space
      rcases space with rfl | rfl | rfl | rfl | rfl | rfl <;> exact absurd digit (by decide)
    · decide
  have begins : (toText value.toInt ++ rest).dropWhile isSpace = toText value.toInt ++ rest := by
    rw [written, List.cons_append]
    simp [visible]
  have low := value.minValue_le_toInt
  have high := value.toInt_le
  rw [stoi, begins, leadingInt_toText value.toInt ends]
  simp only
  rw [if_pos ⟨low, high⟩, Int32.ofInt_toInt]

end DecimalText
