/-
Module: HftAlgorithms.Lib.NumberStream
Purpose: Whole numbers read off a stream with `>>`: what is read of a number that was
  written, and what is read of one whose text was cut.
Trusted boundary: none
Main exports: NumberStream.extract, NumberStream.fitInt32, NumberStream.fitUInt32,
  NumberStream.extract_toText, NumberStream.extract_cut
-/
import HftAlgorithms.Lib.DecimalText
import Mathlib.Order.Interval.Set.UnorderedInterval

namespace NumberStream

open DecimalText

/-- The text behind the number it begins with. -/
def afterInt (text : List Char) : List Char :=
  match text with
  | '-' :: rest => rest.dropWhile Char.isDigit
  | '+' :: rest => rest.dropWhile Char.isDigit
  | rest => rest.dropWhile Char.isDigit

/-- `stream >> number`: spaces are passed over, an optional sign and digits are taken.  The stream
fails where there is no digit, and where the number does not fit its type. -/
def extract {α : Type} (fit : Int → Option α) (text : List Char) : Option (α × List Char) :=
  match leadingInt (text.dropWhile isSpace) with
  | none => none
  | some value => (fit value).map fun number => (number, afterInt (text.dropWhile isSpace))

/-- The numbers an `int32_t` takes. -/
def fitInt32 (value : Int) : Option Int32 :=
  if Int32.minValue.toInt ≤ value ∧ value ≤ Int32.maxValue.toInt then some (Int32.ofInt value)
  else none

/-- The numbers a `uint32_t` takes: a minus sign negates the word. -/
def fitUInt32 (value : Int) : Option UInt32 :=
  if value.natAbs < 4294967296 then some (UInt32.ofInt value) else none

/-! ### What fits -/

theorem fitInt32_toInt (number : Int32) : fitInt32 number.toInt = some number := by
  rw [fitInt32, if_pos ⟨number.minValue_le_toInt, number.toInt_le⟩, Int32.ofInt_toInt]

theorem toInt_of_fitInt32 {value : Int} {number : Int32} (fits : fitInt32 value = some number) :
    number.toInt = value := by
  rw [fitInt32] at fits
  split at fits
  · rename_i within
    cases fits
    exact Int32.toInt_ofInt_of_le within.1 (Int.lt_add_one_of_le within.2)
  · cases fits

theorem fitUInt32_toNat (number : UInt32) : fitUInt32 number.toNat = some number := by
  have small : ((number.toNat : Int)).natAbs < 4294967296 := number.toNat_lt
  have same : UInt32.ofInt number.toNat = number := by
    rw [UInt32.ofInt, Int.emod_eq_of_lt (by omega) (by exact_mod_cast number.toNat_lt),
      Int.toNat_natCast, UInt32.ofNat_toNat]
  rw [fitUInt32, if_pos small, same]

/-! ### Reading -/

section Reading

variable {α : Type} {fit : Int → Option α}

@[simp] theorem extract_nil : extract fit [] = none := rfl

theorem extract_space {char : Char} (space : isSpace char = true) (text : List Char) :
    extract fit (char :: text) = extract fit text := by
  simp [extract, space]

/-- A number that is written begins visibly. -/
theorem dropWhile_toText (value : Int) (rest : List Char) :
    (toText value ++ rest).dropWhile isSpace = toText value ++ rest := by
  obtain ⟨char, later, written, kind⟩ := head_toText value
  have visible : isSpace char = false := by
    rcases kind with digit | rfl
    · by_contra space
      simp only [isSpace, Bool.not_eq_false, decide_eq_true_eq] at space
      rcases space with rfl | rfl | rfl | rfl | rfl | rfl <;> simp at digit
    · decide
  simp [written, visible]

theorem afterInt_of_digits {text : List Char} (digits : ∀ char ∈ text, char.isDigit = true)
    (rest : List Char) (some_digit : text ≠ []) :
    afterInt (text ++ rest) = rest.dropWhile Char.isDigit := by
  cases text with
  | nil => exact absurd rfl some_digit
  | cons char text =>
      have first : char.isDigit = true := digits char (by simp)
      have dropped : (char :: text ++ rest).dropWhile Char.isDigit = rest.dropWhile Char.isDigit :=
        List.dropWhile_append_of_pos digits
      rw [List.cons_append] at dropped ⊢
      rw [afterInt]
      · exact dropped
      · rintro rest same
        cases same
        exact absurd first (by decide)
      · rintro rest same
        cases same
        exact absurd first (by decide)

theorem afterInt_toText (value : Int) {rest : List Char} (ends : NoDigit rest) :
    afterInt (toText value ++ rest) = rest := by
  have digits : ∀ char ∈ Nat.toDigits 10 value.natAbs, char.isDigit = true :=
    fun char member => isDigit_of_mem member
  have stops : rest.dropWhile Char.isDigit = rest := by
    cases rest with
    | nil => rfl
    | cons char rest => simp [ends char (by simp)]
  rw [toText]
  split
  · rw [List.cons_append, afterInt, List.dropWhile_append_of_pos digits, stops]
  · rw [afterInt_of_digits digits rest Nat.toDigits_ne_nil, stops]

/-- A number is read as it was written, up to where its digits end. -/
theorem extract_toText {value : Int} {number : α} (fits : fit value = some number)
    {rest : List Char} (ends : NoDigit rest) :
    extract fit (toText value ++ rest) = some (number, rest) := by
  simp [extract, dropWhile_toText, leadingInt_toText value ends, afterInt_toText value ends, fits]

/-! ### Progress -/

theorem length_dropWhile_lt {text : List Char} {number : Nat}
    (read : leadingDigits text = some number) :
    (text.dropWhile Char.isDigit).length < text.length := by
  have whole := congrArg List.length (@List.takeWhile_append_dropWhile _ Char.isDigit text)
  rw [List.length_append] at whole
  have taken : text.takeWhile Char.isDigit ≠ [] := by
    intro none
    simp [leadingDigits, none] at read
  have some_digit := List.length_pos_iff.mpr taken
  omega

theorem length_afterInt_lt {text : List Char} {value : Int} (read : leadingInt text = some value) :
    (afterInt text).length < text.length := by
  rw [leadingInt.eq_def] at read
  rw [afterInt.eq_def]
  split at read
  · obtain ⟨number, digits, -⟩ := Option.map_eq_some_iff.mp read
    exact (length_dropWhile_lt digits).trans (Nat.lt_succ_self _)
  · obtain ⟨number, digits, -⟩ := Option.map_eq_some_iff.mp read
    exact (length_dropWhile_lt digits).trans (Nat.lt_succ_self _)
  · obtain ⟨number, digits, -⟩ := Option.map_eq_some_iff.mp read
    simpa using length_dropWhile_lt digits

/-- What is read is used up. -/
theorem length_extract_lt {text rest : List Char} {number : α}
    (read : extract fit text = some (number, rest)) : rest.length < text.length := by
  rw [extract] at read
  split at read
  · cases read
  · rename_i value leading
    obtain ⟨fitted, -, same⟩ := Option.map_eq_some_iff.mp read
    cases same
    exact (length_afterInt_lt leading).trans_le (List.dropWhile_suffix _).length_le

/-! ### Cut numbers -/

/-- Fewer digits are a smaller number. -/
theorem leadingDigits_cut {value : Nat} {cut : List Char} (cuts : cut <+: Nat.toDigits 10 value)
    {number : Nat} (read : leadingDigits cut = some number) : number ≤ value := by
  obtain ⟨missing, whole⟩ := cuts
  have digits : ∀ char ∈ cut, char.isDigit = true := by
    intro char member
    apply @isDigit_of_mem value
    rw [← whole]
    exact List.mem_append_left _ member
  have taken : cut.takeWhile Char.isDigit = cut := List.takeWhile_eq_self_iff.mpr digits
  rw [leadingDigits, taken] at read
  split at read
  · cases read
  · cases read
    have all := congrArg (Nat.ofDigitChars 10 · 0) whole
    simp only [Nat.ofDigitChars_append, Nat.ofDigitChars_ten_toDigits] at all
    rw [← all, @Nat.ofDigitChars_eq_ofDigitChars_zero missing]
    exact (Nat.le_mul_of_pos_left _ (Nat.pow_pos (by decide))).trans (Nat.le_add_right _ _)

theorem afterInt_cut {value : Int} {cut : List Char} (cuts : cut <+: toText value) :
    afterInt cut = [] := by
  have only_digits : ∀ text, text <+: Nat.toDigits 10 value.natAbs →
      ∀ char ∈ text, char.isDigit = true :=
    fun text part char member => isDigit_of_mem (part.subset member)
  rw [toText] at cuts
  split at cuts
  · rcases List.prefix_cons_iff.mp cuts with rfl | ⟨digits, rfl, part⟩
    · rfl
    · rw [afterInt, List.dropWhile_eq_nil_iff]
      exact only_digits digits part
  · cases cut with
    | nil => rfl
    | cons char digits =>
        have after := afterInt_of_digits (only_digits _ cuts) [] (List.cons_ne_nil _ _)
        simpa using after

/-- A number that was cut is read as one between zero and itself. -/
theorem leadingInt_cut {value part : Int} {cut : List Char} (cuts : cut <+: toText value)
    (read : leadingInt cut = some part) : part ∈ Set.uIcc 0 value := by
  rw [Set.mem_uIcc]
  rw [toText] at cuts
  split at cuts
  · rcases List.prefix_cons_iff.mp cuts with rfl | ⟨digits, rfl, shorter⟩
    · cases read
    · obtain ⟨number, found, same⟩ := Option.map_eq_some_iff.mp read
      have less := leadingDigits_cut shorter found
      right
      omega
  · have number : ∃ number, leadingDigits cut = some number ∧ part = number := by
      rw [leadingInt.eq_def] at read
      split at read
      · rename_i rest
        have minus : '-' ∈ Nat.toDigits 10 value.natAbs := cuts.subset (by simp)
        exact absurd (isDigit_of_mem minus) (by decide)
      · rename_i rest
        have plus : '+' ∈ Nat.toDigits 10 value.natAbs := cuts.subset (by simp)
        exact absurd (isDigit_of_mem plus) (by decide)
      · obtain ⟨number, found, same⟩ := Option.map_eq_some_iff.mp read
        exact ⟨number, found, same.symm⟩
    obtain ⟨number, found, rfl⟩ := number
    have less := leadingDigits_cut cuts found
    left
    omega

theorem extract_cut {value : Int} {cut rest : List Char} {number : α} (cuts : cut <+: toText value)
    (read : extract fit cut = some (number, rest)) :
    rest = [] ∧ ∃ part ∈ Set.uIcc 0 value, fit part = some number := by
  have visible : cut.dropWhile isSpace = cut := by
    obtain ⟨missing, whole⟩ := cuts
    cases cut with
    | nil => rfl
    | cons char later =>
        have begins := dropWhile_toText value []
        rw [← whole, List.cons_append, List.append_nil, List.dropWhile_cons] at begins
        split at begins
        · have shorter := congrArg List.length begins
          have most : ((later ++ missing).dropWhile isSpace).length ≤ (later ++ missing).length :=
            (List.dropWhile_suffix isSpace).length_le
          simp only [List.length_cons] at shorter
          omega
        · rename_i shown
          simp [shown]
  rw [extract, visible] at read
  split at read
  · cases read
  · rename_i part leading
    obtain ⟨fitted, fits, same⟩ := Option.map_eq_some_iff.mp read
    cases same
    exact ⟨afterInt_cut cuts, part, leadingInt_cut cuts leading, fits⟩

end Reading

end NumberStream
