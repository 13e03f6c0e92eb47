/-
Module: HftAlgorithms.Lib.LittleEndian
Purpose: Words in memory with their low byte first: how they are read, which bytes
  they are written as, and that reading gives back what was written.
Trusted boundary: none
Main exports: LittleEndian.Memory, LittleEndian.word, LittleEndian.bytesOf,
  LittleEndian.Holds, LittleEndian.Holds.word, LittleEndian.Holds.uint32
-/
import Mathlib.Algebra.Order.Ring.Nat
import Mathlib.Data.Nat.ModEq

namespace LittleEndian

/-- What lies at each address, counted from the start of a buffer. -/
abbrev Memory := Nat → UInt8

/-- The word of `width` bytes that starts at `offset`. -/
def word (memory : Memory) (offset : Nat) : Nat → Nat
  | 0 => 0
  | width + 1 => (memory offset).toNat + 256 * word memory (offset + 1) width

/-- A word depends on its own bytes. -/
theorem word_congr {memory other : Memory} {offset width : Nat}
    (same : ∀ index, offset ≤ index → index < offset + width → memory index = other index) :
    word memory offset width = word other offset width := by
  induction width generalizing offset with
  | zero => rfl
  | succ width inductionHypothesis =>
      have first := same offset (Nat.le_refl _) (by omega)
      have rest := @inductionHypothesis (offset + 1) fun index above below =>
        same index (by omega) (by omega)
      rw [word, word, first, rest]

/-- The bytes a word is written as. -/
def bytesOf : Nat → Nat → List UInt8
  | 0, _ => []
  | width + 1, value => UInt8.ofNat value :: bytesOf width (value / 256)

/-- The bytes stand in memory from `offset` on. -/
def Holds (memory : Memory) : Nat → List UInt8 → Prop
  | _, [] => True
  | offset, byte :: bytes => memory offset = byte ∧ Holds memory (offset + 1) bytes

instance decidableHolds (memory : Memory) : ∀ offset bytes, Decidable (Holds memory offset bytes)
  | _, [] => isTrue trivial
  | offset, byte :: bytes =>
      have := decidableHolds memory (offset + 1) bytes
      inferInstanceAs (Decidable (memory offset = byte ∧ Holds memory (offset + 1) bytes))

@[simp] theorem length_bytesOf (width value : Nat) : (bytesOf width value).length = width := by
  induction width generalizing value with
  | zero => rfl
  | succ width inductionHypothesis => rw [bytesOf, List.length_cons, inductionHypothesis]

/-- What stands in memory stands there piece by piece. -/
theorem holds_append {memory : Memory} {offset : Nat} {first second : List UInt8} :
    Holds memory offset (first ++ second) ↔
      Holds memory offset first ∧ Holds memory (offset + first.length) second := by
  induction first generalizing offset with
  | nil => simp [Holds]
  | cons byte bytes inductionHypothesis =>
      have shifted : offset + (byte :: bytes).length = offset + 1 + bytes.length := by
        rw [List.length_cons]
        omega
      rw [List.cons_append, Holds, Holds, inductionHypothesis, and_assoc, shifted]

theorem holds_singleton {memory : Memory} {offset : Nat} {byte : UInt8} :
    Holds memory offset [byte] ↔ memory offset = byte := by
  simp [Holds]

/-- Bytes that have been put over the start of a memory stand there. -/
theorem holds_getD (bytes : List UInt8) (memory : Memory) :
    Holds (fun index => bytes.getD index (memory index)) 0 bytes := by
  have every : ∀ earlier later : List UInt8, bytes = earlier ++ later →
      Holds (fun index => bytes.getD index (memory index)) earlier.length later := by
    intro earlier later
    induction later generalizing earlier with
    | nil => exact fun _ => trivial
    | cons byte later inductionHypothesis =>
        intro split
        constructor
        · simp [split]
        · have rest := inductionHypothesis (earlier ++ [byte]) (by simp [split])
          simpa using rest
  exact every [] bytes rfl

/-- What stands in memory is there byte by byte. -/
theorem Holds.getD {memory : Memory} {offset : Nat} {bytes : List UInt8}
    (holds : Holds memory offset bytes) {index : Nat} (within : index < bytes.length)
    (fallback : UInt8) : memory (offset + index) = bytes.getD index fallback := by
  induction bytes generalizing offset index with
  | nil => simp at within
  | cons byte bytes inductionHypothesis =>
      obtain ⟨first, rest⟩ := holds
      cases index with
      | zero => simpa using first
      | succ index =>
          have later := inductionHypothesis rest (Nat.lt_of_succ_lt_succ within)
          rw [Nat.add_assoc, Nat.add_comm 1] at later
          simpa using later

/-- A word is read as it was written. -/
theorem Holds.word {memory : Memory} {offset width value : Nat}
    (holds : Holds memory offset (bytesOf width value)) (fits : value < 256 ^ width) :
    LittleEndian.word memory offset width = value := by
  induction width generalizing offset value with
  | zero =>
      rw [Nat.pow_zero] at fits
      rw [LittleEndian.word]
      omega
  | succ width inductionHypothesis =>
      obtain ⟨low, high⟩ := holds
      have fitsHigh : value / 256 < 256 ^ width := by
        rw [Nat.pow_succ] at fits
        exact Nat.div_lt_of_lt_mul (by rwa [Nat.mul_comm])
      have lowByte : (UInt8.ofNat value).toNat = value % 256 := UInt8.toNat_ofNat'
      rw [LittleEndian.word, low, inductionHypothesis high fitsHigh, lowByte]
      exact Nat.mod_add_div value 256

theorem Holds.uint16 {memory : Memory} {offset : Nat} {value : UInt16}
    (holds : Holds memory offset (bytesOf 2 value.toNat)) :
    UInt16.ofNat (LittleEndian.word memory offset 2) = value := by
  rw [holds.word value.toNat_lt, UInt16.ofNat_toNat]

theorem Holds.uint32 {memory : Memory} {offset : Nat} {value : UInt32}
    (holds : Holds memory offset (bytesOf 4 value.toNat)) :
    UInt32.ofNat (LittleEndian.word memory offset 4) = value := by
  rw [holds.word value.toNat_lt, UInt32.ofNat_toNat]

theorem Holds.uint64 {memory : Memory} {offset : Nat} {value : UInt64}
    (holds : Holds memory offset (bytesOf 8 value.toNat)) :
    UInt64.ofNat (LittleEndian.word memory offset 8) = value := by
  rw [holds.word value.toNat_lt, UInt64.ofNat_toNat]

end LittleEndian
