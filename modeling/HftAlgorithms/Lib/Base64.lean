/-
Module: HftAlgorithms.Lib.Base64
Purpose: Base64 with the standard alphabet and padding: three bytes are four
  characters of six bits each, the last group is filled up with pads, and decoding
  gives the bytes back.
Trusted boundary: none
Main exports: Base64.alphabet, Base64.symbol, Base64.encode, Base64.decode,
  Base64.length_encode, Base64.encode_eq_append_pads, Base64.decode_encode
-/
import Mathlib.Data.List.Basic
import Mathlib.Data.List.Nodup
import Mathlib.Algebra.Order.Ring.Nat

namespace Base64

/-- The characters for the numbers below 64. -/
def alphabet : List Char :=
  "ABCDEFGHIJKLMNOPQRSTUVWXYZabcdefghijklmnopqrstuvwxyz0123456789+/".toList

/-- The character that fills up the last group. -/
def pad : Char := '='

def symbol (value : Nat) : Char := alphabet.getD value pad

def encode : List UInt8 → List Char
  | [] => []
  | [a] => [symbol (a.toNat / 4), symbol (a.toNat % 4 * 16), pad, pad]
  | [a, b] =>
      [symbol (a.toNat / 4), symbol (a.toNat % 4 * 16 + b.toNat / 16),
        symbol (b.toNat % 16 * 4), pad]
  | a :: b :: c :: rest =>
      symbol (a.toNat / 4) :: symbol (a.toNat % 4 * 16 + b.toNat / 16) ::
        symbol (b.toNat % 16 * 4 + c.toNat / 64) :: symbol (c.toNat % 64) :: encode rest

/-- The number a character stands for. -/
def value (char : Char) : Option Nat :=
  if char ∈ alphabet then some (alphabet.idxOf char) else none

/-- The bytes of one group.  One or two pads may stand at its end. -/
def decodeGroup (first second third fourth : Char) : Option (List UInt8) := do
  let i ← value first
  let j ← value second
  let a := UInt8.ofNat (i * 4 + j / 16)
  if fourth = pad ∧ third = pad then return [a]
  let k ← value third
  let b := UInt8.ofNat (j % 16 * 16 + k / 4)
  if fourth = pad then return [a, b]
  let l ← value fourth
  return [a, b, UInt8.ofNat (k % 4 * 64 + l)]

/-- Groups of four characters; only the last may be padded. -/
def decode : List Char → Option (List UInt8)
  | [] => some []
  | first :: second :: third :: fourth :: rest =>
      if fourth = pad ∧ rest ≠ [] then none
      else do
        let bytes ← decodeGroup first second third fourth
        let later ← decode rest
        return bytes ++ later
  | _ => none

/-! ### The alphabet -/

theorem length_alphabet : alphabet.length = 64 := rfl

theorem nodup_alphabet : alphabet.Nodup := by
  decide

theorem symbol_eq_getElem {number : Nat} (six : number < alphabet.length) :
    symbol number = alphabet[number] := by
  simp [symbol, six]

theorem symbol_mem {number : Nat} (six : number < 64) : symbol number ∈ alphabet := by
  have inside : number < alphabet.length := by simpa [length_alphabet] using six
  simp only [symbol_eq_getElem inside, List.getElem_mem]

theorem value_symbol {number : Nat} (six : number < 64) : value (symbol number) = some number := by
  have inside : number < alphabet.length := by simpa [length_alphabet] using six
  have index : alphabet.idxOf (symbol number) = number := by
    rw [symbol_eq_getElem inside]
    exact nodup_alphabet.idxOf_getElem number inside
  simp [value, symbol_mem six, index]

theorem symbol_ne_pad {number : Nat} (six : number < 64) : symbol number ≠ pad := by
  intro padded
  have member := symbol_mem six
  rw [padded] at member
  exact absurd member (by decide)

/-! ### The text -/

theorem length_encode (bytes : List UInt8) :
    (encode bytes).length = 4 * ((bytes.length + 2) / 3) := by
  induction bytes using encode.induct with
  | case1 => rfl
  | case2 a => simp [encode]
  | case3 a b => simp [encode]
  | case4 a b c rest inductionHypothesis =>
      simp only [encode, List.length_cons, inductionHypothesis]
      omega

/-- Characters of the alphabet, and as many pads as bytes are missing from the last group. -/
theorem encode_eq_append_pads (bytes : List UInt8) :
    ∃ symbols, encode bytes = symbols ++ List.replicate ((3 - bytes.length % 3) % 3) pad ∧
      ∀ char ∈ symbols, char ∈ alphabet := by
  induction bytes using encode.induct with
  | case1 => exact ⟨[], rfl, by simp⟩
  | case2 a =>
      have byte := a.toNat_lt
      refine ⟨[symbol (a.toNat / 4), symbol (a.toNat % 4 * 16)], rfl, ?_⟩
      simp only [List.forall_mem_cons]
      exact ⟨symbol_mem (by omega), symbol_mem (by omega), by simp⟩
  | case3 a b =>
      have byte := a.toNat_lt
      have next := b.toNat_lt
      refine ⟨[symbol (a.toNat / 4), symbol (a.toNat % 4 * 16 + b.toNat / 16),
        symbol (b.toNat % 16 * 4)], rfl, ?_⟩
      simp only [List.forall_mem_cons]
      exact ⟨symbol_mem (by omega), symbol_mem (by omega), symbol_mem (by omega), by simp⟩
  | case4 a b c rest inductionHypothesis =>
      have byte := a.toNat_lt
      have next := b.toNat_lt
      have last := c.toNat_lt
      obtain ⟨symbols, written, valid⟩ := inductionHypothesis
      have same : (rest.length + 1 + 1 + 1) % 3 = rest.length % 3 := by omega
      refine ⟨symbol (a.toNat / 4) :: symbol (a.toNat % 4 * 16 + b.toNat / 16) ::
        symbol (b.toNat % 16 * 4 + c.toNat / 64) :: symbol (c.toNat % 64) :: symbols, ?_, ?_⟩
      · simp only [encode, written, List.length_cons, same, List.cons_append]
      · simp only [List.forall_mem_cons]
        exact ⟨symbol_mem (by omega), symbol_mem (by omega), symbol_mem (by omega),
          symbol_mem (by omega), valid⟩

theorem mem_encode {bytes : List UInt8} {char : Char} (member : char ∈ encode bytes) :
    char ∈ alphabet ∨ char = pad := by
  obtain ⟨symbols, written, valid⟩ := encode_eq_append_pads bytes
  rw [written, List.mem_append] at member
  rcases member with within | padding
  · exact Or.inl (valid char within)
  · exact Or.inr (List.eq_of_mem_replicate padding)

/-! ### Decoding -/

theorem ofNat_of_eq {byte : UInt8} {number : Nat} (same : number = byte.toNat) :
    UInt8.ofNat number = byte := by
  rw [same, UInt8.ofNat_toNat]

theorem decodeGroup_one (a : UInt8) :
    decodeGroup (symbol (a.toNat / 4)) (symbol (a.toNat % 4 * 16)) pad pad = some [a] := by
  have byte := a.toNat_lt
  have whole : UInt8.ofNat (a.toNat / 4 * 4 + a.toNat % 4 * 16 / 16) = a :=
    ofNat_of_eq (by omega)
  have first : a.toNat / 4 < 64 := by omega
  have second : a.toNat % 4 * 16 < 64 := by omega
  simp only [decodeGroup, value_symbol first, value_symbol second, Option.bind_eq_bind,
    Option.bind_some, and_self, if_true, whole, Option.pure_def]

theorem decodeGroup_two (a b : UInt8) :
    decodeGroup (symbol (a.toNat / 4)) (symbol (a.toNat % 4 * 16 + b.toNat / 16))
      (symbol (b.toNat % 16 * 4)) pad = some [a, b] := by
  have byte := a.toNat_lt
  have next := b.toNat_lt
  have first : a.toNat / 4 < 64 := by omega
  have second : a.toNat % 4 * 16 + b.toNat / 16 < 64 := by omega
  have third : b.toNat % 16 * 4 < 64 := by omega
  have one : UInt8.ofNat
      (a.toNat / 4 * 4 + (a.toNat % 4 * 16 + b.toNat / 16) / 16) = a :=
    ofNat_of_eq (by omega)
  have two : UInt8.ofNat ((a.toNat % 4 * 16 + b.toNat / 16) % 16 * 16 +
      b.toNat % 16 * 4 / 4) = b := ofNat_of_eq (by omega)
  simp only [decodeGroup, value_symbol first, value_symbol second, value_symbol third,
    symbol_ne_pad third, Option.bind_eq_bind, Option.bind_some, and_false, if_false, if_true,
    one, two, Option.pure_def]

theorem decodeGroup_three (a b c : UInt8) :
    decodeGroup (symbol (a.toNat / 4)) (symbol (a.toNat % 4 * 16 + b.toNat / 16))
      (symbol (b.toNat % 16 * 4 + c.toNat / 64)) (symbol (c.toNat % 64)) = some [a, b, c] := by
  have byte := a.toNat_lt
  have next := b.toNat_lt
  have last := c.toNat_lt
  have first : a.toNat / 4 < 64 := by omega
  have second : a.toNat % 4 * 16 + b.toNat / 16 < 64 := by omega
  have third : b.toNat % 16 * 4 + c.toNat / 64 < 64 := by omega
  have fourth : c.toNat % 64 < 64 := by omega
  have one : UInt8.ofNat
      (a.toNat / 4 * 4 + (a.toNat % 4 * 16 + b.toNat / 16) / 16) = a :=
    ofNat_of_eq (by omega)
  have two : UInt8.ofNat ((a.toNat % 4 * 16 + b.toNat / 16) % 16 * 16 +
      (b.toNat % 16 * 4 + c.toNat / 64) / 4) = b := ofNat_of_eq (by omega)
  have three : UInt8.ofNat ((b.toNat % 16 * 4 + c.toNat / 64) % 4 * 64 + c.toNat % 64) = c :=
    ofNat_of_eq (by omega)
  simp only [decodeGroup, value_symbol first, value_symbol second, value_symbol third,
    value_symbol fourth, symbol_ne_pad fourth, Option.bind_eq_bind, Option.bind_some,
    false_and, if_false, one, two, three, Option.pure_def]

/-- Decoding gives back what was encoded. -/
theorem decode_encode (bytes : List UInt8) : decode (encode bytes) = some bytes := by
  induction bytes using encode.induct with
  | case1 => rfl
  | case2 a => simp [encode, decode, decodeGroup_one]
  | case3 a b => simp [encode, decode, decodeGroup_two]
  | case4 a b c rest inductionHypothesis =>
      have inside : symbol (c.toNat % 64) ≠ pad := symbol_ne_pad (by omega)
      simp [encode, decode, decodeGroup_three, inside, inductionHypothesis]

end Base64
