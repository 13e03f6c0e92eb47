/-
Module: HftAlgorithms.Proofs.Base64Encoding
Purpose: The encoder of the ETF client against Base64.  Its accumulator is never masked
  and overflows after four bytes; only the two or four bits that are still to be written
  matter, and these are its lowest.
Trusted boundary: none
Main exports: toNat_shiftIn, Base64State.step_first, Base64State.step_second,
  Base64State.step_third, Base64State.finish_foldl, base64Encode_eq_encode,
  base64Encode_correct
-/
import HftAlgorithms.Etf.ETFClient
import HftAlgorithms.Lib.Base64

namespace HftAlgorithms

open Base64

/-! ### The accumulator -/

/-- Below bit 26 an arithmetic shift brings no copy of the sign into the lowest six bits. -/
theorem toNat_sshiftRight_and (bits : BitVec 32) {shift : Nat} (low : shift ≤ 26) :
    (bits.sshiftRight shift &&& 63#32).toNat = bits.toNat / 2 ^ shift % 64 := by
  have unsigned : bits.sshiftRight shift &&& 63#32 = bits >>> shift &&& 63#32 := by
    apply BitVec.eq_of_getLsbD_eq
    intro i inside
    rcases Nat.lt_or_ge i 6 with six | more
    · have within : shift + i < 32 := by omega
      simp only [BitVec.getLsbD_and, BitVec.getLsbD_sshiftRight, BitVec.getLsbD_ushiftRight,
        within, if_true, Nat.not_le.mpr inside, decide_false,
        Bool.not_false, Bool.true_and]
    · have masked : (63#32).getLsbD i = false := by
        simp [BitVec.getLsbD_ofNat, Nat.testBit_lt_two_pow (Nat.lt_of_lt_of_le
          (by decide : 63 < 2 ^ 6) (Nat.pow_le_pow_right (by decide) more))]
      simp only [BitVec.getLsbD_and, masked, Bool.and_false]
  rw [unsigned, BitVec.toNat_and, BitVec.toNat_ushiftRight, Nat.shiftRight_eq_div_pow]
  exact Nat.and_two_pow_sub_one_eq_mod _ 6

theorem toNat_shiftAmount {shift : Nat} (low : shift ≤ 26) :
    ((Int32.ofInt shift).toBitVec.smod 32).toNat = shift := by
  have every : ∀ shift : Fin 27, ((Int32.ofInt (shift : Nat)).toBitVec.smod 32).toNat = shift := by
    decide
  exact every ⟨shift, by omega⟩

theorem base64Char_eq (val : Int32) {shift : Nat} (low : shift ≤ 26) :
    base64Char val shift = symbol (val.toUInt32.toNat / 2 ^ shift % 64) := by
  have bits := toNat_sshiftRight_and val.toBitVec low
  have amount := toNat_shiftAmount low
  have shifted : (val >>> Int32.ofInt shift &&& 0x3F).toUInt32.toNat
      = (val.toBitVec.sshiftRight ((Int32.ofInt shift).toBitVec.smod 32).toNat &&& 63#32).toNat :=
    rfl
  rw [base64Char, shifted, amount, bits]
  rfl

theorem toNat_shiftLeft (val : Int32) :
    (val <<< 8).toUInt32.toNat = val.toUInt32.toNat * 256 % 2 ^ 32 := by
  have shifted : (val <<< 8).toUInt32.toNat = (val.toBitVec <<< 8).toNat := rfl
  rw [shifted, BitVec.toNat_shiftLeft, Nat.shiftLeft_eq]
  rfl

theorem base64Char_shiftLeft (val : Int32) (shift : Nat) (low : shift ≤ 26) {number : Nat}
    (six : val.toUInt32.toNat * 256 % 2 ^ 32 / 2 ^ shift % 64 = number) :
    base64Char (val <<< 8) shift = symbol number := by
  rw [base64Char_eq _ low, toNat_shiftLeft, six]

/-- One byte moves into the accumulator, and its eight highest bits out of it. -/
theorem toNat_shiftIn (val : Int32) (byte : UInt8) :
    ((val <<< 8) + Int32.ofNat byte.toNat).toUInt32.toNat =
      (val.toUInt32.toNat * 256 + byte.toNat) % 2 ^ 32 := by
  have added : ((val <<< 8) + Int32.ofNat byte.toNat).toUInt32.toNat
      = ((val <<< 8).toUInt32.toNat + (UInt32.ofNat byte.toNat).toNat) % 2 ^ 32 := by
    rw [Int32.toUInt32_add]
    simp
  simp only [added, toNat_shiftLeft, UInt32.toNat_ofNat']
  omega

/-! ### Bytes

Between two bytes none, two or four bits wait to be written: the lowest of the accumulator. -/

namespace Base64State

theorem emit_of_neg {state : Base64State} (waiting : state.valb < 0) : state.emit = state := by
  rw [emit, if_neg (by omega)]

theorem emit_of_nonneg {val : Int32} {shift : Nat} {out : List Char} (low : shift ≤ 26) :
    emit ⟨val, shift, out⟩ =
      emit ⟨val, shift - 6, out ++ [symbol (val.toUInt32.toNat / 2 ^ shift % 64)]⟩ := by
  rw [emit, if_pos (by simp), base64Char_eq val low]

theorem emit_last {val : Int32} {shift : Nat} {out : List Char} (last : shift < 6) :
    emit ⟨val, shift, out⟩ =
      ⟨val, shift - 6, out ++ [symbol (val.toUInt32.toNat / 2 ^ shift % 64)]⟩ := by
  have below : (shift : Int) - 6 < 0 := by omega
  rw [emit_of_nonneg (by omega), emit_of_neg below]

theorem step_first (val : Int32) (out : List Char) (a : UInt8) :
    ∃ later, step ⟨val, -6, out⟩ a = ⟨later, -4, out ++ [symbol (a.toNat / 4)]⟩ ∧
      later.toUInt32.toNat % 4 = a.toNat % 4 := by
  have byte := a.toNat_lt
  have shifted := toNat_shiftIn val a
  refine ⟨(val <<< 8) + Int32.ofNat a.toNat, ?_, by omega⟩
  have six : ((val <<< 8) + Int32.ofNat a.toNat).toUInt32.toNat / 2 ^ 2 % 64 = a.toNat / 4 := by
    omega
  have emitted := @emit_last ((val <<< 8) + Int32.ofNat a.toNat) 2 out (by simp)
  rw [six] at emitted
  exact emitted

theorem step_second (val : Int32) (out : List Char) (b : UInt8) :
    ∃ later, step ⟨val, -4, out⟩ b =
        ⟨later, -2, out ++ [symbol (val.toUInt32.toNat % 4 * 16 + b.toNat / 16)]⟩ ∧
      later.toUInt32.toNat % 16 = b.toNat % 16 := by
  have byte := b.toNat_lt
  have shifted := toNat_shiftIn val b
  refine ⟨(val <<< 8) + Int32.ofNat b.toNat, ?_, by omega⟩
  have six : ((val <<< 8) + Int32.ofNat b.toNat).toUInt32.toNat / 2 ^ 4 % 64 =
      val.toUInt32.toNat % 4 * 16 + b.toNat / 16 := by
    omega
  have emitted := @emit_last ((val <<< 8) + Int32.ofNat b.toNat) 4 out (by simp)
  rw [six] at emitted
  exact emitted

theorem step_third (val : Int32) (out : List Char) (c : UInt8) :
    ∃ later, step ⟨val, -2, out⟩ c =
      ⟨later, -6, out ++ [symbol (val.toUInt32.toNat % 16 * 4 + c.toNat / 64),
        symbol (c.toNat % 64)]⟩ := by
  have byte := c.toNat_lt
  have shifted := toNat_shiftIn val c
  refine ⟨(val <<< 8) + Int32.ofNat c.toNat, ?_⟩
  have high : ((val <<< 8) + Int32.ofNat c.toNat).toUInt32.toNat / 2 ^ 6 % 64 =
      val.toUInt32.toNat % 16 * 4 + c.toNat / 64 := by
    omega
  have low : ((val <<< 8) + Int32.ofNat c.toNat).toUInt32.toNat / 2 ^ 0 % 64 = c.toNat % 64 := by
    omega
  have first := @emit_of_nonneg ((val <<< 8) + Int32.ofNat c.toNat) 6 out (by simp)
  have second := @emit_last ((val <<< 8) + Int32.ofNat c.toNat) 0
    (out ++ [symbol (val.toUInt32.toNat % 16 * 4 + c.toNat / 64)]) (by simp)
  rw [high] at first
  rw [low, List.append_assoc] at second
  exact first.trans second

/-- The characters of a group leave no bits behind, so the next group starts afresh. -/
theorem finish_foldl (bytes : List UInt8) (val : Int32) (out : List Char) :
    (bytes.foldl step ⟨val, -6, out⟩).finish ++ List.replicate ((3 - bytes.length % 3) % 3) pad =
      out ++ encode bytes := by
  induction bytes using encode.induct generalizing val out with
  | case1 => simp [finish, encode]
  | case2 a =>
      obtain ⟨later, written, pending⟩ := step_first val out a
      have rest : base64Char (later <<< 8) 4 = symbol (a.toNat % 4 * 16) := by
        apply base64Char_shiftLeft later 4 (by simp)
        omega
      simp [written, finish, rest, encode]
  | case3 a b =>
      obtain ⟨middle, first, pending⟩ := step_first val out a
      obtain ⟨later, second, left⟩ := step_second middle (out ++ [symbol (a.toNat / 4)]) b
      have rest : base64Char (later <<< 8) 6 = symbol (b.toNat % 16 * 4) := by
        apply base64Char_shiftLeft later 6 (by simp)
        omega
      simp [first, second, pending, finish, rest, encode]
  | case4 a b c rest inductionHypothesis =>
      obtain ⟨one, first, pending⟩ := step_first val out a
      obtain ⟨two, second, left⟩ := step_second one (out ++ [symbol (a.toNat / 4)]) b
      rw [pending] at second
      obtain ⟨three, third⟩ := step_third two
        (out ++ [symbol (a.toNat / 4)] ++ [symbol (a.toNat % 4 * 16 + b.toNat / 16)]) c
      rw [left] at third
      have same : (rest.length + 1 + 1 + 1) % 3 = rest.length % 3 := by omega
      simp only [List.foldl_cons, first, second, third, List.length_cons, same,
        inductionHypothesis]
      simp [encode]

end Base64State

/-! ### The whole text -/

theorem base64Pad_eq (out : List Char) :
    base64Pad out = out ++ List.replicate ((4 - out.length % 4) % 4) '=' := by
  fun_induction base64Pad out with
  | case1 out whole => simp [whole]
  | case2 out part inductionHypothesis =>
      rw [inductionHypothesis, List.append_assoc, List.length_append, List.length_singleton]
      have one : (4 - out.length % 4) % 4 = (4 - (out.length + 1) % 4) % 4 + 1 := by omega
      rw [one, List.replicate_succ]
      rfl

theorem base64Encode_eq_encode (input : List UInt8) : base64Encode input = encode input := by
  have written := Base64State.finish_foldl input 0 []
  have size := congrArg List.length written
  simp only [List.nil_append, length_encode, List.length_append, List.length_replicate] at size
  have pads : (4 - (input.foldl Base64State.step ⟨0, -6, []⟩).finish.length % 4) % 4 =
      (3 - input.length % 3) % 3 := by
    omega
  rw [base64Encode, base64Pad_eq, pads]
  exact written

/-- What is written is Base64: four characters for every three bytes begun, of the alphabet but for
the pads that the length asks for, and it decodes to the bytes. -/
theorem base64Encode_correct (input : List UInt8) :
    base64Encode input = encode input ∧
      (base64Encode input).length = 4 * ((input.length + 2) / 3) ∧
      (∃ symbols, base64Encode input =
          symbols ++ List.replicate ((3 - input.length % 3) % 3) '=' ∧
        ∀ char ∈ symbols, char ∈ base64Table) ∧
      decode (base64Encode input) = some input := by
  rw [base64Encode_eq_encode]
  exact ⟨rfl, length_encode input, encode_eq_append_pads input, decode_encode input⟩

end HftAlgorithms
