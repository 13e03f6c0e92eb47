/-
Module: HftAlgorithms.Lib.JsonText
Purpose: JSON strings as text: how characters are escaped, and that no key can be
  read out of a string.  A quote within a string has a backslash before it, and the
  quote that ends a key has not.
Trusted boundary: none
Main exports: JsonText.MustEscape, JsonText.EscapeOf, JsonText.Escapes,
  JsonText.StringBody, JsonText.Escapes.stringBody, JsonText.escapes_self,
  JsonText.Escapes.eq_of_plain,
  JsonText.Bare, JsonText.keyText, JsonText.skips_string
-/
import HftAlgorithms.Lib.TextSearch

open TextSearch

namespace JsonText

/-! ### Escaping -/

/-- The characters that cannot stand in a string as they are: the quote, the backslash and the
control characters. -/
def MustEscape (char : Char) : Prop := char = '"' ∨ char = '\\' ∨ char.toNat < 32

instance decidableMustEscape (char : Char) : Decidable (MustEscape char) :=
  inferInstanceAs (Decidable (_ ∨ _))

/-- A hexadecimal digit, in either case. -/
def hexValue (char : Char) : Option Nat :=
  if '0' ≤ char ∧ char ≤ '9' then some (char.toNat - '0'.toNat)
  else if 'a' ≤ char ∧ char ≤ 'f' then some (char.toNat - 'a'.toNat + 10)
  else if 'A' ≤ char ∧ char ≤ 'F' then some (char.toNat - 'A'.toNat + 10)
  else none

/-- What may be written for a character.  One that must be escaped has its short escape, if there is
one, or the one by its code. -/
inductive EscapeOf : Char → List Char → Prop where
  | plain (char : Char) (allowed : ¬ MustEscape char) : EscapeOf char [char]
  | quote : EscapeOf '"' ['\\', '"']
  | backslash : EscapeOf '\\' ['\\', '\\']
  | backspace : EscapeOf '\x08' ['\\', 'b']
  | formFeed : EscapeOf '\x0c' ['\\', 'f']
  | lineFeed : EscapeOf '\n' ['\\', 'n']
  | carriageReturn : EscapeOf '\r' ['\\', 'r']
  | tab : EscapeOf '\t' ['\\', 't']
  | code (char : Char) (must : MustEscape char) (digits : List Char) (values : List Nat)
      (four : digits.length = 4) (hex : digits.map hexValue = values.map some)
      (value : values.foldl (fun code digit => 16 * code + digit) 0 = char.toNat) :
      EscapeOf char ('\\' :: 'u' :: digits)

/-- A text and what is written for it. -/
inductive Escapes : List Char → List Char → Prop where
  | nil : Escapes [] []
  | cons {char : Char} {escape text written : List Char} (first : EscapeOf char escape)
      (rest : Escapes text written) : Escapes (char :: text) (escape ++ written)

/-- What may stand between the quotes of a string: a backslash takes the next character with it, and
no other character is a quote. -/
inductive StringBody : List Char → Prop where
  | nil : StringBody []
  | plain {char : Char} {rest : List Char} (notQuote : char ≠ '"') (notBackslash : char ≠ '\\')
      (body : StringBody rest) : StringBody (char :: rest)
  | escaped (char : Char) {rest : List Char} (body : StringBody rest) :
      StringBody ('\\' :: char :: rest)

theorem hexValue_quote : hexValue '"' = none := by decide

theorem hexValue_backslash : hexValue '\\' = none := by decide

theorem stringBody_hex {digits : List Char} {values : List Nat}
    (hex : digits.map hexValue = values.map some) {rest : List Char} (body : StringBody rest) :
    StringBody (digits ++ rest) := by
  induction digits generalizing values with
  | nil => exact body
  | cons digit digits inductionHypothesis =>
      cases values with
      | nil => cases hex
      | cons value values =>
          rw [List.map_cons, List.map_cons, List.cons.injEq] at hex
          apply StringBody.plain
          · rintro rfl
            rw [hexValue_quote] at hex
            cases hex.1
          · rintro rfl
            rw [hexValue_backslash] at hex
            cases hex.1
          · exact inductionHypothesis hex.2

theorem EscapeOf.stringBody {char : Char} {escape : List Char} (first : EscapeOf char escape)
    {rest : List Char} (body : StringBody rest) : StringBody (escape ++ rest) := by
  cases first with
  | plain char allowed =>
      rw [MustEscape, not_or, not_or] at allowed
      exact .plain allowed.1 allowed.2.1 body
  | quote => exact .escaped _ body
  | backslash => exact .escaped _ body
  | backspace => exact .escaped _ body
  | formFeed => exact .escaped _ body
  | lineFeed => exact .escaped _ body
  | carriageReturn => exact .escaped _ body
  | tab => exact .escaped _ body
  | code char must digits values four hex value =>
      exact .escaped 'u' (stringBody_hex hex body)

/-- What is written for a text stays between its quotes. -/
theorem Escapes.stringBody {text written : List Char} (escapes : Escapes text written) :
    StringBody written := by
  induction escapes with
  | nil => exact .nil
  | cons first rest inductionHypothesis => exact first.stringBody inductionHypothesis

theorem EscapeOf.eq_of_plain {char : Char} {escape : List Char} (first : EscapeOf char escape)
    (allowed : ¬ MustEscape char) : escape = [char] := by
  cases first with
  | plain char allowed => rfl
  | code char must digits values four hex value => exact absurd must allowed
  | quote | backslash | backspace | formFeed | lineFeed | carriageReturn | tab =>
      exact absurd (by decide) allowed

/-- A text that needs no escapes may be written as it is. -/
theorem escapes_self {text : List Char} (plain : ∀ char ∈ text, ¬ MustEscape char) :
    Escapes text text := by
  induction text with
  | nil => exact .nil
  | cons char text inductionHypothesis =>
      have later := inductionHypothesis fun other member =>
        plain other (List.mem_cons_of_mem _ member)
      exact .cons (.plain char (plain char List.mem_cons_self)) later

/-- It is written in no other way. -/
theorem Escapes.eq_of_plain {text written : List Char} (escapes : Escapes text written)
    (plain : ∀ char ∈ text, ¬ MustEscape char) : written = text := by
  induction escapes with
  | nil => rfl
  | cons first rest inductionHypothesis =>
      have here := first.eq_of_plain (plain _ List.mem_cons_self)
      have later := inductionHypothesis fun char member =>
        plain char (List.mem_cons_of_mem _ member)
      rw [here, later]
      rfl

/-! ### Keys -/

/-- A name without quotes and backslashes. -/
def Bare (name : List Char) : Prop := ∀ char ∈ name, char ≠ '"' ∧ char ≠ '\\'

instance decidableBare (name : List Char) : Decidable (Bare name) :=
  List.decidableBAll _ name

/-- A key with its quotes and colon, and whatever else is looked for behind it. -/
def keyText (name more : List Char) : List Char := '"' :: (name ++ '"' :: ':' :: more)

/-- A key starts at a quote that its name follows. -/
@[simp] theorem skips_keyText_cons {name more before rest : List Char} {item : Char} :
    Skips (keyText name more) (item :: before) rest ↔
      (item = '"' → ¬ name ++ '"' :: ':' :: more <+: before ++ rest) ∧
        Skips (keyText name more) before rest := by
  simp [Skips, keyText, eq_comm]

@[simp] theorem skips_keyText_nil {name more rest : List Char} :
    Skips (keyText name more) [] rest := trivial

/-- The rest of a key does not stand at any place of a string that no colon follows. -/
theorem not_prefix_of_stringBody {name more written rest : List Char} {next : Char}
    (bare : Bare name) (body : StringBody written) (noColon : next ≠ ':') :
    ¬ name ++ '"' :: ':' :: more <+: written ++ '"' :: next :: rest := by
  induction body generalizing name with
  | nil =>
      cases name with
      | nil => simp [noColon.symm]
      | cons char name => simp [(bare char List.mem_cons_self).1]
  | plain notQuote notBackslash body inductionHypothesis =>
      cases name with
      | nil => simp [notQuote.symm]
      | cons char name =>
          rw [List.cons_append, List.cons_append, List.cons_prefix_cons]
          exact fun both => inductionHypothesis
            (fun other member => bare other (List.mem_cons_of_mem _ member)) both.2
  | escaped char body inductionHypothesis =>
      cases name with
      | nil => simp
      | cons char name => simp [(bare char List.mem_cons_self).2]

/-- A key does not start anywhere in a string, its opening quote included. -/
theorem skips_string {name more written rest : List Char} {next : Char} (bare : Bare name)
    (body : StringBody written) (noColon : next ≠ ':') :
    Skips (keyText name more) ('"' :: written) ('"' :: next :: rest) := by
  constructor
  · rw [keyText, List.cons_prefix_cons]
    exact fun both => not_prefix_of_stringBody bare body noColon both.2
  · induction body with
    | nil => trivial
    | plain notQuote notBackslash body inductionHypothesis =>
        exact ⟨by simp [keyText, notQuote.symm], inductionHypothesis⟩
    | escaped char body inductionHypothesis =>
        refine ⟨by simp [keyText], ?_, inductionHypothesis⟩
        rw [keyText, List.cons_prefix_cons]
        exact fun both => not_prefix_of_stringBody bare body noColon both.2

end JsonText
