/-
Module: HftAlgorithms.Lib.HttpText
Purpose: HTTP responses as text: status line, header lines, blank line and body.
  The first blank line is the one before the body, and a pattern without line
  ends lies within one line or within the body.
Trusted boundary: none
Main exports: StatusLine, StatusLine.code, HttpResponse, HttpResponse.text,
  HttpResponse.skips_blankLine, HttpResponse.infix_text_iff
-/
import HftAlgorithms.Lib.TextSearch
import Mathlib.Data.Fin.Basic

open TextSearch

/-- Text without the characters that end a line. -/
def InLine (text : List Char) : Prop := '\r' ∉ text ∧ '\n' ∉ text

instance decidableInLine (text : List Char) : Decidable (InLine text) :=
  inferInstanceAs (Decidable (_ ∧ _))

/-- The status line of a response: the digits of the version and of the code, and the reason. -/
structure StatusLine where
  major : Fin 10
  minor : Fin 10
  hundreds : Fin 10
  tens : Fin 10
  ones : Fin 10
  reason : List Char
  inLine : InLine reason

namespace StatusLine

/-- The status code. -/
def code (status : StatusLine) : Nat :=
  100 * status.hundreds + 10 * status.tens + status.ones

/-- The digit of a number below ten. -/
def digit (value : Fin 10) : Char := Nat.digitChar value

def version (status : StatusLine) : List Char :=
  "HTTP/".toList ++ [digit status.major, '.', digit status.minor]

def digits (status : StatusLine) : List Char :=
  [digit status.hundreds, digit status.tens, digit status.ones]

def text (status : StatusLine) : List Char :=
  status.version ++ ' ' :: (status.digits ++ ' ' :: status.reason)

theorem digit_isDigit (value : Fin 10) : (digit value).isDigit = true := by
  revert value
  decide

theorem digit_injective {value other : Fin 10} (same : digit value = digit other) :
    value = other := by
  revert value other
  decide

/-- A digit is none of the other characters. -/
theorem digit_ne {value : Fin 10} {char : Char} (other : char.isDigit = false) :
    digit value ≠ char := by
  rintro rfl
  rw [digit_isDigit] at other
  cases other

theorem inLine_text (status : StatusLine) : InLine status.text := by
  have cr : ∀ value, '\r' ≠ digit value := fun value => (digit_ne (by decide)).symm
  have lf : ∀ value, '\n' ≠ digit value := fun value => (digit_ne (by decide)).symm
  constructor
  · simp [text, version, digits, cr, status.inLine.1]
  · simp [text, version, digits, lf, status.inLine.2]

end StatusLine

/-- A complete response.  The body may be anything. -/
structure HttpResponse where
  status : StatusLine
  headers : List (List Char)
  body : List Char
  headerLines : ∀ line ∈ headers, line ≠ [] ∧ InLine line

namespace HttpResponse

/-- What ends the header lines. -/
def blankLine : List Char := ['\r', '\n', '\r', '\n']

/-- Each header line, with the end of the line before it. -/
def headerText (headers : List (List Char)) : List Char :=
  headers.flatMap fun line => '\r' :: '\n' :: line

def head (response : HttpResponse) : List Char :=
  response.status.text ++ headerText response.headers

def text (response : HttpResponse) : List Char :=
  response.head ++ (blankLine ++ response.body)

/-! ### The blank line -/

theorem skips_headerText {headers : List (List Char)}
    (lines : ∀ line ∈ headers, line ≠ [] ∧ InLine line) (rest : List Char) :
    Skips blankLine (headerText headers) rest := by
  induction headers with
  | nil => trivial
  | cons line headers inductionHypothesis =>
      obtain ⟨nonempty, inLine⟩ := lines line List.mem_cons_self
      have later := inductionHypothesis fun other member =>
        lines other (List.mem_cons_of_mem _ member)
      have within : Skips blankLine line (headerText headers ++ rest) :=
        skips_of_notMem inLine.1 _
      cases line with
      | nil => exact absurd rfl nonempty
      | cons first others =>
          have visible : '\r' ≠ first := fun same => inLine.1 (List.mem_cons.mpr (Or.inl same))
          have whole : headerText ((first :: others) :: headers) =
              '\r' :: '\n' :: ((first :: others) ++ headerText headers) := rfl
          rw [whole]
          refine ⟨?_, ?_, skips_append.mpr ⟨within, later⟩⟩
          · simp [blankLine, visible]
          · simp [blankLine]

/-- No line of the head is blank. -/
theorem skips_blankLine (response : HttpResponse) (rest : List Char) :
    Skips blankLine response.head rest :=
  skips_append.mpr ⟨skips_of_notMem response.status.inLine_text.1 _,
    skips_headerText response.headerLines rest⟩

/-! ### Patterns -/

section Patterns

variable {pattern : List Char} (nonempty : pattern ≠ []) (inLine : InLine pattern)

include nonempty inLine

/-- A pattern lies before a line end or behind it. -/
theorem infix_lineEnd_iff (before after : List Char) :
    pattern <:+: before ++ '\r' :: '\n' :: after ↔
      pattern <:+: before ∨ pattern <:+: after := by
  have behind := @infix_append_cons_iff _ _ _ [] after inLine.2
  rw [List.nil_append, List.infix_nil] at behind
  rw [infix_append_cons_iff inLine.1, behind]
  simp [nonempty]

theorem infix_headerText_iff (headers : List (List Char)) (before after : List Char) :
    pattern <:+: before ++ (headerText headers ++ '\r' :: '\n' :: after) ↔
      pattern <:+: before ∨ (∃ line ∈ headers, pattern <:+: line) ∨ pattern <:+: after := by
  induction headers generalizing before with
  | nil =>
      have last := infix_lineEnd_iff nonempty inLine before after
      simpa [headerText] using last
  | cons line headers inductionHypothesis =>
      have whole : headerText (line :: headers) ++ '\r' :: '\n' :: after =
          '\r' :: '\n' :: (line ++ (headerText headers ++ '\r' :: '\n' :: after)) := by
        simp [headerText]
      rw [whole, infix_lineEnd_iff nonempty inLine, inductionHypothesis]
      simp [or_assoc]

/-- In the text of a response it lies within the status line, a header line or the body. -/
theorem infix_text_iff (response : HttpResponse) :
    pattern <:+: response.text ↔
      pattern <:+: response.status.text ∨ (∃ line ∈ response.headers, pattern <:+: line) ∨
        pattern <:+: response.body := by
  have whole : response.text = response.status.text ++
      (headerText response.headers ++ '\r' :: '\n' :: ([] ++ '\r' :: '\n' :: response.body)) := by
    simp [text, head, blankLine]
  rw [whole, infix_headerText_iff nonempty inLine, infix_lineEnd_iff nonempty inLine,
    List.infix_nil]
  simp [nonempty]

end Patterns

end HttpResponse
