/-
Module: HftAlgorithms.Lib.HttpRequest
Purpose: HTTP requests as text, and a reader for them that knows the format only: head
  lines to the first blank line, method, target and version, fields by name, a body
  as long as its length field says, and basic credentials.
Trusted boundary: none
Main exports: HttpRequest, HttpRequest.read, HttpRequest.credentials,
  HttpRequest.text, HttpRequest.WellFormed, HttpRequest.read_text
-/
import HftAlgorithms.Lib.Base64
import HftAlgorithms.Lib.DecimalText
import HftAlgorithms.Lib.HttpText

open DecimalText

/-- A request: its request line, its fields in order, and its body. -/
structure HttpRequest where
  method : List Char
  target : List Char
  version : List Char
  fields : List (List Char × List Char)
  body : List Char
deriving DecidableEq, Repr

namespace HttpRequest

/-! ### Reading -/

/-- The lines of a head, to the blank line, and what follows that.  `line` is what has been read of
the line at hand. -/
def readHead (line : List Char) : List Char → Option (List (List Char) × List Char)
  | '\r' :: '\n' :: rest =>
      if line = [] then some ([], rest)
      else (readHead [] rest).map fun (lines, body) => (line :: lines, body)
  | char :: rest => readHead (line ++ [char]) rest
  | [] => none

/-- What stands before and behind the first separator. -/
def cutAt {α : Type} [DecidableEq α] (separator : α) : List α → Option (List α × List α)
  | [] => none
  | item :: rest =>
      if item = separator then some ([], rest)
      else (cutAt separator rest).map fun (before, behind) => (item :: before, behind)

/-- A field line.  Spaces before the value do not belong to it. -/
def readField (line : List Char) : Option (List Char × List Char) :=
  (cutAt ':' line).map fun (name, value) => (name, value.dropWhile (· = ' '))

/-- How long the body is. -/
def contentLength (fields : List (List Char × List Char)) : Option Nat :=
  match fields.lookup "Content-Length".toList with
  | none => some 0
  | some value => leadingDigits value

def read (text : List Char) : Option HttpRequest := do
  let (lines, body) ← readHead [] text
  let first ← lines.head?
  let (method, behind) ← cutAt ' ' first
  let (target, version) ← cutAt ' ' behind
  let fields ← lines.tail.mapM readField
  let length ← contentLength fields
  if body.length = length then return ⟨method, target, version, fields, body⟩ else none

/-- User and password, which basic authorization separates by a colon. -/
def credentials (request : HttpRequest) : Option (List UInt8 × List UInt8) := do
  let value ← request.fields.lookup "Authorization".toList
  if "Basic ".toList <+: value then
    let bytes ← Base64.decode (value.drop "Basic ".toList.length)
    cutAt 58 bytes
  else none

/-! ### Writing -/

def lineEnd : List Char := ['\r', '\n']

def requestLine (request : HttpRequest) : List Char :=
  request.method ++ ' ' :: (request.target ++ ' ' :: request.version)

def fieldLine (field : List Char × List Char) : List Char := field.1 ++ ':' :: ' ' :: field.2

def text (request : HttpRequest) : List Char :=
  request.requestLine ++ lineEnd ++
    (request.fields.flatMap fun field => fieldLine field ++ lineEnd) ++ lineEnd ++ request.body

/-- What can be read back. -/
structure WellFormed (request : HttpRequest) : Prop where
  method : ' ' ∉ request.method
  target : ' ' ∉ request.target
  requestLine : InLine request.requestLine
  names : ∀ field ∈ request.fields, ':' ∉ field.1
  values : ∀ field ∈ request.fields, field.2.dropWhile (· = ' ') = field.2
  fieldLines : ∀ field ∈ request.fields, InLine (fieldLine field)
  length : contentLength request.fields = some request.body.length

/-! ### Reading back -/

theorem readHead_append {part : List Char} (noReturn : '\r' ∉ part) (line rest : List Char) :
    readHead line (part ++ rest) = readHead (line ++ part) rest := by
  induction part generalizing line with
  | nil => simp
  | cons char part inductionHypothesis =>
      rw [List.mem_cons, not_or] at noReturn
      rw [List.cons_append, readHead]
      · rw [inductionHypothesis noReturn.2]
        simp
      · intro _ returns _
        exact absurd returns.symm noReturn.1

theorem readHead_blank (rest : List Char) : readHead [] (lineEnd ++ rest) = some ([], rest) := rfl

theorem readHead_line {line : List Char} (some_text : line ≠ []) (noReturn : '\r' ∉ line)
    (rest : List Char) :
    readHead [] (line ++ (lineEnd ++ rest)) =
      (readHead [] rest).map fun (lines, body) => (line :: lines, body) := by
  rw [readHead_append noReturn, List.nil_append, lineEnd, List.cons_append, List.cons_append,
    readHead, if_neg some_text, List.nil_append]

theorem readHead_lines {lines : List (List Char)}
    (visible : ∀ line ∈ lines, line ≠ [] ∧ '\r' ∉ line) (body : List Char) :
    readHead [] ((lines.flatMap fun line => line ++ lineEnd) ++ (lineEnd ++ body)) =
      some (lines, body) := by
  induction lines with
  | nil => exact readHead_blank body
  | cons line lines inductionHypothesis =>
      obtain ⟨some_text, noReturn⟩ := visible line List.mem_cons_self
      have later := inductionHypothesis fun other member =>
        visible other (List.mem_cons_of_mem _ member)
      rw [List.flatMap_cons, List.append_assoc, List.append_assoc,
        readHead_line some_text noReturn, later, Option.map_some]

theorem cutAt_append {α : Type} [DecidableEq α] {separator : α} {before : List α}
    (absent : separator ∉ before) (behind : List α) :
    cutAt separator (before ++ separator :: behind) = some (before, behind) := by
  induction before with
  | nil => simp [cutAt]
  | cons item before inductionHypothesis =>
      rw [List.mem_cons, not_or] at absent
      have other : item ≠ separator := fun same => absent.1 same.symm
      simp [cutAt, other, inductionHypothesis absent.2]

theorem readField_fieldLine {field : List Char × List Char} (name : ':' ∉ field.1)
    (value : field.2.dropWhile (· = ' ') = field.2) : readField (fieldLine field) = some field := by
  have space : (' ' :: field.2).dropWhile (· = ' ') = field.2 := by simpa using value
  rw [readField, fieldLine, cutAt_append name, Option.map_some]
  exact congrArg some (Prod.ext rfl space)

theorem mapM_readField {fields : List (List Char × List Char)}
    (names : ∀ field ∈ fields, ':' ∉ field.1)
    (values : ∀ field ∈ fields, field.2.dropWhile (· = ' ') = field.2) :
    (fields.map fieldLine).mapM readField = some fields := by
  induction fields with
  | nil => rfl
  | cons field fields inductionHypothesis =>
      have later := inductionHypothesis
        (fun other member => names other (List.mem_cons_of_mem _ member))
        (fun other member => values other (List.mem_cons_of_mem _ member))
      have here := readField_fieldLine (names field List.mem_cons_self)
        (values field List.mem_cons_self)
      simp [List.mapM_cons, here, later]

/-- A request that is well formed is read as it was written. -/
theorem read_text {request : HttpRequest} (wellFormed : request.WellFormed) :
    read request.text = some request := by
  have lines : ∀ line ∈ request.requestLine :: request.fields.map fieldLine,
      line ≠ [] ∧ '\r' ∉ line := by
    intro line member
    rcases List.mem_cons.mp member with rfl | later
    · exact ⟨by simp [HttpRequest.requestLine], wellFormed.requestLine.1⟩
    · obtain ⟨field, isField, rfl⟩ := List.mem_map.mp later
      exact ⟨by simp [fieldLine], (wellFormed.fieldLines field isField).1⟩
  have head := readHead_lines lines request.body
  have whole : request.text =
      ((request.requestLine :: request.fields.map fieldLine).flatMap fun line =>
        line ++ lineEnd) ++ (lineEnd ++ request.body) := by
    simp [text, List.flatMap_map]
  have first := cutAt_append wellFormed.method (request.target ++ ' ' :: request.version)
  have second := cutAt_append wellFormed.target request.version
  have fields := mapM_readField wellFormed.names wellFormed.values
  rw [read, whole, head]
  simp [HttpRequest.requestLine, first, second, fields, wellFormed.length]

end HttpRequest
