/-
Module: HftAlgorithms.Proofs.HttpStatus
Purpose: How the ETF client takes the status out of a response.  It searches all of the
  text, so that the reason, the header lines and the body speak for the status as well;
  this says of every response whether it is understood.
Trusted boundary: none
Main exports: HttpResponse.Mentions, extractBody_text, httpOk_text_iff, isHealthy_text_iff,
  passedOk, answerOf_eq_passedOk, ETFClient.postAmount_eq, ETFClient.healthCheck_eq,
  ReadsStatus, readsStatus_iff
-/
import HftAlgorithms.Etf.ETFClient
import HftAlgorithms.Lib.HttpText

open TextSearch

namespace StatusLine

/-! ### The status line -/

theorem code_eq_two_hundred_iff (status : StatusLine) :
    status.code = 200 ↔ 2 = status.hundreds ∧ 0 = status.tens ∧ 0 = status.ones := by
  have tens := status.tens.isLt
  have ones := status.ones.isLt
  simp only [code, Fin.ext_iff]
  omega

theorem ne_digit {value : Fin 10} {char : Char} (other : char.isDigit = false) :
    char ≠ digit value :=
  (digit_ne other).symm

theorem digit_eq_digit_iff {value other : Fin 10} : digit value = digit other ↔ value = other :=
  ⟨digit_injective, congrArg digit⟩

theorem text_eq (status : StatusLine) :
    status.text = 'H' :: 'T' :: 'T' :: 'P' :: '/' :: digit status.major :: '.' ::
      digit status.minor :: ' ' :: digit status.hundreds :: digit status.tens ::
        digit status.ones :: ' ' :: status.reason := by
  simp [text, version, digits]

/-- The start of a status line with code 200. -/
def okStart (minor : Fin 10) : List Char :=
  ['H', 'T', 'T', 'P', '/', digit 1, '.', digit minor, ' ', digit 2, digit 0, digit 0]

theorem okStart_infix_text_iff (status : StatusLine) (minor : Fin 10) :
    okStart minor <:+: status.text ↔
      (1 = status.major ∧ minor = status.minor ∧ status.code = 200) ∨
        okStart minor <:+: status.reason := by
  rw [text_eq, code_eq_two_hundred_iff]
  simp [okStart, List.infix_cons_iff, List.cons_prefix_cons, ne_digit, digit_eq_digit_iff]

theorem two_hundred_infix_text_iff (status : StatusLine) :
    [digit 2, digit 0, digit 0] <:+: status.text ↔
      status.code = 200 ∨ [digit 2, digit 0, digit 0] <:+: status.reason := by
  rw [text_eq, code_eq_two_hundred_iff]
  simp [List.infix_cons_iff, List.cons_prefix_cons, digit_ne, digit_eq_digit_iff]

theorem quote_infix_text_iff (status : StatusLine) {more : List Char} :
    '"' :: more <:+: status.text ↔ '"' :: more <:+: status.reason := by
  rw [text_eq]
  simp [List.infix_cons_iff, List.cons_prefix_cons, ne_digit]

end StatusLine

namespace HttpResponse

/-- The pattern stands in the reason, in a header line or in the body. -/
def Mentions (response : HttpResponse) (pattern : List Char) : Prop :=
  pattern <:+: response.status.reason ∨ (∃ line ∈ response.headers, pattern <:+: line) ∨
    pattern <:+: response.body

/-- The status line is one of HTTP/1.0 or HTTP/1.1. -/
def FirstVersion (response : HttpResponse) : Prop :=
  response.status.major = 1 ∧ (response.status.minor = 0 ∨ response.status.minor = 1)

/-- A part of the response besides the version and the code looks like the start of a status line
with code 200. -/
def MentionsOk (response : HttpResponse) : Prop :=
  response.Mentions "HTTP/1.0 200".toList ∨ response.Mentions "HTTP/1.1 200".toList

end HttpResponse

namespace HftAlgorithms

/-! ### What the client finds -/

theorem extractBody_text (response : HttpResponse) :
    extractBody response.text = response.body := by
  have found := find_zero_of_skips (response.skips_blankLine _)
    (List.prefix_append HttpResponse.blankLine response.body)
  have cut := drop_append_append response.head HttpResponse.blankLine response.body
  have sep : "\r\n\r\n".toList = HttpResponse.blankLine := rfl
  unfold extractBody
  simp only [sep, HttpResponse.text, found, cut]

theorem text_ne_nil (response : HttpResponse) : response.text ≠ [] := by
  simp [HttpResponse.text, HttpResponse.blankLine]

theorem okStart_infix_text_iff (response : HttpResponse) (minor : Fin 10) :
    StatusLine.okStart minor <:+: response.text ↔
      (1 = response.status.major ∧ minor = response.status.minor ∧ response.status.code = 200) ∨
        response.Mentions (StatusLine.okStart minor) := by
  have inLine : InLine (StatusLine.okStart minor) := by
    simp [InLine, StatusLine.okStart, StatusLine.ne_digit]
  rw [response.infix_text_iff (by simp [StatusLine.okStart]) inLine,
    StatusLine.okStart_infix_text_iff, HttpResponse.Mentions, or_assoc]

/-- `http_ok`. -/
theorem httpOk_text_iff (response : HttpResponse) :
    httpOk response.text = true ↔
      (response.status.code = 200 ∧ response.FirstVersion) ∨ response.MentionsOk := by
  have zero : "HTTP/1.0 200".toList = StatusLine.okStart 0 := rfl
  have one : "HTTP/1.1 200".toList = StatusLine.okStart 1 := rfl
  rw [httpOk, Bool.or_eq_true, find_isSome_iff, find_isSome_iff, HttpResponse.MentionsOk, zero, one,
    okStart_infix_text_iff, okStart_infix_text_iff, HttpResponse.FirstVersion]
  tauto

/-- `health_check`. -/
theorem isHealthy_text_iff (response : HttpResponse) :
    isHealthy response.text = true ↔
      (response.status.code = 200 ∨ response.Mentions "200".toList) ∧
        response.Mentions "\"ok\"".toList := by
  have code : "200".toList = [StatusLine.digit 2, StatusLine.digit 0, StatusLine.digit 0] := rfl
  have ok : "\"ok\"".toList = '"' :: "ok\"".toList := rfl
  rw [isHealthy, if_neg (text_ne_nil response), Bool.and_eq_true, find_isSome_iff, find_isSome_iff,
    response.infix_text_iff (by decide) (by decide),
    response.infix_text_iff (by decide) (by decide), code, ok,
    StatusLine.two_hundred_infix_text_iff, StatusLine.quote_infix_text_iff, or_assoc]
  rfl

/-- What `post_amount` passes on as `http_ok`, if it gets that far. -/
def passedOk (response : List Char) : Option Bool :=
  if response = [] ∨ extractBody response = [] then none else some (httpOk response)

theorem answerOf_eq_passedOk {response : List Char} {ok : Bool}
    (passed : passedOk response = some ok) :
    answerOf response = parseResponse (extractBody response) ok := by
  rw [passedOk] at passed
  split at passed
  · cases passed
  · rename_i both
    rw [not_or] at both
    rw [answerOf, if_neg both.1, if_neg both.2, Option.some.inj passed]

section Calls

variable (client : ETFClient) {service : List Char → Option (ChunkedStream Char)}
  {stream : ChunkedStream Char} {response : HttpResponse} (arrives : stream.items = response.text)

include arrives

/-- A response is taken whole, in whatever pieces it comes. -/
theorem sendHttpRequest_some : sendHttpRequest (some stream) = response.text := by
  rw [sendHttpRequest, ChunkedStream.readAll_eq_items (by decide), arrives]

theorem ETFClient.postAmount_eq {endpoint : List Char} {amount : Int32}
    (answers : service (client.postRequest endpoint amount) = some stream) :
    client.postAmount service endpoint amount = answerOf response.text := by
  rw [postAmount, answers, sendHttpRequest_some arrives]

theorem ETFClient.healthCheck_eq (answers : service client.healthRequest = some stream) :
    client.healthCheck service = isHealthy response.text := by
  rw [healthCheck, answers, sendHttpRequest_some arrives]

end Calls

/-! ### When the status is understood -/

/-- The client takes the status from the status line. -/
def ReadsStatus (response : HttpResponse) : Prop :=
  (∀ ok ∈ passedOk response.text, (ok = true ↔ response.status.code = 200)) ∧
    (isHealthy response.text = true → response.status.code = 200)

/-- It does just if, first, there is no body, or a code 200 is told by the version or by other parts
of the response, or another code is contradicted by none of them; and, second, the code is 200, or
one of the two words of a healthy answer stands in none of them. -/
theorem readsStatus_iff (response : HttpResponse) :
    ReadsStatus response ↔
      (response.body = [] ∨
        (if response.status.code = 200 then response.FirstVersion ∨ response.MentionsOk
          else ¬ response.MentionsOk)) ∧
      (response.status.code = 200 ∨ ¬ response.Mentions "200".toList ∨
        ¬ response.Mentions "\"ok\"".toList) := by
  have passed : (∀ ok ∈ passedOk response.text, (ok = true ↔ response.status.code = 200)) ↔
      (response.body = [] ∨ (httpOk response.text = true ↔ response.status.code = 200)) := by
    rw [passedOk, extractBody_text]
    by_cases empty : response.body = []
    · simp [empty]
    · simp [empty, text_ne_nil]
  rw [ReadsStatus, passed, httpOk_text_iff, isHealthy_text_iff]
  split
  · rename_i okay
    simp [okay]
  · rename_i otherwise
    simp only [otherwise, false_and, false_or, iff_false, imp_false, not_and_or]

/-- A failure whose body quotes what another server said. -/
def upstreamFailure : HttpResponse where
  status :=
    { major := 1, minor := 1, hundreds := 5, tens := 0, ones := 0
      reason := "Internal Server Error".toList
      inLine := by decide }
  headers := ["Content-Type: application/json".toList]
  body := "\x7b\"error\":\"broker said HTTP/1.1 200 \",\"database\":\"ok\"\x7d".toList
  headerLines := by simp [InLine]

/-- Its code is 500, and the client takes it for a success. -/
theorem not_readsStatus_upstreamFailure : ¬ ReadsStatus upstreamFailure := by
  intro reads
  have quoted : upstreamFailure.Mentions "HTTP/1.1 200".toList := by
    apply Or.inr
    apply Or.inr
    exact ⟨"\x7b\"error\":\"broker said ".toList, " \",\"database\":\"ok\"\x7d".toList, rfl⟩
  have passed : passedOk upstreamFailure.text = some true := by
    have found := (httpOk_text_iff upstreamFailure).mpr (Or.inr (Or.inr quoted))
    have nonempty : upstreamFailure.body ≠ [] := by simp [upstreamFailure]
    simp [passedOk, extractBody_text, text_ne_nil, nonempty, found]
  have okay := (reads.1 true passed).mp rfl
  exact absurd okay (by decide)

end HftAlgorithms
