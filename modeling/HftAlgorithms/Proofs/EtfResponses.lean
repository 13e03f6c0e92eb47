/-
Module: HftAlgorithms.Proofs.EtfResponses
Purpose: What the ETF client reads out of a response of the documented shape.  It looks
  for its keys anywhere in the text, and finds each one where the service wrote it: no
  message holds a key, since a quote within a message has a backslash before it, and
  the quote that ends it has a comma behind it.
Trusted boundary: none
Main exports: answerBody, skips_answerMessage, parseSuccess_answerBody,
  parseBalance_answerBody, parseMessage_answerBody, parseResponse_answerBody
-/
import HftAlgorithms.Etf.ETFClient
import HftAlgorithms.Lib.JsonText

namespace HftAlgorithms

open DecimalText JsonText TextSearch

/-! ### The documented shape -/

def spaces (count : Nat) : List Char := List.replicate count ' '

def boolText (value : Bool) : List Char := if value then "true".toList else "false".toList

/-- From the brace to the key of the message. -/
def answerHead (success : Bool) (afterSuccess : Nat) : List Char :=
  "\x7b\"success\":".toList ++ boolText success ++ ",".toList ++ spaces afterSuccess

/-- The message, to the key of the balance.  `written` is what stands between its quotes. -/
def answerMessage (written : List Char) (afterMessage : Nat) : List Char :=
  "\"message\":\"".toList ++ written ++ "\",".toList ++ spaces afterMessage

/-- From the key of the balance to the brace. -/
def answerTail (balance : Int32) (beforeBalance : Nat) : List Char :=
  "\"undy_balance\":".toList ++ spaces beforeBalance ++ toText balance.toInt ++ "\x7d".toList

/-- What the service answers, with any numbers of spaces after the commas and before the balance. -/
def answerBody (success : Bool) (written : List Char) (balance : Int32)
    (afterSuccess afterMessage beforeBalance : Nat) : List Char :=
  answerHead success afterSuccess ++ (answerMessage written afterMessage ++
    answerTail balance beforeBalance)

section Answers

variable {success : Bool} {written : List Char} {balance : Int32}
  {afterSuccess afterMessage beforeBalance : Nat}

theorem quote_notMem_spaces {count : Nat} : '"' ∉ spaces count := by
  simp [spaces]

/-! ### Where the keys are found -/

@[simp] theorem skips_spaces {name more rest : List Char} {count : Nat} :
    Skips (keyText name more) (spaces count) rest :=
  skips_of_notMem quote_notMem_spaces rest

/-- A key that begins otherwise than `success` is not in the head. -/
theorem skips_answerHead {first : Char} {name more rest : List Char} (notS : first ≠ 's')
    (notColon : first ≠ ':') :
    Skips (keyText (first :: name) more) (answerHead success afterSuccess) rest := by
  unfold answerHead boolText
  cases success <;> simp [notS, notColon]

/-- Nor is it in the message, whose last quote a comma follows. -/
theorem skips_answerMessage {first : Char} {name more rest : List Char} (body : StringBody written)
    (bare : Bare (first :: name)) (notM : first ≠ 'm') (notColon : first ≠ ':')
    (notComma : first ≠ ',') :
    Skips (keyText (first :: name) more) (answerMessage written afterMessage) rest := by
  have message : Skips (keyText (first :: name) more) ('"' :: written)
      ('"' :: ',' :: (spaces afterMessage ++ rest)) :=
    skips_string bare body (by decide)
  have pieces : answerMessage written afterMessage =
      "\"message\":".toList ++ (('"' :: written) ++ ("\",".toList ++ spaces afterMessage)) := by
    unfold answerMessage
    simp
  rw [pieces]
  refine skips_append.mpr ⟨?_, skips_append.mpr ⟨by simpa using message, ?_⟩⟩
  · simp [notM, notColon]
  · simp [notComma]

theorem skips_answerTail {first : Char} {name more : List Char} (notU : first ≠ 'u')
    (notColon : first ≠ ':') :
    Skips (keyText (first :: name) more) (answerTail balance beforeBalance) [] := by
  have number : Skips (keyText (first :: name) more)
      (spaces beforeBalance ++ (toText balance.toInt ++ ['\x7d'])) [] := by
    apply skips_of_notMem
    simp [quote_notMem_spaces, notMem_toText]
  unfold answerTail
  simp [number, notU, notColon]

/-! ### What is read -/

/-- The key is where its value is. -/
theorem success_infix_answerBody :
    keyText "success".toList (boolText success) <:+:
      answerBody success written balance afterSuccess afterMessage beforeBalance := by
  unfold answerBody answerHead
  exact ⟨['\x7b'], ',' :: (spaces afterSuccess ++ (answerMessage written afterMessage ++
    answerTail balance beforeBalance)), by simp [keyText]⟩

/-- The other value is found nowhere. -/
theorem skips_success_true (body : StringBody written) :
    Skips (keyText "success".toList "true".toList)
      (answerBody false written balance afterSuccess afterMessage beforeBalance) [] := by
  have head : ∀ rest, Skips (keyText "success".toList "true".toList)
      (answerHead false afterSuccess) rest := by
    intro rest
    unfold answerHead boolText
    simp
  have message : ∀ rest, Skips (keyText "success".toList "true".toList)
      (answerMessage written afterMessage) rest := by
    intro rest
    apply skips_answerMessage body (by decide) <;> decide
  have tail : Skips (keyText "success".toList "true".toList)
      (answerTail balance beforeBalance) [] :=
    skips_answerTail (by decide) (by decide)
  exact skips_append.mpr ⟨head _, skips_append.mpr ⟨message _, tail⟩⟩

theorem parseSuccess_answerBody (body : StringBody written) :
    parseSuccess
      (answerBody success written balance afterSuccess afterMessage beforeBalance) =
        some success := by
  have there := (find_isSome_iff _).mpr (@success_infix_answerBody success written balance
    afterSuccess afterMessage beforeBalance)
  cases success with
  | true => exact if_pos there
  | false =>
      have nowhere := find_eq_none_of_skips (by simp [keyText])
        (@skips_success_true written balance afterSuccess afterMessage beforeBalance body) []
      have absent : ¬ (find "\"success\":true".toList
          (answerBody false written balance afterSuccess afterMessage beforeBalance) 0).isSome := by
        rw [Option.not_isSome_iff_eq_none]
        exact nowhere
      exact (if_neg absent).trans (if_pos there)

theorem find_balance (body : StringBody written) :
    find "\"undy_balance\":".toList
        (answerBody success written balance afterSuccess afterMessage beforeBalance) 0 =
      some (answerHead success afterSuccess ++ answerMessage written afterMessage).length := by
  have skipped : Skips (keyText "undy_balance".toList [])
      (answerHead success afterSuccess ++ answerMessage written afterMessage)
      (answerTail balance beforeBalance) := by
    apply skips_append.mpr
    refine ⟨skips_answerHead (by decide) (by decide), ?_⟩
    apply skips_answerMessage body (by decide) <;> decide
  have begins : keyText "undy_balance".toList [] <+: answerTail balance beforeBalance := by
    unfold answerTail
    simp [keyText]
  have found := find_zero_of_skips skipped begins
  rw [List.append_assoc] at found
  exact found

theorem parseBalance_answerBody (body : StringBody written) :
    parseBalance
      (answerBody success written balance afterSuccess afterMessage beforeBalance) = balance := by
  have behind : (answerBody success written balance afterSuccess afterMessage beforeBalance).drop
      ((answerHead success afterSuccess ++ answerMessage written afterMessage).length +
        "\"undy_balance\":".toList.length) =
        spaces beforeBalance ++ (toText balance.toInt ++ ['\x7d']) := by
    have cut := drop_append_append
      (answerHead success afterSuccess ++ answerMessage written afterMessage)
      "\"undy_balance\":".toList (spaces beforeBalance ++ (toText balance.toInt ++ ['\x7d']))
    rw [List.append_assoc] at cut
    have same : answerTail balance beforeBalance = "\"undy_balance\":".toList ++
        (spaces beforeBalance ++ (toText balance.toInt ++ ['\x7d'])) := by
      unfold answerTail
      simp
    rw [← same] at cut
    exact cut
  have number : (spaces beforeBalance ++ (toText balance.toInt ++ ['\x7d'])).dropWhile (· = ' ') =
      toText balance.toInt ++ ['\x7d'] := by
    obtain ⟨char, later, written, kind⟩ := head_toText balance.toInt
    have visible : char ≠ ' ' := by
      rintro rfl
      rcases kind with digit | minus
      · exact absurd digit (by decide)
      · exact absurd minus (by decide)
    simp [spaces, written, visible]
  have read := @stoi_toText balance ['\x7d'] (by simp [NoDigit])
  unfold parseBalance
  simp only [find_balance body, behind, number, read]

/-- A message without quotes is read to its end. -/
theorem parseMessage_answerBody (plain : '"' ∉ written) :
    parseMessage
      (answerBody success written balance afterSuccess afterMessage beforeBalance) = written := by
  have skipped : Skips (keyText "message".toList ['"']) (answerHead success afterSuccess)
      (answerMessage written afterMessage ++ answerTail balance beforeBalance) :=
    skips_answerHead (by decide) (by decide)
  have begins : keyText "message".toList ['"'] <+:
      answerMessage written afterMessage ++ answerTail balance beforeBalance := by
    unfold answerMessage
    simp [keyText]
  have start : find "\"message\":\"".toList
      (answerBody success written balance afterSuccess afterMessage beforeBalance) 0 =
        some (answerHead success afterSuccess).length :=
    find_zero_of_skips skipped begins
  let front := answerHead success afterSuccess ++ "\"message\":\"".toList
  let behind := '"' :: ',' :: (spaces afterMessage ++ answerTail balance beforeBalance)
  have whole : answerBody success written balance afterSuccess afterMessage beforeBalance =
      front ++ (written ++ behind) := by
    unfold answerBody answerMessage
    simp [front, behind]
  have unquoted : Skips ['"'] written behind := skips_of_notMem plain behind
  have stop := find_of_skips unquoted (List.prefix_append ['"'] _) front
  have cut := substr_append front written behind
  rw [← whole, List.length_append] at stop cut
  unfold parseMessage
  simp only [start, stop, Nat.add_sub_cancel_left, cut]

end Answers

/-- No message spoils the reading of a response, and one that needs no escapes is read itself. -/
theorem parseResponse_answerBody (success : Bool) (balance : Int32)
    (afterSuccess afterMessage beforeBalance : Nat) {message written : List Char}
    (escapes : Escapes message written) :
    let result := parseResponse
      (answerBody success written balance afterSuccess afterMessage beforeBalance) true
    result.success = success ∧ result.undyBalance = balance ∧
      ((∀ char ∈ message, ¬ MustEscape char) → result.message = String.ofList message) := by
  have body := escapes.stringBody
  have read := @parseSuccess_answerBody success written balance afterSuccess afterMessage
    beforeBalance body
  simp only [parseResponse, if_true, read, parseBalance_answerBody body, true_and]
  intro plain
  have same := escapes.eq_of_plain plain
  subst same
  rw [parseMessage_answerBody]
  intro member
  exact plain _ member (by decide)

theorem parseResponse_answerBody_created :
    let result := parseResponse (answerBody true "Created 5 UNDY...".toList 10 2 1 0) true
    result.success = true ∧ result.undyBalance = 10 ∧ result.message = "Created 5 UNDY..." := by
  have plain : ∀ char ∈ "Created 5 UNDY...".toList, ¬ MustEscape char := by
    simp [MustEscape]
  have read := parseResponse_answerBody true 10 2 1 0 (escapes_self plain)
  exact ⟨read.1, read.2.1, read.2.2 plain⟩

end HftAlgorithms
