/-
Module: HftAlgorithms.Proofs.ResponseAttribution
Purpose: When the success a call of the order-entry client reports is about its
  own order.  A closing fill or a close of any order ends every wait with true.
Trusted boundary: none
Main exports: OEClient.ConfirmsEntry, OEClient.ConfirmsDelete,
  OEClient.returned_attributed_iff
-/
import HftAlgorithms.OrderEntry.OEClient

namespace HftAlgorithms

open StreamScan

namespace OEClient

/-! ### New orders and modifies -/

/-- An ACK or a FILL for the order. -/
def ConfirmsEntry (id : UInt64) : OeResponse → Prop
  | .ack orderId => orderId = id
  | .fill orderId _ _ _ => orderId = id
  | _ => False

/-- A response that settles whether a wait for an entry of `id` is answered rightly: an ACK, a
REJECT or a FILL of the order, or a closing FILL or a CLOSE of any order. -/
def tellsEntry (id : UInt64) : OeResponse → Bool
  | .ack orderId => orderId = id
  | .reject orderId _ => orderId = id
  | .fill orderId _ _ flags => orderId = id ∨ flags = .CLOSED
  | .closed _ => true
  | .other => false

/-- Such a response, if it is an ACK, a FILL or a plain REJECT of the order itself. -/
def answersEntry (id : UInt64) : OeResponse → Bool
  | .ack orderId => orderId = id
  | .reject orderId rejectReason => orderId = id ∧ rejectReason ≠ .UKNOWN_ORDER_ID
  | .fill orderId _ _ _ => orderId = id
  | .closed _ => false
  | .other => false

/-- The first telling response, if there is one, is the order's own answer. -/
def EntryAnswered (id : UInt64) (stream : List OeResponse) : Prop :=
  ∀ first, stream.find? (tellsEntry id) = some first → answersEntry id first = true

theorem entry_confirmed_iff (id : UInt64) (stream : List OeResponse) :
    ((scan (verdict id) stream).verdict = some true →
        ∃ response ∈ (scan (verdict id) stream).read, ConfirmsEntry id response) ↔
      EntryAnswered id stream := by
  apply confirmed_iff
  · intro response value ends
    cases response with
    | ack orderId => simp_all [verdict, tellsEntry, answersEntry, ConfirmsEntry]
    | reject orderId rejectReason =>
        by_cases own : orderId = id
        · by_cases gone : rejectReason = .UKNOWN_ORDER_ID
          · simp_all [verdict, tellsEntry, answersEntry, ConfirmsEntry]
          · simp_all [verdict, tellsEntry, answersEntry, ConfirmsEntry]
        · simp [verdict, own] at ends
    | fill orderId quantity price flags =>
        simp_all [verdict, tellsEntry, answersEntry, ConfirmsEntry]
    | closed orderId => simp_all [verdict, tellsEntry, answersEntry, ConfirmsEntry]
    | other => cases ends
  · intro response goesOn
    cases response with
    | ack orderId => simp_all [verdict, tellsEntry, answersEntry, ConfirmsEntry]
    | reject orderId rejectReason =>
        by_cases own : orderId = id
        · by_cases gone : rejectReason = .UKNOWN_ORDER_ID <;> simp [verdict, own, gone] at goesOn
        · simp [tellsEntry, ConfirmsEntry, own]
    | fill orderId quantity price flags =>
        by_cases own : orderId = id <;> simp_all [verdict, tellsEntry, answersEntry, ConfirmsEntry]
    | closed orderId => cases goesOn
    | other => simp [tellsEntry, ConfirmsEntry]

/-! ### Deletes -/

/-- An ACK, a closing FILL, a CLOSE or an UNKNOWN_ORDER_ID reject for the order. -/
def ConfirmsDelete (id : UInt64) : OeResponse → Prop
  | .ack orderId => orderId = id
  | .reject orderId rejectReason => orderId = id ∧ rejectReason = .UKNOWN_ORDER_ID
  | .fill orderId _ _ flags => orderId = id ∧ flags = .CLOSED
  | .closed orderId => orderId = id
  | .other => False

/-- A response that ends the wait. -/
def endsWait (id : UInt64) (response : OeResponse) : Bool :=
  (verdict id response).isSome

/-- Such a response, if it is about the order itself. -/
def answersDelete (id : UInt64) : OeResponse → Bool
  | .ack orderId => orderId = id
  | .reject orderId _ => orderId = id
  | .fill orderId _ _ _ => orderId = id
  | .closed orderId => orderId = id
  | .other => false

/-- The response that ends the wait, if there is one, is about the order itself. -/
def DeleteAnswered (id : UInt64) (stream : List OeResponse) : Prop :=
  ∀ first, stream.find? (endsWait id) = some first → answersDelete id first = true

theorem delete_confirmed_iff (id : UInt64) (stream : List OeResponse) :
    ((scan (verdict id) stream).verdict = some true →
        ∃ response ∈ (scan (verdict id) stream).read, ConfirmsDelete id response) ↔
      DeleteAnswered id stream := by
  apply confirmed_iff
  · intro response value ends
    refine ⟨by simp [endsWait, ends], ?_⟩
    cases response with
    | ack orderId => simp_all [verdict, answersDelete, ConfirmsDelete]
    | reject orderId rejectReason =>
        by_cases own : orderId = id
        · by_cases gone : rejectReason = .UKNOWN_ORDER_ID <;>
            simp_all [verdict, answersDelete, ConfirmsDelete]
        · simp [verdict, own] at ends
    | fill orderId quantity price flags =>
        simp_all [verdict, answersDelete, ConfirmsDelete]
    | closed orderId => simp_all [verdict, answersDelete, ConfirmsDelete]
    | other => cases ends
  · intro response goesOn
    right
    refine ⟨by simp [endsWait, goesOn], ?_⟩
    cases response with
    | ack orderId => simp_all [verdict, ConfirmsDelete]
    | reject orderId rejectReason =>
        by_cases own : orderId = id
        · by_cases gone : rejectReason = .UKNOWN_ORDER_ID <;> simp [verdict, own, gone] at goesOn
        · simp [ConfirmsDelete, own]
    | fill orderId quantity price flags => simp_all [verdict, ConfirmsDelete]
    | closed orderId => cases goesOn
    | other => simp [ConfirmsDelete]

/-! ### Calls -/

/-- The one comparison of the clock with the deadline comes too late, so nothing is read. -/
def EntersLate (start check : Int) : Prop := check > start + milliseconds 3000

/-- A call's success rests on a response that it read and that confirms it. -/
def Result.Attributed (result : Result) (confirms : OeResponse → Prop) : Prop :=
  result.returned = true → ∃ response ∈ result.read, confirms response

theorem request_attributed_iff (client : OEClient) (start check : Int) (id : UInt64)
    (body : OeRequestHeader → OeRequest) (stream : List OeResponse) {confirms : OeResponse → Prop}
    {answered : Prop}
    (confirmed : ((scan (verdict id) stream).verdict = some true →
      ∃ response ∈ (scan (verdict id) stream).read, confirms response) ↔ answered) :
    (client.request start check id body stream).Attributed confirms ↔
      EntersLate start check ∨ answered := by
  rw [Result.Attributed, ← confirmed]
  by_cases late : EntersLate start check
  · have nothing : waitScan start check id stream = ⟨[], stream, some false⟩ := if_pos late
    simp [request, waitForResponse, nothing, late]
  · have scanned : waitScan start check id stream = scan (verdict id) stream := if_neg late
    have decided : ∀ value : Option Bool, value.getD false = true ↔ value = some true := by
      intro value
      cases value <;> simp
    simp only [request, waitForResponse, scanned, decided, late, false_or]

/-- The success of a new order or a modify rests on an ACK or a FILL of the same order exactly
when the first telling response of the stream is the order's own answer; that of a delete,
exactly when the response that ends the wait is about the order. -/
theorem returned_attributed_iff (client : OEClient) (start check : Int) (id : UInt64)
    (stream : List OeResponse) :
    (∀ symbol side qty price,
        (client.sendNewOrder start check id symbol side qty price stream).Attributed
            (ConfirmsEntry id) ↔
          EntersLate start check ∨ EntryAnswered id stream) ∧
      (∀ side qty price,
        (client.modifyOrder start check id side qty price stream).Attributed (ConfirmsEntry id) ↔
          EntersLate start check ∨ EntryAnswered id stream) ∧
      ((client.deleteOrder start check id stream).Attributed (ConfirmsDelete id) ↔
        EntersLate start check ∨ DeleteAnswered id stream) := by
  refine ⟨?_, ?_, ?_⟩
  · intro symbol side qty price
    exact request_attributed_iff client start check id _ stream (entry_confirmed_iff id stream)
  · intro side qty price
    exact request_attributed_iff client start check id _ stream (entry_confirmed_iff id stream)
  · exact request_attributed_iff client start check id _ stream (delete_confirmed_iff id stream)

/-- A client that has logged in and sent nothing. -/
def loggedIn : OEClient :=
  { sessionId := 1, seqNum := 1, clientId := 8, liveOrders := ∅ }

/-- The closing fill of order 7 makes the new order 8, a modify of 8 and a delete of 8 return
true with nothing about 8 read. -/
theorem other_fill_reported_as_success :
    ¬ (loggedIn.sendNewOrder 0 0 8 3 .BUY 5 100 [.fill 7 5 100 .CLOSED]).Attributed
        (ConfirmsEntry 8) ∧
      ¬ (loggedIn.modifyOrder 0 0 8 .BUY 5 100 [.fill 7 5 100 .CLOSED]).Attributed
        (ConfirmsEntry 8) ∧
      ¬ (loggedIn.deleteOrder 0 0 8 [.fill 7 5 100 .CLOSED]).Attributed (ConfirmsDelete 8) := by
  have different : (7 : UInt64) ≠ 8 := by decide
  refine ⟨?_, ?_, ?_⟩
  · intro attributed
    obtain ⟨response, member, confirms⟩ := attributed rfl
    cases List.mem_singleton.mp member
    exact different confirms
  · intro attributed
    obtain ⟨response, member, confirms⟩ := attributed rfl
    cases List.mem_singleton.mp member
    exact different confirms
  · intro attributed
    obtain ⟨response, member, confirms⟩ := attributed rfl
    cases List.mem_singleton.mp member
    exact different confirms.1

end OEClient

end HftAlgorithms
