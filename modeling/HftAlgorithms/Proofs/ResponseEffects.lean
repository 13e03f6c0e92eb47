/-
Module: HftAlgorithms.Proofs.ResponseEffects
Purpose: What a response does does not depend on which of the two reading loops
  reads it, nor on whose answer that loop is waiting for.
Trusted boundary: none
Main exports: OEClient.responseLoop_eq, OEClient.Closes, OEClient.mem_liveOrders_iff,
  OEClient.WaitCall, OEClient.Session, OEClient.effects_independent_of_reader
-/
import HftAlgorithms.OrderEntry.OEClient

namespace HftAlgorithms

open StreamScan

namespace OEClient

/-! ### One iteration -/

/-- A turn that does with every response what `receive` and `callbacks` say. -/
def Faithful (turn : OEClient → OeResponse → Turn) : Prop :=
  ∀ client response, (turn client response).client = client.receive response ∧
    (turn client response).callbacks = response.callbacks

/-- The flag of a closing fill, as the two loops and `receive` test it. -/
theorem closing_eq (client : OEClient) (orderId : UInt64) (flags : FillFlags) :
    (if decide (flags = .CLOSED) then
        { client with liveOrders := client.liveOrders.erase orderId } else client) =
      if flags = .CLOSED then { client with liveOrders := client.liveOrders.erase orderId }
      else client := by
  by_cases closing : flags = .CLOSED <;> simp [closing]

theorem faithful_responseTurn (expectedOrderId : UInt64) :
    Faithful (responseTurn expectedOrderId) := by
  intro client response
  cases response with
  | ack orderId => exact ⟨rfl, rfl⟩
  | reject orderId rejectReason => exact ⟨rfl, rfl⟩
  | fill orderId quantity price flags => exact ⟨closing_eq client orderId flags, rfl⟩
  | closed orderId => exact ⟨rfl, rfl⟩
  | other => exact ⟨rfl, rfl⟩

theorem faithful_fillTurn (expectedOrderId : UInt64) : Faithful (fillTurn expectedOrderId) := by
  intro client response
  cases response with
  | ack orderId => exact ⟨rfl, rfl⟩
  | reject orderId rejectReason => exact ⟨rfl, rfl⟩
  | fill orderId quantity price flags => exact ⟨closing_eq client orderId flags, rfl⟩
  | closed orderId => exact ⟨rfl, rfl⟩
  | other => exact ⟨rfl, rfl⟩

/-- `verdict` is how `wait_for_response` returns. -/
theorem returns_responseTurn (expectedOrderId : UInt64) (client : OEClient)
    (response : OeResponse) :
    (responseTurn expectedOrderId client response).returns = verdict expectedOrderId response := by
  cases response with
  | ack orderId => rfl
  | reject orderId rejectReason => rfl
  | fill orderId quantity price flags =>
      by_cases closing : flags = .CLOSED <;> simp [responseTurn, verdict, closing]
  | closed orderId => rfl
  | other => rfl

/-- `fillVerdict` is how `wait_for_fill` returns. -/
theorem returns_fillTurn (expectedOrderId : UInt64) (client : OEClient) (response : OeResponse) :
    (fillTurn expectedOrderId client response).returns =
      fillVerdict expectedOrderId response := by
  cases response with
  | ack orderId => rfl
  | reject orderId rejectReason => rfl
  | fill orderId quantity price flags => simp [fillTurn, fillVerdict]
  | closed orderId => rfl
  | other => rfl

/-! ### One loop -/

/-- What a scan of the stream leaves when each response read is received and called back. -/
def Result.ofScan (client : OEClient) (waited : Scan OeResponse Bool) : Result :=
  { client := waited.read.foldl receive client
    sent := []
    callbacks := waited.read.flatMap OeResponse.callbacks
    read := waited.read
    unread := waited.unread
    returned := waited.verdict.getD false }

/-- A reading loop with faithful turns is a scan of the stream. -/
theorem readLoop_eq {turn : OEClient → OeResponse → Turn} {verdict : OeResponse → Option Bool}
    (faithful : Faithful turn)
    (returns : ∀ client response, (turn client response).returns = verdict response)
    (late : Nat → Bool) (count : Nat) (client : OEClient) (stream : List OeResponse) :
    readLoop turn late count client stream =
      Result.ofScan client (scanUntil late verdict count stream) := by
  induction stream generalizing count client with
  | nil => rfl
  | cons response rest inductionHypothesis =>
      obtain ⟨sameClient, sameCallbacks⟩ := faithful client response
      rw [readLoop, scanUntil]
      split
      · rfl
      · dsimp only
        rw [returns, sameClient, sameCallbacks]
        cases verdict response with
        | some value => simp [Result.ofScan]
        | none =>
            dsimp only
            rw [inductionHypothesis]
            rfl

/-- The loop of `wait_for_response`, branch by branch, is `waitForResponse`. -/
theorem responseLoop_eq (client : OEClient) (start check : Int) (expectedOrderId : UInt64)
    (stream : List OeResponse) :
    client.responseLoop start check expectedOrderId stream =
      client.waitForResponse start check expectedOrderId stream := by
  rw [responseLoop, waitForResponse, waitScan]
  split
  · rfl
  · rw [readLoop_eq (faithful_responseTurn expectedOrderId)
      (returns_responseTurn expectedOrderId), scanUntil_never]
    rfl

/-- `wait_for_fill`, branch by branch, is a scan too. -/
theorem waitForFill_eq (client : OEClient) (start : Int) (clock : Nat → Int)
    (expectedOrderId : UInt64) (stream : List OeResponse) :
    client.waitForFill start clock expectedOrderId stream =
      Result.ofScan client (fillScan start clock expectedOrderId stream) :=
  readLoop_eq (faithful_fillTurn expectedOrderId) (returns_fillTurn expectedOrderId) _ 0 client
    stream

/-! ### Which orders are live -/

/-- A closing FILL or a CLOSE of the order. -/
def Closes (id : UInt64) : OeResponse → Prop
  | .fill orderId _ _ flags => orderId = id ∧ flags = .CLOSED
  | .closed orderId => orderId = id
  | _ => False

/-- The order has been acknowledged, and not closed since. -/
def AckedAndOpen (id : UInt64) (read : List OeResponse) : Prop :=
  ∃ before after, read = before ++ .ack id :: after ∧ ∀ response ∈ after, ¬ Closes id response

/-- What one response does to the membership of one id. -/
theorem mem_liveOrders_receive (client : OEClient) (response : OeResponse) (id : UInt64) :
    id ∈ (client.receive response).liveOrders ↔
      response = .ack id ∨ (id ∈ client.liveOrders ∧ ¬ Closes id response) := by
  cases response with
  | ack orderId => simp [receive, Closes, eq_comm]
  | reject orderId rejectReason => simp [receive, Closes]
  | fill orderId quantity price flags =>
      by_cases closing : flags = .CLOSED
      · simp [receive, Closes, closing, eq_comm, and_comm]
      · simp [receive, Closes, closing]
  | closed orderId => simp [receive, Closes, eq_comm, and_comm]
  | other => simp [receive, Closes]

theorem ackedAndOpen_append (id : UInt64) (read : List OeResponse) (response : OeResponse) :
    AckedAndOpen id (read ++ [response]) ↔
      response = .ack id ∨ (AckedAndOpen id read ∧ ¬ Closes id response) := by
  constructor
  · rintro ⟨before, after, same, silent⟩
    rcases List.eq_nil_or_concat after with rfl | ⟨earlier, last, rfl⟩
    · have split : read ++ [response] = before ++ [.ack id] := same
      exact Or.inl (List.append_inj_right' split rfl |> List.singleton_inj.mp)
    · have split : read ++ [response] = (before ++ .ack id :: earlier) ++ [last] := by
        simpa using same
      obtain ⟨rfl, sameLast⟩ := List.append_inj' split rfl
      cases List.singleton_inj.mp sameLast
      right
      refine ⟨⟨before, earlier, rfl, ?_⟩, ?_⟩
      · intro inner member
        exact silent inner (by simp [member])
      · exact silent response (by simp)
  · rintro (rfl | ⟨⟨before, after, rfl, silent⟩, stays⟩)
    · exact ⟨read, [], rfl, by simp⟩
    · refine ⟨before, after ++ [response], by simp, ?_⟩
      intro later member
      rcases List.mem_append.mp member with earlier | last
      · exact silent later earlier
      · rw [List.mem_singleton.mp last]
        exact stays

/-- From no live orders, the live orders are those acknowledged and not closed since. -/
theorem mem_liveOrders_iff {client : OEClient} (fresh : client.liveOrders = ∅)
    (read : List OeResponse) (id : UInt64) :
    id ∈ (read.foldl receive client).liveOrders ↔ AckedAndOpen id read := by
  induction read using List.reverseRecOn with
  | nil =>
      rw [List.foldl_nil, fresh]
      constructor
      · exact fun member => absurd member (Finset.notMem_empty id)
      · rintro ⟨before, after, impossible, -⟩
        simp at impossible
  | append_singleton read response inductionHypothesis =>
      rw [List.foldl_append, List.foldl_cons, List.foldl_nil, mem_liveOrders_receive,
        ackedAndOpen_append, inductionHypothesis]

/-! ### Sequences of waits -/

/-- A call that reads responses, with its readings of the clock. -/
inductive WaitCall where
  | forResponse (start check : Int) (expectedOrderId : UInt64)
  | forFill (start : Int) (clock : Nat → Int) (expectedOrderId : UInt64)

/-- What has been read and called back so far, and what is still to be read. -/
structure Session where
  client : OEClient
  callbacks : List Callback
  read : List OeResponse
  unread : List OeResponse

/-- A client just logged in, before the first response. -/
def Session.start (sessionId : UInt64) (seqNum clientId : UInt32) (stream : List OeResponse) :
    Session :=
  { client := { sessionId := sessionId, seqNum := seqNum, clientId := clientId, liveOrders := ∅ }
    callbacks := []
    read := []
    unread := stream }

/-- One call, by the loop of the source. -/
def WaitCall.result (client : OEClient) (stream : List OeResponse) : WaitCall → Result
  | .forResponse start check expectedOrderId =>
      client.responseLoop start check expectedOrderId stream
  | .forFill start clock expectedOrderId =>
      client.waitForFill start clock expectedOrderId stream

def Session.wait (session : Session) (call : WaitCall) : Session :=
  let result := call.result session.client session.unread
  { client := result.client
    callbacks := session.callbacks ++ result.callbacks
    read := session.read ++ result.read
    unread := result.unread }

/-- The responses read so far are taken one after the other, whoever read them. -/
structure Session.Follows (first session : Session) (stream : List OeResponse) : Prop where
  split : session.read ++ session.unread = stream
  client_eq : session.client = session.read.foldl receive first.client
  callbacks_eq : session.callbacks = session.read.flatMap OeResponse.callbacks

/-- Each call is a scan of what is left. -/
theorem WaitCall.exists_scan (client : OEClient) (stream : List OeResponse) (call : WaitCall) :
    ∃ waited : Scan OeResponse Bool, waited.read ++ waited.unread = stream ∧
      call.result client stream = Result.ofScan client waited := by
  cases call with
  | forResponse start check expectedOrderId =>
      by_cases late : check > start + milliseconds 3000
      · refine ⟨⟨[], stream, some false⟩, rfl, ?_⟩
        rw [result, responseLoop, if_pos late]
        rfl
      · refine ⟨scanUntil (fun _ => false) (verdict expectedOrderId) 0 stream,
          read_append_unread _ _ 0 stream, ?_⟩
        rw [result, responseLoop, if_neg late, readLoop_eq (faithful_responseTurn expectedOrderId)
          (returns_responseTurn expectedOrderId)]
  | forFill start clock expectedOrderId =>
      exact ⟨fillScan start clock expectedOrderId stream, read_append_unread _ _ 0 stream,
        waitForFill_eq client start clock expectedOrderId stream⟩

theorem Session.Follows.wait {first session : Session} {stream : List OeResponse}
    (follows : first.Follows session stream) (call : WaitCall) :
    first.Follows (session.wait call) stream := by
  obtain ⟨waited, split, same⟩ := call.exists_scan session.client session.unread
  refine ⟨?_, ?_, ?_⟩
  · rw [Session.wait, same]
    dsimp only [Result.ofScan]
    rw [List.append_assoc, split]
    exact follows.split
  · rw [Session.wait, same]
    dsimp only [Result.ofScan]
    rw [List.foldl_append, follows.client_eq]
  · rw [Session.wait, same]
    dsimp only [Result.ofScan]
    rw [List.flatMap_append, follows.callbacks_eq]

theorem Session.follows_foldl {first : Session} {stream : List OeResponse}
    (calls : List WaitCall) {session : Session} (follows : first.Follows session stream) :
    first.Follows (calls.foldl Session.wait session) stream := by
  induction calls generalizing session with
  | nil => exact follows
  | cons call calls inductionHypothesis => exact inductionHypothesis (follows.wait call)

/-- What the waits have done is what the responses read so far are for: one callback for each FILL,
REJECT and CLOSE in the order of the stream, and the orders acknowledged and not closed since
are live. -/
structure Session.Effects (session : Session) (stream : List OeResponse) : Prop where
  isPrefix : session.read <+: stream
  callbacks : session.callbacks = session.read.flatMap OeResponse.callbacks
  live : ∀ id, id ∈ session.client.liveOrders ↔ AckedAndOpen id session.read

theorem Session.effects_foldl (sessionId : UInt64) (seqNum clientId : UInt32)
    (stream : List OeResponse) (calls : List WaitCall) :
    (calls.foldl Session.wait (Session.start sessionId seqNum clientId stream)).Effects stream := by
  have started : (Session.start sessionId seqNum clientId stream).Follows
      (Session.start sessionId seqNum clientId stream) stream := ⟨rfl, rfl, rfl⟩
  have follows := Session.follows_foldl calls started
  refine ⟨⟨_, follows.split⟩, follows.callbacks_eq, ?_⟩
  intro id
  rw [follows.client_eq]
  exact mem_liveOrders_iff rfl _ id

/-- Two sequences of waits that have consumed the same responses have made the same callbacks and
keep the same orders live. -/
theorem effects_independent_of_reader (sessionId : UInt64) (seqNum clientId : UInt32)
    (stream : List OeResponse) {calls others : List WaitCall}
    (same : (calls.foldl Session.wait (.start sessionId seqNum clientId stream)).read =
      (others.foldl Session.wait (.start sessionId seqNum clientId stream)).read) :
    (calls.foldl Session.wait (.start sessionId seqNum clientId stream)).Effects stream ∧
      (calls.foldl Session.wait (.start sessionId seqNum clientId stream)).callbacks =
        (others.foldl Session.wait (.start sessionId seqNum clientId stream)).callbacks ∧
      (calls.foldl Session.wait (.start sessionId seqNum clientId stream)).client.liveOrders =
        (others.foldl Session.wait
          (.start sessionId seqNum clientId stream)).client.liveOrders := by
  have effects := Session.effects_foldl sessionId seqNum clientId stream calls
  have effectsToo := Session.effects_foldl sessionId seqNum clientId stream others
  refine ⟨effects, ?_, ?_⟩
  · rw [effects.callbacks, effectsToo.callbacks, same]
  · apply Finset.ext
    intro id
    rw [effects.live, effectsToo.live, same]

/-- An order is filled and closed, another is rejected, a third is closed by the exchange. -/
def fillRejectClose : List OeResponse :=
  [.ack 1, .ack 2, .fill 1 5 100 .CLOSED, .reject 3 .INVALID_PRICE, .closed 2, .ack 4]

/-- One wait for a fill that never comes reads what three waits for responses read. -/
theorem effects_independent_of_reader_fillRejectClose :
    ([WaitCall.forFill 0 (fun _ => 0) 9].foldl Session.wait
        (.start 1 1 8 fillRejectClose)).callbacks =
      ([WaitCall.forResponse 0 0 9, .forResponse 0 0 9, .forResponse 0 0 4].foldl Session.wait
        (.start 1 1 8 fillRejectClose)).callbacks :=
  (effects_independent_of_reader 1 1 8 fillRejectClose (by decide)).2.1

end OEClient

end HftAlgorithms
