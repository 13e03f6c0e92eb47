/-
Module: HftAlgorithms.Proofs.WireResponses
Purpose: A session on the bytes of the connection does what the session on messages
  does, however TCP cuts the responses and whatever the buffers held before.
Trusted boundary: none
Main exports: OeResponseMessage.frame, readOeResponse_of_holds, Carries,
  OEClient.readFrames_carries, WireSession.Follows, WireSession.follows_run,
  WireSession.login_then_run
-/
import HftAlgorithms.OrderEntry.WireSession
import HftAlgorithms.Proofs.ResponseBounds
import HftAlgorithms.Proofs.ResponseEffects

namespace HftAlgorithms

open LittleEndian

/-! ### One response -/

section Responses

variable {buf : Memory} {message : OeResponseMessage}

/-- The header stands in front of the body. -/
theorem header_of_holds (holds : Holds buf 0 message.bytes) :
    word buf 0 2 = message.body.size ∧ buf 2 = message.body.typeByte ∧
      Holds buf 16 message.body.bytes := by
  rw [OeResponseMessage.bytes, holds_append, message.length_headerBytes] at holds
  obtain ⟨header, body⟩ := holds
  simp only [OeResponseMessage.headerBytes, holds_append, holds_singleton, length_bytesOf,
    List.length_singleton, Nat.reduceAdd] at header
  obtain ⟨length, type, -⟩ := header
  have fits : message.body.size < 256 ^ 2 := by
    cases message.body <;> simp [OeResponseBody.size]
  exact ⟨length.word fits, type, body⟩

/-- The reading loops find the response that has been sent. -/
theorem readOeResponse_of_holds (holds : Holds buf 0 message.bytes) :
    readOeResponse buf = message.view := by
  obtain ⟨-, type, body⟩ := header_of_holds holds
  rw [readOeResponse, type, OeResponseMessage.view]
  cases kind : message.body with
  | orderAck orderId exchOrderId quantity price =>
      simp only [kind, OeResponseBody.bytes, holds_append] at body
      simp only [OeResponseBody.typeByte, ResponseType.ofByte, OeResponseBody.view,
        body.1.uint64]
  | orderReject orderId rejectReason =>
      simp only [kind, OeResponseBody.bytes, holds_append, holds_singleton, length_bytesOf,
        Nat.reduceAdd] at body
      simp only [OeResponseBody.typeByte, ResponseType.ofByte, OeResponseBody.view,
        body.1.uint64, body.2]
  | orderFill orderId quantity price flags =>
      simp only [kind, OeResponseBody.bytes, holds_append, holds_singleton, length_bytesOf,
        Nat.reduceAdd] at body
      obtain ⟨orderIdHeld, quantityHeld, priceHeld, flagsHeld⟩ := body
      simp only [OeResponseBody.typeByte, ResponseType.ofByte, OeResponseBody.view,
        orderIdHeld.uint64, quantityHeld.uint32, priceHeld.uint32, flagsHeld,
        Int32.toInt32_toUInt32]
  | orderClosed orderId =>
      simp only [kind, OeResponseBody.bytes] at body
      simp only [OeResponseBody.typeByte, ResponseType.ofByte, OeResponseBody.view, body.uint64]
  | loginResponse sessionId status => rfl
  | errorMessage errorCode errorMessageLength text => rfl

/-- `login` finds the session id of a response that accepts it. -/
theorem readLoginResponse_of_holds {sessionId : UInt64} {status : UInt8}
    (accepted : message.body = .loginResponse sessionId status)
    (holds : Holds buf 0 message.bytes) :
    readLoginResponse buf = if status = loginSuccess then some sessionId else none := by
  obtain ⟨-, -, body⟩ := header_of_holds holds
  simp only [accepted, OeResponseBody.bytes, holds_append, holds_singleton, length_bytesOf,
    Nat.reduceAdd] at body
  rw [readLoginResponse, body.2, body.1.uint64]
  by_cases success : status = loginSuccess <;> simp [success]

theorem responseLength_bytes (message : OeResponseMessage) :
    responseLength message.bytes = message.bytes.length := by
  have header := header_of_holds (holds_getD message.bytes fun _ => 0)
  rw [responseLength, header.1, message.length_bytes]

end Responses

/-- Every response is a frame that `read_response` can take. -/
def OeResponseMessage.frame (message : OeResponseMessage) : ResponseFrame where
  bytes := message.bytes
  headed := by
    rw [message.length_bytes]
    cases message.body <;> simp [OeResponseBody.size, sizeofResponseHeader]
  fits := by
    rw [message.length_bytes]
    cases message.body <;> simp [OeResponseBody.size]
  length_eq := responseLength_bytes message

/-! ### The stream -/

/-- A piece of a response that is not the whole of it. -/
def IsCut (cut : List UInt8) : Prop :=
  ∃ message : OeResponseMessage, cut <+: message.bytes ∧ cut ≠ message.bytes

/-- What is still to come on the socket are the messages, and at most a piece of a further one
before the stream ends. -/
def Carries (socket : ChunkedStream UInt8) (stream : List OeResponse) : Prop :=
  ∃ (messages : List OeResponseMessage) (cut : List UInt8),
    stream = messages.map OeResponseMessage.view ∧ IsCut cut ∧
      socket.items = messages.flatMap OeResponseMessage.bytes ++ cut

theorem isCut_nil : IsCut [] := by
  let message : OeResponseMessage := ⟨⟨0, 0, 0, 0⟩, .orderClosed 0⟩
  refine ⟨message, List.nil_prefix, ?_⟩
  intro whole
  have size := congrArg List.length whole
  simp [message.length_bytes, message, OeResponseBody.size] at size

/-- A stream that has ended carries nothing. -/
theorem carries_of_ended {socket : ChunkedStream UInt8} (ended : socket.items = []) :
    Carries socket [] :=
  ⟨[], [], rfl, isCut_nil, by simp [ended]⟩

namespace OEClient

section Reads

variable {socket : ChunkedStream UInt8}

/-- A call that fails has come to the end of the stream. -/
theorem items_of_readResponse_none (failed : (readResponse socket).1 = none) :
    (readResponse socket).2.items = [] := by
  cases header : (socket.readExactly sizeofResponseHeader).1 with
  | none =>
      simp only [readResponse, header]
      exact ChunkedStream.items_of_readExactly_none header
  | some hdr =>
      obtain ⟨missing, left, fails⟩ := readResponse_of_header header
      rw [left]
      exact ChunkedStream.items_of_readExactly_none (fails.mp failed)

/-- A call at the start of a response leaves it in the buffer. -/
theorem holds_bufferAfter {message : OeResponseMessage} {later : List UInt8}
    (toCome : socket.items = message.bytes ++ later) (buf : Memory) :
    Holds (bufferAfter buf socket) 0 message.bytes := by
  have read := (readResponse_of_frame message.frame toCome).1
  have after : bufferAfter buf socket = fun index => message.bytes.getD index (buf index) := by
    rw [bufferAfter_of_read read]
    funext index
    exact MemoryWrite.apply_zero buf message.bytes index
  rw [after]
  exact holds_getD message.bytes buf

/-- A socket on which no whole response is left fails the next call. -/
theorem readResponse_of_carries_nil (carries : Carries socket []) :
    (readResponse socket).1 = none := by
  obtain ⟨messages, cut, views, ⟨message, begins, inside⟩, toCome⟩ := carries
  obtain rfl : messages = [] := List.map_eq_nil_iff.mp views.symm
  exact readResponse_of_cut message.frame begins inside toCome

/-- A socket that carries a response delivers it, and carries the rest then. -/
theorem readResponse_of_carries_cons {response : OeResponse} {rest : List OeResponse}
    (carries : Carries socket (response :: rest)) (buf : Memory) :
    (readResponse socket).1 ≠ none ∧ readOeResponse (bufferAfter buf socket) = response ∧
      Carries (readResponse socket).2 rest := by
  obtain ⟨messages, cut, views, isCut, toCome⟩ := carries
  cases messages with
  | nil => cases views
  | cons message messages =>
      rw [List.map_cons, List.cons.injEq] at views
      rw [List.flatMap_cons, List.append_assoc] at toCome
      obtain ⟨read, left⟩ := readResponse_of_frame message.frame toCome
      refine ⟨by simp [read], ?_, messages, cut, views.2, isCut, left⟩
      rw [readOeResponse_of_holds (holds_bufferAfter toCome buf), views.1]

end Reads

/-! ### The reading loops -/

/-- What a wait on bytes leaves is what the wait on messages leaves. -/
structure WireResult.Follows (wire : WireResult) (result : Result) : Prop where
  client : wire.client = result.client
  callbacks : wire.callbacks = result.callbacks
  returned : wire.returned = result.returned
  carries : Carries wire.socket result.unread

/-- The loop on bytes takes message after message, as the loop on messages does, whatever the
buffers held. -/
theorem readFrames_follows (turn : OEClient → OeResponse → Turn) (late : Nat → Bool)
    (stack : Nat → Memory → Memory) {socket : ChunkedStream UInt8} {stream : List OeResponse}
    (carries : Carries socket stream) (count : Nat) (client : OEClient) (left : Memory) :
    (readFrames turn late stack count client left socket).Follows
      (readLoop turn late count client stream) := by
  induction stream generalizing socket count client left with
  | nil =>
      have failed := readResponse_of_carries_nil carries
      rw [readFrames, readLoop]
      split
      · exact ⟨rfl, rfl, rfl, carries⟩
      · exact ⟨rfl, rfl, rfl, carries_of_ended (items_of_readResponse_none failed)⟩
  | cons response rest inductionHypothesis =>
      obtain ⟨delivered, view, later⟩ := readResponse_of_carries_cons carries (stack count left)
      rw [readFrames, readLoop]
      split
      · exact ⟨rfl, rfl, rfl, carries⟩
      · dsimp only
        rw [view]
        cases returns : (turn client response).returns with
        | some value => exact ⟨rfl, rfl, rfl, later⟩
        | none =>
            obtain ⟨sameClient, sameCallbacks, sameReturned, restCarried⟩ :=
              inductionHypothesis later (count + 1) (turn client response).client
                (bufferAfter (stack count left) socket)
            exact ⟨sameClient, congrArg _ sameCallbacks, sameReturned, restCarried⟩

theorem waitForResponseBytes_follows {socket : ChunkedStream UInt8} {stream : List OeResponse}
    (carries : Carries socket stream) (client : OEClient) (start check : Int)
    (expectedOrderId : UInt64) (stack : Nat → Memory) :
    (client.waitForResponseBytes start check expectedOrderId stack socket).Follows
      (client.waitForResponse start check expectedOrderId stream) := by
  rw [← responseLoop_eq, waitForResponseBytes, responseLoop]
  split
  · exact ⟨rfl, rfl, rfl, carries⟩
  · exact readFrames_follows _ _ _ carries 0 client (stack 0)

theorem waitForFillBytes_follows {socket : ChunkedStream UInt8} {stream : List OeResponse}
    (carries : Carries socket stream) (client : OEClient) (start : Int) (clock : Nat → Int)
    (expectedOrderId : UInt64) (stack : Nat → Memory) :
    (client.waitForFillBytes start clock expectedOrderId stack socket).Follows
      (client.waitForFill start clock expectedOrderId stream) :=
  readFrames_follows _ _ _ carries 0 client (stack 0)

end OEClient

/-! ### Sessions -/

namespace WireSession

/-- The session on bytes has done what the session on messages has, has sent the bytes of its
requests after those of its login, and its socket carries what that one has not read. -/
structure Follows (login : List UInt8) (wire : WireSession) (session : OeSession) : Prop where
  client : wire.client = session.client
  sent : wire.sent = login ++ session.sent.flatMap OeRequest.bytes
  callbacks : wire.callbacks = session.callbacks
  answers : wire.answers = session.answers
  carries : Carries wire.socket session.unread

section Calls

variable {login : List UInt8} {wire : WireSession} {session : OeSession}

/-- A wait after a request follows the call of the client. -/
theorem follows_extend (follows : Follows login wire session) {waited : OEClient.WireResult}
    {result : OEClient.Result} {sent : List UInt8} (after : waited.Follows result)
    (bytes : sent = result.sent.flatMap OeRequest.bytes) :
    Follows login
      { client := waited.client
        sent := wire.sent ++ sent
        callbacks := wire.callbacks ++ waited.callbacks
        answers := wire.answers ++ [some waited.returned]
        socket := waited.socket }
      (session.extend result) where
  client := after.client
  sent := by simp [OeSession.extend, follows.sent, bytes]
  callbacks := by simp [OeSession.extend, follows.callbacks, after.callbacks]
  answers := by simp [OeSession.extend, follows.answers, after.returned]
  carries := after.carries

/-- The request of a call does not change what its wait leaves. -/
theorem follows_request {waited : OEClient.WireResult} {client : OEClient} {start check : Int}
    {orderId : UInt64} {stream : List OeResponse}
    (after : waited.Follows (client.header.1.waitForResponse start check orderId stream))
    (body : OeRequestHeader → OeRequest) :
    waited.Follows (client.request start check orderId body stream) :=
  ⟨after.client, after.callbacks, after.returned, after.carries⟩

theorem follows_call (follows : Follows login wire session) (call : OeCall)
    (stack : Nat → Memory) :
    Follows login (wire.call (call, stack)) (session.call call) := by
  obtain ⟨client, sent, callbacks, answers, socket⟩ := wire
  obtain rfl : client = session.client := follows.client
  have responses (waiting : OEClient) (start check : Int) (orderId : UInt64) :=
    OEClient.waitForResponseBytes_follows follows.carries waiting start check orderId stack
  cases call with
  | sendNewOrder start check orderId symbol side qty price =>
      exact follows_extend follows
        (follows_request (responses session.client.header.1 start check orderId) _)
        (by simp [OeCall.request, OEClient.sendNewOrder, OEClient.request])
  | sendNewOrderNoWait orderId symbol side qty price =>
      refine ⟨rfl, ?_, follows.callbacks, congrArg (· ++ [none]) follows.answers,
        follows.carries⟩
      have before : sent = login ++ session.sent.flatMap OeRequest.bytes := follows.sent
      simp [call, wait, OeSession.call, OeCall.request, OEClient.sendNewOrderNoWait, before]
  | modifyOrder start check orderId side qty price =>
      exact follows_extend follows
        (follows_request (responses session.client.header.1 start check orderId) _)
        (by simp [OeCall.request, OEClient.modifyOrder, OEClient.request])
  | deleteOrder start check orderId =>
      exact follows_extend follows
        (follows_request (responses session.client.header.1 start check orderId) _)
        (by simp [OeCall.request, OEClient.deleteOrder, OEClient.request])
  | waitForResponse start check expectedOrderId =>
      exact follows_extend follows (responses session.client start check expectedOrderId) rfl
  | waitForFill start clock expectedOrderId =>
      exact follows_extend follows
        (OEClient.waitForFillBytes_follows follows.carries session.client start clock
          expectedOrderId stack)
        (by simp [OeCall.request, OEClient.waitForFill_eq, OEClient.Result.ofScan])

/-- Call after call. -/
theorem follows_run (follows : Follows login wire session)
    (calls : List (OeCall × (Nat → Memory))) :
    Follows login (wire.run calls) (session.run (calls.map Prod.fst)) := by
  induction calls generalizing wire session with
  | nil => exact follows
  | cons placed calls inductionHypothesis =>
      obtain ⟨call, stack⟩ := placed
      exact inductionHypothesis (follows_call follows call stack)

end Calls

/-! ### The connection -/

section Connection

variable {socket : ChunkedStream UInt8} {response : OeResponseMessage} {sessionId : UInt64}
  {status : UInt8} {later : List UInt8}

/-- A login that is answered by a LOGIN_RESPONSE goes by its status, and takes no byte of what
comes after it. -/
theorem login_of_response (answer : response.body = .loginResponse sessionId status)
    (toCome : socket.items = response.bytes ++ later) (client : OEClient) (clientId : UInt32)
    (buf : Memory) :
    client.login clientId buf socket =
        ({ client with
            clientId := clientId
            seqNum := client.seqNum + 1
            sessionId := if status = loginSuccess then sessionId else client.sessionId },
          decide (status = loginSuccess)) ∧
      (OEClient.readResponse socket).2.items = later := by
  obtain ⟨read, left⟩ := OEClient.readResponse_of_frame response.frame toCome
  refine ⟨?_, left⟩
  have view := readLoginResponse_of_holds answer (OEClient.holds_bufferAfter toCome buf)
  rw [OEClient.login, read]
  dsimp only
  rw [view]
  by_cases success : status = loginSuccess <;> simp [success]

/-- The session on messages of a client that has just logged in. -/
def loggedIn (sessionId : UInt64) (clientId : UInt32) (stream : List OeResponse) : OeSession :=
  { client := { sessionId := sessionId, seqNum := 1, clientId := clientId, liveOrders := ∅ }
    sent := []
    callbacks := []
    answers := [some true]
    unread := stream }

/-- The exchange accepts the login and sends responses in any pieces, the last of them perhaps cut
by the end of the stream.  Whatever calls are made and whatever their buffers held before, the
client on the bytes is the client on the messages: the same orders are live, the same callbacks
made and the same answers given, and what is left on the socket is what that one has not read. -/
theorem login_then_run (unset clientId : UInt32) (username password : List UInt8)
    (buf : Memory) (calls : List (OeCall × (Nat → Memory))) (messages : List OeResponseMessage)
    {cut : List UInt8} (isCut : IsCut cut)
    (accepted : response.body = .loginResponse sessionId loginSuccess)
    (toCome : socket.items =
      response.bytes ++ (messages.flatMap OeResponseMessage.bytes ++ cut)) :
    Follows (loginRequest (connected unset socket).client clientId username password).bytes
      (((connected unset socket).login username password clientId buf).run calls)
      ((loggedIn sessionId clientId (messages.map OeResponseMessage.view)).run
        (calls.map Prod.fst)) := by
  obtain ⟨logged, left⟩ :=
    login_of_response accepted toCome (connected unset socket).client clientId buf
  have opened : Follows
      (loginRequest (connected unset socket).client clientId username password).bytes
      ((connected unset socket).login username password clientId buf)
      (loggedIn sessionId clientId (messages.map OeResponseMessage.view)) := by
    refine ⟨?_, ?_, rfl, ?_, messages, cut, rfl, isCut, left⟩
    · simp [login, connected, loggedIn] at logged ⊢
      simp [logged]
    · simp [login, connected, loggedIn]
    · simp [login, connected, loggedIn] at logged ⊢
      simp [logged]
  exact follows_run opened calls

end Connection

/-! A login for session 77 that is accepted, an order that is acknowledged and filled at once, and
a CLOSE of which only the header comes. -/

def acceptance : OeResponseMessage := ⟨⟨1, 1, 1, 8⟩, .loginResponse 77 0⟩

def filledOrder : List OeResponseMessage :=
  [⟨⟨1, 2, 2, 8⟩, .orderAck 7 900 5 100⟩, ⟨⟨1, 3, 2, 8⟩, .orderFill 7 5 100 2⟩]

def lostClose : List UInt8 :=
  (OeResponseMessage.bytes ⟨⟨1, 4, 2, 8⟩, .orderClosed 7⟩).take sizeofResponseHeader

/-- The bytes of all of it, cut inside the login's answer and inside the fill. -/
def brokenLink : ChunkedStream UInt8 where
  chunks :=
    let sent := acceptance.bytes ++ (filledOrder.flatMap OeResponseMessage.bytes ++ lostClose)
    [sent.take 20, (sent.drop 20).take 60, sent.drop 80]
  nonempty := by decide

/-- The bytes of "group8". -/
def groupName : List UInt8 := [103, 114, 111, 117, 112, 56]

/-- Send an order, wait for its fill, and delete what is no longer there. -/
def roundTrip : List (OeCall × (Nat → Memory)) :=
  [(.sendNewOrderNoWait 7 1 .BUY 5 100, fun _ _ => 0),
    (.waitForFill 0 (fun _ => 1) 7, fun turn _ => UInt8.ofNat turn),
    (.deleteOrder 2 3 7, fun _ _ => 255)]

theorem login_then_run_roundTrip :
    (((connected 0 brokenLink).login groupName [] 8 fun _ => 104).run
        roundTrip).answers = [some true, none, some true, some false] ∧
      (((connected 0 brokenLink).login groupName [] 8 fun _ => 104).run
        roundTrip).callbacks = [.onFill ⟨7, 5, 100, true⟩] := by
  have follows := @login_then_run brokenLink acceptance 77 0 8 groupName []
    (fun _ => 104) roundTrip filledOrder lostClose
    ⟨⟨⟨1, 4, 2, 8⟩, .orderClosed 7⟩, List.take_prefix _ _, by decide⟩ rfl (by decide)
  rw [follows.answers, follows.callbacks]
  decide

end WireSession

end HftAlgorithms
