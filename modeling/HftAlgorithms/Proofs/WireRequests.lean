/-
Module: HftAlgorithms.Proofs.WireRequests
Purpose: What an exchange that knows `oe_messages.h` finds on a connection: the login
  and then the requests of the calls, one after the other, numbered without a gap.
Trusted boundary: none
Main exports: ReceivedRequest, readRequest, nextRequest, nextRequest_of_order,
  nextRequest_of_login, OEClient.KeepsToBuffer, OeCall.numbered,
  WireSession.takes_requests
-/
import HftAlgorithms.Lib.Walk
import HftAlgorithms.Proofs.WireResponses
import Mathlib.Data.List.TakeWhile

namespace HftAlgorithms

open LittleEndian OEClient Walk

/-! ### The exchange's reader -/

/-- A request as it is received.  The texts of a login end at their first NUL. -/
inductive ReceivedRequest where
  | login (header : OeRequestHeader) (username password : List UInt8)
  | order (request : OeRequest)
deriving DecidableEq

/-- The text in a field of 16 bytes. -/
def fieldText (buf : Memory) (offset : Nat) : List UInt8 :=
  ((List.range 16).map fun index => buf (offset + index)).takeWhile (· ≠ 0)

def readRequestHeader (buf : Memory) : OeRequestHeader :=
  { seqNum := UInt32.ofNat (word buf 4 4)
    clientId := UInt32.ofNat (word buf 8 4)
    sessionId := UInt64.ofNat (word buf 12 8) }

/-- The message under the layout of its type, if it has the type's length. -/
def readRequest (buf : Memory) : Option ReceivedRequest :=
  let header := readRequestHeader buf
  let length := word buf 0 2
  if buf 2 = RequestType.NEW_ORDER.toByte ∧ length = RequestType.NEW_ORDER.size then
    some (.order (.newOrder header (UInt64.ofNat (word buf 20 8)) (UInt32.ofNat (word buf 28 4))
      (.ofByte (buf 32)) (UInt32.ofNat (word buf 33 4)) (UInt32.ofNat (word buf 37 4)).toInt32
      (buf 41)))
  else if buf 2 = RequestType.DELETE_ORDER.toByte ∧ length = RequestType.DELETE_ORDER.size then
    some (.order (.deleteOrder header (UInt64.ofNat (word buf 20 8))))
  else if buf 2 = RequestType.MODIFY_ORDER.toByte ∧ length = RequestType.MODIFY_ORDER.size then
    some (.order (.modifyOrder header (UInt64.ofNat (word buf 20 8)) (.ofByte (buf 28))
      (UInt32.ofNat (word buf 29 4)) (UInt32.ofNat (word buf 33 4)).toInt32))
  else if buf 2 = RequestType.LOGIN.toByte ∧ length = RequestType.LOGIN.size then
    some (.login header (fieldText buf 20) (fieldText buf 36))
  else none

/-- Take one request of the protocol's version off the start of a stream. -/
def nextRequest (stream : List UInt8) : Option (ReceivedRequest × List UInt8) :=
  let buf : Memory := fun index => stream.getD index 0
  if word buf 0 2 ≤ stream.length ∧ buf 3 = OE_PROTOCOL_VERSION then
    (readRequest buf).map fun request => (request, stream.drop (word buf 0 2))
  else none

/-! ### One request -/

section Requests

variable {buf : Memory}

/-- The header of a request is read as it was filled. -/
theorem readRequestHeader_of_holds {header : OeRequestHeader} {type : RequestType}
    (holds : Holds buf 0 (header.bytes type)) :
    word buf 0 2 = type.size ∧ buf 2 = type.toByte ∧ buf 3 = OE_PROTOCOL_VERSION ∧
      readRequestHeader buf = header := by
  simp only [OeRequestHeader.bytes, holds_append, holds_singleton, length_bytesOf,
    List.length_singleton, Nat.reduceAdd] at holds
  obtain ⟨length, typeByte, version, seqNum, clientId, sessionId⟩ := holds
  have fits : type.size < 256 ^ 2 := by
    cases type <;> simp [RequestType.size]
  exact ⟨length.word fits, typeByte, version,
    by rw [readRequestHeader, seqNum.uint32, clientId.uint32, sessionId.uint64]⟩

/-- The side of a request, if it names one, is BUY or SELL. -/
def OeRequest.Sided : OeRequest → Prop
  | .newOrder _ _ _ side _ _ _ => side = .BUY ∨ side = .SELL
  | .deleteOrder _ _ => True
  | .modifyOrder _ _ side _ _ => side = .BUY ∨ side = .SELL

theorem readRequest_of_order {request : OeRequest} (sided : request.Sided)
    (holds : Holds buf 0 request.bytes) :
    word buf 0 2 = request.bytes.length ∧ buf 3 = OE_PROTOCOL_VERSION ∧
      readRequest buf = some (.order request) := by
  rw [request.length_bytes]
  cases request with
  | newOrder header orderId symbol side quantity price flags =>
      rw [OeRequest.bytes, holds_append, OeRequestHeader.length_bytes, sizeofRequestHeader] at holds
      obtain ⟨headerHeld, fields⟩ := holds
      obtain ⟨length, type, version, same⟩ := readRequestHeader_of_holds headerHeld
      simp only [holds_append, holds_singleton, length_bytesOf, List.length_singleton,
        Nat.reduceAdd] at fields
      obtain ⟨orderIdHeld, symbolHeld, sideHeld, quantityHeld, priceHeld, flagsHeld⟩ := fields
      refine ⟨length, version, ?_⟩
      rw [readRequest]
      simp only [length, type, same, orderIdHeld.uint64, symbolHeld.uint32, sideHeld,
        Side.ofByte_toByte sided, quantityHeld.uint32, priceHeld.uint32, flagsHeld,
        Int32.toInt32_toUInt32]
      rfl
  | deleteOrder header orderId =>
      rw [OeRequest.bytes, holds_append, OeRequestHeader.length_bytes, sizeofRequestHeader] at holds
      obtain ⟨headerHeld, orderIdHeld⟩ := holds
      obtain ⟨length, type, version, same⟩ := readRequestHeader_of_holds headerHeld
      refine ⟨length, version, ?_⟩
      rw [readRequest]
      simp only [length, type, same, orderIdHeld.uint64]
      rfl
  | modifyOrder header orderId side quantity price =>
      rw [OeRequest.bytes, holds_append, OeRequestHeader.length_bytes, sizeofRequestHeader] at holds
      obtain ⟨headerHeld, fields⟩ := holds
      obtain ⟨length, type, version, same⟩ := readRequestHeader_of_holds headerHeld
      simp only [holds_append, holds_singleton, length_bytesOf, List.length_singleton,
        Nat.reduceAdd] at fields
      obtain ⟨orderIdHeld, sideHeld, quantityHeld, priceHeld⟩ := fields
      refine ⟨length, version, ?_⟩
      rw [readRequest]
      simp only [length, type, same, orderIdHeld.uint64, sideHeld, Side.ofByte_toByte sided,
        quantityHeld.uint32, priceHeld.uint32, Int32.toInt32_toUInt32]
      rfl

/-! ### The login -/

/-- What a login field keeps of a text: at most 15 characters of the C string. -/
def loginText (text : List UInt8) : List UInt8 := (text.takeWhile (· ≠ 0)).take 15

theorem range_map_of_holds {bytes : List UInt8} {offset : Nat} (holds : Holds buf offset bytes) :
    (List.range bytes.length).map (fun index => buf (offset + index)) = bytes := by
  induction bytes generalizing offset with
  | nil => rfl
  | cons byte bytes inductionHypothesis =>
      obtain ⟨first, later⟩ := holds
      have rest := inductionHypothesis later
      rw [List.length_cons, List.range_succ_eq_map, List.map_cons, List.map_map, Nat.add_zero,
        first]
      congr 1
      rw [← rest]
      simp [Function.comp_def, Nat.add_comm, Nat.add_left_comm]

/-- The text is NUL-terminated, as its last byte is zero. -/
theorem takeWhile_strncpyField (text : List UInt8) :
    (strncpyField text).takeWhile (· ≠ 0) = loginText text := by
  have plain : ∀ byte ∈ loginText text, (decide (byte ≠ 0)) = true := by
    intro byte member
    have kept : byte ∈ text.takeWhile (· ≠ 0) := List.mem_of_mem_take member
    have nonzero := List.mem_takeWhile_imp kept
    exact nonzero
  have short : (loginText text).length ≤ 15 := List.length_take_le 15 _
  obtain ⟨zeros, some_zero⟩ : ∃ zeros, 16 - (loginText text).length = zeros + 1 :=
    ⟨15 - (loginText text).length, by omega⟩
  have split : strncpyField text =
      loginText text ++ List.replicate (16 - (loginText text).length) 0 := rfl
  rw [split, some_zero, List.replicate_succ, List.takeWhile_append_of_pos plain]
  simp

theorem fieldText_of_holds {text : List UInt8} {offset : Nat}
    (holds : Holds buf offset (strncpyField text)) : fieldText buf offset = loginText text := by
  have bytes := range_map_of_holds holds
  rw [length_strncpyField] at bytes
  rw [fieldText, bytes, takeWhile_strncpyField]

theorem readRequest_of_login {request : LoginRequest} (holds : Holds buf 0 request.bytes) :
    word buf 0 2 = request.bytes.length ∧ buf 3 = OE_PROTOCOL_VERSION ∧
      readRequest buf =
        some (.login request.header (loginText request.username) (loginText request.password)) := by
  rw [request.length_bytes]
  rw [LoginRequest.bytes, holds_append, OeRequestHeader.length_bytes, sizeofRequestHeader] at holds
  obtain ⟨headerHeld, fields⟩ := holds
  obtain ⟨length, type, version, same⟩ := readRequestHeader_of_holds headerHeld
  rw [holds_append, length_strncpyField] at fields
  obtain ⟨username, password⟩ := fields
  refine ⟨length, version, ?_⟩
  rw [readRequest]
  simp only [length, type, same, fieldText_of_holds username, fieldText_of_holds password]
  rfl

end Requests

/-! ### The stream -/

/-- The bytes of a request are taken off the stream, and not one more. -/
theorem nextRequest_of_bytes {bytes : List UInt8} {request : ReceivedRequest}
    (reads : ∀ buf, Holds buf 0 bytes →
      word buf 0 2 = bytes.length ∧ buf 3 = OE_PROTOCOL_VERSION ∧ readRequest buf = some request)
    (rest : List UInt8) : nextRequest (bytes ++ rest) = some (request, rest) := by
  have holds := holds_getD (bytes ++ rest) fun _ => 0
  obtain ⟨length, version, read⟩ := reads _ (holds_append.mp holds).1
  simp only [nextRequest, length, version, read]
  simp

/-- The reader finds the requests that have been sent, and then nothing. -/
theorem takes_orders {requests : List OeRequest}
    (sided : ∀ request ∈ requests, request.Sided) :
    Takes nextRequest (requests.flatMap OeRequest.bytes) (requests.map .order) [] := by
  induction requests with
  | nil => exact .nothing _
  | cons request requests inductionHypothesis =>
      have first := nextRequest_of_bytes
        (fun buf holds => readRequest_of_order (sided request List.mem_cons_self) holds)
        (requests.flatMap OeRequest.bytes)
      rw [List.flatMap_cons, List.map_cons]
      exact .item first
        (inductionHypothesis fun later member => sided later (List.mem_cons_of_mem _ member))

/-! ### The client -/

namespace OEClient

/-- The header of the next request. -/
def nextHeader (client : OEClient) : OeRequestHeader := client.header.2

theorem nextHeader_receive (client : OEClient) (response : OeResponse) :
    (client.receive response).nextHeader = client.nextHeader := by
  cases response with
  | fill orderId quantity price flags =>
      rw [receive]
      split <;> rfl
  | ack orderId => rfl
  | reject orderId rejectReason => rfl
  | closed orderId => rfl
  | other => rfl

theorem nextHeader_readFrames {turn : OEClient → OeResponse → Turn} (faithful : Faithful turn)
    (late : Nat → Bool) (stack : Nat → Memory → Memory) (count : Nat) (client : OEClient)
    (left : Memory) (socket : ChunkedStream UInt8) :
    (readFrames turn late stack count client left socket).client.nextHeader =
      client.nextHeader := by
  fun_induction readFrames turn late stack count client left socket with
  | case1 => rfl
  | case2 => rfl
  | case3 count client left socket onTime read buf taken value returns =>
      have same := (faithful client (readOeResponse buf)).1
      simp only [taken, same, nextHeader_receive]
  | case4 count client left socket onTime read buf taken returns later inductionHypothesis =>
      have same : taken.client = client.receive (readOeResponse buf) :=
        (faithful client (readOeResponse buf)).1
      rw [same, nextHeader_receive] at inductionHypothesis
      simpa only [later, same] using inductionHypothesis

theorem nextHeader_waitForResponseBytes (client : OEClient) (start check : Int)
    (expectedOrderId : UInt64) (stack : Nat → Memory) (socket : ChunkedStream UInt8) :
    (client.waitForResponseBytes start check expectedOrderId stack socket).client.nextHeader =
      client.nextHeader := by
  rw [waitForResponseBytes]
  split
  · rfl
  · exact nextHeader_readFrames (faithful_responseTurn expectedOrderId) _ _ 0 client _ socket

theorem nextHeader_waitForFillBytes (client : OEClient) (start : Int) (clock : Nat → Int)
    (expectedOrderId : UInt64) (stack : Nat → Memory) (socket : ChunkedStream UInt8) :
    (client.waitForFillBytes start clock expectedOrderId stack socket).client.nextHeader =
      client.nextHeader :=
  nextHeader_readFrames (faithful_fillTurn expectedOrderId) _ _ 0 client _ socket

end OEClient

/-! ### What is written into the buffers -/

namespace OEClient

/-- However many responses have been read, nothing of the next is written behind the 256 bytes of
the buffer that it is read into. -/
def KeepsToBuffer (socket : ChunkedStream UInt8) : Prop :=
  ∀ calls, ∀ write ∈ responseWrites (afterCalls calls socket), write.limit ≤ sizeofResponseBuf

section Buffers

variable {socket : ChunkedStream UInt8}

theorem KeepsToBuffer.readResponse (keeps : KeepsToBuffer socket) :
    KeepsToBuffer (readResponse socket).2 :=
  fun calls => keeps (calls + 1)

theorem KeepsToBuffer.readFrames {turn : OEClient → OeResponse → Turn} {late : Nat → Bool}
    {stack : Nat → Memory → Memory} {count : Nat} {client : OEClient} {left : Memory}
    (keeps : KeepsToBuffer socket) :
    KeepsToBuffer (readFrames turn late stack count client left socket).socket := by
  fun_induction OEClient.readFrames turn late stack count client left socket with
  | case1 => exact keeps
  | case2 => exact keeps.readResponse
  | case3 => exact keeps.readResponse
  | case4 count client left socket onTime read buf taken returns later inductionHypothesis =>
      exact inductionHypothesis keeps.readResponse

theorem KeepsToBuffer.waitForResponseBytes {client : OEClient} {start check : Int}
    {expectedOrderId : UInt64} {stack : Nat → Memory} (keeps : KeepsToBuffer socket) :
    KeepsToBuffer
      (client.waitForResponseBytes start check expectedOrderId stack socket).socket := by
  rw [OEClient.waitForResponseBytes]
  split
  · exact keeps
  · exact keeps.readFrames

theorem length_readResponse_le :
    (OEClient.readResponse socket).2.items.length ≤ socket.items.length := by
  by_cases failed : (OEClient.readResponse socket).1 = none
  · simp [items_of_readResponse_none failed]
  · exact (length_readResponse_of_some failed).le

/-- A response is written up to the end of the stream at most. -/
theorem responseWrites_le_length {write : MemoryWrite UInt8}
    (member : write ∈ responseWrites socket) (short : socket.items.length ≤ sizeofResponseBuf) :
    write.limit ≤ sizeofResponseBuf := by
  by_cases headed : sizeofResponseHeader ≤ socket.items.length
  · apply (responseWrites_below_iff headed rfl).mpr _ write member
    omega
  · rw [(readResponse_of_short (not_le.mp headed)).2] at member
    exact absurd member List.not_mem_nil

/-- A stream of no more than 256 bytes cannot go beyond them. -/
theorem keepsToBuffer_of_short (short : socket.items.length ≤ sizeofResponseBuf) :
    KeepsToBuffer socket := by
  intro calls
  induction calls generalizing socket with
  | zero => exact fun write member => responseWrites_le_length member short
  | succ calls inductionHypothesis =>
      exact inductionHypothesis (length_readResponse_le.trans short)

end Buffers

end OEClient

/-! ### Sessions -/

/-- The header of the request after this one. -/
def OeRequestHeader.next (header : OeRequestHeader) : OeRequestHeader :=
  { header with seqNum := header.seqNum + 1 }

namespace OeCall

/-- The request of a call under a header, if it sends one. -/
def requestUnder (header : OeRequestHeader) : OeCall → Option OeRequest
  | .sendNewOrder _ _ orderId symbol side qty price =>
      some (.newOrder header orderId symbol side qty price 0)
  | .sendNewOrderNoWait orderId symbol side qty price =>
      some (.newOrder header orderId symbol side qty price 0)
  | .modifyOrder _ _ orderId side qty price => some (.modifyOrder header orderId side qty price)
  | .deleteOrder _ _ orderId => some (.deleteOrder header orderId)
  | .waitForResponse _ _ _ => none
  | .waitForFill _ _ _ => none

/-- The requests of some calls, numbered from a header on: a call that sends none takes no
number. -/
def numbered (header : OeRequestHeader) : List OeCall → List OeRequest
  | [] => []
  | call :: calls =>
      match call.requestUnder header with
      | none => numbered header calls
      | some request => request :: numbered header.next calls

/-- The side that a call is given, if it is given one, is BUY or SELL. -/
def Sided : OeCall → Prop
  | .sendNewOrder _ _ _ _ side _ _ => side = .BUY ∨ side = .SELL
  | .sendNewOrderNoWait _ _ side _ _ => side = .BUY ∨ side = .SELL
  | .modifyOrder _ _ _ side _ _ => side = .BUY ∨ side = .SELL
  | .deleteOrder _ _ _ => True
  | .waitForResponse _ _ _ => True
  | .waitForFill _ _ _ => True

theorem sided_numbered {calls : List OeCall} (sided : ∀ call ∈ calls, call.Sided)
    (header : OeRequestHeader) : ∀ request ∈ numbered header calls, request.Sided := by
  induction calls generalizing header with
  | nil => simp [numbered]
  | cons call calls inductionHypothesis =>
      have first := sided call List.mem_cons_self
      have later := inductionHypothesis fun other member =>
        sided other (List.mem_cons_of_mem _ member)
      rw [numbered]
      cases call with
      | waitForResponse start check expectedOrderId => exact later header
      | waitForFill start clock expectedOrderId => exact later header
      | _ => exact List.forall_mem_cons.mpr ⟨first, later header.next⟩

end OeCall

namespace WireSession

/-- What a call sends, and that the next request will have the next number just if it has sent
one. -/
theorem call_sends (session : WireSession) (call : OeCall) (stack : Nat → Memory) :
    (session.call (call, stack)).sent =
        session.sent ++
          (call.requestUnder session.client.nextHeader).elim [] OeRequest.bytes ∧
      (session.call (call, stack)).client.nextHeader =
        (call.requestUnder session.client.nextHeader).elim session.client.nextHeader
          fun _ => session.client.nextHeader.next := by
  cases call with
  | sendNewOrderNoWait orderId symbol side qty price => exact ⟨rfl, rfl⟩
  | waitForFill start clock expectedOrderId =>
      exact ⟨rfl, OEClient.nextHeader_waitForFillBytes session.client start clock _ stack _⟩
  | waitForResponse start check expectedOrderId =>
      exact ⟨rfl, OEClient.nextHeader_waitForResponseBytes session.client start check _ stack _⟩
  | sendNewOrder start check orderId symbol side qty price =>
      exact ⟨rfl, OEClient.nextHeader_waitForResponseBytes session.client.header.1 start check _
        stack _⟩
  | modifyOrder start check orderId side qty price =>
      exact ⟨rfl, OEClient.nextHeader_waitForResponseBytes session.client.header.1 start check _
        stack _⟩
  | deleteOrder start check orderId =>
      exact ⟨rfl, OEClient.nextHeader_waitForResponseBytes session.client.header.1 start check _
        stack _⟩

theorem sent_run (session : WireSession) (calls : List (OeCall × (Nat → Memory))) :
    (session.run calls).sent =
      session.sent ++
        (OeCall.numbered session.client.nextHeader (calls.map Prod.fst)).flatMap
          OeRequest.bytes := by
  induction calls generalizing session with
  | nil => simp [run, OeCall.numbered]
  | cons placed calls inductionHypothesis =>
      obtain ⟨call, stack⟩ := placed
      obtain ⟨sent, header⟩ := call_sends session call stack
      have later := inductionHypothesis (session.call (call, stack))
      rw [sent, header] at later
      rw [List.map_cons, OeCall.numbered, run, List.foldl_cons]
      rw [run] at later
      rw [later]
      cases call.requestUnder session.client.nextHeader with
      | none => simp
      | some request => simp

theorem keepsToBuffer_call {session : WireSession} (keeps : KeepsToBuffer session.socket)
    (placed : OeCall × (Nat → Memory)) : KeepsToBuffer (session.call placed).socket := by
  obtain ⟨call, stack⟩ := placed
  cases call with
  | sendNewOrderNoWait orderId symbol side qty price => exact keeps
  | waitForFill start clock expectedOrderId => exact keeps.readFrames
  | waitForResponse start check expectedOrderId => exact keeps.waitForResponseBytes
  | sendNewOrder start check orderId symbol side qty price => exact keeps.waitForResponseBytes
  | modifyOrder start check orderId side qty price => exact keeps.waitForResponseBytes
  | deleteOrder start check orderId => exact keeps.waitForResponseBytes

theorem keepsToBuffer_run {session : WireSession} (keeps : KeepsToBuffer session.socket)
    (calls : List (OeCall × (Nat → Memory))) : KeepsToBuffer (session.run calls).socket := by
  induction calls generalizing session with
  | nil => exact keeps
  | cons placed calls inductionHypothesis =>
      exact inductionHypothesis (keepsToBuffer_call keeps placed)

/-- Whatever arrives on the connection, so long as no response is written beyond the buffer it is
read into: an exchange finds the login on it and then one request for each call that sends one, in
the order of the calls, with nothing between them and nothing behind them.  The login has number 1
and the requests go on from 2; their session is the one that the login has left in the client. -/
theorem takes_requests (unset clientId : UInt32) (username password : List UInt8) (buf : Memory)
    (calls : List (OeCall × (Nat → Memory))) {socket : ChunkedStream UInt8}
    (keeps : KeepsToBuffer socket) (sided : ∀ placed ∈ calls, placed.1.Sided) :
    Takes nextRequest
        (((connected unset socket).login username password clientId buf).run calls).sent
        (.login ⟨1, clientId, 0⟩ (loginText username) (loginText password) ::
          (OeCall.numbered
            ⟨2, clientId,
              ((connected unset socket).login username password clientId buf).client.sessionId⟩
            (calls.map Prod.fst)).map .order)
        [] ∧
      KeepsToBuffer
        (((connected unset socket).login username password clientId buf).run calls).socket := by
  have header : ((connected unset socket).login username password clientId buf).client.nextHeader =
      ⟨2, clientId,
        ((connected unset socket).login username password clientId buf).client.sessionId⟩ := by
    rw [login, OEClient.login]
    split
    · rfl
    · dsimp only
      split <;> rfl
  have each : ∀ call ∈ calls.map Prod.fst, call.Sided := by
    intro call member
    obtain ⟨placed, within, rfl⟩ := List.mem_map.mp member
    exact sided placed within
  have keepsAfterLogin : KeepsToBuffer
      ((connected unset socket).login username password clientId buf).socket :=
    keeps.readResponse
  refine ⟨?_, keepsToBuffer_run keepsAfterLogin calls⟩
  rw [sent_run, header]
  have first := nextRequest_of_bytes
    (fun buf holds =>
      @readRequest_of_login buf (loginRequest (connected unset socket).client clientId username
        password) holds)
    ((OeCall.numbered
      ⟨2, clientId,
        ((connected unset socket).login username password clientId buf).client.sessionId⟩
      (calls.map Prod.fst)).flatMap OeRequest.bytes)
  exact .item first (takes_orders (OeCall.sided_numbered each _))

/-- The session of `roundTrip`; the password of the login is cut after 15 characters. -/
theorem takes_requests_roundTrip :
    Takes nextRequest
      (((connected 0 brokenLink).login groupName (List.replicate 20 65) 8
        fun _ => 104).run roundTrip).sent
      [.login ⟨1, 8, 0⟩ groupName (List.replicate 15 65),
        .order (.newOrder ⟨2, 8, 77⟩ 7 1 .BUY 5 100 0), .order (.deleteOrder ⟨3, 8, 77⟩ 7)]
      [] := by
  have short : brokenLink.items.length ≤ sizeofResponseBuf := by decide
  have found := (takes_requests 0 8 groupName (List.replicate 20 65) (fun _ => 104)
    roundTrip (OEClient.keepsToBuffer_of_short short) (by
      intro placed member
      simp only [roundTrip, List.mem_cons, List.not_mem_nil, or_false] at member
      rcases member with rfl | rfl | rfl
      · exact Or.inl rfl
      · trivial
      · trivial)).1
  have session := (@login_of_response brokenLink acceptance 77 0 _ rfl rfl
    (connected 0 brokenLink).client 8 fun _ => 104).1
  have opened : ((connected 0 brokenLink).login groupName (List.replicate 20 65) 8
      fun _ => 104).client.sessionId = 77 := by
    rw [login]
    dsimp only [connected] at session ⊢
    rw [session]
    rfl
  have username : loginText groupName = groupName := by decide
  have password : loginText (List.replicate 20 65) = List.replicate 15 65 := by decide
  rw [opened, username, password] at found
  exact found

end WireSession

end HftAlgorithms
