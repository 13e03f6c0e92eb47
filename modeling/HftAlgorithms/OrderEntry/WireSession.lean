/-
Module: HftAlgorithms.OrderEntry.WireSession
Purpose: Whole sessions of the order-entry client, call after call: on the messages of
  `OEClient`, and on the bytes of its socket, where each wait reads into a buffer
  on its stack and takes what it finds there for a message.
Trusted boundary: none
Main exports: OeCall, OeSession, OeSession.run, OEClient.readFrames,
  OEClient.waitForResponseBytes, OEClient.waitForFillBytes, WireSession,
  WireSession.login, WireSession.run
-/
import HftAlgorithms.OrderEntry.OeMessages

namespace HftAlgorithms

/-! ### Calls -/

/-- A call on the client, with the times at which it reads the clock. -/
inductive OeCall where
  | sendNewOrder (start check : Int) (orderId : UInt64) (symbol : UInt32) (side : Side)
      (qty : UInt32) (price : Int32)
  | sendNewOrderNoWait (orderId : UInt64) (symbol : UInt32) (side : Side) (qty : UInt32)
      (price : Int32)
  | modifyOrder (start check : Int) (orderId : UInt64) (side : Side) (qty : UInt32)
      (price : Int32)
  | deleteOrder (start check : Int) (orderId : UInt64)
  | waitForResponse (start check : Int) (expectedOrderId : UInt64)
  | waitForFill (start : Int) (clock : Nat → Int) (expectedOrderId : UInt64)

namespace OeCall

/-- The request that a call writes, if it writes one. -/
def request (client : OEClient) : OeCall → Option OeRequest
  | .sendNewOrder _ _ orderId symbol side qty price =>
      some (.newOrder client.header.2 orderId symbol side qty price 0)
  | .sendNewOrderNoWait orderId symbol side qty price =>
      some (.newOrder client.header.2 orderId symbol side qty price 0)
  | .modifyOrder _ _ orderId side qty price =>
      some (.modifyOrder client.header.2 orderId side qty price)
  | .deleteOrder _ _ orderId => some (.deleteOrder client.header.2 orderId)
  | .waitForResponse _ _ _ => none
  | .waitForFill _ _ _ => none

end OeCall

/-! ### On messages -/

/-- A session so far.  A call that returns nothing has `none` among the answers. -/
structure OeSession where
  client : OEClient
  sent : List OeRequest
  callbacks : List Callback
  answers : List (Option Bool)
  unread : List OeResponse

namespace OeSession

def extend (session : OeSession) (result : OEClient.Result) : OeSession :=
  { client := result.client
    sent := session.sent ++ result.sent
    callbacks := session.callbacks ++ result.callbacks
    answers := session.answers ++ [some result.returned]
    unread := result.unread }

def call (session : OeSession) : OeCall → OeSession
  | .sendNewOrder start check orderId symbol side qty price =>
      session.extend
        (session.client.sendNewOrder start check orderId symbol side qty price session.unread)
  | .sendNewOrderNoWait orderId symbol side qty price =>
      let sending := session.client.sendNewOrderNoWait orderId symbol side qty price
      { session with
        client := sending.1
        sent := session.sent ++ [sending.2]
        answers := session.answers ++ [none] }
  | .modifyOrder start check orderId side qty price =>
      session.extend (session.client.modifyOrder start check orderId side qty price session.unread)
  | .deleteOrder start check orderId =>
      session.extend (session.client.deleteOrder start check orderId session.unread)
  | .waitForResponse start check expectedOrderId =>
      session.extend
        (session.client.waitForResponse start check expectedOrderId session.unread)
  | .waitForFill start clock expectedOrderId =>
      session.extend (session.client.waitForFill start clock expectedOrderId session.unread)

def run (session : OeSession) (calls : List OeCall) : OeSession := calls.foldl call session

end OeSession

/-! ### On bytes -/

namespace OEClient

/-- What a wait leaves behind, with the socket it has read from. -/
structure WireResult where
  client : OEClient
  callbacks : List Callback
  socket : ChunkedStream UInt8
  returned : Bool

/-- A call that has read a header goes on with the body. -/
theorem readResponse_of_header {socket : ChunkedStream UInt8} {hdr : List UInt8}
    (header : (socket.readExactly sizeofResponseHeader).1 = some hdr) :
    ∃ missing, (readResponse socket).2 =
        ((socket.readExactly sizeofResponseHeader).2.readExactly missing).2 ∧
      ((readResponse socket).1 = none ↔
        ((socket.readExactly sizeofResponseHeader).2.readExactly missing).1 = none) := by
  obtain ⟨missing, remaining⟩ : ∃ missing, remainingLength (responseLength hdr) = missing :=
    ⟨_, rfl⟩
  refine ⟨missing, ?_, ?_⟩
  · simp only [readResponse, header, remaining]
  · simp only [readResponse, header, remaining, Option.map_eq_none_iff]

/-- A call that succeeds takes something off the stream. -/
theorem length_readResponse_of_some {socket : ChunkedStream UInt8}
    (read : (readResponse socket).1 ≠ none) :
    (readResponse socket).2.items.length < socket.items.length := by
  cases header : (socket.readExactly sizeofResponseHeader).1 with
  | none => exact absurd (by simp only [readResponse, header]) read
  | some hdr =>
      obtain ⟨missing, left, fails⟩ := readResponse_of_header header
      rw [Ne, fails] at read
      obtain ⟨rest, body⟩ := Option.ne_none_iff_exists'.mp read
      have first := ChunkedStream.length_readExactly_of_some header
      have second := ChunkedStream.length_readExactly_of_some body
      rw [left, ← first, ← second, ← Nat.add_assoc]
      apply Nat.lt_add_of_pos_left
      exact Nat.add_pos_left (by decide) missing

/-- A reading loop on bytes.  `stack count left` is what the 256 bytes of `buf` hold at the top of
the `count`th turn when the turn before has left them as `left`. -/
def readFrames (turn : OEClient → OeResponse → Turn) (late : Nat → Bool)
    (stack : Nat → LittleEndian.Memory → LittleEndian.Memory) (count : Nat) (client : OEClient)
    (left : LittleEndian.Memory) (socket : ChunkedStream UInt8) : WireResult :=
  if late count then
    { client := client, callbacks := [], socket := socket, returned := false }
  else
    if _ : (readResponse socket).1 = none then
      { client := client, callbacks := [], socket := (readResponse socket).2, returned := false }
    else
      let buf := bufferAfter (stack count left) socket
      let taken := turn client (readOeResponse buf)
      match taken.returns with
      | some value =>
          { client := taken.client, callbacks := taken.callbacks
            socket := (readResponse socket).2, returned := value }
      | none =>
          let later :=
            readFrames turn late stack (count + 1) taken.client buf (readResponse socket).2
          { later with callbacks := taken.callbacks ++ later.callbacks }
termination_by socket.items.length
decreasing_by
  exact length_readResponse_of_some (by assumption)

/-- `wait_for_response`: the buffer is declared in front of the inner loop and used again by each
turn of it. -/
def waitForResponseBytes (client : OEClient) (start check : Int) (expectedOrderId : UInt64)
    (stack : Nat → LittleEndian.Memory) (socket : ChunkedStream UInt8) : WireResult :=
  if check > start + milliseconds 3000 then
    { client := client, callbacks := [], socket := socket, returned := false }
  else
    readFrames (responseTurn expectedOrderId) (fun _ => false) (fun _ left => left) 0 client
      (stack 0) socket

/-- `wait_for_fill`: each turn has a buffer of its own. -/
def waitForFillBytes (client : OEClient) (start : Int) (clock : Nat → Int)
    (expectedOrderId : UInt64) (stack : Nat → LittleEndian.Memory)
    (socket : ChunkedStream UInt8) : WireResult :=
  readFrames (fillTurn expectedOrderId) (fun count => clock count > start + milliseconds 5000)
    (fun count _ => stack count) 0 client (stack 0) socket

end OEClient

/-- A session on the bytes of the connection. -/
structure WireSession where
  client : OEClient
  sent : List UInt8
  callbacks : List Callback
  answers : List (Option Bool)
  socket : ChunkedStream UInt8

namespace WireSession

/-- The client as it is constructed; `client_id_` is not set before the login. -/
def connected (clientId : UInt32) (socket : ChunkedStream UInt8) : WireSession :=
  { client := { sessionId := 0, seqNum := 0, clientId := clientId, liveOrders := ∅ }
    sent := []
    callbacks := []
    answers := []
    socket := socket }

/-- The request of `login`, in whose header the session id is zero. -/
def loginRequest (client : OEClient) (clientId : UInt32) (username password : List UInt8) :
    LoginRequest :=
  { header := ⟨client.seqNum + 1, clientId, 0⟩, username := username, password := password }

/-- `login`, with its request and its answer. -/
def login (session : WireSession) (username password : List UInt8) (clientId : UInt32)
    (buf : LittleEndian.Memory) : WireSession :=
  let logged := session.client.login clientId buf session.socket
  { client := logged.1
    sent := session.sent ++ (loginRequest session.client clientId username password).bytes
    callbacks := session.callbacks
    answers := session.answers ++ [some logged.2]
    socket := (OEClient.readResponse session.socket).2 }

/-- The client once a request, if there is one, has been counted and sent. -/
def sending (client : OEClient) (call : OeCall) : OEClient :=
  (call.request client).elim client fun _ => client.header.1

/-- What a call waits for, and what the memory holds in which it puts its buffers. -/
def wait (client : OEClient) (stack : Nat → LittleEndian.Memory) (socket : ChunkedStream UInt8) :
    OeCall → Option OEClient.WireResult
  | .sendNewOrder start check orderId _ _ _ _ =>
      some (client.waitForResponseBytes start check orderId stack socket)
  | .sendNewOrderNoWait _ _ _ _ _ => none
  | .modifyOrder start check orderId _ _ _ =>
      some (client.waitForResponseBytes start check orderId stack socket)
  | .deleteOrder start check orderId =>
      some (client.waitForResponseBytes start check orderId stack socket)
  | .waitForResponse start check expectedOrderId =>
      some (client.waitForResponseBytes start check expectedOrderId stack socket)
  | .waitForFill start clock expectedOrderId =>
      some (client.waitForFillBytes start clock expectedOrderId stack socket)

/-- A call: the bytes of its request are sent, and then it waits. -/
def call (session : WireSession) (placed : OeCall × (Nat → LittleEndian.Memory)) : WireSession :=
  let client := sending session.client placed.1
  let sent := session.sent ++ (placed.1.request session.client).elim [] OeRequest.bytes
  match wait client placed.2 session.socket placed.1 with
  | none => { session with client := client, sent := sent, answers := session.answers ++ [none] }
  | some waited =>
      { client := waited.client
        sent := sent
        callbacks := session.callbacks ++ waited.callbacks
        answers := session.answers ++ [some waited.returned]
        socket := waited.socket }

def run (session : WireSession) (calls : List (OeCall × (Nat → LittleEndian.Memory))) :
    WireSession :=
  calls.foldl call session

end WireSession

end HftAlgorithms
