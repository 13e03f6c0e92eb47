/-
Module: HftAlgorithms.OrderEntry.ResponseBuffer
Purpose: The 256 bytes that `login`, `wait_for_response` and `wait_for_fill` hand to
  `read_response`: what is written into them, and which fields of them the
  callers then read under the layout of the message type.
Trusted boundary: none
Main exports: sizeofResponseBuf, readOeResponse, LoginResponse, readLoginResponse,
  OEClient.login, ResponseCaller, ResponseCaller.reads, OEClient.responseWrites,
  OEClient.bufferAfter
-/
import HftAlgorithms.Lib.WriteLog
import HftAlgorithms.MarketData.PacketBytes
import HftAlgorithms.OrderEntry.OEClient
import HftAlgorithms.OrderEntry.ReadResponse

namespace HftAlgorithms

open LittleEndian

/-- `sizeof(buf)`, in all three callers. -/
def sizeofResponseBuf : Nat := 256

/-! ### Typed views -/

def RejectReason.ofByte : UInt8 → RejectReason
  | 0 => .NONE
  | 1 => .UNKNOWN_SYMBOL
  | 2 => .INVALID_ORDER
  | 3 => .DUPLICATE_ORDER_ID
  | 4 => .UKNOWN_ORDER_ID
  | 5 => .INVALID_PRICE
  | 6 => .INVALID_QUANTITY
  | 7 => .INVALID_SIDE
  | 8 => .UNKNOWN_SESSION_ID
  | 9 => .DUPLICATE_LOGIN
  | byte => .unknown byte

def FillFlags.ofByte : UInt8 → FillFlags
  | 0 => .NONE
  | 1 => .PARTIAL_FILL
  | 2 => .CLOSED
  | byte => .unknown byte

/-- `MSG_TYPE`, of a response. -/
inductive ResponseType where
  | ACK
  | REJECT
  | FILL
  | CLOSE
  | other
deriving DecidableEq, Repr

def ResponseType.ofByte : UInt8 → ResponseType
  | 101 => .ACK
  | 102 => .REJECT
  | 103 => .FILL
  | 104 => .CLOSE
  | _ => .other

namespace ResponseView

/-- `header.msg_type` -/
def responseTypeAt : Extent := ⟨2, 1⟩

/-- `order_id` stands at the same place in all four order responses. -/
def responseOrderIdAt : Extent := ⟨16, 8⟩

def rejectReasonAt : Extent := ⟨24, 1⟩
def fillQuantityAt : Extent := ⟨24, 4⟩
def fillPriceAt : Extent := ⟨28, 4⟩
def fillFlagsAt : Extent := ⟨32, 1⟩
def sessionIdAt : Extent := ⟨16, 8⟩
def statusAt : Extent := ⟨24, 1⟩

end ResponseView

open ResponseView

section Views

variable (buf : Memory)

/-- The message under the layout of its type. -/
def readOeResponse : OeResponse :=
  let orderId := UInt64.ofNat (word buf 16 8)
  match ResponseType.ofByte (buf 2) with
  | .ACK => .ack orderId
  | .REJECT => .reject orderId (.ofByte (buf 24))
  | .FILL =>
      .fill orderId (UInt32.ofNat (word buf 24 4)) (UInt32.ofNat (word buf 28 4)).toInt32
        (.ofByte (buf 32))
  | .CLOSE => .closed orderId
  | .other => .other

/-- What is read of a message of each type: the two reading loops read the same. -/
def messageFields : List Extent :=
  responseTypeAt ::
    match ResponseType.ofByte (buf 2) with
    | .ACK => [responseOrderIdAt]
    | .REJECT => [responseOrderIdAt, rejectReasonAt]
    | .FILL => [fillFlagsAt, responseOrderIdAt, fillQuantityAt, fillPriceAt]
    | .CLOSE => [responseOrderIdAt]
    | .other => []

/-- `LOGIN_STATUS::SUCCESS` -/
def loginSuccess : UInt8 := 0

/-- What `login` takes from a response, whatever its type: the session id, if the status is
SUCCESS. -/
def readLoginResponse : Option UInt64 :=
  if buf 24 ≠ loginSuccess then none else some (UInt64.ofNat (word buf 16 8))

def loginFields : List Extent :=
  statusAt :: if buf 24 ≠ loginSuccess then [] else [sessionIdAt]

end Views

/-- The callers of `read_response`. -/
inductive ResponseCaller where
  | login
  | waitForResponse
  | waitForFill
deriving DecidableEq, Repr

/-- The fields a caller reads once `read_response` has returned true. -/
def ResponseCaller.reads (caller : ResponseCaller) (buf : Memory) : List Extent :=
  match caller with
  | .login => loginFields buf
  | .waitForResponse => messageFields buf
  | .waitForFill => messageFields buf

namespace OEClient

/-! ### The buffer -/

/-- What `read_response` writes to `buf`: the header by `memcpy`, which comes from a variable of its
own, and then what each `recv` delivers. -/
def responseWrites (socket : ChunkedStream UInt8) : List (MemoryWrite UInt8) :=
  let header := socket.readExactly sizeofResponseHeader
  match header.1 with
  | none => []
  | some hdr =>
      ⟨0, hdr⟩ ::
        header.2.readInto sizeofResponseHeader (remainingLength (responseLength hdr))

/-- The buffer afterwards; the memory behind it is counted on. -/
def bufferAfter (buf : Memory) (socket : ChunkedStream UInt8) : Memory :=
  MemoryWrite.applyAll buf (responseWrites socket)

/-- `login` without its request: the id of the session that has been opened, if it returns true. -/
def login (client : OEClient) (clientId : UInt32) (buf : Memory) (socket : ChunkedStream UInt8) :
    OEClient × Bool :=
  let requesting := { client with clientId := clientId, seqNum := client.seqNum + 1 }
  match (readResponse socket).1 with
  | none => (requesting, false)
  | some _ =>
      match readLoginResponse (bufferAfter buf socket) with
      | none => (requesting, false)
      | some sessionId => ({ requesting with sessionId := sessionId }, true)

end OEClient

end HftAlgorithms
