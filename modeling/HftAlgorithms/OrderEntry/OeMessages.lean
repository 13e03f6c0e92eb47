/-
Module: HftAlgorithms.OrderEntry.OeMessages
Purpose: The messages of `oe_messages.h` as bytes: the requests as the client fills
  and sends them, and the responses as the exchange lays them out.
Trusted boundary: none
Main exports: RequestType, OeRequest.bytes, strncpyField, LoginRequest,
  LoginRequest.bytes, OeResponseMessage, OeResponseMessage.bytes,
  OeResponseMessage.view
-/
import HftAlgorithms.MarketData.SnapshotBytes
import HftAlgorithms.OrderEntry.ResponseBuffer

namespace HftAlgorithms

open LittleEndian

/-! ### Requests

The structures are packed, and the machine is little-endian. -/

def OE_PROTOCOL_VERSION : UInt8 := 1

/-- `MSG_TYPE`, of a request. -/
inductive RequestType where
  | NEW_ORDER
  | DELETE_ORDER
  | MODIFY_ORDER
  | LOGIN
deriving DecidableEq, Repr

def RequestType.toByte : RequestType → UInt8
  | .NEW_ORDER => 1
  | .DELETE_ORDER => 2
  | .MODIFY_ORDER => 3
  | .LOGIN => 99

/-- `sizeof(oe_request_header)` -/
def sizeofRequestHeader : Nat := 20

/-- `sizeof(msg)`, for the structure of each type. -/
def RequestType.size : RequestType → Nat
  | .NEW_ORDER => 42
  | .DELETE_ORDER => 28
  | .MODIFY_ORDER => 37
  | .LOGIN => 52

/-- `oe_request_header`: length, type, version, sequence number, client and session id. -/
def OeRequestHeader.bytes (header : OeRequestHeader) (type : RequestType) : List UInt8 :=
  bytesOf 2 type.size ++ ([type.toByte] ++ ([OE_PROTOCOL_VERSION] ++
    (bytesOf 4 header.seqNum.toNat ++ (bytesOf 4 header.clientId.toNat ++
      bytesOf 8 header.sessionId.toNat))))

def OeRequest.type : OeRequest → RequestType
  | .newOrder .. => .NEW_ORDER
  | .deleteOrder .. => .DELETE_ORDER
  | .modifyOrder .. => .MODIFY_ORDER

/-- What `send_raw` writes for a request. -/
def OeRequest.bytes : OeRequest → List UInt8
  | .newOrder header orderId symbol side quantity price flags =>
      header.bytes .NEW_ORDER ++
        (bytesOf 8 orderId.toNat ++ (bytesOf 4 symbol.toNat ++ ([side.toByte] ++
          (bytesOf 4 quantity.toNat ++ (bytesOf 4 price.toUInt32.toNat ++ [flags])))))
  | .deleteOrder header orderId => header.bytes .DELETE_ORDER ++ bytesOf 8 orderId.toNat
  | .modifyOrder header orderId side quantity price =>
      header.bytes .MODIFY_ORDER ++
        (bytesOf 8 orderId.toNat ++ ([side.toByte] ++
          (bytesOf 4 quantity.toNat ++ bytesOf 4 price.toUInt32.toNat)))

/-- `strncpy(field, text, 15)` into 16 bytes that are zero: the C string ends at its first NUL, and
the last byte of the field is never written. -/
def strncpyField (text : List UInt8) : List UInt8 :=
  let copied := (text.takeWhile (· ≠ 0)).take 15
  copied ++ List.replicate (16 - copied.length) 0

/-- `login`, with the arguments it is filled from. -/
structure LoginRequest where
  header : OeRequestHeader
  username : List UInt8
  password : List UInt8
deriving DecidableEq, Repr

def LoginRequest.bytes (request : LoginRequest) : List UInt8 :=
  request.header.bytes .LOGIN ++
    (strncpyField request.username ++ strncpyField request.password)

/-! ### Responses -/

/-- What an exchange fills into the header of a response beside its length and its type. -/
structure OeResponseHeader where
  version : UInt8
  seqNum : UInt32
  lastSeqNum : UInt32
  clientId : UInt32
deriving DecidableEq, Repr

/-- The body of a response, with the fields that no caller reads.  Enumerations are the bytes they
are sent as. -/
inductive OeResponseBody where
  | orderAck (orderId exchOrderId : UInt64) (quantity : UInt32) (price : Int32)
  | orderReject (orderId : UInt64) (rejectReason : UInt8)
  | orderFill (orderId : UInt64) (quantity : UInt32) (price : Int32) (flags : UInt8)
  | orderClosed (orderId : UInt64)
  | loginResponse (sessionId : UInt64) (status : UInt8)
  | errorMessage (errorCode : UInt8) (errorMessageLength : UInt16)
      (text : { text : List UInt8 // text.length = 32 })
deriving DecidableEq

structure OeResponseMessage where
  header : OeResponseHeader
  body : OeResponseBody
deriving DecidableEq

namespace OeResponseBody

/-- `MSG_TYPE` -/
def typeByte : OeResponseBody → UInt8
  | .loginResponse .. => 100
  | .orderAck .. => 101
  | .orderReject .. => 102
  | .orderFill .. => 103
  | .orderClosed .. => 104
  | .errorMessage .. => 105

/-- `sizeof`, of the structure of each type. -/
def size : OeResponseBody → Nat
  | .loginResponse .. => 25
  | .orderAck .. => 40
  | .orderReject .. => 25
  | .orderFill .. => 33
  | .orderClosed .. => 24
  | .errorMessage .. => 51

def bytes : OeResponseBody → List UInt8
  | .orderAck orderId exchOrderId quantity price =>
      bytesOf 8 orderId.toNat ++ (bytesOf 8 exchOrderId.toNat ++
        (bytesOf 4 quantity.toNat ++ bytesOf 4 price.toUInt32.toNat))
  | .orderReject orderId rejectReason => bytesOf 8 orderId.toNat ++ [rejectReason]
  | .orderFill orderId quantity price flags =>
      bytesOf 8 orderId.toNat ++ (bytesOf 4 quantity.toNat ++
        (bytesOf 4 price.toUInt32.toNat ++ [flags]))
  | .orderClosed orderId => bytesOf 8 orderId.toNat
  | .loginResponse sessionId status => bytesOf 8 sessionId.toNat ++ [status]
  | .errorMessage errorCode errorMessageLength text =>
      [errorCode] ++ (bytesOf 2 errorMessageLength.toNat ++ text.val)

/-- What the reading loops make of a response. -/
def view : OeResponseBody → OeResponse
  | .orderAck orderId _ _ _ => .ack orderId
  | .orderReject orderId rejectReason => .reject orderId (.ofByte rejectReason)
  | .orderFill orderId quantity price flags => .fill orderId quantity price (.ofByte flags)
  | .orderClosed orderId => .closed orderId
  | .loginResponse _ _ => .other
  | .errorMessage _ _ _ => .other

end OeResponseBody

namespace OeResponseMessage

def view (message : OeResponseMessage) : OeResponse := message.body.view

/-- `oe_response_header`: length, type, version, two sequence numbers, client id. -/
def headerBytes (message : OeResponseMessage) : List UInt8 :=
  bytesOf 2 message.body.size ++ ([message.body.typeByte] ++ ([message.header.version] ++
    (bytesOf 4 message.header.seqNum.toNat ++ (bytesOf 4 message.header.lastSeqNum.toNat ++
      bytesOf 4 message.header.clientId.toNat))))

def bytes (message : OeResponseMessage) : List UInt8 :=
  message.headerBytes ++ message.body.bytes

end OeResponseMessage

/-! ### Sizes -/

theorem OeRequestHeader.length_bytes (header : OeRequestHeader) (type : RequestType) :
    (header.bytes type).length = sizeofRequestHeader := by
  simp [OeRequestHeader.bytes, sizeofRequestHeader]

theorem OeRequest.length_bytes (request : OeRequest) :
    request.bytes.length = request.type.size := by
  cases request <;>
    simp [OeRequest.bytes, OeRequest.type, RequestType.size, OeRequestHeader.length_bytes,
      sizeofRequestHeader]

theorem length_strncpyField (text : List UInt8) : (strncpyField text).length = 16 := by
  have short : ((text.takeWhile (· ≠ 0)).take 15).length ≤ 15 := List.length_take_le 15 _
  simp only [strncpyField, List.length_append, List.length_replicate]
  omega

theorem LoginRequest.length_bytes (request : LoginRequest) :
    request.bytes.length = RequestType.LOGIN.size := by
  simp [LoginRequest.bytes, OeRequestHeader.length_bytes, length_strncpyField, sizeofRequestHeader,
    RequestType.size]

namespace OeResponseMessage

theorem length_headerBytes (message : OeResponseMessage) :
    message.headerBytes.length = sizeofResponseHeader := by
  simp [headerBytes, sizeofResponseHeader]

theorem length_bytes (message : OeResponseMessage) :
    message.bytes.length = message.body.size := by
  obtain ⟨header, body⟩ := message
  cases body with
  | errorMessage errorCode errorMessageLength text =>
      simp [bytes, OeResponseBody.bytes, OeResponseBody.size, length_headerBytes,
        sizeofResponseHeader, text.property]
  | _ =>
      simp [bytes, OeResponseBody.bytes, OeResponseBody.size, length_headerBytes,
        sizeofResponseHeader]

end OeResponseMessage

end HftAlgorithms
