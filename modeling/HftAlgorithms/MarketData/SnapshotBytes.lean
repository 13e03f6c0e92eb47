/-
Module: HftAlgorithms.MarketData.SnapshotBytes
Purpose: Snapshot packets as the bytes that `read` leaves in the listener's buffer:
  the layout of the records in `messages.h`, and the two nested loops that walk
  from record to record by the length fields.
Trusted boundary: none
Main exports: Side.toByte, MsgType.toByte, RawPacket, readNewOrder, readSnapshotInfo,
  Cursor, RawPacket.TakesOrder, RawPacket.OpensBlock, RawPacket.nextRecord,
  Listener.readPacket
-/
import HftAlgorithms.Lib.LittleEndian
import HftAlgorithms.MarketData.Listener

namespace HftAlgorithms

open LittleEndian

/-! ### Records

The structures of `messages.h` are packed, and the machine is little-endian. -/

def Side.ofByte : UInt8 → Side
  | 1 => .BUY
  | 2 => .SELL
  | byte => .invalid byte

def Side.toByte : Side → UInt8
  | .BUY => 1
  | .SELL => 2
  | .invalid byte => byte

theorem Side.ofByte_toByte {side : Side} (valid : side = .BUY ∨ side = .SELL) :
    Side.ofByte side.toByte = side := by
  rcases valid with rfl | rfl
  · rfl
  · rfl

def MsgType.ofByte : UInt8 → MsgType
  | 0 => .HEARTBEAT
  | 1 => .NEW_ORDER
  | 2 => .DELETE_ORDER
  | 3 => .MODIFY_ORDER
  | 4 => .TRADE
  | 5 => .TRADE_SUMMARY
  | 6 => .SNAPSHOT_INFO
  | byte => .unknown byte

def MsgType.toByte : MsgType → UInt8
  | .HEARTBEAT => 0
  | .NEW_ORDER => 1
  | .DELETE_ORDER => 2
  | .MODIFY_ORDER => 3
  | .TRADE => 4
  | .TRADE_SUMMARY => 5
  | .SNAPSHOT_INFO => 6
  | .unknown byte => byte

/-- `sizeof(md_header)`: magic number, length, sequence number, timestamp, type. -/
def sizeofMdHeader : Nat := 23

/-- `sizeof(new_order)` -/
def sizeofNewOrder : Nat := 45

/-- `sizeof(snapshot_info)` -/
def sizeofSnapshotInfo : Nat := 39

/-- The bytes of "SNAPSHOT" as a word. -/
def SNAPSHOT_MAGIC_NUMBER : UInt64 := 0x544F485350414E53

section Fields

variable (buf : Memory) (offset : Nat)

def readMagicNumber : UInt64 := UInt64.ofNat (word buf offset 8)

def readMsgType : MsgType := .ofByte (buf (offset + 22))

/-- `header.length` -/
def readLength : UInt16 := UInt16.ofNat (word buf (offset + 8) 2)

def readMdHeader : MdHeader :=
  { seqNum := UInt32.ofNat (word buf (offset + 10) 4), msgType := readMsgType buf offset }

def readNewOrder : NewOrder :=
  { header := readMdHeader buf offset
    orderId := UInt64.ofNat (word buf (offset + 23) 8)
    symbol := UInt32.ofNat (word buf (offset + 31) 4)
    side := .ofByte (buf (offset + 35))
    quantity := UInt32.ofNat (word buf (offset + 36) 4)
    price := (UInt32.ofNat (word buf (offset + 40) 4)).toInt32 }

def readSnapshotInfo : SnapshotInfo :=
  { symbol := UInt32.ofNat (word buf (offset + 23) 4)
    bidCount := UInt32.ofNat (word buf (offset + 27) 4)
    askCount := UInt32.ofNat (word buf (offset + 31) 4)
    lastMdSeqNum := UInt32.ofNat (word buf (offset + 35) 4) }

end Fields

/-! ### The loops -/

/-- What `read` returned: the number of bytes, and the buffer they are at the start of.  Behind
them lies what earlier packets have left, and behind the buffer whatever the stack holds. -/
structure RawPacket where
  buf : Memory
  bytes : Nat

/-- The packet goes to the snapshot branch.  The magic numbers of later records are not read. -/
def RawPacket.IsSnapshot (packet : RawPacket) : Prop :=
  readMagicNumber packet.buf 0 = SNAPSHOT_MAGIC_NUMBER

instance (packet : RawPacket) : Decidable packet.IsSnapshot :=
  inferInstanceAs (Decidable (_ = _))

/-- Where the loops stand: the offset of the next record, and how many turns the inner loop has
left (`total_orders - j`). -/
structure Cursor where
  offset : Nat
  left : Nat
deriving DecidableEq, Repr

/-- Before the first record. -/
def Cursor.start : Cursor := ⟨0, 0⟩

namespace RawPacket

/-- The inner loop goes on with the record at the cursor. -/
def TakesOrder (packet : RawPacket) (cursor : Cursor) : Prop :=
  0 < cursor.left ∧ cursor.offset < packet.bytes ∧
    cursor.offset + sizeofNewOrder ≤ packet.bytes ∧
      readMsgType packet.buf cursor.offset = .NEW_ORDER

/-- The outer loop goes on with the record at the cursor. -/
def OpensBlock (packet : RawPacket) (cursor : Cursor) : Prop :=
  cursor.offset < packet.bytes ∧ readMsgType packet.buf cursor.offset = .SNAPSHOT_INFO

instance (packet : RawPacket) (cursor : Cursor) : Decidable (packet.TakesOrder cursor) :=
  inferInstanceAs (Decidable (_ ∧ _))

instance (packet : RawPacket) (cursor : Cursor) : Decidable (packet.OpensBlock cursor) :=
  inferInstanceAs (Decidable (_ ∧ _))

/-- One turn of the inner loop, or else of the outer loop, which each of the inner loop's ways out
leads back to; `none` when both are left. -/
def nextRecord (packet : RawPacket) (cursor : Cursor) : Option (SnapshotRecord × Cursor) :=
  let length := (readLength packet.buf cursor.offset).toNat
  if packet.TakesOrder cursor then
    some (.order (readNewOrder packet.buf cursor.offset),
      ⟨cursor.offset + length, cursor.left - 1⟩)
  else if packet.OpensBlock cursor then
    let snap := readSnapshotInfo packet.buf cursor.offset
    some (.info snap, ⟨cursor.offset + length, (snap.bidCount + snap.askCount).toNat⟩)
  else none

end RawPacket

/-- The loops over a snapshot packet from a cursor on, if they end within the budget of turns. -/
def Listener.readPacket (packet : RawPacket) : Nat → Listener → Cursor → Option Listener
  | 0, listener, cursor =>
      match packet.nextRecord cursor with
      | none => some listener
      | some _ => none
  | budget + 1, listener, cursor =>
      match packet.nextRecord cursor with
      | none => some listener
      | some (record, next) => Listener.readPacket packet budget (listener.take record) next

end HftAlgorithms
