/-
Module: HftAlgorithms.MarketData.Listener
Purpose: The market-data listener of `listener.cpp`: routing by order id, snapshot
  packets from the replay channel, and the buffer of live packets that is drained
  once the replay goes quiet.
Trusted boundary: none
Main exports: SnapshotInfo, SnapshotRecord, Packet, Listener, Listener.dispatch,
  Listener.readSnapshot, Listener.drain, ListenerEvent, Listener.next
-/
import HftAlgorithms.MarketData.SymbolManager

namespace HftAlgorithms

/-! ### Packets -/

/-- The fields of `snapshot_info` that the listener reads.  `last_md_seq_num` is only logged. -/
structure SnapshotInfo where
  symbol : UInt32
  bidCount : UInt32
  askCount : UInt32
  lastMdSeqNum : UInt32
deriving DecidableEq, Repr, Inhabited

/-- A record of a snapshot packet.  Every type but these two ends the packet. -/
inductive SnapshotRecord where
  | info (msg : SnapshotInfo)
  | order (msg : NewOrder)
  | other
deriving DecidableEq, Repr

/-- A packet by its magic number and, for market data, its message type. -/
inductive Packet where
  | snapshot (records : List SnapshotRecord)
  | book (msg : BookMsg)
  | heartbeat
  | otherMessage
  | foreign
deriving DecidableEq, Repr

/-- The message that a buffered packet is drained as, if any. -/
def Packet.bookMsg : Packet → Option BookMsg
  | .book msg => some msg
  | _ => none

/-! ### State -/

/-- `running` is false once `run_listener` has returned. -/
structure Listener where
  manager : SymbolManager
  orderToSymbol : FiniteMap UInt64 UInt32
  liveBuffer : List Packet
  caughtUp : Bool
  receivedSnapshot : Bool
  noReplayCount : Nat
  running : Bool

namespace Listener

/-- The listener when it starts. -/
def start (manager : SymbolManager) : Listener :=
  { manager := manager, orderToSymbol := ∅, liveBuffer := [], caughtUp := false,
    receivedSnapshot := false, noReplayCount := 0, running := true }

/-! ### Routing -/

def dispatchNewOrder (listener : Listener) (msg : NewOrder) : Listener :=
  { listener with
    manager := listener.manager.onNewOrder msg.symbol msg
    orderToSymbol := listener.orderToSymbol.insert msg.orderId msg.symbol }

def dispatchDeleteOrder (listener : Listener) (msg : DeleteOrder) : Listener :=
  match listener.orderToSymbol.lookup msg.orderId with
  | none => listener
  | some symbol =>
      { listener with
        manager := listener.manager.onDeleteOrder symbol msg
        orderToSymbol := listener.orderToSymbol.erase msg.orderId }

def dispatchModifyOrder (listener : Listener) (msg : ModifyOrder) : Listener :=
  match listener.orderToSymbol.lookup msg.orderId with
  | none => listener
  | some symbol => { listener with manager := listener.manager.onModifyOrder symbol msg }

def dispatchTrade (listener : Listener) (msg : Trade) : Listener :=
  match listener.orderToSymbol.lookup msg.orderId with
  | none => listener
  | some symbol => { listener with manager := listener.manager.onTrade symbol msg }

/-- The `switch` over the message type. -/
def dispatch (listener : Listener) : BookMsg → Listener
  | .newOrder msg => listener.dispatchNewOrder msg
  | .deleteOrder msg => listener.dispatchDeleteOrder msg
  | .modifyOrder msg => listener.dispatchModifyOrder msg
  | .trade msg => listener.dispatchTrade msg

/-! ### Snapshots -/

/-- A block starts: the symbol's book is reset and its routes are dropped. -/
def openBlock (listener : Listener) (info : SnapshotInfo) : Listener :=
  { listener with
    manager := listener.manager.resetBook info.symbol
    orderToSymbol := listener.orderToSymbol.filter fun _ symbol => symbol ≠ info.symbol
    receivedSnapshot := true
    noReplayCount := 0 }

/-- What a record that is got through does. -/
def take (listener : Listener) : SnapshotRecord → Listener
  | .info msg => listener.openBlock msg
  | .order msg => listener.dispatchNewOrder msg
  | .other => listener

/-- One record in the two nested loops over a packet.  The second component is how many orders
the inner loop still expects; `none` when the outer loop has ended. -/
def readRecord (reading : Listener × Option Nat) (record : SnapshotRecord) :
    Listener × Option Nat :=
  match reading.2, record with
  | none, _ => reading
  | some _, .info msg => (reading.1.openBlock msg, some (msg.bidCount + msg.askCount).toNat)
  | some (left + 1), .order msg =>
      if msg.header.msgType = .NEW_ORDER then (reading.1.dispatchNewOrder msg, some left)
      else (reading.1, none)
  | some 0, .order _ => (reading.1, none)
  | some _, .other => (reading.1, none)

def readSnapshot (listener : Listener) (records : List SnapshotRecord) : Listener :=
  (records.foldl readRecord (listener, some 0)).1

/-! ### The feed -/

/-- Hand every buffered message to its handler, whatever its sequence number. -/
def drain (listener : Listener) : Listener :=
  { (listener.liveBuffer.filterMap Packet.bookMsg).foldl dispatch listener with
    liveBuffer := []
    caughtUp := true }

/-- A packet that is not buffered. -/
def process (listener : Listener) : Packet → Listener
  | .snapshot records => listener.readSnapshot records
  | .book msg => { listener.dispatch msg with noReplayCount := 0 }
  | .heartbeat => { listener with noReplayCount := 0 }
  | .otherMessage => { listener with noReplayCount := 0 }
  | .foreign => listener

end Listener

/-- What `epoll_wait` returns: a packet on one of the two sockets, or nothing within 10 ms.  The
returns of `run_listener` on a failed `epoll_create` or `epoll_wait` are left out. -/
inductive ListenerEvent where
  | live (packet : Packet)
  | replay (packet : Packet)
  | timeout
deriving DecidableEq, Repr

namespace Listener

/-- A live packet while the listener is catching up. -/
def bufferLive (listener : Listener) (packet : Packet) : Listener :=
  if listener.liveBuffer.length > 100000 then { listener with running := false }
  else { listener with liveBuffer := listener.liveBuffer ++ [packet] }

/-- A quiet period; the 101st since the last replay packet ends the catch-up. -/
def quiet (listener : Listener) : Listener :=
  if ¬ listener.caughtUp ∧ listener.receivedSnapshot then
    let counted := { listener with noReplayCount := listener.noReplayCount + 1 }
    if counted.noReplayCount > 100 then counted.drain else counted
  else listener

def next (listener : Listener) (event : ListenerEvent) : Listener :=
  if ¬ listener.running then listener
  else
    match event with
    | .live packet =>
        if listener.caughtUp then listener.process packet else listener.bufferLive packet
    | .replay packet => listener.process packet
    | .timeout => listener.quiet

end Listener

end HftAlgorithms
