/-
Module: HftAlgorithms.MarketData.SharedManager
Purpose: The symbol manager as its threads share it: the calls of `symbol_manager.cpp`
  cut into their accesses to the atomics, one market-data thread and any number
  of fills in progress at a time.
Trusted boundary: none
Main exports: CacheField, FeedCall, FillPhase, FillCall, FillCall.Step, SharedManager,
  SharedManager.Step, SharedManager.Reaches
-/
import HftAlgorithms.MarketData.SymbolManager
import Mathlib.Logic.Relation

namespace HftAlgorithms

/-! ### Market data -/

/-- The four atomics of a slot's cache, in the order in which they are stored. -/
inductive CacheField where
  | bestBidPrice
  | bestBidQty
  | bestAskPrice
  | bestAskQty
deriving DecidableEq, Repr

namespace CacheField

def next : CacheField → Option CacheField
  | .bestBidPrice => some .bestBidQty
  | .bestBidQty => some .bestAskPrice
  | .bestAskPrice => some .bestAskQty
  | .bestAskQty => none

/-- What a load of the atomic gives, as a word. -/
def load (slot : SymbolSlot) : CacheField → UInt32
  | .bestBidPrice => slot.bestBidPrice.toUInt32
  | .bestBidQty => slot.bestBidQty
  | .bestAskPrice => slot.bestAskPrice.toUInt32
  | .bestAskQty => slot.bestAskQty

/-- One store of `flush_top_of_book`. -/
def flush (slot : SymbolSlot) : CacheField → SymbolSlot
  | .bestBidPrice => { slot with bestBidPrice := slot.book.getBestBidPrice }
  | .bestBidQty => { slot with bestBidQty := slot.book.getBestBidQty }
  | .bestAskPrice => { slot with bestAskPrice := slot.book.getBestAskPrice }
  | .bestAskQty => { slot with bestAskQty := slot.book.getBestAskQty }

/-- One store of `reset_book`. -/
def clear (slot : SymbolSlot) : CacheField → SymbolSlot
  | .bestBidPrice => { slot with bestBidPrice := 0 }
  | .bestBidQty => { slot with bestBidQty := 0 }
  | .bestAskPrice => { slot with bestAskPrice := 0 }
  | .bestAskQty => { slot with bestAskQty := 0 }

end CacheField

/-- The calls of the market-data thread. -/
inductive FeedMessage where
  | book (msg : BookMsg)
  | reset
deriving DecidableEq, Repr

/-- What a call stores into a field. -/
def FeedMessage.store (message : FeedMessage) (slot : SymbolSlot) (field : CacheField) :
    SymbolSlot :=
  match message with
  | .book _ => field.flush slot
  | .reset => field.clear slot

/-- A call of the market-data thread whose book has been updated and whose stores from `field` on
are still to come. -/
structure FeedCall where
  id : UInt32
  message : FeedMessage
  field : CacheField
deriving DecidableEq, Repr

namespace SymbolManager

/-- The book of a slot, which only the market-data thread looks at. -/
def updateBook (manager : SymbolManager) (id : UInt32) (message : FeedMessage) : SymbolManager :=
  let slot := manager.slots id
  manager.setSlot id
    { slot with
      book :=
        match message with
        | .book msg => slot.book.next msg
        | .reset => .empty id }

/-- One store into the cache. -/
def storeField (manager : SymbolManager) (call : FeedCall) : SymbolManager :=
  manager.setSlot call.id (call.message.store (manager.slots call.id) call.field)

/-- The whole call. -/
def onFeed (manager : SymbolManager) (id : UInt32) : FeedMessage → SymbolManager
  | .book msg => manager.onBookMsg id msg
  | .reset => manager.resetBook id

/-- An atomic read-modify-write of one position. -/
def movePosition (manager : SymbolManager) (id : UInt32) (side : Side) (qty : UInt32) :
    SymbolManager :=
  manager.setSlot id
    { manager.slots id with position := movedPosition (manager.getPosition id) side qty }

end SymbolManager

/-! ### Fills -/

/-- The arguments of `on_fill`. -/
structure FillArgs where
  id : UInt32
  side : Side
  qty : UInt32
  price : Int32
deriving DecidableEq, Repr

/-- How far a call of `on_fill` has come, with the values of its local variables. -/
inductive FillPhase where
  | loaded (oldPos : Int32)
  | moved (oldPos : Int32)
  | averaged (oldPos : Int32)
  | realizing (realized : ℚ)
  | swapping (realized expected : ℚ)
deriving DecidableEq

structure FillCall where
  fill : FillArgs
  phase : FillPhase
deriving DecidableEq

namespace FillArgs

/-- The average entry price that a fill leaves. -/
def average (fill : FillArgs) (oldPos : Int32) (before : ℚ) : ℚ :=
  if fill.side = .BUY then SymbolManager.averagedEntry before oldPos fill.qty fill.price
  else before

/-- `reducing` -/
def Reduces (fill : FillArgs) (oldPos : Int32) : Prop :=
  (fill.side = .SELL ∧ oldPos > 0) ∨ (fill.side = .BUY ∧ oldPos < 0)

instance (fill : FillArgs) (oldPos : Int32) : Decidable (fill.Reduces oldPos) :=
  inferInstanceAs (Decidable (_ ∨ _))

/-- What a fill realizes at an average entry price. -/
def realized (fill : FillArgs) (oldPos : Int32) (average : ℚ) : ℚ :=
  SymbolManager.realized average oldPos fill.side fill.qty fill.price

end FillArgs

/-- One step of a call of `on_fill` on the shared memory; `none` when it returns.  A weak
compare-and-swap may fail although the value is the expected one, and has loaded it again then. -/
inductive FillCall.Step : SymbolManager → FillCall → SymbolManager → Option FillCall → Prop where
  | fetchAdd (manager : SymbolManager) (fill : FillArgs) (oldPos : Int32) :
      Step manager ⟨fill, .loaded oldPos⟩ (manager.movePosition fill.id fill.side fill.qty)
        (some ⟨fill, .moved oldPos⟩)
  | average (manager : SymbolManager) (fill : FillArgs) (oldPos : Int32) :
      Step manager ⟨fill, .moved oldPos⟩
        { manager with
          avgEntryPrice := Function.update manager.avgEntryPrice fill.id
            (fill.average oldPos (manager.avgEntryPrice fill.id)) }
        (some ⟨fill, .averaged oldPos⟩)
  | keep (manager : SymbolManager) (fill : FillArgs) (oldPos : Int32)
      (grows : ¬ fill.Reduces oldPos) :
      Step manager ⟨fill, .averaged oldPos⟩ manager none
  | realize (manager : SymbolManager) (fill : FillArgs) (oldPos : Int32)
      (reduces : fill.Reduces oldPos) :
      Step manager ⟨fill, .averaged oldPos⟩ manager
        (some ⟨fill, .realizing (fill.realized oldPos (manager.avgEntryPrice fill.id))⟩)
  | load (manager : SymbolManager) (fill : FillArgs) (realized : ℚ) :
      Step manager ⟨fill, .realizing realized⟩ manager
        (some ⟨fill, .swapping realized manager.totalPnl⟩)
  | swap (manager : SymbolManager) (fill : FillArgs) (realized expected : ℚ)
      (unchanged : manager.totalPnl = expected) :
      Step manager ⟨fill, .swapping realized expected⟩
        { manager with totalPnl := expected + realized } none
  | retry (manager : SymbolManager) (fill : FillArgs) (realized expected : ℚ) :
      Step manager ⟨fill, .swapping realized expected⟩ manager
        (some ⟨fill, .swapping realized manager.totalPnl⟩)

/-! ### The threads together -/

/-- A call, in the order of whose beginnings the threads are compared with one thread. -/
inductive ThreadCall where
  | feed (id : UInt32) (message : FeedMessage)
  | fill (fill : FillArgs)
deriving DecidableEq, Repr

/-- The whole call, with nothing in between. -/
def SymbolManager.runCall (manager : SymbolManager) : ThreadCall → SymbolManager
  | .feed id message => manager.onFeed id message
  | .fill fill => manager.onFill fill.id fill.side fill.qty fill.price

/-- The shared memory and the calls in progress; `begun` is kept for the comparison alone. -/
structure SharedManager where
  memory : SymbolManager
  feed : Option FeedCall
  fills : List FillCall
  begun : List ThreadCall

namespace SharedManager

def start (memory : SymbolManager) : SharedManager :=
  { memory := memory, feed := none, fills := [], begun := [] }

/-- Some thread makes its next step.  Two fills of one symbol are not in progress at a time: they
come from one thread. -/
inductive Step : SharedManager → SharedManager → Prop where
  | beginFeed (shared : SharedManager) (id : UInt32) (message : FeedMessage)
      (idle : shared.feed = none) :
      Step shared
        { shared with
          memory := shared.memory.updateBook id message
          feed := some ⟨id, message, .bestBidPrice⟩
          begun := shared.begun ++ [.feed id message] }
  | store (shared : SharedManager) (call : FeedCall) (running : shared.feed = some call) :
      Step shared
        { shared with
          memory := shared.memory.storeField call
          feed := call.field.next.map fun field => { call with field := field } }
  | beginFill (shared : SharedManager) (fill : FillArgs)
      (alone : ∀ call ∈ shared.fills, call.fill.id ≠ fill.id) :
      Step shared
        { shared with
          fills := shared.fills ++ [⟨fill, .loaded (shared.memory.getPosition fill.id)⟩]
          begun := shared.begun ++ [.fill fill] }
  | fillStep (shared : SharedManager) (earlier later : List FillCall) (call : FillCall)
      (memory : SymbolManager) (after : Option FillCall)
      (running : shared.fills = earlier ++ call :: later)
      (steps : call.Step shared.memory memory after) :
      Step shared { shared with memory := memory, fills := earlier ++ after.toList ++ later }

/-- The threads can come from one state to the other. -/
def Reaches : SharedManager → SharedManager → Prop := Relation.ReflTransGen Step

/-! ### The strategy thread -/

/-- The loads of one turn of the loop of `snapshot`, of which the first is made at the moment
`first`. -/
def loadDorm (moments : Nat → SymbolManager) (first : Nat) (id : UInt32) : DormData :=
  { bestBidPrice := ((moments first).slots id).bestBidPrice
    bestAskPrice := ((moments (first + 1)).slots id).bestAskPrice
    bestBidQty := ((moments (first + 2)).slots id).bestBidQty
    bestAskQty := ((moments (first + 3)).slots id).bestAskQty
    position := ((moments (first + 4)).slots id).position }

/-- `snapshot`, whose loads are made one after the other, each at its own moment. -/
def loadSnapshot (moments : Nat → SymbolManager) : ArbSnapshot :=
  let dorms := DORM_IDS.mapIdx fun index id => loadDorm moments (5 * index) id
  let ask := (dorms.map DormData.bestAskPrice).foldl SymbolManager.addToNav (0, false)
  let bid := (dorms.map DormData.bestBidPrice).foldl SymbolManager.addToNav (0, false)
  let undy := loadDorm moments 50 SYM_UNDY
  { dorms := ⟨dorms.toArray, rfl⟩
    undyBestBidPrice := undy.bestBidPrice
    undyBestAskPrice := undy.bestAskPrice
    undyBestBidQty := undy.bestBidQty
    undyBestAskQty := undy.bestAskQty
    undyPosition := undy.position
    navAsk := ask.1
    navBid := bid.1
    anyDormAskMissing := ask.2
    anyDormBidMissing := bid.2 }

/-- No call is in progress. -/
def Quiet (shared : SharedManager) : Prop := shared.feed = none ∧ shared.fills = []

end SharedManager

end HftAlgorithms
