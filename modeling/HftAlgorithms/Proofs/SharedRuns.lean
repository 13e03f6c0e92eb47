/-
Module: HftAlgorithms.Proofs.SharedRuns
Purpose: However the accesses of the market-data thread and of fills in progress are
  interleaved, and however often a compare-and-swap fails, the symbol manager ends
  as if the calls had been made one after the other.
Trusted boundary: none
Main exports: FillCall.owed, FillCall.Tracks, FillCall.Step.conserves,
  SharedManager.Simulates, SharedManager.Simulates.step,
  SharedManager.memory_eq_of_quiet
-/
import HftAlgorithms.MarketData.SharedManager
import Mathlib.Algebra.BigOperators.Group.List.Basic
import Mathlib.Algebra.Field.Rat
import Mathlib.Tactic.LinearCombination

namespace HftAlgorithms

open SymbolManager

/-! ### One fill -/

/-- Two memories agree on what a fill of a symbol reads. -/
def SameEntry (id : UInt32) (memory other : SymbolManager) : Prop :=
  memory.getPosition id = other.getPosition id ∧ memory.avgEntryPrice id = other.avgEntryPrice id

namespace FillCall

/-- What the call is still going to add to the total PnL. -/
def owed (memory : SymbolManager) (call : FillCall) : ℚ :=
  let average := memory.avgEntryPrice call.fill.id
  match call.phase with
  | .loaded oldPos | .moved oldPos =>
      if call.fill.Reduces oldPos then
        call.fill.realized oldPos (call.fill.average oldPos average)
      else 0
  | .averaged oldPos =>
      if call.fill.Reduces oldPos then call.fill.realized oldPos average else 0
  | .realizing realized => realized
  | .swapping realized _ => realized

/-- How far the memory is behind a manager that has made the whole call. -/
def Tracks (memory whole : SymbolManager) (call : FillCall) : Prop :=
  let id := call.fill.id
  match call.phase with
  | .loaded oldPos =>
      memory.getPosition id = oldPos ∧
        whole.getPosition id = movedPosition oldPos call.fill.side call.fill.qty ∧
          whole.avgEntryPrice id = call.fill.average oldPos (memory.avgEntryPrice id)
  | .moved oldPos =>
      memory.getPosition id = whole.getPosition id ∧
        whole.avgEntryPrice id = call.fill.average oldPos (memory.avgEntryPrice id)
  | .averaged _ | .realizing _ | .swapping _ _ => SameEntry id memory whole

theorem owed_congr {memory other : SymbolManager} {call : FillCall}
    (same : memory.avgEntryPrice call.fill.id = other.avgEntryPrice call.fill.id) :
    call.owed memory = call.owed other := by
  simp only [owed, same]

theorem Tracks.congr {memory other whole wholeOther : SymbolManager} {call : FillCall}
    (tracks : call.Tracks memory whole) (same : SameEntry call.fill.id memory other)
    (sameWhole : SameEntry call.fill.id whole wholeOther) : call.Tracks other wholeOther := by
  obtain ⟨position, average⟩ := same
  obtain ⟨wholePosition, wholeAverage⟩ := sameWhole
  obtain ⟨fill, phase⟩ := call
  cases phase <;>
    simp only [Tracks, SameEntry, position, average, wholePosition, wholeAverage] at tracks ⊢ <;>
    exact tracks

namespace Step

variable {memory memory' : SymbolManager} {call : FillCall} {after : Option FillCall}

/-- A step leaves the books, the caches, and the entries of the other symbols alone. -/
theorem frame (steps : call.Step memory memory' after) (id : UInt32) :
    (memory'.slots id).book = (memory.slots id).book ∧
      (∀ field : CacheField, field.load (memory'.slots id) = field.load (memory.slots id)) ∧
        (id ≠ call.fill.id → SameEntry id memory memory') := by
  cases steps with
  | fetchAdd fill oldPos =>
      by_cases own : id = fill.id
      · subst own
        refine ⟨by simp [movePosition, setSlot], ?_, fun other => absurd rfl other⟩
        intro field
        cases field <;> simp [movePosition, setSlot, CacheField.load]
      · simp [movePosition, setSlot, SameEntry, getPosition, own]
  | average fill oldPos =>
      refine ⟨rfl, fun _ => rfl, fun other => ⟨rfl, ?_⟩⟩
      simp [Function.update_of_ne other]
  | keep fill oldPos grows => exact ⟨rfl, fun _ => rfl, fun _ => ⟨rfl, rfl⟩⟩
  | realize fill oldPos reduces => exact ⟨rfl, fun _ => rfl, fun _ => ⟨rfl, rfl⟩⟩
  | load fill realized => exact ⟨rfl, fun _ => rfl, fun _ => ⟨rfl, rfl⟩⟩
  | swap fill realized expected unchanged => exact ⟨rfl, fun _ => rfl, fun _ => ⟨rfl, rfl⟩⟩
  | retry fill realized expected => exact ⟨rfl, fun _ => rfl, fun _ => ⟨rfl, rfl⟩⟩

/-- A call stays a call of the same fill. -/
theorem fill_eq (steps : call.Step memory memory' after) :
    ∀ next ∈ after, next.fill = call.fill := by
  cases steps <;> simp

/-- What the total has and what is still owed to it stay together the same. -/
theorem conserves (steps : call.Step memory memory' after) :
    memory'.totalPnl + after.elim 0 (fun next => next.owed memory') =
      memory.totalPnl + call.owed memory := by
  cases steps with
  | fetchAdd fill oldPos => rfl
  | average fill oldPos => simp [owed]
  | keep fill oldPos grows => simp [owed, grows]
  | realize fill oldPos reduces => simp [owed, reduces]
  | load fill realized => rfl
  | swap fill realized expected unchanged => simp [owed, unchanged]
  | retry fill realized expected => rfl

/-- The memory comes closer to the manager that has made the whole call, and is level with it when
the call returns. -/
theorem tracks {whole : SymbolManager} (steps : call.Step memory memory' after)
    (behind : call.Tracks memory whole) :
    match after with
    | some next => next.Tracks memory' whole
    | none => SameEntry call.fill.id memory' whole := by
  cases steps with
  | fetchAdd fill oldPos =>
      obtain ⟨position, moved, average⟩ := behind
      refine ⟨?_, average⟩
      rw [moved, ← position]
      simp [movePosition, setSlot, getPosition]
  | average fill oldPos =>
      obtain ⟨position, average⟩ := behind
      exact ⟨position, by simp [average]⟩
  | keep fill oldPos grows => exact behind
  | realize fill oldPos reduces => exact behind
  | load fill realized => exact behind
  | swap fill realized expected unchanged => exact behind
  | retry fill realized expected => exact behind

end Step

end FillCall

/-- The whole fill, on the entry of its symbol and on the total. -/
theorem runCall_fill (manager : SymbolManager) (fill : FillArgs) :
    let after := manager.runCall (.fill fill)
    let oldPos := manager.getPosition fill.id
    after.getPosition fill.id = movedPosition oldPos fill.side fill.qty ∧
      after.avgEntryPrice fill.id = fill.average oldPos (manager.avgEntryPrice fill.id) ∧
      after.totalPnl = manager.totalPnl +
        (if fill.Reduces oldPos then
          fill.realized oldPos (fill.average oldPos (manager.avgEntryPrice fill.id)) else 0) := by
  refine ⟨?_, ?_, ?_⟩
  · simp [runCall, getPosition_onFill]
  · simp [runCall, onFill, FillArgs.average, getPosition]
  · by_cases reduces : fill.Reduces (manager.getPosition fill.id)
    · rw [if_pos reduces]
      exact if_pos reduces
    · rw [if_neg reduces, add_zero]
      exact if_neg reduces

/-- The whole fill leaves all else alone. -/
theorem runCall_fill_frame (manager : SymbolManager) (fill : FillArgs) (id : UInt32) :
    let after := manager.runCall (.fill fill)
    (after.slots id).book = (manager.slots id).book ∧
      (∀ field : CacheField, field.load (after.slots id) = field.load (manager.slots id)) ∧
        (id ≠ fill.id → SameEntry id manager after) := by
  by_cases own : id = fill.id
  · subst own
    refine ⟨by simp [runCall, onFill], ?_, fun other => absurd rfl other⟩
    intro field
    cases field <;> simp [runCall, onFill, CacheField.load]
  · simp [runCall, onFill, SameEntry, getPosition, own]

/-! ### One call of the market-data thread -/

namespace CacheField

/-- The stores from one field on. -/
def rest : CacheField → List CacheField
  | .bestBidPrice => [.bestBidPrice, .bestBidQty, .bestAskPrice, .bestAskQty]
  | .bestBidQty => [.bestBidQty, .bestAskPrice, .bestAskQty]
  | .bestAskPrice => [.bestAskPrice, .bestAskQty]
  | .bestAskQty => [.bestAskQty]

theorem mem_rest (field : CacheField) : field ∈ rest .bestBidPrice := by
  cases field <;> simp [rest]

theorem rest_eq (field : CacheField) : field.rest = field :: field.next.elim [] rest := by
  cases field <;> rfl

end CacheField

/-- What a call puts into a field of the cache, when the book is up to date. -/
def FeedMessage.value (message : FeedMessage) (book : OrderBook) (field : CacheField) : UInt32 :=
  match message, field with
  | .reset, _ => 0
  | .book _, .bestBidPrice => book.getBestBidPrice.toUInt32
  | .book _, .bestBidQty => book.getBestBidQty
  | .book _, .bestAskPrice => book.getBestAskPrice.toUInt32
  | .book _, .bestAskQty => book.getBestAskQty

theorem toUInt32_injective {price other : Int32} (same : price.toUInt32 = other.toUInt32) :
    price = other := by
  rw [← Int32.toInt32_toUInt32 price, same, Int32.toInt32_toUInt32]

theorem load_store (message : FeedMessage) (slot : SymbolSlot) (field other : CacheField) :
    other.load (message.store slot field) =
      if other = field then message.value slot.book field else other.load slot := by
  cases message <;> cases field <;> cases other <;> rfl

/-- A store leaves the books and the entries alone, and all fields but its own. -/
theorem storeField_frame (memory : SymbolManager) (call : FeedCall) (id : UInt32) :
    ((memory.storeField call).slots id).book = (memory.slots id).book ∧
      SameEntry id memory (memory.storeField call) ∧
        ∀ field : CacheField, field.load ((memory.storeField call).slots id) =
          if id = call.id ∧ field = call.field then
            call.message.value (memory.slots id).book field
          else field.load (memory.slots id) := by
  by_cases own : id = call.id
  · subst own
    have stored : (memory.storeField call).slots call.id =
        call.message.store (memory.slots call.id) call.field := by
      simp [storeField, setSlot]
    refine ⟨?_, ⟨?_, rfl⟩, ?_⟩
    · rw [stored]
      cases call.message <;> cases call.field <;> rfl
    · rw [getPosition, getPosition, stored]
      cases call.message <;> cases call.field <;> rfl
    · intro field
      rw [stored, load_store]
      by_cases same : field = call.field <;> simp [same]
  · have untouched : (memory.storeField call).slots id = memory.slots id := by
      simp [storeField, setSlot, own]
    refine ⟨by rw [untouched], ⟨?_, rfl⟩, ?_⟩
    · rw [getPosition, getPosition, untouched]
    · intro field
      simp [untouched, own]

/-- The first step of a call brings the book up to date and nothing else. -/
theorem updateBook_frame (memory : SymbolManager) (id : UInt32) (message : FeedMessage)
    (other : UInt32) :
    SameEntry other memory (memory.updateBook id message) ∧
      ∀ field : CacheField, field.load ((memory.updateBook id message).slots other) =
        field.load (memory.slots other) := by
  by_cases own : other = id
  · subst own
    refine ⟨⟨?_, rfl⟩, ?_⟩
    · simp [getPosition, updateBook, setSlot]
    · intro field
      cases field <;> simp [updateBook, setSlot, CacheField.load]
  · simp [SameEntry, getPosition, updateBook, setSlot, own]

/-- The whole call. -/
theorem onFeed_frame (manager : SymbolManager) (id : UInt32) (message : FeedMessage)
    (other : UInt32) :
    SameEntry other manager (manager.onFeed id message) ∧
      ((manager.onFeed id message).slots other).book =
        ((manager.updateBook id message).slots other).book ∧
      ∀ field : CacheField, field.load ((manager.onFeed id message).slots other) =
        if other = id then
          message.value ((manager.updateBook id message).slots other).book field
        else field.load (manager.slots other) := by
  by_cases own : other = id
  · subst own
    refine ⟨⟨?_, ?_⟩, ?_, ?_⟩
    · cases message <;>
        simp [onFeed, onBookMsg, resetBook, setSlot, getPosition, SymbolSlot.flushTopOfBook]
    · cases message <;> rfl
    · cases message <;>
        simp [onFeed, onBookMsg, resetBook, setSlot, updateBook, SymbolSlot.flushTopOfBook,
          SymbolSlot.empty]
    · intro field
      cases message <;> cases field <;>
        simp [onFeed, onBookMsg, resetBook, setSlot, updateBook, SymbolSlot.flushTopOfBook,
          SymbolSlot.empty, CacheField.load, FeedMessage.value] <;> rfl
  · refine ⟨⟨?_, ?_⟩, ?_, ?_⟩
    · cases message <;> simp [onFeed, onBookMsg, resetBook, setSlot, getPosition, own]
    · cases message <;> rfl
    · cases message <;> simp [onFeed, onBookMsg, resetBook, setSlot, updateBook, own]
    · intro field
      cases message <;> simp [onFeed, onBookMsg, resetBook, setSlot, own]

/-! ### All threads -/

namespace SharedManager

/-- The manager that has made every call whole as soon as it began. -/
def whole (memory : SymbolManager) (shared : SharedManager) : SymbolManager :=
  shared.begun.foldl SymbolManager.runCall memory

/-- A store into the field is still to come. -/
def Owes (shared : SharedManager) (id : UInt32) (field : CacheField) : Prop :=
  ∃ call, shared.feed = some call ∧ call.id = id ∧ field ∈ call.field.rest

/-- The memory is that of a manager that has made every call whole, up to what the calls in
progress are still going to do. -/
structure Simulates (manager : SymbolManager) (shared : SharedManager) : Prop where
  alone : (shared.fills.map fun call => call.fill.id).Nodup
  book : ∀ id, (shared.memory.slots id).book = (manager.slots id).book
  cache : ∀ id field, ¬ shared.Owes id field →
    field.load (shared.memory.slots id) = field.load (manager.slots id)
  feeding : ∀ call, shared.feed = some call → ∀ field : CacheField,
    field.load (manager.slots call.id) =
      call.message.value (shared.memory.slots call.id).book field
  tracks : ∀ call ∈ shared.fills, call.Tracks shared.memory manager
  settled : ∀ id, (∀ call ∈ shared.fills, call.fill.id ≠ id) → SameEntry id shared.memory manager
  total : manager.totalPnl =
    shared.memory.totalPnl + (shared.fills.map (FillCall.owed shared.memory)).sum

section Steps

variable {manager : SymbolManager} {shared : SharedManager}

theorem simulates_start (memory : SymbolManager) : Simulates memory (start memory) where
  alone := List.nodup_nil
  book _ := rfl
  cache _ _ _ := rfl
  feeding _ running := by cases running
  tracks _ member := absurd member List.not_mem_nil
  settled _ _ := ⟨rfl, rfl⟩
  total := by simp [start]

/-- Once no call is in progress, nothing is left to do. -/
theorem Simulates.memory_eq (simulates : Simulates manager shared) (quiet : shared.Quiet) :
    shared.memory = manager := by
  obtain ⟨noFeed, noFills⟩ := quiet
  have entry (id : UInt32) : SameEntry id shared.memory manager := by
    apply simulates.settled
    simp [noFills]
  have loads (id : UInt32) (field : CacheField) :
      field.load (shared.memory.slots id) = field.load (manager.slots id) := by
    apply simulates.cache
    simp [Owes, noFeed]
  have slots : shared.memory.slots = manager.slots := by
    funext id
    have bidPrice : (shared.memory.slots id).bestBidPrice = (manager.slots id).bestBidPrice :=
      toUInt32_injective (loads id .bestBidPrice)
    have askPrice : (shared.memory.slots id).bestAskPrice = (manager.slots id).bestAskPrice :=
      toUInt32_injective (loads id .bestAskPrice)
    have bidQty : (shared.memory.slots id).bestBidQty = _ := loads id .bestBidQty
    have askQty : (shared.memory.slots id).bestAskQty = _ := loads id .bestAskQty
    have position : (shared.memory.slots id).position = _ := (entry id).1
    have book := simulates.book id
    cases mine : shared.memory.slots id
    cases theirs : manager.slots id
    simp_all [CacheField.load, getPosition]
  have averages : shared.memory.avgEntryPrice = manager.avgEntryPrice :=
    funext fun id => (entry id).2
  have total := simulates.total
  rw [noFills, List.map_nil, List.sum_nil, add_zero] at total
  cases mine : shared.memory
  cases theirs : manager
  simp_all

/-! #### A fill begins -/

theorem Simulates.beginFill (simulates : Simulates manager shared) {fill : FillArgs}
    (alone : ∀ call ∈ shared.fills, call.fill.id ≠ fill.id) :
    Simulates (manager.runCall (.fill fill))
      { shared with
        fills := shared.fills ++ [⟨fill, .loaded (shared.memory.getPosition fill.id)⟩]
        begun := shared.begun ++ [.fill fill] } := by
  have level := simulates.settled fill.id alone
  obtain ⟨position, average, total⟩ := runCall_fill manager fill
  rw [← level.1, ← level.2] at average total
  rw [← level.1] at position
  have frame := runCall_fill_frame manager fill
  constructor
  · simp only [List.map_append, List.map_singleton]
    rw [List.nodup_append]
    refine ⟨simulates.alone, List.nodup_singleton _, ?_⟩
    intro id earlier other last
    obtain ⟨call, member, rfl⟩ := List.mem_map.mp earlier
    rw [List.mem_singleton.mp last]
    exact alone call member
  · exact fun id => (simulates.book id).trans (frame id).1.symm
  · intro id field notOwed
    rw [(frame id).2.1]
    exact simulates.cache id field notOwed
  · intro call running field
    rw [(frame call.id).2.1]
    exact simulates.feeding call running field
  · intro call member
    rcases List.mem_append.mp member with earlier | last
    · exact (simulates.tracks call earlier).congr ⟨rfl, rfl⟩
        ((frame call.fill.id).2.2 (alone call earlier))
    · rw [List.mem_singleton.mp last]
      exact ⟨rfl, position, average⟩
  · intro id settled
    have before := simulates.settled id fun call member =>
      settled call (List.mem_append_left _ member)
    have other : id ≠ fill.id := by
      have mine := settled ⟨fill, .loaded (shared.memory.getPosition fill.id)⟩ (by simp)
      exact fun same => mine same.symm
    obtain ⟨samePosition, sameAverage⟩ := (frame id).2.2 other
    exact ⟨before.1.trans samePosition, before.2.trans sameAverage⟩
  · rw [total, simulates.total]
    simp [FillCall.owed, add_assoc]

/-! #### A fill makes a step -/

/-- What the other calls still owe does not change. -/
theorem owed_others {memory memory' : SymbolManager} {call : FillCall} {after : Option FillCall}
    (steps : call.Step memory memory' after) {others : List FillCall}
    (different : ∀ other ∈ others, other.fill.id ≠ call.fill.id) :
    others.map (FillCall.owed memory') = others.map (FillCall.owed memory) := by
  apply List.map_congr_left
  intro other member
  exact FillCall.owed_congr ((steps.frame other.fill.id).2.2 (different other member)).2.symm

theorem Simulates.fillStep (simulates : Simulates manager shared) {earlier later : List FillCall}
    {call : FillCall} {memory : SymbolManager} {after : Option FillCall}
    (running : shared.fills = earlier ++ call :: later)
    (steps : call.Step shared.memory memory after) :
    Simulates manager
      { shared with memory := memory, fills := earlier ++ after.toList ++ later } := by
  have frame := steps.frame
  have sameFill := steps.fill_eq
  have distinct := simulates.alone
  rw [running, List.map_append, List.map_cons, List.nodup_append] at distinct
  obtain ⟨earlierDistinct, tailDistinct, apart⟩ := distinct
  obtain ⟨notLater, laterDistinct⟩ := List.nodup_cons.mp tailDistinct
  have differentEarlier : ∀ other ∈ earlier, other.fill.id ≠ call.fill.id := fun other member =>
    apart _ (List.mem_map_of_mem member) _ List.mem_cons_self
  have differentLater : ∀ other ∈ later, other.fill.id ≠ call.fill.id := by
    intro other member same
    exact notLater (same ▸ List.mem_map_of_mem member)
  have tracksCall := simulates.tracks call (by simp [running])
  have tracksOther : ∀ other ∈ earlier ++ later, other.Tracks memory manager := by
    intro other member
    have within : other ∈ shared.fills := by
      rw [running]
      rcases List.mem_append.mp member with first | second
      · exact List.mem_append_left _ first
      · exact List.mem_append_right _ (List.mem_cons_of_mem _ second)
    have different : other.fill.id ≠ call.fill.id :=
      (List.mem_append.mp member).elim (differentEarlier other) (differentLater other)
    exact (simulates.tracks other within).congr ((frame other.fill.id).2.2 different) ⟨rfl, rfl⟩
  have settledOther : ∀ id, id ≠ call.fill.id → (∀ other ∈ earlier ++ later, other.fill.id ≠ id) →
      SameEntry id memory manager := by
    intro id other settled
    obtain ⟨position, average⟩ := (frame id).2.2 other
    have before : SameEntry id shared.memory manager := by
      apply simulates.settled
      rw [running]
      intro fill member
      rcases List.mem_append.mp member with first | second
      · exact settled fill (List.mem_append_left _ first)
      · rcases List.mem_cons.mp second with rfl | third
        · exact fun same => other same.symm
        · exact settled fill (List.mem_append_right _ third)
    exact ⟨position.symm.trans before.1, average.symm.trans before.2⟩
  constructor
  · cases after with
    | none =>
        simp only [Option.toList_none, List.append_nil, List.map_append]
        rw [List.nodup_append]
        exact ⟨earlierDistinct, laterDistinct, fun id first other second =>
          apart id first other (List.mem_cons_of_mem _ second)⟩
    | some next =>
        have same : ((earlier ++ [next] ++ later).map fun call => call.fill.id) =
            shared.fills.map fun call => call.fill.id := by
          simp [running, sameFill next rfl]
        rw [Option.toList_some, same]
        exact simulates.alone
  · exact fun id => (frame id).1.trans (simulates.book id)
  · intro id field notOwed
    rw [(frame id).2.1]
    exact simulates.cache id field notOwed
  · intro feed feeding field
    rw [(frame feed.id).1]
    exact simulates.feeding feed feeding field
  · intro other member
    rcases List.mem_append.mp member with front | back
    · rcases List.mem_append.mp front with first | stepped
      · exact tracksOther other (List.mem_append_left _ first)
      · have ahead := steps.tracks tracksCall
        cases after with
        | none => simp at stepped
        | some next =>
            obtain rfl : other = next := by simpa using stepped
            exact ahead
    · exact tracksOther other (List.mem_append_right _ back)
  · intro id settled
    have others : ∀ other ∈ earlier ++ later, other.fill.id ≠ id := by
      intro other member
      apply settled
      rcases List.mem_append.mp member with first | second
      · exact List.mem_append_left _ (List.mem_append_left _ first)
      · exact List.mem_append_right _ second
    by_cases own : id = call.fill.id
    · subst own
      have ahead := steps.tracks tracksCall
      cases after with
      | none => exact ahead
      | some next =>
          have still := settled next (by simp)
          exact absurd (congrArg FillArgs.id (sameFill next rfl)) still
    · exact settledOther id own others
  · have kept := steps.conserves
    have first := owed_others steps differentEarlier
    have second := owed_others steps differentLater
    rw [simulates.total, running]
    simp only [List.map_append, List.map_cons, List.sum_append, List.sum_cons, first, second]
    have returned : ((after.toList.map (FillCall.owed memory)).sum : ℚ) =
        after.elim 0 fun next => next.owed memory := by
      cases after <;> simp
    rw [returned]
    linear_combination -kept

/-! #### The market-data thread makes a step -/

theorem Simulates.beginFeed (simulates : Simulates manager shared) (id : UInt32)
    (message : FeedMessage) (idle : shared.feed = none) :
    Simulates (manager.runCall (.feed id message))
      { shared with
        memory := shared.memory.updateBook id message
        feed := some ⟨id, message, .bestBidPrice⟩
        begun := shared.begun ++ [.feed id message] } := by
  have updated := updateBook_frame shared.memory id message
  have frame := onFeed_frame manager id message
  have books (other : UInt32) : ((shared.memory.updateBook id message).slots other).book =
      ((manager.updateBook id message).slots other).book := by
    by_cases own : other = id
    · subst own
      simp [updateBook, setSlot, simulates.book other]
    · simp [updateBook, setSlot, own, simulates.book other]
  constructor
  · exact simulates.alone
  · exact fun other => (books other).trans (frame other).2.1.symm
  · intro other field notOwed
    have away : other ≠ id := by
      rintro rfl
      exact notOwed ⟨_, rfl, rfl, field.mem_rest⟩
    rw [(updated other).2 field, SymbolManager.runCall, (frame other).2.2, if_neg away]
    apply simulates.cache
    simp [Owes, idle]
  · intro call running field
    obtain rfl := Option.some.inj running
    rw [SymbolManager.runCall, (frame id).2.2, if_pos rfl, books]
  · intro call member
    exact (simulates.tracks call member).congr (updated call.fill.id).1 (frame call.fill.id).1
  · intro other settled
    have before := simulates.settled other settled
    exact ⟨(updated other).1.1.symm.trans (before.1.trans (frame other).1.1),
      (updated other).1.2.symm.trans (before.2.trans (frame other).1.2)⟩
  · have sameTotal : (manager.runCall (.feed id message)).totalPnl = manager.totalPnl := by
      cases message <;> rfl
    rw [sameTotal, simulates.total]
    rfl

theorem Simulates.store (simulates : Simulates manager shared) {call : FeedCall}
    (running : shared.feed = some call) :
    Simulates manager
      { shared with
        memory := shared.memory.storeField call
        feed := call.field.next.map fun field => { call with field := field } } := by
  have frame := storeField_frame shared.memory call
  constructor
  · exact simulates.alone
  · exact fun id => (frame id).1.trans (simulates.book id)
  · intro id field notOwed
    rw [(frame id).2.2]
    by_cases stored : id = call.id ∧ field = call.field
    · obtain ⟨rfl, rfl⟩ := stored
      rw [if_pos ⟨rfl, rfl⟩, simulates.feeding call running]
    · rw [if_neg stored]
      apply simulates.cache
      rintro ⟨other, same, rfl, within⟩
      obtain rfl := Option.some.inj (running.symm.trans same)
      rw [CacheField.rest_eq] at within
      rcases List.mem_cons.mp within with here | later
      · exact stored ⟨rfl, here⟩
      · cases next : call.field.next with
        | none => simp [next] at later
        | some following =>
            rw [next, Option.elim_some] at later
            exact notOwed ⟨{ call with field := following }, by simp [next], rfl, later⟩
  · intro other same field
    obtain ⟨following, -, rfl⟩ := Option.map_eq_some_iff.mp same
    rw [(frame call.id).1]
    exact simulates.feeding call running field
  · intro fill member
    exact (simulates.tracks fill member).congr (frame fill.fill.id).2.1 ⟨rfl, rfl⟩
  · intro id settled
    have before := simulates.settled id settled
    exact ⟨(frame id).2.1.1.symm.trans before.1, (frame id).2.1.2.symm.trans before.2⟩
  · rw [simulates.total]
    rfl

/-! #### Runs -/

/-- Each step keeps the memory within what is in progress of the calls made one by one. -/
theorem Simulates.step {memory : SymbolManager} {shared' : SharedManager}
    (simulates : Simulates (shared.whole memory) shared) (step : Step shared shared') :
    Simulates (shared'.whole memory) shared' := by
  cases step with
  | beginFeed id message idle =>
      simpa [whole] using simulates.beginFeed id message idle
  | store call running => exact simulates.store running
  | beginFill fill alone => simpa [whole] using simulates.beginFill alone
  | fillStep earlier later call after memory' running steps =>
      exact simulates.fillStep running steps

theorem simulates_of_reaches {memory : SymbolManager} (reaches : Reaches (start memory) shared) :
    Simulates (shared.whole memory) shared := by
  induction reaches with
  | refl => exact simulates_start memory
  | tail _ step inductionHypothesis => exact inductionHypothesis.step step

/-- Whenever no call is in progress, the books, the caches, the positions, the entry prices and the
total are what the calls begun so far make one after the other, in the order in which they began,
whatever the order of their accesses and however often a compare-and-swap has failed. -/
theorem memory_eq_of_quiet {memory : SymbolManager} (reaches : Reaches (start memory) shared)
    (quiet : shared.Quiet) : shared.memory = shared.begun.foldl SymbolManager.runCall memory :=
  (simulates_of_reaches reaches).memory_eq quiet

/-- A run may begin with a step. -/
theorem exists_of_step {goal : SharedManager → Prop} {next : SharedManager}
    (step : Step shared next) (later : ∃ last, Reaches next last ∧ goal last) :
    ∃ last, Reaches shared last ∧ goal last := by
  obtain ⟨last, reaches, met⟩ := later
  exact ⟨last, .head step reaches, met⟩

/-- Five of each of two symbols have been bought at 100. -/
def twoLongs : SymbolManager :=
  (SymbolManager.empty.onFill 1 .BUY 5 100).onFill 2 .BUY 5 100

def sellOne : FillArgs := ⟨1, .SELL, 5, 104⟩

def sellOther : FillArgs := ⟨2, .SELL, 2, 97⟩

/-- Both sales load the total before one of them has changed it, so that the other has to try
again. -/
theorem memory_eq_of_quiet_twoSales :
    ∃ shared, Reaches (start twoLongs) shared ∧ shared.Quiet ∧ shared.memory.totalPnl = 14 := by
  have run : ∃ shared, Reaches (start twoLongs) shared ∧ shared.Quiet ∧
      shared.begun = [.fill sellOne, .fill sellOther] := by
    refine exists_of_step (.beginFill _ sellOne (by simp [start])) ?_
    refine exists_of_step (.fillStep _ [] [] _ _ _ rfl (.fetchAdd _ _ _)) ?_
    refine exists_of_step (.beginFill _ sellOther (by decide)) ?_
    refine exists_of_step (.fillStep _ [] [_] _ _ _ rfl (.average _ _ _)) ?_
    refine exists_of_step (.fillStep _ [_] [] _ _ _ rfl (.fetchAdd _ _ _)) ?_
    refine exists_of_step (.fillStep _ [_] [] _ _ _ rfl (.average _ _ _)) ?_
    refine exists_of_step (.fillStep _ [] [_] _ _ _ rfl (.realize _ _ _ (by decide))) ?_
    refine exists_of_step (.fillStep _ [_] [] _ _ _ rfl (.realize _ _ _ (by decide))) ?_
    refine exists_of_step (.fillStep _ [] [_] _ _ _ rfl (.load _ _ _)) ?_
    refine exists_of_step (.fillStep _ [_] [] _ _ _ rfl (.load _ _ _)) ?_
    refine exists_of_step (.fillStep _ [] [_] _ _ _ rfl (.swap _ _ _ _ rfl)) ?_
    refine exists_of_step (.fillStep _ [] [] _ _ _ rfl (.retry _ _ _ _)) ?_
    refine exists_of_step (.fillStep _ [] [] _ _ _ rfl (.swap _ _ _ _ rfl)) ?_
    exact ⟨_, .refl, ⟨rfl, rfl⟩, rfl⟩
  obtain ⟨shared, reaches, quiet, begun⟩ := run
  refine ⟨shared, reaches, quiet, ?_⟩
  rw [memory_eq_of_quiet reaches quiet, begun]
  decide +kernel

end Steps

end SharedManager

end HftAlgorithms
