/-
Module: HftAlgorithms.Proofs.SharedReads
Purpose: How old a snapshot can be that the strategy thread takes while the other
  threads go on: every price and quantity in it is one that the cache of the
  symbol had after some call between its beginning and its end.
Trusted boundary: none
Main exports: SharedManager.feeds, SharedManager.fed, SharedManager.load_eq,
  SharedManager.loadSnapshot_const, SharedManager.loads_between
-/
import HftAlgorithms.Proofs.SharedRuns
import Mathlib.Data.Fintype.Basic
import Mathlib.Tactic.FinCases

namespace HftAlgorithms

open SymbolManager

namespace SharedManager

/-! ### The market-data thread alone -/

/-- The calls of the market-data thread among those begun. -/
def feeds (shared : SharedManager) : List (UInt32 × FeedMessage) :=
  shared.begun.filterMap fun call =>
    match call with
    | .feed id message => some (id, message)
    | .fill _ => none

/-- The manager after some calls of the market-data thread. -/
def fed (memory : SymbolManager) (calls : List (UInt32 × FeedMessage)) : SymbolManager :=
  calls.foldl (fun manager call => manager.onFeed call.1 call.2) memory

/-- The number of calls of the market-data thread that have returned. -/
def fedWhole (shared : SharedManager) : Nat :=
  if shared.feed.isSome then shared.feeds.length - 1 else shared.feeds.length

/-- Two managers have the same books and caches. -/
def SameFeed (manager other : SymbolManager) : Prop :=
  ∀ id, (manager.slots id).book = (other.slots id).book ∧
    ∀ field : CacheField, field.load (manager.slots id) = field.load (other.slots id)

theorem SameFeed.onFeed {manager other : SymbolManager} (same : SameFeed manager other)
    (id : UInt32) (message : FeedMessage) :
    SameFeed (manager.onFeed id message) (other.onFeed id message) := by
  have updated (symbol : UInt32) : ((manager.updateBook id message).slots symbol).book =
      ((other.updateBook id message).slots symbol).book := by
    by_cases own : symbol = id
    · subst own
      simp [updateBook, setSlot, (same symbol).1]
    · simp [updateBook, setSlot, own, (same symbol).1]
  intro symbol
  obtain ⟨-, book, loads⟩ := onFeed_frame manager id message symbol
  obtain ⟨-, bookOther, loadsOther⟩ := onFeed_frame other id message symbol
  refine ⟨by rw [book, bookOther, updated], ?_⟩
  intro field
  rw [loads, loadsOther, updated, (same symbol).2]

/-- Fills do not touch what the market-data thread writes. -/
theorem sameFeed_whole (memory : SymbolManager) (calls : List ThreadCall) :
    SameFeed (calls.foldl runCall memory)
      (fed memory (calls.filterMap fun call =>
        match call with
        | .feed id message => some (id, message)
        | .fill _ => none)) := by
  have general (calls : List ThreadCall) (manager other : SymbolManager)
      (same : SameFeed manager other) :
      SameFeed (calls.foldl runCall manager)
        (fed other (calls.filterMap fun call =>
          match call with
          | .feed id message => some (id, message)
          | .fill _ => none)) := by
    induction calls generalizing manager other with
    | nil => exact same
    | cons call calls inductionHypothesis =>
        cases call with
        | feed id message => exact inductionHypothesis _ _ (same.onFeed id message)
        | fill fill =>
            apply inductionHypothesis
            intro id
            obtain ⟨book, loads, -⟩ := runCall_fill_frame manager fill id
            exact ⟨book.trans (same id).1, fun field => (loads field).trans ((same id).2 field)⟩
  exact general calls memory memory fun _ => ⟨rfl, fun _ => rfl⟩

/-! ### What a load gives -/

/-- A field whose store is still to come has the value from before the call in progress. -/
structure Holds (memory : SymbolManager) (shared : SharedManager) : Prop where
  last : ∀ call, shared.feed = some call →
    ∃ earlier, shared.feeds = earlier ++ [(call.id, call.message)]
  owed : ∀ id field, shared.Owes id field →
    field.load (shared.memory.slots id) =
      field.load ((fed memory shared.feeds.dropLast).slots id)

section Loads

variable {memory : SymbolManager} {shared shared' : SharedManager}

theorem load_of_not_owes (simulates : Simulates (shared.whole memory) shared) {id : UInt32}
    {field : CacheField} (notOwed : ¬ shared.Owes id field) :
    field.load (shared.memory.slots id) = field.load ((fed memory shared.feeds).slots id) :=
  (simulates.cache id field notOwed).trans ((sameFeed_whole memory shared.begun id).2 field)

theorem Holds.step (holds : Holds memory shared)
    (simulates : Simulates (shared.whole memory) shared) (step : Step shared shared') :
    Holds memory shared' := by
  cases step with
  | beginFeed id message idle =>
      have grown : feeds
          { shared with
            memory := shared.memory.updateBook id message
            feed := some ⟨id, message, .bestBidPrice⟩
            begun := shared.begun ++ [.feed id message] } =
          shared.feeds ++ [(id, message)] := by
        simp [feeds]
      constructor
      · intro call running
        obtain rfl := Option.some.inj running
        exact ⟨shared.feeds, grown⟩
      · intro symbol field _
        rw [grown, List.dropLast_concat]
        dsimp only
        rw [(updateBook_frame shared.memory id message symbol).2 field]
        apply load_of_not_owes simulates
        simp [Owes, idle]
  | store call running =>
      constructor
      · intro other same
        obtain ⟨following, -, rfl⟩ := Option.map_eq_some_iff.mp same
        exact holds.last call running
      · rintro symbol field ⟨other, same, rfl, within⟩
        obtain ⟨following, next, rfl⟩ := Option.map_eq_some_iff.mp same
        have stillOwed : shared.Owes call.id field := by
          refine ⟨call, running, rfl, ?_⟩
          rw [CacheField.rest_eq, next]
          exact List.mem_cons_of_mem _ within
        have notNow : field ≠ call.field := by
          rintro rfl
          revert within next
          cases call.field <;> simp [CacheField.next] <;> rintro rfl <;> simp [CacheField.rest]
        have untouched := (storeField_frame shared.memory call call.id).2.2 field
        rw [if_neg fun same => notNow same.2] at untouched
        exact untouched.trans (holds.owed call.id field stillOwed)
  | beginFill fill alone =>
      have same : feeds
          { shared with
            fills := shared.fills ++ [⟨fill, .loaded (shared.memory.getPosition fill.id)⟩]
            begun := shared.begun ++ [.fill fill] } = shared.feeds := by
        simp [feeds]
      constructor
      · intro call running
        rw [same]
        exact holds.last call running
      · intro id field owed
        rw [same]
        exact holds.owed id field owed
  | fillStep earlier later call after memory' running steps =>
      constructor
      · exact holds.last
      · intro id field owed
        exact ((steps.frame id).2.1 field).trans (holds.owed id field owed)

theorem holds_of_reaches (reaches : Reaches (start memory) shared) : Holds memory shared := by
  induction reaches with
  | refl =>
      constructor
      · intro call running
        cases running
      · rintro id field ⟨call, running, -⟩
        cases running
  | tail earlier step inductionHypothesis =>
      exact inductionHypothesis.step (simulates_of_reaches earlier) step

/-- A load gives what the cache has after all the calls that have returned, or after the one in
progress too. -/
theorem load_eq (reaches : Reaches (start memory) shared) (id : UInt32) (field : CacheField) :
    ∃ count, shared.fedWhole ≤ count ∧ count ≤ shared.feeds.length ∧
      field.load (shared.memory.slots id) =
        field.load ((fed memory (shared.feeds.take count)).slots id) := by
  by_cases owed : shared.Owes id field
  · have before := (holds_of_reaches reaches).owed id field owed
    obtain ⟨call, running, -⟩ := owed
    refine ⟨shared.feeds.length - 1, ?_, Nat.sub_le _ _, ?_⟩
    · simp [fedWhole, running]
    · rw [← List.dropLast_eq_take]
      exact before
  · refine ⟨shared.feeds.length, ?_, Nat.le_refl _, ?_⟩
    · rw [fedWhole]
      split
      · exact Nat.sub_le _ _
      · exact Nat.le_refl _
    · rw [List.take_length]
      exact load_of_not_owes (simulates_of_reaches reaches) owed

/-! ### Time passes -/

theorem feeds_step (step : Step shared shared') :
    shared.feeds <+: shared'.feeds ∧ shared.fedWhole ≤ shared'.fedWhole := by
  cases step with
  | beginFeed id message idle =>
      constructor
      · simp [feeds]
      · simp [fedWhole, idle, feeds]
  | store call running =>
      refine ⟨List.prefix_rfl, ?_⟩
      rw [fedWhole, fedWhole, if_pos (by simp [running])]
      split
      · exact Nat.le_refl _
      · exact Nat.sub_le _ _
  | beginFill fill alone =>
      constructor
      · simp [feeds]
      · simp [fedWhole, feeds]
  | fillStep earlier later call after memory' running steps =>
      exact ⟨List.prefix_rfl, Nat.le_refl _⟩

theorem feeds_reaches (reaches : Reaches shared shared') :
    shared.feeds <+: shared'.feeds ∧ shared.fedWhole ≤ shared'.fedWhole := by
  induction reaches with
  | refl => exact ⟨List.prefix_rfl, Nat.le_refl _⟩
  | tail _ step inductionHypothesis =>
      obtain ⟨grows, whole⟩ := feeds_step step
      exact ⟨inductionHypothesis.1.trans grows, inductionHypothesis.2.trans whole⟩

end Loads

/-! ### The snapshot -/

/-- A snapshot that nothing interrupts is the one of the manager. -/
theorem loadSnapshot_const (manager : SymbolManager) :
    loadSnapshot (fun _ => manager) = manager.snapshot := rfl

/-- The data are what the cache of the symbol had after some calls of the market-data thread, at
least those that had returned first and at most those begun last, each field after its own
number. -/
structure Taken (memory : SymbolManager) (first last : SharedManager) (id : UInt32)
    (data : DormData) : Prop where
  bidPrice : ∃ count, first.fedWhole ≤ count ∧ count ≤ last.feeds.length ∧
    data.bestBidPrice = ((fed memory (last.feeds.take count)).slots id).bestBidPrice
  bidQty : ∃ count, first.fedWhole ≤ count ∧ count ≤ last.feeds.length ∧
    data.bestBidQty = ((fed memory (last.feeds.take count)).slots id).bestBidQty
  askPrice : ∃ count, first.fedWhole ≤ count ∧ count ≤ last.feeds.length ∧
    data.bestAskPrice = ((fed memory (last.feeds.take count)).slots id).bestAskPrice
  askQty : ∃ count, first.fedWhole ≤ count ∧ count ≤ last.feeds.length ∧
    data.bestAskQty = ((fed memory (last.feeds.take count)).slots id).bestAskQty

section Moments

variable {memory : SymbolManager} {moments : Nat → SharedManager}
  (begins : Reaches (start memory) (moments 0))
  (goesOn : ∀ moment, Reaches (moments moment) (moments (moment + 1)))

include goesOn

theorem reaches_le {earlier later : Nat} (before : earlier ≤ later) :
    Reaches (moments earlier) (moments later) := by
  induction later, before using Nat.le_induction with
  | base => exact .refl
  | succ later _ inductionHypothesis => exact inductionHypothesis.trans (goesOn later)

include begins

theorem load_between {moment last : Nat} (inTime : moment ≤ last) (id : UInt32)
    (field : CacheField) :
    ∃ count, (moments 0).fedWhole ≤ count ∧ count ≤ (moments last).feeds.length ∧
      field.load ((moments moment).memory.slots id) =
        field.load ((fed memory ((moments last).feeds.take count)).slots id) := by
  have fromStart := begins.trans (reaches_le goesOn (Nat.zero_le moment))
  obtain ⟨count, low, high, loaded⟩ := load_eq fromStart id field
  obtain ⟨-, returned⟩ := feeds_reaches (reaches_le goesOn (Nat.zero_le moment))
  obtain ⟨⟨more, grown⟩, -⟩ := feeds_reaches (reaches_le goesOn inTime)
  refine ⟨count, returned.trans low, ?_, ?_⟩
  · rw [← grown, List.length_append]
    exact high.trans (Nat.le_add_right _ _)
  · rw [loaded, ← grown, List.take_append_of_le_length high]

theorem loadDorm_taken {moment last : Nat} (inTime : moment + 4 ≤ last) (id : UInt32) :
    Taken memory (moments 0) (moments last) id
      (loadDorm (fun later => (moments later).memory) moment id) := by
  have load {offset : Nat} (within : offset ≤ 4) (field : CacheField) :=
    load_between begins goesOn (Nat.le_trans (Nat.add_le_add_left within moment) inTime) id field
  constructor
  · obtain ⟨count, low, high, loaded⟩ := @load 0 (by decide) .bestBidPrice
    exact ⟨count, low, high, toUInt32_injective loaded⟩
  · exact @load 2 (by decide) .bestBidQty
  · obtain ⟨count, low, high, loaded⟩ := @load 1 (by decide) .bestAskPrice
    exact ⟨count, low, high, toUInt32_injective loaded⟩
  · exact @load 3 (by decide) .bestAskQty

/-- Whatever the other threads do while the 55 loads are made, every price and quantity of the
snapshot is one that the cache of its symbol had after some call of the market-data thread, not
older than the snapshot's first load and not newer than its last. -/
theorem loads_between :
    let snapshot := loadSnapshot fun moment => (moments moment).memory
    (∀ index : Fin 10, Taken memory (moments 0) (moments 54) (DORM_IDS.get index)
      (snapshot.dorms.get index)) ∧
    Taken memory (moments 0) (moments 54) SYM_UNDY
      ⟨snapshot.undyBestBidPrice, snapshot.undyBestAskPrice, snapshot.undyBestBidQty,
        snapshot.undyBestAskQty, snapshot.undyPosition⟩ := by
  constructor
  · intro index
    have dorm : (loadSnapshot fun moment => (moments moment).memory).dorms.get index =
        loadDorm (fun moment => (moments moment).memory) (5 * index) (DORM_IDS.get index) := by
      fin_cases index <;> rfl
    rw [dorm]
    exact loadDorm_taken begins goesOn (by omega) _
  · exact loadDorm_taken begins goesOn (Nat.le_refl 54) SYM_UNDY

end Moments

/-- An order for the first dorm. -/
def firstBid : FeedMessage := .book (.newOrder ⟨⟨1, .NEW_ORDER⟩, 7, 3, .BUY, 5, 100⟩)

/-- The book has it. -/
def bidBooked : SharedManager :=
  { start .empty with
    memory := SymbolManager.empty.updateBook 3 firstBid
    feed := some ⟨3, firstBid, .bestBidPrice⟩
    begun := [.feed 3 firstBid] }

/-- The cache has its price. -/
def bidPriced : SharedManager :=
  { bidBooked with
    memory := bidBooked.memory.storeField ⟨3, firstBid, .bestBidPrice⟩
    feed := some ⟨3, firstBid, .bestBidQty⟩ }

/-- The market-data thread handles the order while the first dorm is read. -/
def bidMoments : Nat → SharedManager
  | 0 => start .empty
  | 1 => bidBooked
  | _ => bidPriced

theorem goesOn_bidMoments (moment : Nat) :
    Reaches (bidMoments moment) (bidMoments (moment + 1)) := by
  match moment with
  | 0 => exact .single (.beginFeed _ 3 firstBid rfl)
  | 1 => exact .single (.store _ ⟨3, firstBid, .bestBidPrice⟩ rfl)
  | moment + 2 => exact .refl

/-- The dorm's bid has been loaded as missing before its price was there. -/
theorem loads_between_bidMoments :
    (loadSnapshot fun moment => (bidMoments moment).memory).anyDormBidMissing = true ∧
      Taken .empty (bidMoments 0) (bidMoments 54) 3
        ((loadSnapshot fun moment => (bidMoments moment).memory).dorms.get 0) :=
  ⟨by decide +kernel, (@loads_between .empty bidMoments .refl goesOn_bidMoments).1 0⟩

end SharedManager

end HftAlgorithms
