/-
Module: HftAlgorithms.Proofs.CreationLimits
Purpose: The position limit during a creation: the dorm buys fit, and the unwind,
  the bookings of `/create` and the UNDY sells do if the quantity leaves room.
Trusted boundary: none
Main exports: Desk.Buying, Desk.Covering, Run.RoomToCreate,
  Run.tryCreationArb_stands
-/
import HftAlgorithms.Proofs.ArbLimits
import HftAlgorithms.Proofs.CreationFills

namespace HftAlgorithms

open FiniteMap StateMachine

namespace Desk

/-! ### Desks on the way -/

/-- The dorms in `symbols` are still to be bought, and nothing of them works or has moved.  Nothing
but buys of the dorms works, each for at most `qty` beyond where its dorm began. -/
structure Buying (bot : BotState) (qty : Nat) (symbols : List UInt32) (desk : Desk) : Prop where
  noSells : ∀ symbol ∈ arbSymbols, desk.workingOn symbol .ask = 0
  undy : desk.position SYM_UNDY = (opening bot).position SYM_UNDY ∧
    desk.workingOn SYM_UNDY .bid = 0
  rising : ∀ symbol ∈ DORM_IDS, (opening bot).position symbol ≤ desk.position symbol ∧
    desk.position symbol + desk.workingOn symbol .bid ≤ (opening bot).position symbol + qty
  idle : ∀ symbol ∈ symbols,
    desk.position symbol = (opening bot).position symbol ∧ desk.workingOn symbol .bid = 0

/-- Nothing sells, UNDY is where it began, and the dorms that are still to be booked hold `qty`. -/
structure Covering (bot : BotState) (qty : Nat) (symbols : List UInt32) (desk : Desk) : Prop where
  noSells : ∀ symbol ∈ arbSymbols, desk.workingOn symbol .ask = 0
  undy : desk.position SYM_UNDY = (opening bot).position SYM_UNDY ∧
    desk.workingOn SYM_UNDY .bid = 0
  held : ∀ symbol ∈ symbols, qty ≤ desk.position symbol

/-- Before the first order nothing works and nothing has moved. -/
theorem buying_opening (bot : BotState) (qty : Nat) : (opening bot).Buying bot qty DORM_IDS := by
  refine ⟨fun _ _ => rfl, ⟨rfl, rfl⟩, ?_, fun _ _ => ⟨rfl, rfl⟩⟩
  intro symbol _
  rw [workingOn_opening]
  omega

theorem Buying.receive {bot : BotState} {qty : Nat} {desk : Desk} (buying : desk.Buying bot qty [])
    (bounded : desk.Bounded) {response : OeResponse} (fills : desk.Fills (.receive response)) :
    (desk.next (.receive response)).Buying bot qty [] := by
  have moves := fun symbol member => @Bounded.moves desk bounded response fills symbol member
  refine ⟨?_, ?_, ?_, fun _ member => absurd member List.not_mem_nil⟩
  · intro symbol member
    obtain ⟨bought, sold, -, -, asks⟩ := moves symbol member
    have none := buying.noSells symbol member
    omega
  · obtain ⟨bought, sold, moved, bids, asks⟩ := moves SYM_UNDY List.mem_cons_self
    obtain ⟨still, noBids⟩ := buying.undy
    have none := buying.noSells SYM_UNDY List.mem_cons_self
    omega
  · intro symbol dorm
    have member : symbol ∈ arbSymbols := List.mem_cons_of_mem _ dorm
    obtain ⟨bought, sold, moved, bids, asks⟩ := moves symbol member
    have none := buying.noSells symbol member
    have before := buying.rising symbol dorm
    omega

/-- The buy of the next dorm. -/
theorem Buying.sendOrder {bot : BotState} {qty symbol : UInt32} {symbols : List UInt32}
    {desk : Desk} (buying : desk.Buying bot qty.toNat (symbol :: symbols))
    (dorm : symbol ∈ DORM_IDS) (notAgain : symbol ∉ symbols) (price : Int32) :
    (desk.next (.sendOrder symbol .BUY qty price)).Buying bot qty.toNat symbols := by
  have elsewhere := fun other otherSide => @workingOn_sendOrder_elsewhere desk symbol .BUY qty price
    other otherSide
  refine ⟨?_, ⟨buying.undy.1, ?_⟩, ?_, ?_⟩
  · intro other member
    have none := elsewhere other .ask (fun both => absurd both.2 (by decide))
    exact Nat.le_zero.mp (buying.noSells other member ▸ none)
  · have none := elsewhere SYM_UNDY .bid (fun both => dorm_ne_undy dorm both.1)
    exact Nat.le_zero.mp (buying.undy.2 ▸ none)
  · intro other member
    have more := workingOn_sendOrder_le desk symbol .BUY qty price other .bid
    have before := buying.rising other member
    change _ ≤ desk.position other ∧ desk.position other + _ ≤ _
    by_cases own : symbol = other
    · subst own
      obtain ⟨still, noBids⟩ := buying.idle symbol List.mem_cons_self
      rw [if_pos ⟨rfl, rfl⟩] at more
      omega
    · rw [if_neg fun both => own both.1] at more
      omega
  · intro other later
    obtain ⟨still, noBids⟩ := buying.idle other (List.mem_cons_of_mem _ later)
    have none := elsewhere other .bid (by rintro ⟨rfl, -⟩; exact notAgain later)
    exact ⟨still, Nat.le_zero.mp (noBids ▸ none)⟩

/-- No dorm's buys are for more than the quantity. -/
theorem Buying.few {bot : BotState} {qty : Nat} {symbols : List UInt32} {desk : Desk}
    (buying : desk.Buying bot qty symbols) {symbol : UInt32} (dorm : symbol ∈ DORM_IDS) :
    desk.workingOn symbol .bid ≤ qty := by
  have rising := buying.rising symbol dorm
  omega

end Desk

namespace Run

open Desk

/-! ### Creation -/

section Creation

variable {bot : BotState} {snap : ArbSnapshot} (world : World)

theorem keptByReceive_buying (qty : Nat) :
    Stands.KeptByReceive Desk.next Fills Bounded (Buying bot qty []) := by
  intro desk response buying bounded fills
  exact ⟨bounded.receive fills, buying.receive bounded fills⟩

/-- The ten buys, if each fits above where its dorm begins. -/
theorem Limits.fireLegs {qty : Int32} {run : Run}
    (room : ∀ symbol ∈ DORM_IDS, (opening bot).position symbol + qty.toUInt32.toNat ≤ 9)
    (limits : Limits bot (Buying bot qty.toUInt32.toNat DORM_IDS) run) :
    Limits bot (Buying bot qty.toUInt32.toNat []) (fireLegs qty run snap).1 := by
  refine @Stands.fireEach _ _ _ _ _ _ _ (fun symbols => Buying bot qty.toUInt32.toNat symbols) .BUY
    qty.toUInt32 DormData.bestAskPrice snap ?_ limits
  intro desk symbol symbols price dorm notAgain buying bounded fills
  obtain ⟨still, noBids⟩ := buying.idle symbol List.mem_cons_self
  have above := room symbol dorm
  have fits : desk.Fits (.sendOrder symbol .BUY qty.toUInt32 price) := by
    refine ⟨List.mem_cons_of_mem _ dorm, ?_⟩
    rw [if_pos rfl, still, noBids]
    omega
  exact ⟨bounded.next fills fits, buying.sendOrder dorm notAgain price⟩

/-- The bookings of a successful `/create`, if the dorms hold the quantity, leave UNDY to be
sold. -/
theorem Limits.bookCreation {qty : Int32} {run : Run}
    (room : (opening bot).position SYM_UNDY + qty.toUInt32.toNat ≤ 2)
    (limits : Limits bot (Covering bot qty.toUInt32.toNat DORM_IDS) run) :
    Limits bot (SellingUndy 0) (bookCreation world qty run snap) := by
  have dorms := @Stands.bookEach _ _ _ _ _ _ _
    (fun _ symbols => Covering bot qty.toUInt32.toNat symbols) .SELL qty.toUInt32
    world.bestBidPrice ?_ limits
  · refine Stands.act dorms ?_
    intro desk _ covering bounded fills
    obtain ⟨still, noBids⟩ := covering.undy
    have fits : desk.Fits (.book SYM_UNDY .BUY qty.toUInt32 snap.undyBestBidPrice) := by
      refine ⟨List.mem_cons_self, ?_⟩
      rw [if_pos rfl, still, noBids]
      omega
    refine ⟨bounded.next fills fits, noBids, ?_, (covering.noSells SYM_UNDY List.mem_cons_self).le⟩
    rw [bounded.position_book fits, if_pos rfl, still, exactMove, if_pos rfl]
    exact room
  · intro desk reads symbol symbols dorm notAgain covering bounded fills
    have member : symbol ∈ arbSymbols := List.mem_cons_of_mem _ dorm
    have none := covering.noSells symbol member
    have held := covering.held symbol List.mem_cons_self
    have fits : desk.Fits
        (.book symbol .SELL qty.toUInt32 (world.bestBidPrice reads symbol)) := by
      refine ⟨member, ?_⟩
      rw [if_neg (by decide), none]
      omega
    have moved := bounded.position_book fits
    refine ⟨bounded.next fills fits, covering.noSells, ⟨?_, covering.undy.2⟩, ?_⟩
    · rw [moved, if_neg (dorm_ne_undy dorm).symm]
      exact covering.undy.1
    · intro other later
      rw [moved, if_neg (by rintro rfl; exact notAgain later)]
      exact covering.held other (List.mem_cons_of_mem _ later)

/-- The creation quantity leaves room.  Once no dorm is short, UNDY can get to its bookings, and the
five sells of step 5 may each be for all of it before the first is filled; with a dorm near the
limit on the short side, its buy and the unwind's cover of it may both be filled. -/
def RoomToCreate (snap : ArbSnapshot) : Prop :=
  ((∀ dorm ∈ snap.dorms.toList, 0 ≤ dorm.position) →
      snap.undyPosition.toInt + (creationQty snap).toInt ≤ 2) ∧
    ((∃ dorm ∈ snap.dorms.toList, dorm.position ≤ -8) → creationQty snap ≤ POSITION_LIMIT)

instance decidableRoomToCreate (snap : ArbSnapshot) : Decidable (RoomToCreate snap) :=
  inferInstanceAs (Decidable ((_ → _) ∧ (_ → _)))

theorem creating_always : Trading fun _ _ => True where
  setsInProgress _ _ := trivial
  setsStartTime _ _ := trivial
  receives _ _ := trivial
  buys _ _ _ _ := trivial
  closes _ _ _ _ _ := trivial
  books _ _ _ _ _ := trivial
  creates _ _ _ := trivial
  timesOut _ := trivial

/-- With a dorm short at the start, the fills of the legs cannot bring all dorms to the quantity. -/
theorem nonneg_of_allFilled {qty : Int32} (positive : qty > 0) {run : Run}
    (filled : run.allFilled qty = true) {desk : Desk} (same : desk.bot = run.state)
    (buying : desk.Buying bot qty.toUInt32.toNat []) {symbol : UInt32} (dorm : symbol ∈ DORM_IDS) :
    0 ≤ (opening bot).position symbol := by
  have exact_ := toNat_toUInt32_of_pos positive
  have held := Int32.le_iff_toInt_le.mp (of_decide_eq_true (List.all_eq_true.mp filled symbol dorm))
  have here := position_eq same symbol
  have below := (buying.rising symbol dorm).2
  omega

section Rooms

variable (taken : SnapshotOf bot snap) (positive : creationQty snap > 0) (room : RoomToCreate snap)

include taken positive room

/-- UNDY has room for the quantity where no dorm is short. -/
theorem RoomToCreate.undy (long : ∀ symbol ∈ DORM_IDS, 0 ≤ (opening bot).position symbol) :
    (opening bot).position SYM_UNDY + (creationQty snap).toUInt32.toNat ≤ 2 := by
  rw [toNat_toUInt32_of_pos positive, ← taken.undy_toInt]
  refine room.1 fun data member => Int32.le_iff_toInt_le.mpr ?_
  obtain ⟨symbol, dorm, same⟩ := taken.exists_dorm member
  rw [same]
  exact long symbol dorm

/-- What works of a dorm is covered by the room where the dorm is near the limit. -/
theorem RoomToCreate.toUnwind {desk : Desk}
    (buying : desk.Buying bot (creationQty snap).toUInt32.toNat []) : desk.ToUnwind DORM_IDS := by
  intro symbol dorm
  refine ⟨buying.noSells symbol (List.mem_cons_of_mem _ dorm), fun short => ?_⟩
  obtain ⟨data, member, same⟩ := taken.exists_data dorm
  have began := (buying.rising symbol dorm).1
  have near : data.position ≤ -8 := Int32.le_iff_toInt_le.mpr (by
    rw [same]
    exact began.trans short)
  have small := Int32.le_iff_toInt_le.mp (room.2 ⟨data, member, near⟩)
  have few := buying.few dorm
  have whole := toNat_toUInt32_of_pos positive
  rw [toInt_POSITION_LIMIT] at small
  omega

/-- The unwind of the legs. -/
theorem Limits.unwindLegs {run : Run}
    (limits : Limits bot (Buying bot (creationQty snap).toUInt32.toNat []) run) :
    Limits bot (fun _ => True) (run.unwindDormLongs world) :=
  Limits.unwindDormLongs world (Stands.weaken limits fun _ _ buying _ =>
    room.toUnwind taken positive buying)

/-- From the confirmed fills on. -/
theorem Limits.createAndSell (fuel : Nat) {run : Run}
    (filled : run.allFilled (creationQty snap) = true)
    (limits : Limits bot (Buying bot (creationQty snap).toUInt32.toNat []) run) :
    Limits bot (fun _ => True) (createAndSell world fuel (creationQty snap) run snap).1 := by
  have exact_ := toNat_toUInt32_of_pos positive
  by_cases long : ∀ symbol ∈ DORM_IDS, 0 ≤ (opening bot).position symbol
  · have called : Limits bot
        (fun desk => desk.Buying bot (creationQty snap).toUInt32.toNat [] ∧
          desk.Covering bot (creationQty snap).toUInt32.toNat DORM_IDS)
        { run.act (.callCreate (creationQty snap)
          (world.create run.etfCalls (creationQty snap))) with etfCalls := run.etfCalls + 1 } := by
      have acted : Limits bot
          (fun desk => desk.Buying bot (creationQty snap).toUInt32.toNat [] ∧
            desk.Covering bot (creationQty snap).toUInt32.toNat DORM_IDS)
          (run.act (.callCreate (creationQty snap)
            (world.create run.etfCalls (creationQty snap)))) := by
        refine Stands.act limits ?_
        intro desk same buying bounded fills
        refine ⟨bounded.next fills trivial,
          ⟨buying.noSells, buying.undy, buying.rising, buying.idle⟩,
          buying.noSells, buying.undy, ?_⟩
        intro symbol dorm
        have held := Int32.le_iff_toInt_le.mp
          (of_decide_eq_true (List.all_eq_true.mp filled symbol dorm))
        have here : (desk.next (.callCreate (creationQty snap)
            (world.create run.etfCalls (creationQty snap)))).position symbol =
              (run.getPosition symbol).toInt := position_eq same symbol
        omega
      exact Stands.of_eq acted rfl rfl
    rw [Run.createAndSell]
    dsimp only
    split
    · dsimp only
      exact Limits.unwindLegs world taken positive room
        (Stands.weaken called fun _ _ both _ => both.1)
    · dsimp only
      exact Limits.sellUndy world fuel 0 rfl
        (@Limits.bookCreation bot snap world _ _ (room.undy taken positive long)
          (Stands.weaken called fun _ _ both _ => both.2))
  · have absurdly : Limits bot (fun _ => False) run := Stands.weaken limits
      fun desk same buying _ => long fun _ dorm =>
        nonneg_of_allFilled positive filled same buying dorm
    exact Stands.of_absurd absurdly
      (createAndSell_extends creating_always.toCreating world fuel _ run snap)

end Rooms

theorem keptByFlags_buying (qty : Nat) :
    Stands.KeptByFlags Desk.next Fills Bounded (Buying bot qty DORM_IDS) := by
  rintro desk action (⟨inProgress, rfl⟩ | ⟨time, rfl⟩) buying bounded fills
  · exact ⟨bounded.next fills trivial, buying.noSells, buying.undy, buying.rising, buying.idle⟩
  · exact ⟨bounded.next fills trivial, buying.noSells, buying.undy, buying.rising, buying.idle⟩

/-- In a creation on a snapshot within the limit that leaves room, every desk is bounded. -/
theorem tryCreationArb_stands (fuel : Nat) (inbox : List OeResponse) (taken : SnapshotOf bot snap)
    (within : (opening bot).Within)
    (room : (new bot []).startsCreation snap = true → RoomToCreate snap) :
    Limits bot (fun _ => True) ((new bot inbox).tryCreationArb world fuel snap).1 := by
  have begun : Limits bot (Buying bot (creationQty snap).toUInt32.toNat DORM_IDS) (new bot inbox) :=
    Stands.new (fun _ _ => rfl) (bounded_opening within) (buying_opening bot _)
  by_cases starts : (new bot []).startsCreation snap = true
  · have positive := creationQty_pos_of_starts starts
    have legRoom : ∀ symbol ∈ DORM_IDS,
        (opening bot).position symbol + (creationQty snap).toUInt32.toNat ≤ 9 := by
      intro symbol dorm
      have below := creationQty_le taken within dorm
      rw [toNat_toUInt32_of_pos positive]
      omega
    have started := Stands.startArb (keptByFlags_buying _) ((new bot inbox).now world) begun
    have legs : Limits bot (Buying bot (creationQty snap).toUInt32.toNat [])
        ((new bot inbox).sendLegs world snap).1 :=
      Stands.collect world (keptByReceive_buying _) _ (Limits.fireLegs legRoom started)
    have waited : ∀ count, Limits bot (Buying bot (creationQty snap).toUInt32.toNat [])
        (((new bot inbox).sendLegs world snap).1.tick count) :=
      fun count => Stands.of_eq legs rfl rfl
    have passes : (new bot inbox).startsCreation snap = true := starts
    have goesOn := tryCreationArb_goesOn world fuel passes
    generalize (new bot inbox).tryCreationArb world fuel snap = tried at goesOn ⊢
    cases goesOn with
    | legsMissing missing =>
        dsimp only
        exact Limits.unwindLegs world taken positive (room starts) legs
    | polling count => exact Stands.weaken (waited count) fun _ _ _ _ => trivial
    | timedOut count =>
        have timedOut : Limits bot (Buying bot (creationQty snap).toUInt32.toNat [])
            ((((new bot inbox).sendLegs world snap).1.tick count).act .fillTimeout) :=
          Stands.act (waited count) fun _ _ buying bounded fills =>
            ⟨bounded.next fills trivial, buying.noSells, buying.undy, buying.rising, buying.idle⟩
        exact Limits.act (Limits.unwindLegs world taken positive (room starts) timedOut)
          fun _ _ _ _ => trivial
    | filled count filled =>
        exact Limits.createAndSell world taken positive (room starts) fuel filled (waited count)
  · have stopped : ¬ (new bot inbox).startsCreation snap = true := starts
    rw [tryCreationArb, if_pos stopped]
    exact Stands.weaken begun fun _ _ _ _ => trivial

end Creation

end Run

end HftAlgorithms
