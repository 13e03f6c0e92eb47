/-
Module: HftAlgorithms.Proofs.RedemptionLimits
Purpose: The position limit during a redemption: UNDY is bought in whole or in
  part and booked out in whole, and the dorms go up by the bookings of `/redeem`
  before they are sold.
Trusted boundary: none
Main exports: Desk.BuyingUndy, Desk.Bought, Desk.PartlyBought, Run.RoomToRedeem,
  Run.tryRedemptionArb_stands
-/
import HftAlgorithms.Proofs.ArbLimits

namespace HftAlgorithms

open FiniteMap StateMachine

namespace Desk

/-! ### Desks on the way -/

/-- Nothing works but the UNDY buy, which still has to fill what UNDY lacks of its quantity, and no
dorm has moved. -/
structure BuyingUndy (bot : BotState) (id : UInt64) (qty : Nat) (desk : Desk) : Prop where
  only : ∀ other order, desk.working.lookup other = some order → other = id
  undy : ∀ order, desk.working.lookup id = some order →
    order.symbol = SYM_UNDY ∧ order.side = .BUY ∧
      desk.position SYM_UNDY + order.remaining = (opening bot).position SYM_UNDY + qty
  dorms : ∀ symbol ∈ DORM_IDS, desk.position symbol = (opening bot).position symbol

/-- Nothing works, UNDY has gained the quantity, and no dorm has moved. -/
structure Bought (bot : BotState) (qty : Nat) (desk : Desk) : Prop where
  nothing : ∀ id, desk.working.lookup id = none
  undy : desk.position SYM_UNDY = (opening bot).position SYM_UNDY + qty
  dorms : ∀ symbol ∈ DORM_IDS, desk.position symbol = (opening bot).position symbol

/-- Nothing works, UNDY has gained at least one lot and at most the quantity, and no dorm has
moved. -/
structure PartlyBought (bot : BotState) (qty : Nat) (desk : Desk) : Prop where
  nothing : ∀ id, desk.working.lookup id = none
  undy : (opening bot).position SYM_UNDY + 1 ≤ desk.position SYM_UNDY ∧
    desk.position SYM_UNDY ≤ (opening bot).position SYM_UNDY + qty
  dorms : ∀ symbol ∈ DORM_IDS, desk.position symbol = (opening bot).position symbol

/-- Nothing works, and every dorm but those still to be booked has gained the quantity. -/
structure Redeeming (bot : BotState) (qty : Nat) (symbols : List UInt32) (desk : Desk) :
    Prop where
  nothing : ∀ id, desk.working.lookup id = none
  booked : ∀ symbol ∈ DORM_IDS, symbol ∉ symbols →
    desk.position symbol = (opening bot).position symbol + qty
  pending : ∀ symbol ∈ symbols, desk.position symbol = (opening bot).position symbol

/-- Every dorm has gained the quantity. -/
def Redeemed (bot : BotState) (qty : Nat) (desk : Desk) : Prop :=
  ∀ symbol ∈ DORM_IDS, desk.position symbol = (opening bot).position symbol + qty

/-- The next dorm is booked. -/
theorem Redeeming.book {bot : BotState} {qty symbol : UInt32} {symbols : List UInt32} {desk : Desk}
    (redeeming : desk.Redeeming bot qty.toNat (symbol :: symbols)) (notAgain : symbol ∉ symbols)
    (low : -2 ^ 31 ≤ (opening bot).position symbol)
    (high : (opening bot).position symbol + qty.toNat < 2 ^ 31) (price : Int32) :
    (desk.next (.book symbol .BUY qty price)).Redeeming bot qty.toNat symbols := by
  have here := redeeming.pending symbol List.mem_cons_self
  have gained : exactMove (desk.position symbol) .BUY qty.toNat =
      (opening bot).position symbol + qty.toNat := by rw [exactMove, if_pos rfl, here]
  have moved := fun other => @position_book desk symbol .BUY qty (gained ▸ by omega)
    (gained ▸ high) price other
  refine ⟨redeeming.nothing, ?_, ?_⟩
  · intro other member absent
    rw [moved]
    split
    · rename_i own
      rw [own]
      exact gained
    · rename_i elsewhere
      refine redeeming.booked other member ?_
      intro pending
      rcases List.mem_cons.mp pending with same | later
      · exact elsewhere same
      · exact absent later
  · intro other later
    rw [moved, if_neg (by rintro rfl; exact notAgain later)]
    exact redeeming.pending other (List.mem_cons_of_mem _ later)

theorem workingOn_of_nothing {desk : Desk} (nothing : ∀ id, desk.working.lookup id = none)
    (symbol : UInt32) (side : BookSide) : desk.workingOn symbol side = 0 := by
  by_contra something
  obtain ⟨id, order, found, -⟩ := exists_of_sumBy_ne_zero something
  rw [nothing id] at found
  cases found

/-- A fill of the UNDY buy moves UNDY by its quantity and no dorm. -/
theorem BuyingUndy.position_fill {bot : BotState} {id : UInt64} {qty : Nat} {desk : Desk}
    (buying : desk.BuyingUndy bot id qty) (routed : desk.Routed)
    (fits : (opening bot).position SYM_UNDY + qty < 2 ^ 31) {order : WorkingOrder}
    (found : desk.working.lookup id = some order) {filled : UInt32}
    (within : filled.toNat ≤ order.remaining) (price : Int32) (flags : FillFlags) :
    (desk.next (.receive (.fill id filled price flags))).position SYM_UNDY =
        desk.position SYM_UNDY + filled.toNat ∧
      ∀ symbol ∈ DORM_IDS, (desk.next (.receive (.fill id filled price flags))).position symbol =
        (opening bot).position symbol := by
  obtain ⟨isUndy, isBuy, lacks⟩ := buying.undy order found
  have moved := Desk.position_fill routed found filled price flags
  rw [isUndy, isBuy] at moved
  have low : -2 ^ 31 ≤ desk.position SYM_UNDY := Int32.le_toInt _
  have exact_ : exactMove (desk.position SYM_UNDY) .BUY filled.toNat =
      desk.position SYM_UNDY + filled.toNat := if_pos rfl
  constructor
  · rw [moved, if_pos rfl, toInt_movedPosition]
    · exact exact_
    · change _ ≤ exactMove (desk.position SYM_UNDY) .BUY filled.toNat
      omega
    · change exactMove (desk.position SYM_UNDY) .BUY filled.toNat < _
      omega
  · intro symbol dorm
    rw [moved, if_neg (dorm_ne_undy dorm)]
    exact buying.dorms symbol dorm

/-- Taking an order off the desk leaves the UNDY buy as it was, or takes it off. -/
theorem BuyingUndy.erase {bot : BotState} {id : UInt64} {qty : Nat} {desk after : Desk}
    (buying : desk.BuyingUndy bot id qty) {orderId : UInt64}
    (working : after.working = desk.working.erase orderId)
    (positions : ∀ symbol, after.position symbol = desk.position symbol) :
    after.BuyingUndy bot id qty := by
  refine ⟨?_, ?_, ?_⟩
  · intro other order found
    rw [working] at found
    exact buying.only other order (lookup_of_lookup_erase found)
  · intro order found
    rw [working] at found
    rw [positions]
    exact buying.undy order (lookup_of_lookup_erase found)
  · intro symbol dorm
    rw [positions]
    exact buying.dorms symbol dorm

theorem BuyingUndy.receive {bot : BotState} {id : UInt64} {qty : Nat} {desk : Desk}
    (buying : desk.BuyingUndy bot id qty) (routed : desk.Routed)
    (fits : (opening bot).position SYM_UNDY + qty < 2 ^ 31) {response : OeResponse}
    (fills : desk.FillsUpTo (.receive response)) :
    (desk.next (.receive response)).BuyingUndy bot id qty := by
  cases response with
  | ack orderId => exact ⟨buying.only, buying.undy, buying.dorms⟩
  | other => exact ⟨buying.only, buying.undy, buying.dorms⟩
  | reject orderId rejectReason => exact buying.erase rfl fun _ => rfl
  | closed orderId => exact buying.erase rfl fun _ => rfl
  | fill orderId filled price flags =>
      obtain ⟨order, found, within⟩ := fills
      have same := buying.only orderId order found
      subst same
      obtain ⟨moved, dorms⟩ := buying.position_fill routed fits found within price flags
      have settled : (desk.next (.receive (.fill orderId filled price flags))).working =
          if flags = .CLOSED then desk.working.erase orderId
          else desk.working.insert orderId
            { order with remaining := order.remaining - filled.toNat } :=
        settleResponse_of_lookup found filled price flags
      refine ⟨?_, ?_, dorms⟩
      · intro other later works
        rw [settled] at works
        split at works
        · exact buying.only other later (lookup_of_lookup_erase works)
        · rw [lookup_insert_eq] at works
          split at works
          · assumption
          · exact buying.only other later works
      · intro later works
        rw [settled] at works
        split at works
        · rw [lookup_erase_eq, if_pos rfl] at works
          cases works
        · rw [lookup_insert_eq, if_pos rfl] at works
          cases works
          obtain ⟨isUndy, isBuy, lacks⟩ := buying.undy order found
          refine ⟨isUndy, isBuy, ?_⟩
          rw [moved]
          dsimp only
          omega

/-- UNDY does not go down while it is bought. -/
theorem BuyingUndy.rising {bot : BotState} {id : UInt64} {qty : Nat} {desk : Desk}
    (buying : desk.BuyingUndy bot id qty) (routed : desk.Routed)
    (fits : (opening bot).position SYM_UNDY + qty < 2 ^ 31) {response : OeResponse}
    (fills : desk.FillsUpTo (.receive response)) :
    desk.position SYM_UNDY ≤ (desk.next (.receive response)).position SYM_UNDY := by
  cases response with
  | ack orderId => exact Int.le_refl _
  | other => exact Int.le_refl _
  | reject orderId rejectReason => exact Int.le_refl _
  | closed orderId => exact Int.le_refl _
  | fill orderId filled price flags =>
      obtain ⟨order, found, within⟩ := fills
      have same := buying.only orderId order found
      subst same
      rw [(buying.position_fill routed fits found within price flags).1]
      omega

/-- The closing fill of the UNDY buy leaves nothing working. -/
theorem BuyingUndy.nothing {bot : BotState} {id : UInt64} {qty : Nat} {desk : Desk}
    (buying : desk.BuyingUndy bot id qty) {order : WorkingOrder}
    (found : desk.working.lookup id = some order) (filled : UInt32) (price : Int32)
    (other : UInt64) :
    (desk.next (.receive (.fill id filled price .CLOSED))).working.lookup other = none := by
  have settled : (desk.next (.receive (.fill id filled price .CLOSED))).working =
      desk.working.erase id :=
    (settleResponse_of_lookup found filled price .CLOSED).trans (if_pos rfl)
  rw [settled, lookup_erase_eq]
  split
  · rfl
  · rename_i elsewhere
    cases works : desk.working.lookup other with
    | none => rfl
    | some later => exact absurd (buying.only other later works) elsewhere

/-- The closing fill of the UNDY buy, for all that is left. -/
theorem BuyingUndy.filled {bot : BotState} {id : UInt64} {qty : Nat} {desk : Desk}
    (buying : desk.BuyingUndy bot id qty) (routed : desk.Routed)
    (fits : (opening bot).position SYM_UNDY + qty < 2 ^ 31) {filled : UInt32} {price : Int32}
    (fills : desk.FillsOwn (.receive (.fill id filled price .CLOSED))) :
    (desk.next (.receive (.fill id filled price .CLOSED))).Bought bot qty := by
  obtain ⟨order, found, within, whole⟩ := fills
  obtain ⟨moved, dorms⟩ := buying.position_fill routed fits found within price .CLOSED
  obtain ⟨-, -, lacks⟩ := buying.undy order found
  refine ⟨buying.nothing found filled price, ?_, dorms⟩
  rw [moved, whole rfl]
  exact lacks

/-- The closing fill of the UNDY buy, for some of what is left. -/
theorem BuyingUndy.closed {bot : BotState} {id : UInt64} {qty : Nat} {desk : Desk}
    (buying : desk.BuyingUndy bot id qty) (routed : desk.Routed)
    (fits : (opening bot).position SYM_UNDY + qty < 2 ^ 31)
    (began : (opening bot).position SYM_UNDY ≤ desk.position SYM_UNDY) {filled : UInt32}
    {price : Int32} (fills : desk.Fills (.receive (.fill id filled price .CLOSED))) :
    (desk.next (.receive (.fill id filled price .CLOSED))).PartlyBought bot qty := by
  obtain ⟨order, found, some_, within⟩ := fills
  obtain ⟨moved, dorms⟩ := buying.position_fill routed fits found within price .CLOSED
  obtain ⟨-, -, lacks⟩ := buying.undy order found
  refine ⟨buying.nothing found filled price, ?_, dorms⟩
  rw [moved]
  omega

/-- Before the first order nothing works and nothing has moved. -/
theorem redeeming_opening (bot : BotState) : (opening bot).Redeeming bot 0 arbSymbols :=
  ⟨fun _ => rfl, fun _ dorm absent => absurd (List.mem_cons_of_mem _ dorm) absent, fun _ _ => rfl⟩

/-- The UNDY buy, sent where nothing works. -/
theorem Redeeming.buyUndy {bot : BotState} {qty : UInt32} {desk : Desk}
    (idle : desk.Redeeming bot 0 arbSymbols) (price : Int32) :
    (desk.next (.sendOrder SYM_UNDY .BUY qty price)).BuyingUndy bot desk.bot.nextOrderId
      qty.toNat := by
  have works : ∀ id, (desk.next (.sendOrder SYM_UNDY .BUY qty price)).working.lookup id =
      if id = desk.bot.nextOrderId then some ⟨SYM_UNDY, .BUY, qty.toNat⟩ else none := by
    intro id
    change (desk.working.insert _ _).lookup id = _
    rw [lookup_insert_eq, idle.nothing id]
  refine ⟨?_, ?_, ?_⟩
  · intro other order found
    rw [works] at found
    split at found
    · assumption
    · cases found
  · intro order found
    rw [works, if_pos rfl] at found
    cases found
    refine ⟨rfl, rfl, ?_⟩
    change desk.position SYM_UNDY + _ = _
    rw [idle.pending SYM_UNDY List.mem_cons_self]
  · intro symbol dorm
    exact idle.pending symbol (List.mem_cons_of_mem _ dorm)

/-- UNDY is booked out, and the dorms are still to be booked in. -/
theorem redeeming_of_bookUndy {bot : BotState} (qty : Nat) {desk : Desk}
    (nothing : ∀ id, desk.working.lookup id = none)
    (dorms : ∀ symbol ∈ DORM_IDS, desk.position symbol = (opening bot).position symbol)
    (booked : UInt32) (price : Int32) :
    (desk.next (.book SYM_UNDY .SELL booked price)).Redeeming bot qty DORM_IDS := by
  refine ⟨nothing, fun _ dorm later => absurd dorm later, ?_⟩
  intro symbol dorm
  rw [← dorms symbol dorm]
  change ((desk.bot.manager.onFill _ _ _ _).getPosition symbol).toInt = _
  rw [SymbolManager.getPosition_onFill, if_neg (dorm_ne_undy dorm)]
  rfl

end Desk

namespace Run

open Desk

section Redemption

variable {bot : BotState} {snap : ArbSnapshot}

/-- The UNDY buy is on its way, and UNDY is not below where it began. -/
abbrev Rising (bot : BotState) (qty : Nat) (desk : Desk) : Prop :=
  desk.BuyingUndy bot bot.nextOrderId qty ∧
    (opening bot).position SYM_UNDY ≤ desk.position SYM_UNDY

theorem keptByReceive_rising {qty : Nat} (fits : (opening bot).position SYM_UNDY + qty < 2 ^ 31) :
    Stands.KeptByReceive Desk.next Fills Bounded (Rising bot qty) := by
  rintro desk response ⟨buying, began⟩ bounded fills
  exact ⟨bounded.receive fills, buying.receive bounded.routed fits fills.upTo,
    began.trans (buying.rising bounded.routed fits fills.upTo)⟩

/-- A `wait_for_fill` that returns true has bought at least one lot. -/
theorem Limits.waitForFill_true (world : World) {qty : Nat} {run : Run}
    (fits : (opening bot).position SYM_UNDY + qty < 2 ^ 31)
    (limits : Limits bot (Rising bot qty) run)
    (returned : (run.waitForFill world bot.nextOrderId).2 = true) :
    Limits bot (PartlyBought bot qty) (run.waitForFill world bot.nextOrderId).1 := by
  refine Stands.waitForFill_true world (keptByReceive_rising fits) ?_ limits returned
  rintro desk filled price ⟨buying, began⟩ bounded fills
  exact ⟨bounded.receive fills, buying.closed bounded.routed fits began fills⟩

/-- The bookings of a successful `/redeem`, if the quantity fits above each dorm, and below UNDY
with one lot of it bought. -/
theorem Limits.bookRedemption (world : World) {qty : Int32} {run : Run}
    (room : ∀ symbol ∈ DORM_IDS, (opening bot).position symbol + qty.toUInt32.toNat ≤ 9)
    (undyRoom : -9 ≤ (opening bot).position SYM_UNDY + 1 - qty.toUInt32.toNat)
    (within : (opening bot).Within)
    (limits : Limits bot (PartlyBought bot qty.toUInt32.toNat) run) :
    Limits bot (Redeeming bot qty.toUInt32.toNat []) (bookRedemption world qty run snap) := by
  have undy : Limits bot (Redeeming bot qty.toUInt32.toNat DORM_IDS)
      (run.act (.book SYM_UNDY .SELL qty.toUInt32 snap.undyBestAskPrice)) := by
    refine Stands.act limits ?_
    intro desk _ bought bounded fills
    have held := bought.undy.1
    have fits : desk.Fits (.book SYM_UNDY .SELL qty.toUInt32 snap.undyBestAskPrice) := by
      refine ⟨List.mem_cons_self, ?_⟩
      rw [if_neg (by decide), workingOn_of_nothing bought.nothing]
      omega
    exact ⟨bounded.next fills fits, redeeming_of_bookUndy _ bought.nothing bought.dorms _ _⟩
  have dorms := @Stands.bookEach _ _ _ _ _ _ _
    (fun _ symbols => Redeeming bot qty.toUInt32.toNat symbols) .BUY qty.toUInt32
    world.bestAskPrice ?_ undy
  · exact dorms
  · intro desk reads symbol symbols dorm notAgain redeeming bounded fills
    have here := redeeming.pending symbol List.mem_cons_self
    have above := room symbol dorm
    have low := (within symbol (List.mem_cons_of_mem _ dorm)).1
    rw [toInt_POSITION_LIMIT] at low
    have fits : desk.Fits (.book symbol .BUY qty.toUInt32 (world.bestAskPrice reads symbol)) := by
      refine ⟨List.mem_cons_of_mem _ dorm, ?_⟩
      rw [if_pos rfl, workingOn_of_nothing redeeming.nothing, here]
      omega
    exact ⟨bounded.next fills fits, redeeming.book notAgain (by omega) (by omega) _⟩

/-- The ten sells of what was redeemed. -/
theorem Limits.fireSells {qty : Int32} {run : Run} (within : (opening bot).Within)
    (limits : Limits bot (Redeeming bot qty.toUInt32.toNat []) run) :
    Limits bot (fun _ => True) (fireSells qty run snap).1 := by
  have idle : Limits bot (fun desk => desk.Redeemed bot qty.toUInt32.toNat ∧
      ∀ symbol ∈ DORM_IDS, desk.workingOn symbol .ask = 0) run :=
    Stands.weaken limits fun desk _ redeeming _ =>
      ⟨fun symbol dorm => redeeming.booked symbol dorm List.not_mem_nil,
        fun symbol _ => workingOn_of_nothing redeeming.nothing symbol .ask⟩
  have fired := @Stands.fireEach _ _ _ _ _ _ _
    (fun symbols (desk : Desk) => desk.Redeemed bot qty.toUInt32.toNat ∧
      ∀ symbol ∈ symbols, desk.workingOn symbol .ask = 0) .SELL
    qty.toUInt32 DormData.bestBidPrice snap ?_ idle
  · exact Stands.weaken fired fun _ _ _ _ => trivial
  · rintro desk symbol symbols price dorm notAgain ⟨redeemed, noAsks⟩ bounded fills
    have fits : desk.Fits (.sendOrder symbol .SELL qty.toUInt32 price) := by
      have low := (within symbol (List.mem_cons_of_mem _ dorm)).1
      rw [toInt_POSITION_LIMIT] at low
      refine ⟨List.mem_cons_of_mem _ dorm, ?_⟩
      rw [if_neg (by decide), redeemed symbol dorm, noAsks symbol List.mem_cons_self]
      omega
    refine ⟨bounded.next fills fits, redeemed, ?_⟩
    intro other later
    have none := @workingOn_sendOrder_elsewhere desk symbol .SELL qty.toUInt32 price other .ask
      (by rintro ⟨rfl, -⟩; exact notAgain later)
    exact Nat.le_zero.mp (noAsks other (List.mem_cons_of_mem _ later) ▸ none)

/-- The redemption quantity also fits above each dorm; and below UNDY when the buy that it follows
was closed with one lot filled. -/
def RoomToRedeem (snap : ArbSnapshot) : Prop :=
  (∀ dorm ∈ snap.dorms.toList,
      dorm.position.toInt + (redemptionQty snap).toInt ≤ POSITION_LIMIT.toInt) ∧
    -POSITION_LIMIT.toInt ≤ snap.undyPosition.toInt + 1 - (redemptionQty snap).toInt

instance decidableRoomToRedeem (snap : ArbSnapshot) : Decidable (RoomToRedeem snap) :=
  inferInstanceAs (Decidable ((∀ dorm ∈ snap.dorms.toList, _) ∧ _))

theorem Limits.redeemAndSell (world : EtfWorld) {run : Run} (taken : SnapshotOf bot snap)
    (within : (opening bot).Within) (positive : redemptionQty snap > 0)
    (room : RoomToRedeem snap)
    (limits : Limits bot (PartlyBought bot (redemptionQty snap).toUInt32.toNat) run) :
    Limits bot (fun _ => True) (redeemAndSell world (redemptionQty snap) run snap).1 := by
  have whole := toNat_toUInt32_of_pos positive
  have counted : Limits bot (PartlyBought bot (redemptionQty snap).toUInt32.toNat)
      { run with etfCalls := run.etfCalls + 1 } := Stands.of_eq limits rfl rfl
  have dormRoom : ∀ symbol ∈ DORM_IDS,
      (opening bot).position symbol + (redemptionQty snap).toUInt32.toNat ≤ 9 := by
    intro symbol dorm
    obtain ⟨data, member, same⟩ := taken.exists_data dorm
    have below := room.1 data member
    rw [same, toInt_POSITION_LIMIT] at below
    omega
  have undyRoom : -9 ≤ (opening bot).position SYM_UNDY + 1 -
      (redemptionQty snap).toUInt32.toNat := by
    have above := room.2
    rw [taken.undy_toInt, toInt_POSITION_LIMIT] at above
    omega
  rw [Run.redeemAndSell]
  dsimp only
  split
  · exact Stands.weaken counted fun _ _ _ _ => trivial
  · have booked := @Limits.bookRedemption bot snap world.toWorld _ _ dormRoom undyRoom within
      counted
    apply Stands.collect world.toWorld keptByReceive_true
    exact Limits.fireSells within booked

/-- The UNDY buy does not wrap the position. -/
theorem undy_fits (taken : SnapshotOf bot snap) (within : (opening bot).Within)
    (positive : redemptionQty snap > 0) :
    (opening bot).position SYM_UNDY + (redemptionQty snap).toUInt32.toNat < 2 ^ 31 := by
  have below := redemptionQty_le taken within
  rw [toNat_toUInt32_of_pos positive]
  omega

/-- The UNDY buy is sent, and its wait has returned. -/
theorem Limits.buyUndy (world : World) (inbox : List OeResponse) (taken : SnapshotOf bot snap)
    (within : (opening bot).Within) (positive : redemptionQty snap > 0) :
    Limits bot (Rising bot (redemptionQty snap).toUInt32.toNat)
      ((new bot inbox).buyUndy world snap).1 := by
  have begun : Limits bot (Redeeming bot 0 arbSymbols) (new bot inbox) :=
    Stands.new (fun _ _ => rfl) (bounded_opening within) (redeeming_opening bot)
  have flags : Stands.KeptByFlags Desk.next Fills Bounded (Redeeming bot 0 arbSymbols) := by
    rintro desk action (⟨inProgress, rfl⟩ | ⟨time, rfl⟩) idle bounded fills
    · exact ⟨bounded.next fills trivial, idle.nothing, idle.booked, idle.pending⟩
    · exact ⟨bounded.next fills trivial, idle.nothing, idle.booked, idle.pending⟩
  have started := Stands.startArb flags ((new bot inbox).now world) begun
  have sent := @Stands.act _ _ _ _ _ _ _ (Rising bot (redemptionQty snap).toUInt32.toNat) _
    (.sendOrder SYM_UNDY .BUY (redemptionQty snap).toUInt32 snap.undyBestAskPrice) started
    (by
      intro desk same idle bounded fills
      have here := idle.pending SYM_UNDY List.mem_cons_self
      have fits : desk.Fits
          (.sendOrder SYM_UNDY .BUY (redemptionQty snap).toUInt32 snap.undyBestAskPrice) := by
        have below := redemptionQty_le taken within
        refine ⟨List.mem_cons_self, ?_⟩
        rw [if_pos rfl, here, workingOn_of_nothing idle.nothing, toNat_toUInt32_of_pos positive]
        omega
      have nextId : desk.bot.nextOrderId = bot.nextOrderId := by
        rw [same]
        rfl
      refine ⟨bounded.next fills fits, ?_, here.ge⟩
      rw [← nextId]
      exact idle.buyUndy _)
  exact Stands.waitForResponse world (keptByReceive_rising (undy_fits taken within positive)) _ sent

/-- In a redemption on a snapshot within the limit that leaves room, every desk is bounded. -/
theorem tryRedemptionArb_stands (world : EtfWorld) (inbox : List OeResponse)
    (taken : SnapshotOf bot snap) (within : (opening bot).Within)
    (room : (new bot []).startsRedemption snap = true → RoomToRedeem snap) :
    Limits bot (fun _ => True) ((new bot inbox).tryRedemptionArb world snap).1 := by
  rw [tryRedemptionArb]
  split
  · exact Stands.new (fun _ _ => rfl) (bounded_opening within) trivial
  · rename_i notStopped
    have starts : (new bot []).startsRedemption snap = true := not_not.mp notStopped
    have positive := redemptionQty_pos_of_starts starts
    have waited := Limits.buyUndy world.toWorld inbox taken within positive
    dsimp only
    split
    · exact Limits.act (Stands.weaken waited fun _ _ _ _ => trivial) fun _ _ _ _ => trivial
    · split
      · have gaveUp := Stands.waitForFill world.toWorld
          (keptByReceive_rising (undy_fits taken within positive)) bot.nextOrderId waited
        exact Limits.act (Stands.weaken gaveUp fun _ _ _ _ => trivial) fun _ _ _ _ => trivial
      · rename_i returned
        have bought := Limits.waitForFill_true world.toWorld (undy_fits taken within positive)
          waited (not_not.mp returned)
        exact Limits.redeemAndSell world taken within positive (room starts) bought

end Redemption

end Run

end HftAlgorithms
