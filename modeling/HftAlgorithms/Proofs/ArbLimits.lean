/-
Module: HftAlgorithms.Proofs.ArbLimits
Purpose: The position limit during an arb: bounds that hold whatever fills, what
  the arb quantities keep within them, the unwind, and the repeated UNDY sells.
Trusted boundary: none
Main exports: Desk.Within, Desk.Bounded, Desk.Bounded.next, Desk.ToUnwind,
  Desk.SellingUndy, Run.SnapshotOf, Run.Limits, Run.Limits.unwindDormLongs,
  Run.Limits.sellUndy
-/
import HftAlgorithms.Proofs.ArbDesk
import HftAlgorithms.Proofs.ArbSizing
import HftAlgorithms.Proofs.RunLogic

namespace HftAlgorithms

open FiniteMap StateMachine

namespace Desk

/-! ### Bounds that hold whatever fills -/

/-- Every dorm and UNDY within the limit. -/
def Within (desk : Desk) : Prop :=
  ∀ symbol ∈ arbSymbols,
    -POSITION_LIMIT.toInt ≤ desk.position symbol ∧ desk.position symbol ≤ POSITION_LIMIT.toInt

instance decidableWithin (desk : Desk) : Decidable desk.Within :=
  List.decidableBAll _ _

/-- Within the limit if everything that works on one side is filled. -/
structure Bounded (desk : Desk) : Prop where
  routed : desk.Routed
  above : ∀ symbol ∈ arbSymbols, desk.position symbol + desk.workingOn symbol .bid ≤ 9
  below : ∀ symbol ∈ arbSymbols, -9 ≤ desk.position symbol - desk.workingOn symbol .ask

theorem Bounded.within {desk : Desk} (bounded : desk.Bounded) : desk.Within := by
  intro symbol member
  have above := bounded.above symbol member
  have below := bounded.below symbol member
  rw [toInt_POSITION_LIMIT]
  omega

theorem bounded_opening {bot : BotState} (within : (opening bot).Within) :
    (opening bot).Bounded where
  routed := routed_opening bot
  above := by
    intro symbol member
    have high := (within symbol member).2
    rw [toInt_POSITION_LIMIT] at high
    rw [workingOn_opening]
    omega
  below := by
    intro symbol member
    have low := (within symbol member).1
    rw [toInt_POSITION_LIMIT] at low
    rw [workingOn_opening]
    omega

/-- An order or a booking that leads no further than the limit, with all that works filled. -/
def Fits (desk : Desk) : BotAction → Prop
  | .sendOrder symbol side qty _ | .book symbol side qty _ =>
      symbol ∈ arbSymbols ∧
        if side = .BUY then desk.position symbol + desk.workingOn symbol .bid + qty.toNat ≤ 9
        else -9 ≤ desk.position symbol - desk.workingOn symbol .ask - qty.toNat
  | _ => True

/-- A booking within the limit moves its own position by exactly its quantity. -/
theorem Bounded.position_book {desk : Desk} (bounded : desk.Bounded) {symbol : UInt32}
    {side : Side} {qty : UInt32} {price : Int32} (fits : desk.Fits (.book symbol side qty price))
    (other : UInt32) :
    (desk.next (.book symbol side qty price)).position other =
      if other = symbol then exactMove (desk.position symbol) side qty.toNat
      else desk.position other := by
  obtain ⟨member, room⟩ := fits
  have above := bounded.above symbol member
  have below := bounded.below symbol member
  by_cases buy : side = .BUY
  · have moved : exactMove (desk.position symbol) side qty.toNat =
        desk.position symbol + qty.toNat := if_pos buy
    rw [if_pos buy] at room
    exact Desk.position_book (by omega) (by omega) price other
  · have moved : exactMove (desk.position symbol) side qty.toNat =
        desk.position symbol - qty.toNat := if_neg buy
    rw [if_neg buy] at room
    exact Desk.position_book (by omega) (by omega) price other

theorem Bounded.moves {desk : Desk} (bounded : desk.Bounded) {response : OeResponse}
    (fills : desk.Fills (.receive response)) {symbol : UInt32} (member : symbol ∈ arbSymbols) :
    desk.Moves (desk.next (.receive response)) symbol := by
  have above := bounded.above symbol member
  have below := bounded.below symbol member
  exact receive_moves bounded.routed fills.upTo (by omega) (by omega)

theorem Bounded.receive {desk : Desk} (bounded : desk.Bounded) {response : OeResponse}
    (fills : desk.Fills (.receive response)) : (desk.next (.receive response)).Bounded := by
  refine ⟨bounded.routed.next _, ?_, ?_⟩
  · intro symbol member
    obtain ⟨bought, sold, moved, bids, -⟩ := bounded.moves fills member
    have above := bounded.above symbol member
    omega
  · intro symbol member
    obtain ⟨bought, sold, moved, -, asks⟩ := bounded.moves fills member
    have below := bounded.below symbol member
    omega

theorem Bounded.sendOrder {desk : Desk} (bounded : desk.Bounded) {symbol : UInt32} {side : Side}
    {qty : UInt32} {price : Int32} (fits : desk.Fits (.sendOrder symbol side qty price)) :
    (desk.next (.sendOrder symbol side qty price)).Bounded := by
  obtain ⟨-, room⟩ := fits
  have grown := workingOn_sendOrder_le desk symbol side qty price
  refine ⟨bounded.routed.next _, ?_, ?_⟩
  · intro other member
    have above := bounded.above other member
    have more := grown other .bid
    change desk.position other + _ ≤ 9
    by_cases own : symbol = other ∧ side.bookSide = .bid
    · obtain ⟨rfl, isBid⟩ := own
      have buy : side = .BUY := by
        cases side with
        | BUY => rfl
        | SELL => cases isBid
        | invalid byte => cases isBid
      rw [if_pos buy] at room
      rw [if_pos ⟨rfl, isBid⟩] at more
      omega
    · rw [if_neg own] at more
      omega
  · intro other member
    have below := bounded.below other member
    have more := grown other .ask
    change -9 ≤ desk.position other - _
    by_cases own : symbol = other ∧ side.bookSide = .ask
    · obtain ⟨rfl, isAsk⟩ := own
      have sell : side ≠ .BUY := by
        rintro rfl
        cases isAsk
      rw [if_neg sell] at room
      rw [if_pos ⟨rfl, isAsk⟩] at more
      omega
    · rw [if_neg own] at more
      omega

theorem Bounded.book {desk : Desk} (bounded : desk.Bounded) {symbol : UInt32} {side : Side}
    {qty : UInt32} {price : Int32} (fits : desk.Fits (.book symbol side qty price)) :
    (desk.next (.book symbol side qty price)).Bounded := by
  have moved := bounded.position_book fits
  obtain ⟨-, room⟩ := fits
  refine ⟨bounded.routed.next _, ?_, ?_⟩
  · intro other member
    have above := bounded.above other member
    change _ + (desk.workingOn other .bid : Int) ≤ 9
    rw [moved other]
    split
    · rename_i own
      subst own
      rw [exactMove]
      split at room
      · rw [if_pos ‹_›]
        omega
      · rw [if_neg ‹_›]
        omega
    · exact above
  · intro other member
    have below := bounded.below other member
    change -9 ≤ _ - (desk.workingOn other .ask : Int)
    rw [moved other]
    split
    · rename_i own
      subst own
      rw [exactMove]
      split at room
      · rw [if_pos ‹_›]
        omega
      · rw [if_neg ‹_›]
        omega
    · exact below

/-- Each step that fits keeps the bounds. -/
theorem Bounded.next {desk : Desk} (bounded : desk.Bounded) {action : BotAction}
    (fills : desk.Fills action) (fits : desk.Fits action) : (desk.next action).Bounded := by
  cases action with
  | sendOrder symbol side qty price => exact bounded.sendOrder fits
  | receive response => exact bounded.receive fills
  | book symbol side qty price => exact bounded.book fits
  | callCreate amount result => exact ⟨bounded.routed, bounded.above, bounded.below⟩
  | fillTimeout => exact ⟨bounded.routed, bounded.above, bounded.below⟩
  | setArbInProgress inProgress => exact ⟨bounded.routed, bounded.above, bounded.below⟩
  | setArbStartTime time => exact ⟨bounded.routed, bounded.above, bounded.below⟩

theorem dorm_ne_undy {symbol : UInt32} (dorm : symbol ∈ DORM_IDS) : symbol ≠ SYM_UNDY := by
  rintro rfl
  exact absurd dorm (by decide)

/-! ### Desks that are being closed -/

/-- The dorms that the unwind has not come to: none is being sold, and where one is so short that it
is covered, what its cover and the buys that still work come to is within the limit. -/
def ToUnwind (symbols : List UInt32) (desk : Desk) : Prop :=
  ∀ symbol ∈ symbols, desk.workingOn symbol .ask = 0 ∧
    (desk.position symbol ≤ -8 → desk.workingOn symbol .bid ≤ 9)

/-- An order for one dorm leaves the others as they were. -/
theorem ToUnwind.sendOrder {symbol : UInt32} {symbols : List UInt32} {desk : Desk}
    (left : desk.ToUnwind (symbol :: symbols)) (notAgain : symbol ∉ symbols) (side : Side)
    (qty : UInt32) (price : Int32) :
    (desk.next (.sendOrder symbol side qty price)).ToUnwind symbols := by
  intro other later
  have elsewhere := fun otherSide => @workingOn_sendOrder_elsewhere desk symbol side qty price other
    otherSide (by rintro ⟨rfl, -⟩; exact notAgain later)
  obtain ⟨noAsks, few⟩ := left other (List.mem_cons_of_mem _ later)
  exact ⟨Nat.le_zero.mp (noAsks ▸ elsewhere .ask), fun short => (elsewhere .bid).trans (few short)⟩

/-- UNDY is being sold: it is at no more than two lots, and each of the sells so far was for no
more. -/
structure SellingUndy (attempts : Nat) (desk : Desk) : Prop where
  noBuys : desk.workingOn SYM_UNDY .bid = 0
  few : desk.position SYM_UNDY ≤ 2
  sells : desk.workingOn SYM_UNDY .ask ≤ 2 * attempts

theorem SellingUndy.receive {attempts : Nat} {desk : Desk} (selling : desk.SellingUndy attempts)
    (bounded : desk.Bounded) {response : OeResponse} (fills : desk.Fills (.receive response)) :
    (desk.next (.receive response)).SellingUndy attempts := by
  obtain ⟨bought, sold, moved, bids, asks⟩ := bounded.moves fills List.mem_cons_self
  have none := selling.noBuys
  have few := selling.few
  have sells := selling.sells
  exact ⟨by omega, by omega, by omega⟩

/-- One more sell of the whole position. -/
theorem SellingUndy.sendOrder {attempts : Nat} {desk : Desk} (selling : desk.SellingUndy attempts)
    {qty : UInt32} (whole : (qty.toNat : Int) = desk.position SYM_UNDY) (price : Int32) :
    (desk.next (.sendOrder SYM_UNDY .SELL qty price)).SellingUndy (attempts + 1) := by
  have bids := @workingOn_sendOrder_elsewhere desk SYM_UNDY .SELL qty price SYM_UNDY .bid
    (by decide)
  have asks := workingOn_sendOrder_le desk SYM_UNDY .SELL qty price SYM_UNDY .ask
  have few := selling.few
  have sells := selling.sells
  rw [if_pos ⟨rfl, rfl⟩] at asks
  exact ⟨Nat.le_zero.mp (selling.noBuys ▸ bids), few, by omega⟩

end Desk

namespace Run

open Desk

/-! ### Quantities -/

/-- The positions in the snapshot are those of the bot that acts on it. -/
structure SnapshotOf (bot : BotState) (snap : ArbSnapshot) : Prop where
  dorms : snap.dorms.toList.map DormData.position = DORM_IDS.map bot.manager.getPosition
  undy : snap.undyPosition = bot.manager.getPosition SYM_UNDY

/-- A snapshot taken by the bot itself. -/
theorem snapshotOf_snapshot (bot : BotState) : SnapshotOf bot bot.manager.snapshot where
  dorms := List.map_map
  undy := rfl

/-- Each dorm has its entry in the snapshot. -/
theorem SnapshotOf.exists_data {bot : BotState} {snap : ArbSnapshot} (taken : SnapshotOf bot snap)
    {symbol : UInt32} (dorm : symbol ∈ DORM_IDS) :
    ∃ data ∈ snap.dorms.toList, data.position.toInt = (opening bot).position symbol := by
  have listed : bot.manager.getPosition symbol ∈ snap.dorms.toList.map DormData.position := by
    rw [taken.dorms]
    exact List.mem_map_of_mem dorm
  obtain ⟨data, member, same⟩ := List.mem_map.mp listed
  exact ⟨data, member, congrArg Int32.toInt same⟩

/-- Each entry of the snapshot is that of a dorm. -/
theorem SnapshotOf.exists_dorm {bot : BotState} {snap : ArbSnapshot} (taken : SnapshotOf bot snap)
    {data : DormData} (member : data ∈ snap.dorms.toList) :
    ∃ symbol ∈ DORM_IDS, data.position.toInt = (opening bot).position symbol := by
  have listed : data.position ∈ DORM_IDS.map bot.manager.getPosition := by
    rw [← taken.dorms]
    exact List.mem_map_of_mem member
  obtain ⟨symbol, dorm, same⟩ := List.mem_map.mp listed
  exact ⟨symbol, dorm, (congrArg Int32.toInt same).symm⟩

theorem SnapshotOf.undy_toInt {bot : BotState} {snap : ArbSnapshot} (taken : SnapshotOf bot snap) :
    snap.undyPosition.toInt = (opening bot).position SYM_UNDY :=
  congrArg Int32.toInt taken.undy

/-- The room left above a position within the limit. -/
theorem toInt_room {position : Int32} (low : -9 ≤ position.toInt) (high : position.toInt ≤ 9) :
    (POSITION_LIMIT - position).toInt = 9 - position.toInt := by
  apply toInt_limit_sub
  omega

section Quantities

variable {bot : BotState} {snap : ArbSnapshot} (taken : SnapshotOf bot snap)
  (within : (opening bot).Within)

include taken within

/-- `creation_qty` keeps each dorm buy within the limit. -/
theorem creationQty_le {symbol : UInt32} (dorm : symbol ∈ DORM_IDS) :
    (creationQty snap).toInt ≤ 9 - (opening bot).position symbol := by
  obtain ⟨low, high⟩ := within symbol (List.mem_cons_of_mem _ dorm)
  obtain ⟨data, member, same⟩ := taken.exists_data dorm
  have room := (((le_creationQty_iff snap _).mp le_rfl).2.1 data member).2
  rw [toInt_room (same ▸ low) (same ▸ high), same] at room
  exact room

/-- `redemption_qty` keeps the UNDY buy and each dorm sell within the limit. -/
theorem redemptionQty_le :
    (redemptionQty snap).toInt ≤ 9 - (opening bot).position SYM_UNDY := by
  obtain ⟨low, high⟩ := within SYM_UNDY List.mem_cons_self
  have room := ((le_redemptionQty_iff snap _).mp le_rfl).2.1
  rw [taken.undy] at room
  exact room.trans_eq (toInt_room low high)

end Quantities

/-- A positive quantity sent as an unsigned one is the same quantity. -/
theorem toNat_toUInt32_of_pos {qty : Int32} (positive : qty > 0) :
    (qty.toUInt32.toNat : Int) = qty.toInt := by
  have value := Int32.lt_iff_toInt_lt.mp positive
  rw [Int32.toInt_zero] at value
  rw [Int32.toNat_toUInt32_of_le (Int32.le_of_lt positive)]
  exact Int.toNat_of_nonneg (Int.le_of_lt value)

/-! ### Unwinding and selling -/

/-- Runs in which every desk is bounded, however the legs fill. -/
abbrev Limits (bot : BotState) (post : Desk → Prop) (run : Run) : Prop :=
  Stands Desk.next Desk.bot (opening bot) Fills Bounded post run

theorem keptByReceive_true : Stands.KeptByReceive Desk.next Fills Bounded fun _ => True := by
  intro desk response _ bounded fills
  exact ⟨bounded.receive fills, trivial⟩

theorem keptByReceive_sellingUndy (attempts : Nat) :
    Stands.KeptByReceive Desk.next Fills Bounded (SellingUndy attempts) := by
  intro desk response selling bounded fills
  exact ⟨bounded.receive fills, selling.receive bounded fills⟩

section Unwinding

variable {bot : BotState} (world : World)

/-- A step that fits. -/
theorem Limits.act {pre : Desk → Prop} {run : Run} (limits : Limits bot pre run)
    {action : BotAction}
    (fits : ∀ desk : Desk, desk.bot = run.state → pre desk → desk.Bounded → desk.Fits action) :
    Limits bot (fun _ => True) (run.act action) :=
  Stands.act limits fun desk same here bounded fills =>
    ⟨bounded.next fills (fits desk same here bounded), trivial⟩

/-- What the run sees of a position is what the desk has of it. -/
theorem position_eq {desk : Desk} {run : Run} (same : desk.bot = run.state) (symbol : UInt32) :
    desk.position symbol = (run.getPosition symbol).toInt := by
  rw [position, same]
  rfl

/-- A sell of a whole long position, with nothing of the symbol sold already. -/
theorem fits_close {desk : Desk} {run : Run} (same : desk.bot = run.state) {symbol : UInt32}
    (member : symbol ∈ arbSymbols) (noAsks : desk.workingOn symbol .ask = 0)
    (long : run.getPosition symbol > 0) (price : Int32) :
    desk.Fits (.sendOrder symbol .SELL (run.getPosition symbol).toUInt32 price) := by
  have exact_ := toNat_toUInt32_of_pos long
  have here := position_eq same symbol
  refine ⟨member, ?_⟩
  rw [if_neg (by decide), noAsks, here, exact_]
  omega

/-- A cover of a whole short position, with no more than the limit being bought already. -/
theorem fits_cover {desk : Desk} (bounded : desk.Bounded) {run : Run} (same : desk.bot = run.state)
    {symbol : UInt32} (member : symbol ∈ arbSymbols) (few : desk.workingOn symbol .bid ≤ 9)
    (short : run.getPosition symbol ≤ -8) (price : Int32) :
    desk.Fits (.sendOrder symbol .BUY (run.getPosition symbol).abs.toUInt32 price) := by
  have low := (bounded.within symbol member).1
  have here := position_eq same symbol
  rw [toInt_POSITION_LIMIT, here] at low
  have negative := Int32.le_iff_toInt_le.mp short
  have size : (-8 : Int32).toInt = -8 := rfl
  have notLeast : run.getPosition symbol ≠ Int32.minValue := by
    intro least
    rw [least] at low
    exact absurd low (by decide)
  have value := FixedWidth.toInt_abs_of_ne notLeast
  have positive : (run.getPosition symbol).abs > 0 := by
    rw [gt_iff_lt, Int32.lt_iff_toInt_lt, value, Int32.toInt_zero]
    omega
  have exact_ := toNat_toUInt32_of_pos positive
  refine ⟨member, ?_⟩
  rw [if_pos rfl, here, exact_, value]
  omega

theorem Limits.unwindLeg {fired : Run × List UInt64} {symbol : UInt32} {symbols : List UInt32}
    (dorm : symbol ∈ DORM_IDS) (notAgain : symbol ∉ symbols)
    (limits : Limits bot (ToUnwind (symbol :: symbols)) fired.1) :
    Limits bot (ToUnwind symbols) (unwindLeg world fired symbol).1 := by
  have member : symbol ∈ arbSymbols := List.mem_cons_of_mem _ dorm
  have quoted : Limits bot (ToUnwind (symbol :: symbols)) fired.1.quoted :=
    Stands.of_eq limits rfl rfl
  have skipped : ∀ {run : Run}, Limits bot (ToUnwind (symbol :: symbols)) run →
      Limits bot (ToUnwind symbols) run := fun limits =>
    Stands.weaken limits fun _ _ left _ other later =>
      left other (List.mem_cons_of_mem _ later)
  rw [Run.unwindLeg]
  dsimp only
  split
  · rename_i long
    split
    · exact skipped quoted
    · refine Stands.act quoted fun desk same left bounded fills => ?_
      have fits := fits_close same member (left symbol List.mem_cons_self).1 long
        (fired.1.bestBid world symbol)
      exact ⟨bounded.next fills fits, left.sendOrder notAgain _ _ _⟩
  · split
    · rename_i short
      split
      · exact skipped quoted
      · refine Stands.act quoted fun desk same left bounded fills => ?_
        have deep : desk.position symbol ≤ -8 := by
          rw [position_eq same]
          exact Int32.le_iff_toInt_le.mp short
        have fits := fits_cover bounded same member ((left symbol List.mem_cons_self).2 deep)
          short (fired.1.bestAsk world symbol)
        exact ⟨bounded.next fills fits, left.sendOrder notAgain _ _ _⟩
    · exact skipped limits

theorem Limits.unwindDormLongs {run : Run} (limits : Limits bot (ToUnwind DORM_IDS) run) :
    Limits bot (fun _ => True) (run.unwindDormLongs world) := by
  have legs : ∀ symbols : List UInt32, (∀ symbol ∈ symbols, symbol ∈ DORM_IDS) → symbols.Nodup →
      ∀ fired : Run × List UInt64, Limits bot (ToUnwind symbols) fired.1 →
        Limits bot (fun _ => True) (symbols.foldl (Run.unwindLeg world) fired).1 := by
    intro symbols
    induction symbols with
    | nil => exact fun _ _ _ limits => Stands.weaken limits fun _ _ _ _ => trivial
    | cons symbol symbols inductionHypothesis =>
        intro dorms nodup fired limits
        obtain ⟨notAgain, rest⟩ := List.nodup_cons.mp nodup
        exact inductionHypothesis (fun other member => dorms other (List.mem_cons_of_mem _ member))
          rest _ (Limits.unwindLeg world (dorms symbol List.mem_cons_self) notAgain limits)
  exact Stands.collect world keptByReceive_true _
    (legs DORM_IDS (fun _ member => member) (by decide) (run, []) limits)

/-- Five sells of at most two lots each, even if none is filled before the last is sent, lead no
further than eight lots down. -/
theorem Limits.sellUndy (fuel attempts : Nat) {run : Run} {undyPos : Int32}
    (current : undyPos = run.getPosition SYM_UNDY)
    (limits : Limits bot (SellingUndy attempts) run) :
    Limits bot (fun _ => True) (sellUndy world fuel attempts undyPos run).1 := by
  induction fuel generalizing attempts run undyPos with
  | zero => exact Stands.weaken limits fun _ _ _ _ => trivial
  | succ fuel inductionHypothesis =>
      have quoted : Limits bot (SellingUndy attempts) run.quoted := Stands.of_eq limits rfl rfl
      rw [Run.sellUndy]
      dsimp only
      split
      · rename_i again
        split
        · exact inductionHypothesis attempts rfl quoted
        · apply inductionHypothesis (attempts + 1) rfl
          subst current
          have sent : Limits bot (SellingUndy (attempts + 1)) (run.quoted.sendOrderNoWait SYM_UNDY
              .SELL (run.getPosition SYM_UNDY).toUInt32 (run.bestBid world SYM_UNDY)) := by
            refine Stands.act quoted fun desk same selling bounded fills => ?_
            have whole := toNat_toUInt32_of_pos again.1
            have here := @position_eq desk run same SYM_UNDY
            have sells := selling.sells
            have fits : desk.Fits (.sendOrder SYM_UNDY .SELL (run.getPosition SYM_UNDY).toUInt32
                (run.bestBid world SYM_UNDY)) := by
              refine ⟨List.mem_cons_self, ?_⟩
              rw [if_neg (by decide), here, whole]
              omega
            exact ⟨bounded.next fills fits, selling.sendOrder (whole.trans here.symm) _⟩
          exact Stands.waitForResponse world (keptByReceive_sellingUndy _) _ sent
      · exact Stands.weaken limits fun _ _ _ _ => trivial

end Unwinding

end Run

end HftAlgorithms
