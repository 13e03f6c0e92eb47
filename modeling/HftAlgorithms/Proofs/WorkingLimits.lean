/-
Module: HftAlgorithms.Proofs.WorkingLimits
Purpose: When the working quantity and the exposure of each side stay within
  their limits.  The checks of a same-side modify compare with the quantity the
  order was stored with, the exposure tracker holds what is left of it after
  fills: growth that only the tracker sees is not checked.
Trusted boundary: none
Main exports: RiskManager.LimitsHold, RiskManager.WithinLimits,
  RiskManager.MeetsWorkingLimits, RiskManager.limits_hold_of_covered_modifies
-/
import HftAlgorithms.Lib.StateMachine
import HftAlgorithms.Proofs.ExposureLedger
import HftAlgorithms.Proofs.RiskChecks
import HftAlgorithms.Proofs.RiskSteps

namespace HftAlgorithms

open FiniteMap StateMachine

/-- A fill moves what is held on a side by at most what it takes off the working quantity. -/
theorem BookSide.held_exactMove_le (side : BookSide) (position : Int) (of : Side) (qty : Nat) :
    side.held (exactMove position of qty) ≤ side.held position + of.share side qty := by
  rw [exactMove, Side.share]
  cases side <;> cases of <;> simp [BookSide.held, Side.bookSide] <;> omega

/-- The sums of limits that the checks form fit in 32 bits. -/
structure RiskLimits.SumsFit (limits : RiskLimits) : Prop where
  orderAndSide : limits.maxQtyPerOrder.toNat + limits.maxQtyPerSide.toNat < 2 ^ 32
  orderAndExposure : limits.maxQtyPerOrder.toNat + limits.maxExposure.toNat < 2 ^ 32

namespace RiskManager

/-- What `get_outstanding_*_qty` and `get_*_exposure` are held to. -/
structure LimitsHold (limits : RiskLimits) (manager : RiskManager) : Prop where
  buyQty : manager.exposureTracker.outstandingBuyQty ≤ limits.maxQtyPerSide
  sellQty : manager.exposureTracker.outstandingSellQty ≤ limits.maxQtyPerSide
  buyExposure :
    manager.exposureTracker.getBuyExposure manager.positionTracker ≤ limits.maxExposure
  sellExposure :
    manager.exposureTracker.getSellExposure manager.positionTracker ≤ limits.maxExposure

/-! ### The invariant -/

/-- The two limits, in exact numbers. -/
structure Bounded (limits : RiskLimits) (tracker : ExposureTracker) (position : Int) : Prop where
  perSide : ∀ side, (tracker.outstanding side).toNat ≤ limits.maxQtyPerSide.toNat
  exposure : ∀ side, side.held position + (tracker.outstanding side).toNat ≤
    limits.maxExposure.toNat

/-- A pending order that is also open is on the side it is stored with, with at most the
quantity it is stored with. -/
def RegistrationsAgree (manager : RiskManager) : Prop :=
  ∀ id order info, manager.exposureTracker.pendingOrders.lookup id = some order →
    manager.openOrders.lookup id = some info →
    order.side = info.side ∧ order.qty.toNat ≤ info.qty.toNat

structure WithinLimits (limits : RiskLimits) (manager : RiskManager) : Prop where
  configured : Configured limits manager
  covers : manager.exposureTracker.Covers
  agree : manager.RegistrationsAgree
  notLeast : manager.getPosition ≠ Int32.minValue
  bounded : Bounded limits manager.exposureTracker manager.getPosition.toInt

theorem withinLimits_new (limits : RiskLimits) (now : Int) :
    WithinLimits limits (new limits now) := by
  have notLeast : (0 : Int32) ≠ Int32.minValue := by decide
  refine ⟨configured_new limits now, ExposureTracker.covers_new _, ?_, notLeast, ?_, ?_⟩
  · intro id order info pending
    cases pending
  · intro side
    cases side <;> exact Nat.zero_le _
  · intro side
    cases side <;> exact Int.natCast_nonneg _

theorem WithinLimits.exposureOn_eq {limits : RiskLimits} {manager : RiskManager}
    (within : WithinLimits limits manager) (side : BookSide) :
    ((manager.exposureTracker.exposureOn manager.positionTracker side).toNat : Int) =
      side.held manager.getPosition.toInt +
        (manager.exposureTracker.outstanding side).toNat := by
  apply ExposureTracker.toNat_exposureOn within.notLeast
  have bound := within.bounded.exposure side
  have word := limits.maxExposure.toNat_lt
  rw [getPosition] at bound
  omega

theorem WithinLimits.limitsHold {limits : RiskLimits} {manager : RiskManager}
    (within : WithinLimits limits manager) : LimitsHold limits manager := by
  have buy := within.exposureOn_eq .bid
  have sell := within.exposureOn_eq .ask
  have buyBound := within.bounded.exposure .bid
  have sellBound := within.bounded.exposure .ask
  refine ⟨?_, ?_, ?_, ?_⟩
  · exact UInt32.le_iff_toNat_le.mpr (within.bounded.perSide .bid)
  · exact UInt32.le_iff_toNat_le.mpr (within.bounded.perSide .ask)
  · rw [ExposureTracker.exposureOn] at buy
    rw [UInt32.le_iff_toNat_le]
    omega
  · rw [ExposureTracker.exposureOn] at sell
    rw [UInt32.le_iff_toNat_le]
    omega

/-! ### What the checks allow -/

/-- A quantity that passes the checks fits the exact limits. -/
theorem WithinLimits.of_checkAdded {limits : RiskLimits} (fits : limits.SumsFit)
    {manager : RiskManager} (within : WithinLimits limits manager) {side : Side} {qty : UInt32}
    (small : qty.toNat ≤ limits.maxQtyPerOrder.toNat)
    (passes : manager.checkAdded side qty = .OK) :
    (manager.exposureTracker.outstanding side.bookSide).toNat + qty.toNat ≤
        limits.maxQtyPerSide.toNat ∧
      side.bookSide.held manager.getPosition.toInt +
          (manager.exposureTracker.outstanding side.bookSide).toNat + qty.toNat ≤
        limits.maxExposure.toNat := by
  obtain ⟨perSide, exposure, -, -⟩ := (checkAdded_eq_OK_iff manager side qty).mp passes
  have total := within.bounded.perSide side.bookSide
  have bound := within.bounded.exposure side.bookSide
  have value := within.exposureOn_eq side.bookSide
  have sideFits := fits.orderAndSide
  have exposureFits := fits.orderAndExposure
  rw [within.configured.own, UInt32.le_iff_toNat_le,
    FixedWidth.toNat_add_of_lt (by omega)] at perSide
  rw [within.configured.maxExposure, UInt32.le_iff_toNat_le,
    FixedWidth.toNat_add_of_lt (by omega)] at exposure
  refine ⟨perSide, ?_⟩
  omega

/-! ### Conditions on a run -/

/-- A fill of an open order takes at most what is left of it. -/
def FillsWithinRemaining (manager : RiskManager) (call : RiskCall) : Prop :=
  ∀ id qty price closed info, call.op = .onFill id qty price closed →
    manager.openOrders.lookup id = some info →
    qty.toNat ≤ manager.exposureTracker.remaining id

/-- An acknowledged same-side modify of a partly filled order asks for no more than what is
left of it, or at least for no more growth over that than both limits leave room for. -/
def ModifyCovered (manager : RiskManager) (id : UInt64)
    (existing replacement : OpenOrderInfo) : Prop :=
  replacement.side = existing.side →
    manager.exposureTracker.remaining id = existing.qty.toNat ∨
    replacement.qty.toNat ≤ manager.exposureTracker.remaining id ∨
    (manager.exposureTracker.outstanding existing.side.bookSide).toNat + replacement.qty.toNat ≤
        manager.limits.maxQtyPerSide.toNat + manager.exposureTracker.remaining id ∧
      existing.side.bookSide.held manager.getPosition.toInt +
          (manager.exposureTracker.outstanding existing.side.bookSide).toNat +
          replacement.qty.toNat ≤
        manager.limits.maxExposure.toNat + manager.exposureTracker.remaining id

/-- A fill of an open order leaves a position whose value and negative are signed words. -/
def FillFitsPosition (manager : RiskManager) (call : RiskCall) : Prop :=
  ∀ id qty price closed info, call.op = .onFill id qty price closed →
    manager.openOrders.lookup id = some info → MoveFits manager.getPosition info.side qty

structure MeetsWorkingLimits (manager : RiskManager) (call : RiskCall) : Prop where
  modify : ∀ id existing replacement, manager.Replaces call id existing replacement →
    manager.ModifyCovered id existing replacement
  fill : manager.FillFitsPosition call

/-! ### Steps -/

theorem bounded_onOrderRemoved {limits : RiskLimits} {tracker : ExposureTracker} {position : Int}
    (covers : tracker.Covers) (bounded : Bounded limits tracker position) (id : UInt64) :
    Bounded limits (tracker.onOrderRemoved id) position := by
  constructor
  · intro side
    exact Nat.le_trans (ExposureTracker.outstanding_onOrderRemoved_le covers id side)
      (bounded.perSide side)
  · intro side
    have bound := bounded.exposure side
    have shrinks := ExposureTracker.outstanding_onOrderRemoved_le covers id side
    omega

/-- Sending keeps the bounds if the new order's own side has room. -/
theorem bounded_onOrderSent {limits : RiskLimits} {tracker : ExposureTracker} {position : Int}
    (bounded : Bounded limits tracker position) {id : UInt64} {side : Side} {qty : UInt32}
    {price : Int32}
    (perSide : (tracker.outstanding side.bookSide).toNat + qty.toNat ≤
      limits.maxQtyPerSide.toNat)
    (exposure : side.bookSide.held position + (tracker.outstanding side.bookSide).toNat +
      qty.toNat ≤ limits.maxExposure.toNat) :
    Bounded limits (tracker.onOrderSent id side qty price) position := by
  have word := limits.maxQtyPerSide.toNat_lt
  have sent := tracker.toNat_outstanding_onOrderSent id price (Nat.lt_of_le_of_lt perSide word)
  constructor
  · intro of
    have bound := bounded.perSide of
    rw [sent, Side.share]
    split
    · rename_i same
      subst of
      exact perSide
    · exact bound
  · intro of
    have bound := bounded.exposure of
    rw [sent, Side.share]
    split
    · rename_i same
      subst of
      omega
    · exact bound

theorem agree_register {manager : RiskManager} (agree : manager.RegistrationsAgree) (id : UInt64)
    (info : OpenOrderInfo) : (manager.register id info).RegistrationsAgree := by
  intro other order stored pending opened
  simp only [register, ExposureTracker.onOrderSent, lookup_insert_eq] at pending opened
  by_cases same : other = id
  · rw [if_pos same] at pending opened
    cases pending
    cases opened
    exact ⟨rfl, Nat.le_refl _⟩
  · rw [if_neg same] at pending opened
    exact agree other order stored pending opened

theorem WithinLimits.agree_forget {manager : RiskManager} (agree : manager.RegistrationsAgree)
    (id : UInt64) : (manager.forget id).RegistrationsAgree := by
  intro other order stored pending opened
  simp only [forget, RiskManager.unregister, ExposureTracker.pendingOrders_onOrderRemoved]
    at pending opened
  exact agree other order stored (lookup_of_lookup_erase pending) (lookup_of_lookup_erase opened)

theorem keeps_withinLimits (limits : RiskLimits) : Keeps (WithinLimits limits) where
  counters manager _ _ _ _ _ _ _ within :=
    ⟨(keeps_configured limits).counters manager _ _ _ _ _ _ _ within.configured, within.covers,
      within.agree, within.notLeast, within.bounded⟩
  forget manager id within :=
    ⟨(keeps_configured limits).forget manager id within.configured,
      ExposureTracker.covers_onOrderRemoved within.covers id,
      WithinLimits.agree_forget within.agree id, within.notLeast,
      bounded_onOrderRemoved within.covers within.bounded id⟩
  mark manager price within :=
    ⟨(keeps_configured limits).mark manager price within.configured, within.covers, within.agree,
      within.notLeast, within.bounded⟩

/-- Registering an order whose side has room for it. -/
theorem WithinLimits.register {limits : RiskLimits} {manager : RiskManager}
    (within : WithinLimits limits manager) {id : UInt64} {info : OpenOrderInfo}
    (perSide : (manager.exposureTracker.outstanding info.side.bookSide).toNat + info.qty.toNat ≤
      limits.maxQtyPerSide.toNat)
    (exposure : info.side.bookSide.held manager.getPosition.toInt +
        (manager.exposureTracker.outstanding info.side.bookSide).toNat + info.qty.toNat ≤
      limits.maxExposure.toNat) :
    WithinLimits limits (manager.register id info) := by
  have word := limits.maxQtyPerSide.toNat_lt
  refine ⟨?_, ?_, agree_register within.agree id info, within.notLeast, ?_⟩
  · refine ⟨within.configured.own, within.configured.maxPosition, ?_, within.configured.minPnl⟩
    exact (maxExposure_onOrderSent _ _ _ _ _).trans within.configured.maxExposure
  · exact ExposureTracker.covers_onOrderSent within.covers (Nat.lt_of_le_of_lt perSide word)
  · exact bounded_onOrderSent within.bounded perSide exposure

/-- Without its registration an order no longer works, whether or not it is still open. -/
theorem WithinLimits.unregister {limits : RiskLimits} {manager : RiskManager}
    (within : WithinLimits limits manager) (id : UInt64) :
    WithinLimits limits (manager.unregister id) := by
  refine ⟨⟨within.configured.own, within.configured.maxPosition, ?_, within.configured.minPnl⟩,
    ExposureTracker.covers_onOrderRemoved within.covers id, ?_, within.notLeast,
    bounded_onOrderRemoved within.covers within.bounded id⟩
  · exact (maxExposure_onOrderRemoved _ _).trans within.configured.maxExposure
  · intro other order stored pending opened
    simp only [RiskManager.unregister, ExposureTracker.pendingOrders_onOrderRemoved] at pending
    exact within.agree other order stored (lookup_of_lookup_erase pending) opened

/-- What is left of an open order comes off its own side. -/
theorem WithinLimits.outstanding_unregister {limits : RiskLimits} {manager : RiskManager}
    (within : WithinLimits limits manager) {id : UInt64} {info : OpenOrderInfo}
    (found : manager.openOrders.lookup id = some info) :
    ((manager.unregister id).exposureTracker.outstanding info.side.bookSide).toNat +
        manager.exposureTracker.remaining id =
      (manager.exposureTracker.outstanding info.side.bookSide).toNat := by
  rw [RiskManager.unregister]
  cases pending : manager.exposureTracker.pendingOrders.lookup id with
  | none =>
      rw [ExposureTracker.onOrderRemoved_of_lookup_none pending,
        ExposureTracker.remaining_of_lookup_none pending, Nat.add_zero]
  | some order =>
      have side := (within.agree id order info pending found).1
      have share := within.covers.share_le pending info.side.bookSide
      rw [ExposureTracker.toNat_outstanding_onOrderRemoved within.covers pending,
        ExposureTracker.remaining_of_lookup pending]
      rw [side, Side.share, if_pos rfl] at share ⊢
      omega

/-- A covered same-side modify has room for its quantity in place of what is left. -/
theorem WithinLimits.room_of_covered {limits : RiskLimits} (fits : limits.SumsFit)
    {manager : RiskManager} (within : WithinLimits limits manager) {id : UInt64}
    {existing replacement : OpenOrderInfo} (same : replacement.side = existing.side)
    (small : replacement.qty.toNat ≤ limits.maxQtyPerOrder.toNat)
    (growth : existing.qty < replacement.qty →
      manager.checkAdded replacement.side (replacement.qty - existing.qty) = .OK)
    (covered : manager.ModifyCovered id existing replacement) :
    (manager.exposureTracker.outstanding existing.side.bookSide).toNat + replacement.qty.toNat ≤
        limits.maxQtyPerSide.toNat + manager.exposureTracker.remaining id ∧
      existing.side.bookSide.held manager.getPosition.toInt +
          (manager.exposureTracker.outstanding existing.side.bookSide).toNat +
          replacement.qty.toNat ≤
        limits.maxExposure.toNat + manager.exposureTracker.remaining id := by
  have total := within.bounded.perSide existing.side.bookSide
  have bound := within.bounded.exposure existing.side.bookSide
  rcases covered same with unfilled | smaller | room
  · by_cases grows : existing.qty < replacement.qty
    · have more := UInt32.lt_iff_toNat_lt.mp grows
      have delta : (replacement.qty - existing.qty).toNat =
          replacement.qty.toNat - existing.qty.toNat :=
        FixedWidth.toNat_sub_of_le (Nat.le_of_lt more)
      have checked := within.of_checkAdded fits (by omega) (growth grows)
      rw [same] at checked
      omega
    · have less := UInt32.le_iff_toNat_le.mp (UInt32.not_lt.mp grows)
      omega
  · omega
  · rw [within.configured.own] at room
    exact room

/-- A covered modify keeps the limits. -/
theorem WithinLimits.replace {limits : RiskLimits} (fits : limits.SumsFit) {manager : RiskManager}
    (within : WithinLimits limits manager) {id : UInt64} {existing replacement : OpenOrderInfo}
    (found : manager.openOrders.lookup id = some existing)
    (passes : manager.checkModifyOrder id replacement.side replacement.qty replacement.price = .OK)
    (covered : manager.ModifyCovered id existing replacement) :
    WithinLimits limits (manager.replace id replacement) := by
  obtain ⟨-, -, small, growth, flip⟩ := checkModifyOrder_OK found passes
  rw [within.configured.own, UInt32.le_iff_toNat_le] at small
  have position : (manager.unregister id).getPosition = manager.getPosition := rfl
  by_cases same : replacement.side = existing.side
  · have left := within.outstanding_unregister found
    have room := within.room_of_covered fits same small (growth same) covered
    rw [← same] at left room
    apply (within.unregister id).register
    · omega
    · rw [position]
      omega
  · -- a flip is checked with its whole quantity against what works before the removal
    have checked := within.of_checkAdded fits small (flip same)
    have shrinks := ExposureTracker.outstanding_onOrderRemoved_le within.covers id
      replacement.side.bookSide
    have tracker : (manager.unregister id).exposureTracker =
        manager.exposureTracker.onOrderRemoved id := rfl
    apply (within.unregister id).register
    · rw [tracker]
      omega
    · rw [position, tracker]
      omega

/-- A closing fill only takes open orders away. -/
theorem lookup_openOrders_afterFill {manager : RiskManager} {id other : UInt64} {side : Side}
    {qty : UInt32} {price : Int32} {closed : Bool} {stored : OpenOrderInfo}
    (opened : (manager.afterFill id side qty price closed).openOrders.lookup other = some stored) :
    manager.openOrders.lookup other = some stored := by
  cases closed with
  | false => exact opened
  | true =>
      simp only [afterFill, if_true] at opened
      exact lookup_of_lookup_erase opened

theorem agree_afterFill {manager : RiskManager} (agree : manager.RegistrationsAgree) {id : UInt64}
    {qty : UInt32} (le : qty.toNat ≤ manager.exposureTracker.remaining id) (side : Side)
    (price : Int32) (closed : Bool) :
    (manager.afterFill id side qty price closed).RegistrationsAgree := by
  intro other order stored pending opened
  have before := lookup_openOrders_afterFill opened
  simp only [afterFill] at pending
  cases working : manager.exposureTracker.pendingOrders.lookup id with
  | none =>
      rw [ExposureTracker.onFill_of_lookup_none working] at pending
      exact agree other order stored pending before
  | some registered =>
      rw [ExposureTracker.lookup_onFill working] at pending
      rw [ExposureTracker.remaining_of_lookup working] at le
      by_cases same : other = id
      · subst other
        have registration := agree id registered stored working before
        rw [if_pos rfl] at pending
        split at pending
        · cases pending
        · cases pending
          refine ⟨registration.1, ?_⟩
          show (registered.qty - qty).toNat ≤ stored.qty.toNat
          rw [FixedWidth.toNat_sub_of_le le]
          exact Nat.le_trans (Nat.sub_le _ _) registration.2
      · rw [if_neg same] at pending
        exact agree other order stored pending before

/-- What a fill takes off the working quantity covers what it adds to the position. -/
theorem WithinLimits.bounded_onFill {limits : RiskLimits} {manager : RiskManager}
    (within : WithinLimits limits manager) {id : UInt64} {info : OpenOrderInfo} {qty : UInt32}
    (found : manager.openOrders.lookup id = some info)
    (le : qty.toNat ≤ manager.exposureTracker.remaining id) :
    Bounded limits (manager.exposureTracker.onFill id qty)
      (exactMove manager.getPosition.toInt info.side qty.toNat) := by
  have left : ∀ side, ((manager.exposureTracker.onFill id qty).outstanding side).toNat +
      info.side.share side qty.toNat = (manager.exposureTracker.outstanding side).toNat := by
    intro side
    cases working : manager.exposureTracker.pendingOrders.lookup id with
    | none =>
        rw [ExposureTracker.remaining_of_lookup_none working] at le
        have nothing := info.side.share_le side qty.toNat
        rw [ExposureTracker.onFill_of_lookup_none working]
        omega
    | some order =>
        rw [ExposureTracker.remaining_of_lookup working] at le
        have sameSide := (within.agree id order info working found).1
        have share := within.covers.share_le working side
        have part := order.side.share_mono side le
        rw [ExposureTracker.toNat_outstanding_onFill within.covers working le, ← sameSide]
        omega
  constructor
  · intro side
    have total := within.bounded.perSide side
    have shrinks := left side
    omega
  · intro side
    have bound := within.bounded.exposure side
    have shrinks := left side
    have moves := side.held_exactMove_le manager.getPosition.toInt info.side qty.toNat
    omega

/-- A fill of at most what is left keeps the limits. -/
theorem WithinLimits.fill {limits : RiskLimits} {manager : RiskManager}
    (within : WithinLimits limits manager) {id : UInt64} {info : OpenOrderInfo} {qty : UInt32}
    (found : manager.openOrders.lookup id = some info)
    (le : qty.toNat ≤ manager.exposureTracker.remaining id)
    (fits : MoveFits manager.getPosition info.side qty) (price : Int32) (closed : Bool) :
    WithinLimits limits (manager.afterFill id info.side qty price closed) := by
  have moved : (manager.afterFill id info.side qty price closed).getPosition.toInt =
      exactMove manager.getPosition.toInt info.side qty.toNat :=
    fits.toInt_movedPosition
  refine ⟨⟨within.configured.own, within.configured.maxPosition, ?_, ?_⟩,
    ExposureTracker.covers_onFill within.covers le,
    agree_afterFill within.agree le info.side price closed, fits.notLeast, ?_⟩
  · exact (maxExposure_onFill _ _ _).trans within.configured.maxExposure
  · exact (minPnl_onFill _ _ _ _).trans within.configured.minPnl
  · rw [moved]
    exact within.bounded_onFill found le

/-! ### Runs -/

theorem withinLimits_next {limits : RiskLimits} (fits : limits.SumsFit) {manager : RiskManager}
    {call : RiskCall} (within : WithinLimits limits manager)
    (fills : manager.FillsWithinRemaining call) (meets : manager.MeetsWorkingLimits call) :
    WithinLimits limits (manager.next call) := by
  apply (keeps_withinLimits limits).next _ _ _ within
  · intro id info registers
    obtain ⟨-, -, small, added, -⟩ := checkNewOrder_OK registers.check
    rw [within.configured.own, UInt32.le_iff_toNat_le] at small
    have room := within.of_checkAdded fits small added
    exact within.register room.1 room.2
  · intro id existing replacement replaces
    exact within.replace fits replaces.found replaces.check
      (meets.modify id existing replacement replaces)
  · intro id qty price closed info op found
    exact within.fill found (fills id qty price closed info op found)
      (meets.fill id qty price closed info op found) price closed

/-- In every run whose modifies are covered and whose fills keep the position a signed word, the
working quantity and the exposure of each side stay within their limits. -/
theorem limits_hold_of_covered_modifies {limits : RiskLimits} (fits : limits.SumsFit) (now : Int)
    {calls : List RiskCall} (fills : Along next FillsWithinRemaining (new limits now) calls)
    (meets : Along next MeetsWorkingLimits (new limits now) calls) :
    ∀ earlier, earlier <+: calls → LimitsHold limits (earlier.foldl next (new limits now)) := by
  intro earlier isPrefix
  have within : ∀ earlier, earlier <+: calls →
      WithinLimits limits (earlier.foldl next (new limits now)) := by
    apply invariant_everywhere _ (withinLimits_new limits now) (fills.and meets)
    intro manager call within allowed
    exact withinLimits_next fits within allowed.1 allowed.2
  exact (within earlier isPrefix).limitsHold

/-- The default limits with room for one full order on each side. -/
def oneOrderASide : RiskLimits :=
  { RiskLimits.default with maxQtyPerSide := 100 }

/-- A buy of 100 is filled for 90, and then modified to the 8 of the 10 that are left. -/
def shrinkAfterFill : List RiskCall :=
  [acknowledged (.sendNewOrder 1 3 .BUY 100 50), acknowledged (.onFill 1 90 50 false),
   acknowledged (.modifyOrder 1 .BUY 8 50)]

theorem limits_hold_of_covered_modifies_shrinkAfterFill :
    LimitsHold oneOrderASide (shrinkAfterFill.foldl next (new oneOrderASide 0)) := by
  refine limits_hold_of_covered_modifies ⟨by decide, by decide⟩ 0 ?_ ?_ shrinkAfterFill
    (List.prefix_refl _)
  · refine ⟨?_, ?_, ?_, trivial⟩
    · rintro id qty price closed info ⟨⟩
    · rintro id qty price closed info ⟨⟩ found
      decide +kernel
    · rintro id qty price closed info ⟨⟩
  · refine ⟨⟨?_, ?_⟩, ⟨?_, ?_⟩, ⟨?_, ?_⟩, trivial⟩
    · rintro id existing replacement ⟨⟨⟩⟩
    · rintro id qty price closed info ⟨⟩
    · rintro id existing replacement ⟨⟨⟩⟩
    · rintro id qty price closed info ⟨⟩ found
      have stored : info = ⟨3, .BUY, 100, 50⟩ :=
        Option.some.inj (found.symm.trans (by decide +kernel))
      subst info
      decide +kernel
    · rintro id existing replacement ⟨op, -, -, -, -⟩ -
      obtain ⟨rfl, -, size, -⟩ := RiskOp.modifyOrder.inj op
      right
      left
      rw [← size]
      decide +kernel
    · rintro id qty price closed info ⟨⟩

/-- A buy of 100 is filled for 90, a second buy of 90 takes the room this leaves, and the first
is modified back to the 100 it was stored with. -/
def growAfterFill : List RiskCall :=
  [acknowledged (.sendNewOrder 1 3 .BUY 100 50), acknowledged (.onFill 1 90 50 false),
   acknowledged (.sendNewOrder 2 3 .BUY 90 50), acknowledged (.modifyOrder 1 .BUY 100 50)]

/-- The modify asks for no more than the stored quantity, so nothing is checked, and 190 work on
a side whose limit is 100. -/
theorem growAfterFill_exceeds_side_limit :
    oneOrderASide.SumsFit ∧ Along next FillsWithinRemaining (new oneOrderASide 0) growAfterFill ∧
      ¬ LimitsHold oneOrderASide (growAfterFill.foldl next (new oneOrderASide 0)) := by
  refine ⟨⟨by decide, by decide⟩, ⟨?_, ?_, ?_, ?_, trivial⟩, ?_⟩
  · rintro id qty price closed info ⟨⟩
  · rintro id qty price closed info ⟨⟩ found
    decide +kernel
  · rintro id qty price closed info ⟨⟩
  · rintro id qty price closed info ⟨⟩
  · intro hold
    exact absurd hold.buyQty (by decide +kernel)

end RiskManager

end HftAlgorithms
