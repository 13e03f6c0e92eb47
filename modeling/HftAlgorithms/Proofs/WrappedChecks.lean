/-
Module: HftAlgorithms.Proofs.WrappedChecks
Purpose: What an accepted order is worth over the integers.  The checks compare
  32-bit sums with the limits; an order that no comparison stops is within the
  limits exactly when none of these sums leaves its type.
Trusted boundary: none
Main exports: RiskManager.WithinExactLimits, RiskManager.SumsFit, RiskManager.Stopped,
  RiskManager.checkNewOrder_sound_iff
-/
import HftAlgorithms.Proofs.RiskChecks
import HftAlgorithms.Proofs.RiskSteps

namespace HftAlgorithms

namespace RiskManager

/-! ### The limits over the integers -/

/-- What an accepted order is to satisfy, computed without words. -/
structure WithinExactLimits (limits : RiskLimits) (manager : RiskManager) (id : UInt64)
    (side : Side) (qty : UInt32) (price : Int32) : Prop where
  running : manager.isShutdown = false
  price : limits.minValidPrice.toInt ≤ price.toInt
  perOrder : qty.toNat ≤ limits.maxQtyPerOrder.toNat
  perSide : (manager.exposureTracker.outstanding side.bookSide).toNat + qty.toNat ≤
    limits.maxQtyPerSide.toNat
  exposure : side.bookSide.held manager.getPosition.toInt +
    (manager.exposureTracker.outstanding side.bookSide).toNat + qty.toNat ≤
      limits.maxExposure.toNat
  position : ((exactMove manager.getPosition.toInt side qty.toNat).natAbs : Int) ≤
    limits.maxPosition.toInt
  fresh : manager.openOrders.lookup id = none

/-- The exposure with the order is an unsigned word, and the position after it and its negative
are signed ones. -/
def SumsFit (manager : RiskManager) (side : Side) (qty : UInt32) : Prop :=
  side.bookSide.held manager.getPosition.toInt +
      (manager.exposureTracker.outstanding side.bookSide).toNat + qty.toNat < 2 ^ 32 ∧
    MoveFits manager.getPosition side qty

/-- A comparison of the check that goes against the order, on the words that the code forms. -/
inductive Stopped (manager : RiskManager) (id : UInt64) (side : Side) (qty : UInt32)
    (price : Int32) : Prop where
  | shutdown (down : manager.isShutdown = true)
  | price (low : price < manager.limits.minValidPrice)
  | perOrder (large : qty > manager.limits.maxQtyPerOrder)
  | perSide (full : manager.exposureTracker.outstanding side.bookSide + qty >
      manager.limits.maxQtyPerSide)
  | exposure (exposed :
      manager.exposureTracker.wouldExceedExposure manager.positionTracker side qty = true)
  | atLimit (reached : manager.positionTracker.atLimit = true)
      (further : manager.wouldIncreaseAbsPosition side = true)
  | position (moved : manager.positionTracker.wouldExceedLimit side qty = true)
  | duplicate (isOpen : (manager.openOrders.lookup id).isSome)

/-! ### The check, comparison by comparison -/

section Check

variable {manager : RiskManager} {id : UInt64} {side : Side} {qty : UInt32} {price : Int32}

theorem checkAdded_of_not_stopped (clear : ¬ manager.Stopped id side qty price) :
    manager.checkAdded side qty = .OK := by
  apply (checkAdded_eq_OK_iff manager side qty).mpr
  refine ⟨?_, ?_, ?_, ?_⟩
  · apply UInt32.not_lt.mp
    intro full
    exact clear (.perSide full)
  · apply UInt32.not_lt.mp
    intro exposed
    apply clear
    apply Stopped.exposure
    rw [ExposureTracker.wouldExceedExposure_eq]
    exact decide_eq_true exposed
  · rintro ⟨reached, further⟩
    exact clear (.atLimit reached further)
  · apply Int32.not_lt.mp
    intro moved
    apply clear
    apply Stopped.position
    exact decide_eq_true moved

theorem checkNewOrder_eq_OK_iff :
    manager.checkNewOrder id side qty price = .OK ↔ ¬ manager.Stopped id side qty price := by
  constructor
  · intro passes stopped
    obtain ⟨running, priced, small, added, fresh⟩ := checkNewOrder_OK passes
    obtain ⟨room, exposed, inside, moved⟩ := (checkAdded_eq_OK_iff manager side qty).mp added
    cases stopped with
    | shutdown down => simp [running] at down
    | price low => exact Int32.not_lt.mpr priced low
    | perOrder large => exact UInt32.not_lt.mpr small large
    | perSide full => exact UInt32.not_lt.mpr room full
    | exposure exceeded =>
        rw [ExposureTracker.wouldExceedExposure_eq, decide_eq_true_eq] at exceeded
        exact UInt32.not_lt.mpr exposed exceeded
    | atLimit reached further => exact inside ⟨reached, further⟩
    | position exceeded => exact Int32.not_lt.mpr moved (of_decide_eq_true exceeded)
    | duplicate isOpen => simp [fresh] at isOpen
  · intro clear
    rw [checkNewOrder, if_neg fun down => clear (.shutdown down),
      if_neg fun low => clear (.price low), if_neg fun large => clear (.perOrder large),
      if_neg (by simp [checkAdded_of_not_stopped clear]),
      if_neg fun isOpen => clear (.duplicate isOpen)]

end Check

/-! ### Words and integers -/

section Sound

variable {limits : RiskLimits} {manager : RiskManager} {id : UInt64} {side : Side}
  {qty : UInt32} {price : Int32}

theorem held_nonneg (side : BookSide) (position : Int) : 0 ≤ side.held position := by
  cases side with
  | bid => exact Int.le_max_left 0 position
  | ask => exact Int.le_max_left 0 (-position)

/-- Limits are words, so what is within them fits. -/
theorem WithinExactLimits.sumsFit (within : WithinExactLimits limits manager id side qty price) :
    manager.SumsFit side qty := by
  have exposure := within.exposure
  have position := within.position
  have most := limits.maxExposure.toNat_lt
  have furthest := limits.maxPosition.toInt_lt
  refine ⟨by omega, ?_, ?_⟩
  · omega
  · omega

/-- Where the sums fit, the comparisons of the check are those over the integers. -/
theorem withinExactLimits_of_sumsFit (configured : Configured limits manager)
    (notLeast : manager.getPosition ≠ Int32.minValue) (fits : manager.SumsFit side qty)
    (passes : manager.checkNewOrder id side qty price = .OK) :
    WithinExactLimits limits manager id side qty price := by
  obtain ⟨running, priced, small, added, fresh⟩ := checkNewOrder_OK passes
  obtain ⟨room, exposed, -, -⟩ := (checkAdded_eq_OK_iff manager side qty).mp added
  obtain ⟨exposure, moves⟩ := fits
  have held := held_nonneg side.bookSide manager.getPosition.toInt
  have sum : side.bookSide.held manager.positionTracker.position.toInt +
      (manager.exposureTracker.outstanding side.bookSide).toNat < 2 ^ 32 := by
    change side.bookSide.held manager.getPosition.toInt + _ < _
    omega
  have exposedSum : ((manager.exposureTracker.exposureOn manager.positionTracker
      side.bookSide).toNat : Int) = side.bookSide.held manager.getPosition.toInt +
        (manager.exposureTracker.outstanding side.bookSide).toNat :=
    ExposureTracker.toNat_exposureOn notLeast sum
  rw [configured.own] at priced small room
  rw [configured.maxExposure, UInt32.le_iff_toNat_le,
    FixedWidth.toNat_add_of_lt (by omega)] at exposed
  rw [UInt32.le_iff_toNat_le, FixedWidth.toNat_add_of_lt (by omega)] at room
  exact
    { running := running
      price := Int32.le_iff_toInt_le.mp priced
      perOrder := UInt32.le_iff_toNat_le.mp small
      perSide := room
      exposure := by omega
      position := by
        rw [← configured.maxPosition]
        exact natAbs_le_of_checkAdded added moves
      fresh := fresh }

/-- An `OK` is sound over the integers exactly for the orders whose sums fit and those that some
comparison stops. -/
theorem checkNewOrder_sound_iff (configured : Configured limits manager)
    (notLeast : manager.getPosition ≠ Int32.minValue) :
    (manager.checkNewOrder id side qty price = .OK →
        WithinExactLimits limits manager id side qty price) ↔
      manager.SumsFit side qty ∨ manager.Stopped id side qty price := by
  constructor
  · intro sound
    by_cases stopped : manager.Stopped id side qty price
    · exact Or.inr stopped
    · left
      exact (sound (checkNewOrder_eq_OK_iff.mpr stopped)).sumsFit
  · rintro (fits | stopped) passes
    · exact withinExactLimits_of_sumsFit configured notLeast fits passes
    · exact absurd stopped (checkNewOrder_eq_OK_iff.mp passes)

end Sound

/-- Per-order limit off, as large as its type allows; the other limits are the defaults. -/
def unlimitedPerOrder : RiskLimits := { RiskLimits.default with maxQtyPerOrder := 4294967295 }

/-- One share is working on the buy side. -/
def oneShareWorking : RiskManager :=
  (new unlimitedPerOrder 0).afterNewOrder true 1 0 .BUY 1 100

theorem checkNewOrder_sound_iff_oneShareWorking :
    (oneShareWorking.checkNewOrder 2 .BUY 4294967295 100 = .OK →
        WithinExactLimits unlimitedPerOrder oneShareWorking 2 .BUY 4294967295 100) ↔
      oneShareWorking.SumsFit .BUY 4294967295 ∨
        oneShareWorking.Stopped 2 .BUY 4294967295 100 :=
  checkNewOrder_sound_iff ⟨rfl, rfl, rfl, rfl⟩ (by decide)

/-- Another `2 ^ 32 - 1` shares make the sum wrap to nothing. -/
theorem wrapped_order_passes :
    oneShareWorking.checkNewOrder 2 .BUY 4294967295 100 = .OK ∧
      ¬ WithinExactLimits unlimitedPerOrder oneShareWorking 2 .BUY 4294967295 100 := by
  refine ⟨by decide, ?_⟩
  intro within
  exact absurd within.perSide (by decide)

end RiskManager

end HftAlgorithms
