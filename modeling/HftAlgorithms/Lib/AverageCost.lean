/-
Module: HftAlgorithms.Lib.AverageCost
Purpose: Average-cost accounting of a position that fills add to, reduce and turn
  around, and what the gross amounts bought and sold still say about it.  They
  are its cost as long as nothing has been closed, and too much from then on.
Trusted boundary: none
Main exports: AverageCost, AverageCost.fill, AverageCost.unrealized, GrossCost,
  AverageCost.Priced, AverageCost.priced_fill, AverageCost.Within,
  AverageCost.within_fill, AverageCost.Exceeded, AverageCost.exceeded_fill_of_adds,
  AverageCost.exceeded_fill_of_closes, AverageCost.gain, AverageCost.cost_fill,
  AverageCost.net_fill
-/
import Mathlib.Algebra.Order.Field.Basic
import Mathlib.Algebra.Order.Group.Abs
import Mathlib.Tactic.FieldSimp
import Mathlib.Tactic.Linarith
import Mathlib.Tactic.Ring

/-- A position, short if its size is negative, and the average price it was entered at. -/
@[ext] structure AverageCost (K : Type*) where
  size : K
  average : K
deriving DecidableEq

/-- Everything paid for what was bought, and everything received for what was sold. -/
@[ext] structure GrossCost (K : Type*) where
  bought : K
  sold : K
deriving DecidableEq

variable {K : Type*} [Field K] [LinearOrder K]

namespace AverageCost

/-- Nothing is held. -/
def flat : AverageCost K := ⟨0, 0⟩

/-- A signed quantity is filled.  What adds to the position is averaged in, what reduces it leaves
the average alone, and what turns it around starts again at the price of the fill. -/
def fill (held : AverageCost K) (quantity price : K) : AverageCost K where
  size := held.size + quantity
  average :=
    if 0 ≤ held.size * quantity then
      (held.size * held.average + quantity * price) / (held.size + quantity)
    else if |quantity| ≤ |held.size| then held.average
    else price

/-- What was paid for the open position; what was received for it counts as negative. -/
def cost (held : AverageCost K) : K := held.size * held.average

/-- The profit of the open position at a price. -/
def unrealized (held : AverageCost K) (mark : K) : K := held.size * (mark - held.average)

/-- Long for short and short for long. -/
def mirror (held : AverageCost K) : AverageCost K := ⟨-held.size, held.average⟩

end AverageCost

namespace GrossCost

/-- Nothing has been filled. -/
def zero : GrossCost K := ⟨0, 0⟩

def fill (gross : GrossCost K) (quantity price : K) : GrossCost K where
  bought := gross.bought + max quantity 0 * price
  sold := gross.sold + max (-quantity) 0 * price

/-- Sales for purchases and purchases for sales. -/
def mirror (gross : GrossCost K) : GrossCost K := ⟨gross.sold, gross.bought⟩

theorem mirror_fill (gross : GrossCost K) (quantity price : K) :
    (gross.fill quantity price).mirror = gross.mirror.fill (-quantity) price := by
  simp [fill, mirror]

end GrossCost

namespace AverageCost

variable {held : AverageCost K} {gross : GrossCost K} {quantity price : K}

@[simp] theorem size_fill : (held.fill quantity price).size = held.size + quantity := rfl

omit [LinearOrder K] in
@[simp] theorem cost_mirror : held.mirror.cost = -held.cost := by
  simp [cost, mirror]

omit [LinearOrder K] in
@[simp] theorem mirror_mirror : held.mirror.mirror = held := by
  simp [mirror]

omit [Field K] [LinearOrder K] in
@[simp] theorem mirror_mirror_gross : gross.mirror.mirror = gross := rfl

omit [LinearOrder K] in
theorem unrealized_eq (mark : K) : held.unrealized mark = held.size * mark - held.cost := by
  simp [unrealized, cost, mul_sub]

theorem mirror_fill (held : AverageCost K) (quantity price : K) :
    (held.fill quantity price).mirror = held.mirror.fill (-quantity) price := by
  have size : -(held.size + quantity) = -held.size + -quantity := by ring
  have paid : -held.size * held.average + -quantity * price =
      -(held.size * held.average + quantity * price) := by ring
  ext
  · exact size
  · simp only [mirror, fill, neg_mul_neg, abs_neg]
    rw [paid, ← size, neg_div_neg_eq]

variable [IsStrictOrderedRing K]

/-! ### Fills that add -/

/-- A fill that does not point against the position adds what it costs. -/
theorem cost_fill_of_adds (adds : 0 ≤ held.size * quantity) :
    (held.fill quantity price).cost = held.cost + quantity * price := by
  by_cases closed : held.size + quantity = 0
  · -- neither points against the other, so both are zero
    have opposite : quantity = -held.size := by linarith
    rw [opposite] at adds
    have none_held : held.size = 0 := by
      have squares : held.size * held.size = 0 := by nlinarith [mul_self_nonneg held.size]
      exact mul_self_eq_zero.mp squares
    have none_filled : quantity = 0 := by rw [opposite, none_held, neg_zero]
    simp [cost, none_held, none_filled]
  · simp only [cost, fill, if_pos adds]
    exact mul_div_cancel₀ _ closed

/-- The gross amounts are what the open position cost. -/
structure Priced (held : AverageCost K) (gross : GrossCost K) : Prop where
  long : 0 ≤ held.size → held.cost = gross.bought
  short : held.size ≤ 0 → -held.cost = gross.sold

omit [IsStrictOrderedRing K] in
theorem priced_flat : Priced (flat : AverageCost K) GrossCost.zero :=
  ⟨fun _ => by simp [cost, flat, GrossCost.zero], fun _ => by simp [cost, flat, GrossCost.zero]⟩

theorem Priced.mirror (priced : Priced held gross) : Priced held.mirror gross.mirror where
  long nonneg := by
    have short := priced.short (by simpa [AverageCost.mirror] using nonneg)
    simpa [GrossCost.mirror] using short
  short nonpos := by
    have long := priced.long (by simpa [AverageCost.mirror] using nonpos)
    simpa [GrossCost.mirror] using long

theorem priced_buy (priced : Priced held gross) (long : 0 ≤ held.size) (buys : 0 ≤ quantity) :
    Priced (held.fill quantity price) (gross.fill quantity price) where
  long _ := by
    rw [cost_fill_of_adds (mul_nonneg long buys), priced.long long, GrossCost.fill,
      max_eq_left buys]
  short nonpos := by
    rw [size_fill] at nonpos
    have none_filled : quantity = 0 := by linarith
    have none_held : held.size ≤ 0 := by linarith
    rw [cost_fill_of_adds (mul_nonneg long buys), none_filled]
    simpa [GrossCost.fill] using priced.short none_held

/-- They stay so while fills add. -/
theorem priced_fill (priced : Priced held gross) (adds : 0 ≤ held.size * quantity) :
    Priced (held.fill quantity price) (gross.fill quantity price) := by
  rcases mul_nonneg_iff.mp adds with ⟨long, buys⟩ | ⟨short, sells⟩
  · exact priced_buy priced long buys
  · have mirrored := @priced_buy K _ _ held.mirror gross.mirror (-quantity) price _ priced.mirror
      (by simpa [AverageCost.mirror] using short) (by simpa using sells)
    rw [← mirror_fill, ← GrossCost.mirror_fill] at mirrored
    simpa only [mirror_mirror, mirror_mirror_gross] using mirrored.mirror

/-! ### Fills that close -/

/-- What holds at positive prices whatever is filled: the gross amounts are no less than what the
open position cost. -/
structure Within (held : AverageCost K) (gross : GrossCost K) : Prop where
  average : held.size ≠ 0 → 0 < held.average
  bought : 0 ≤ gross.bought
  sold : 0 ≤ gross.sold
  long : 0 ≤ held.size → held.cost ≤ gross.bought
  short : held.size ≤ 0 → -held.cost ≤ gross.sold

/-- They are more than that. -/
structure Exceeded (held : AverageCost K) (gross : GrossCost K) : Prop where
  long : 0 ≤ held.size → held.cost < gross.bought
  short : held.size ≤ 0 → -held.cost < gross.sold

omit [IsStrictOrderedRing K] in
theorem within_flat : Within (flat : AverageCost K) GrossCost.zero :=
  ⟨fun nonzero => absurd rfl nonzero, le_refl _, le_refl _,
    fun _ => by simp [cost, flat, GrossCost.zero], fun _ => by simp [cost, flat, GrossCost.zero]⟩

theorem Within.mirror (within : Within held gross) : Within held.mirror gross.mirror where
  average nonzero := within.average (by simpa [AverageCost.mirror] using nonzero)
  bought := within.sold
  sold := within.bought
  long nonneg := by
    have short := within.short (by simpa [AverageCost.mirror] using nonneg)
    simpa [GrossCost.mirror] using short
  short nonpos := by
    have long := within.long (by simpa [AverageCost.mirror] using nonpos)
    simpa [GrossCost.mirror] using long

theorem Exceeded.mirror (exceeded : Exceeded held gross) :
    Exceeded held.mirror gross.mirror where
  long nonneg := by
    have short := exceeded.short (by simpa [AverageCost.mirror] using nonneg)
    simpa [GrossCost.mirror] using short
  short nonpos := by
    have long := exceeded.long (by simpa [AverageCost.mirror] using nonpos)
    simpa [GrossCost.mirror] using long

theorem exceeded_buy (exceeded : Exceeded held gross) (long : 0 ≤ held.size)
    (buys : 0 ≤ quantity) : Exceeded (held.fill quantity price) (gross.fill quantity price) where
  long _ := by
    rw [cost_fill_of_adds (mul_nonneg long buys), GrossCost.fill, max_eq_left buys]
    linarith [exceeded.long long]
  short nonpos := by
    rw [size_fill] at nonpos
    have none_filled : quantity = 0 := by linarith
    have none_held : held.size ≤ 0 := by linarith
    rw [cost_fill_of_adds (mul_nonneg long buys), none_filled]
    simpa [GrossCost.fill] using exceeded.short none_held

/-- The gap stays while fills add. -/
theorem exceeded_fill_of_adds (exceeded : Exceeded held gross)
    (adds : 0 ≤ held.size * quantity) :
    Exceeded (held.fill quantity price) (gross.fill quantity price) := by
  rcases mul_nonneg_iff.mp adds with ⟨long, buys⟩ | ⟨short, sells⟩
  · exact exceeded_buy exceeded long buys
  · have mirrored := @exceeded_buy K _ _ held.mirror gross.mirror (-quantity) price _
      exceeded.mirror (by simpa [AverageCost.mirror] using short) (by simpa using sells)
    rw [← mirror_fill, ← GrossCost.mirror_fill] at mirrored
    simpa only [mirror_mirror, mirror_mirror_gross] using mirrored.mirror

theorem exceeded_sell (within : Within held gross) (positive : 0 < price) (long : 0 < held.size)
    (sells : quantity < 0) :
    Exceeded (held.fill quantity price) (gross.fill quantity price) := by
  have against : ¬ 0 ≤ held.size * quantity := not_le.mpr (mul_neg_of_pos_of_neg long sells)
  have average := within.average long.ne'
  have paid : held.size * held.average ≤ gross.bought := within.long long.le
  have bought : (gross.fill quantity price).bought = gross.bought := by
    simp [GrossCost.fill, max_eq_right sells.le]
  have sold : (gross.fill quantity price).sold = gross.sold + -quantity * price := by
    simp [GrossCost.fill, max_eq_left (neg_nonneg.mpr sells.le)]
  have received : 0 < -quantity * price := mul_pos (neg_pos.mpr sells) positive
  by_cases reduces : |quantity| ≤ |held.size|
  · have unchanged : (held.fill quantity price).average = held.average := by
      simp only [fill, if_neg against, if_pos reduces]
    rw [abs_of_neg sells, abs_of_pos long] at reduces
    constructor
    · intro _
      rw [bought, cost, size_fill, unchanged]
      have less : quantity * held.average < 0 := mul_neg_of_neg_of_pos sells average
      linarith
    · intro nonpos
      rw [size_fill] at nonpos
      have none_left : held.size + quantity = 0 := by linarith
      rw [sold, cost, size_fill, none_left]
      linarith [within.sold]
  · have restarted : (held.fill quantity price).average = price := by
      simp only [fill, if_neg against, if_neg reduces]
    rw [abs_of_neg sells, abs_of_pos long] at reduces
    constructor
    · intro nonneg
      rw [size_fill] at nonneg
      linarith
    · intro _
      rw [sold, cost, size_fill, restarted]
      have less : 0 < held.size * price := mul_pos long positive
      linarith [within.sold]

/-- A fill against the position opens a gap. -/
theorem exceeded_fill_of_closes (within : Within held gross) (positive : 0 < price)
    (closes : held.size * quantity < 0) :
    Exceeded (held.fill quantity price) (gross.fill quantity price) := by
  rcases mul_neg_iff.mp closes with ⟨long, sells⟩ | ⟨short, buys⟩
  · exact exceeded_sell within positive long sells
  · have mirrored := @exceeded_sell K _ _ held.mirror gross.mirror (-quantity) price _
      within.mirror positive (by simpa [AverageCost.mirror] using short) (by simpa using buys)
    rw [← mirror_fill, ← GrossCost.mirror_fill] at mirrored
    simpa only [mirror_mirror, mirror_mirror_gross] using mirrored.mirror

/-! ### Any fills at positive prices -/

theorem average_pos_of_buy (within : Within held gross) (positive : 0 < price)
    (long : 0 ≤ held.size) (buys : 0 ≤ quantity) (held_some : held.size + quantity ≠ 0) :
    0 < (held.fill quantity price).average := by
  have adds : 0 ≤ held.size * quantity := mul_nonneg long buys
  simp only [fill, if_pos adds]
  apply div_pos
  · rcases long.eq_or_lt with none_held | some_held
    · have some_filled : quantity ≠ 0 := by simpa [← none_held] using held_some
      rw [← none_held, zero_mul, zero_add]
      exact mul_pos (lt_of_le_of_ne buys some_filled.symm) positive
    · exact add_pos_of_pos_of_nonneg (mul_pos some_held (within.average some_held.ne'))
        (mul_nonneg buys positive.le)
  · exact lt_of_le_of_ne (add_nonneg long buys) held_some.symm

theorem average_pos_fill (within : Within held gross) (positive : 0 < price)
    (held_some : held.size + quantity ≠ 0) : 0 < (held.fill quantity price).average := by
  by_cases adds : 0 ≤ held.size * quantity
  · rcases mul_nonneg_iff.mp adds with ⟨long, buys⟩ | ⟨short, sells⟩
    · exact average_pos_of_buy within positive long buys held_some
    · have mirrored := @average_pos_of_buy K _ _ held.mirror gross.mirror (-quantity) price _
        within.mirror positive (by simpa [AverageCost.mirror] using short) (by simpa using sells)
        (by simpa [AverageCost.mirror, ← neg_add, -neg_add_rev] using held_some)
      rw [← mirror_fill] at mirrored
      exact mirrored
  · have some_before : held.size ≠ 0 := by
      rintro none_held
      simp [none_held] at adds
    simp only [fill, if_neg adds]
    split
    · exact within.average some_before
    · exact positive

theorem within_fill (within : Within held gross) (positive : 0 < price) :
    Within (held.fill quantity price) (gross.fill quantity price) := by
  have average := @average_pos_fill K _ _ held gross quantity price _ within positive
  have bought : 0 ≤ (gross.fill quantity price).bought :=
    add_nonneg within.bought (mul_nonneg (le_max_right _ _) positive.le)
  have sold : 0 ≤ (gross.fill quantity price).sold :=
    add_nonneg within.sold (mul_nonneg (le_max_right _ _) positive.le)
  by_cases adds : 0 ≤ held.size * quantity
  · have least : ∀ signed : K, signed * price ≤ max signed 0 * price :=
      fun signed => mul_le_mul_of_nonneg_right (le_max_left _ _) positive.le
    refine ⟨average, bought, sold, ?_, ?_⟩
    · intro nonneg
      have long : 0 ≤ held.size := by
        rcases mul_nonneg_iff.mp adds with ⟨long, -⟩ | ⟨-, sells⟩
        · exact long
        · rw [size_fill] at nonneg
          linarith
      rw [cost_fill_of_adds adds, GrossCost.fill]
      exact add_le_add (within.long long) (least quantity)
    · intro nonpos
      have short : held.size ≤ 0 := by
        rcases mul_nonneg_iff.mp adds with ⟨-, buys⟩ | ⟨short, -⟩
        · rw [size_fill] at nonpos
          linarith
        · exact short
      rw [cost_fill_of_adds adds, GrossCost.fill, neg_add, ← neg_mul]
      exact add_le_add (within.short short) (least (-quantity))
  · have exceeded := exceeded_fill_of_closes within positive (not_le.mp adds)
    exact ⟨average, bought, sold, fun long => (exceeded.long long).le,
      fun short => (exceeded.short short).le⟩

/-! ### What a fill realizes -/

/-- What a fill realizes: what it closes was entered at the average and is left at the fill's
price. -/
def gain (held : AverageCost K) (quantity price : K) : K :=
  if 0 ≤ held.size * quantity then 0
  else if |quantity| ≤ |held.size| then -quantity * (price - held.average)
  else held.size * (price - held.average)

/-- The cost goes up by what is paid, less what the part that is closed had cost. -/
theorem cost_fill :
    (held.fill quantity price).cost =
      held.cost + quantity * price + held.gain quantity price := by
  by_cases adds : 0 ≤ held.size * quantity
  · rw [cost_fill_of_adds adds, gain, if_pos adds, add_zero]
  · rw [gain, if_neg adds]
    simp only [cost, fill, if_neg adds]
    split
    · ring
    · ring

/-- What was sold for less what was bought for goes down by what is paid. -/
theorem net_fill :
    (gross.fill quantity price).sold - (gross.fill quantity price).bought =
      gross.sold - gross.bought - quantity * price := by
  simp only [GrossCost.fill]
  rcases le_total 0 quantity with buys | sells
  · rw [max_eq_left buys, max_eq_right (neg_nonpos.mpr buys)]
    ring
  · rw [max_eq_right sells, max_eq_left (neg_nonneg.mpr sells)]
    ring

end AverageCost
