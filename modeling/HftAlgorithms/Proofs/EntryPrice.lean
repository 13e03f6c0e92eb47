/-
Module: HftAlgorithms.Proofs.EntryPrice
Purpose: Between which prices the average entry lies.  A buy on top of a flat or
  long position averages; a buy that takes a short position above zero spreads
  the cost of the whole fill over the part that is left of it.
Trusted boundary: none
Main exports: BuyRecord, BuyRecord.EntryPriced, SymbolManager.Crosses,
  SymbolManager.Laps, BuyRecord.entryPriced_of_noCrossing
-/
import HftAlgorithms.Proofs.RealizedPnl

namespace HftAlgorithms

open StateMachine

/-- The manager, and for each symbol the prices of the buys since its position was last not
above zero, the latest first. -/
structure BuyRecord where
  manager : SymbolManager
  buys : UInt32 → List Int32

namespace BuyRecord

def start (manager : SymbolManager) : BuyRecord := { manager := manager, buys := fun _ => [] }

/-- A buy counts where it leaves its symbol long, also when it started from a short one. -/
def next (record : BuyRecord) (fill : Fill) : BuyRecord :=
  { manager := record.manager.fill fill
    buys := fun id =>
      if (record.manager.fill fill).getPosition id ≤ 0 then []
      else if id = fill.symbol ∧ fill.side = .BUY then fill.price :: record.buys id
      else record.buys id }

/-- The average entry of a long position lies between two of its buys. -/
def EntryPriced (record : BuyRecord) : Prop :=
  ∀ id ∈ symbolIds, 0 < record.manager.getPosition id →
    ∃ low ∈ record.buys id, ∃ high ∈ record.buys id,
      (low.toInt : ℚ) ≤ record.manager.avgEntryPrice id ∧
        record.manager.avgEntryPrice id ≤ high.toInt

/-- A symbol that is not long has no buys to average. -/
def Fresh (record : BuyRecord) : Prop :=
  ∀ id ∈ symbolIds, record.manager.getPosition id ≤ 0 → record.buys id = []

end BuyRecord

namespace SymbolManager

/-- The fill takes its symbol above zero other than by a buy from zero: a buy from a short
position, or a sell whose word wraps. -/
def Crosses (manager : SymbolManager) (fill : Fill) : Prop :=
  manager.getPosition fill.symbol ≤ 0 ∧
    0 < movedPosition (manager.getPosition fill.symbol) fill.side fill.qty ∧
    ¬ (fill.side = .BUY ∧ manager.getPosition fill.symbol = 0)

instance decidableCrosses (manager : SymbolManager) (fill : Fill) :
    Decidable (manager.Crosses fill) :=
  inferInstanceAs (Decidable (_ ∧ _ ∧ ¬ _))

/-- A buy so large that the word of a long position comes round to its start. -/
def Laps (manager : SymbolManager) (fill : Fill) : Prop :=
  fill.side = .BUY ∧ 0 < manager.getPosition fill.symbol ∧
    2 ^ 32 ≤ (manager.getPosition fill.symbol).toInt + fill.qty.toNat

instance decidableLaps (manager : SymbolManager) (fill : Fill) : Decidable (manager.Laps fill) :=
  inferInstanceAs (Decidable (_ ∧ _ ∧ _))

/-! ### Positions above zero -/

/-- Below one turn of the word a sum that comes out positive is exact. -/
theorem toInt_of_positive {position : Int32} {qty : UInt32}
    (turn : position.toInt + qty.toNat < 2 ^ 32) (positive : 0 < position + qty.toInt32) :
    (position + qty.toInt32).toInt = position.toInt + qty.toNat := by
  have low := position.le_toInt
  have above := Int32.lt_iff_toInt_lt.mp positive
  rw [Int32.toInt_zero, Int32.toInt_add, FixedWidth.toInt_toInt32, Int.add_bmod_bmod] at above
  rw [Int32.toInt_add, FixedWidth.toInt_toInt32, Int.add_bmod_bmod]
  rw [Int.bmod_def] at above ⊢
  omega

/-! ### Averages -/

/-- An average of two values lies where both of them lie. -/
theorem average_mem {low high average price held bought after : ℚ}
    (total : after * (held + bought) = average * held + price * bought)
    (some : 0 < held + bought) (heldNonneg : 0 ≤ held) (boughtNonneg : 0 ≤ bought)
    (averageMem : low ≤ average ∧ average ≤ high) (priceMem : low ≤ price ∧ price ≤ high) :
    low ≤ after ∧ after ≤ high := by
  constructor
  · apply le_of_mul_le_mul_right _ some
    rw [total, mul_add]
    exact add_le_add (mul_le_mul_of_nonneg_right averageMem.1 heldNonneg)
      (mul_le_mul_of_nonneg_right priceMem.1 boughtNonneg)
  · apply le_of_mul_le_mul_right _ some
    rw [total, mul_add]
    exact add_le_add (mul_le_mul_of_nonneg_right averageMem.2 heldNonneg)
      (mul_le_mul_of_nonneg_right priceMem.2 boughtNonneg)

/-- What a buy from a flat or long position does to the average, price for price. -/
theorem averagedEntry_mem {fill : Fill} (valid : fill.Valid) {average low high : ℚ}
    {position : Int32} (long : 0 ≤ position) (turn : position.toInt + fill.qty.toNat < 2 ^ 32)
    (positive : 0 < position + fill.qty.toInt32)
    (averageMem : 0 < position → low ≤ average ∧ average ≤ high)
    (priceMem : low ≤ fill.price.toInt ∧ (fill.price.toInt : ℚ) ≤ high) :
    low ≤ averagedEntry average position fill.qty fill.price ∧
      averagedEntry average position fill.qty fill.price ≤ high := by
  have nonneg := toInt_nonneg_of_le long
  have moved := toInt_of_positive turn positive
  have above := Int32.lt_iff_toInt_lt.mp positive
  have bounded := (position + fill.qty.toInt32).toInt_lt
  rw [moved] at above bounded
  rw [Int32.toInt_zero] at above
  have total := averagedEntry_mul average fill.price long bounded
  rw [toNat_notional valid, moved, Int.cast_add, Int.cast_natCast] at total
  have some : (0 : ℚ) < position.toInt + fill.qty.toNat := by exact_mod_cast above
  have held : (0 : ℚ) ≤ position.toInt := by exact_mod_cast nonneg
  by_cases flat : position = 0
  · -- nothing held, so the average that was does not matter
    subst flat
    refine average_mem ?_ some held (Nat.cast_nonneg _) priceMem priceMem
    simpa using total
  · apply average_mem total some held (Nat.cast_nonneg _) _ priceMem
    apply averageMem
    exact lt_of_le_of_ne long (Ne.symm flat)

/-- A buy from a short position costs more than its price for each share that is left. -/
theorem price_lt_averagedEntry {fill : Fill} (valid : fill.Valid) (average : ℚ)
    {position : Int32} (short : position < 0) (positive : 0 < position + fill.qty.toInt32) :
    (fill.price.toInt : ℚ) < averagedEntry average position fill.qty fill.price := by
  have below := Int32.lt_iff_toInt_lt.mp short
  have size := fill.qty.toNat_lt
  rw [Int32.toInt_zero] at below
  have moved := toInt_of_positive (by omega) positive
  have above := Int32.lt_iff_toInt_lt.mp positive
  rw [Int32.toInt_zero, moved] at above
  have priced := Int32.lt_iff_toInt_lt.mp valid.price
  rw [Int32.toInt_zero] at priced
  have spread : averagedEntry average position fill.qty fill.price =
      fill.price.toInt * fill.qty.toNat / ((position.toInt + fill.qty.toNat : Int) : ℚ) := by
    rw [averagedEntry, max_eq_right (Int32.le_of_lt short), toNat_notional valid, moved]
    simp [positive]
  rw [spread, lt_div_iff₀ (by exact_mod_cast above)]
  have fewer : fill.price.toInt * (position.toInt + fill.qty.toNat) <
      fill.price.toInt * fill.qty.toNat :=
    Int.mul_lt_mul_of_pos_left (by omega) priced
  exact_mod_cast fewer

end SymbolManager

namespace BuyRecord

open SymbolManager

/-! ### One fill -/

theorem getPosition_next (record : BuyRecord) (fill : Fill) (id : UInt32) :
    (record.next fill).manager.getPosition id =
      if id = fill.symbol then
        movedPosition (record.manager.getPosition fill.symbol) fill.side fill.qty
      else record.manager.getPosition id :=
  record.manager.getPosition_fill fill id

theorem avgEntryPrice_next (record : BuyRecord) (fill : Fill) (id : UInt32) :
    (record.next fill).manager.avgEntryPrice id =
      if id = fill.symbol ∧ fill.side = .BUY then
        averagedEntry (record.manager.avgEntryPrice id) (record.manager.getPosition id) fill.qty
          fill.price
      else record.manager.avgEntryPrice id := by
  by_cases same : id = fill.symbol
  · subst same
    simp [next, SymbolManager.fill, onFill, getPosition]
  · simp [next, SymbolManager.fill, onFill, same]

theorem fresh_start {manager : SymbolManager} : (start manager).Fresh :=
  fun _ _ _ => rfl

theorem fresh_next (record : BuyRecord) (fill : Fill) : (record.next fill).Fresh := by
  intro id member notLong
  exact if_pos notLong

/-- The buys of a symbol that is long after the fill. -/
theorem buys_next {record : BuyRecord} {fill : Fill} {id : UInt32}
    (long : 0 < (record.next fill).manager.getPosition id) :
    (record.next fill).buys id =
      if id = fill.symbol ∧ fill.side = .BUY then fill.price :: record.buys id
      else record.buys id :=
  if_neg (Int32.not_le.mpr long)

/-- The bounds of an average that a buy joins. -/
theorem exists_bounds {buys : List Int32} {average : ℚ} (price : Int32)
    (between : ∃ low ∈ buys, ∃ high ∈ buys, (low.toInt : ℚ) ≤ average ∧ average ≤ high.toInt) :
    ∃ low ∈ price :: buys, ∃ high ∈ price :: buys,
      ((low.toInt : ℚ) ≤ average ∧ average ≤ high.toInt) ∧
        (low.toInt : ℚ) ≤ price.toInt ∧ (price.toInt : ℚ) ≤ high.toInt := by
  obtain ⟨low, lowListed, high, highListed, below, above⟩ := between
  have lower : ∃ first ∈ price :: buys,
      (first.toInt : ℚ) ≤ average ∧ (first.toInt : ℚ) ≤ price.toInt := by
    rcases le_total (low.toInt : ℚ) price.toInt with le | le
    · exact ⟨low, List.mem_cons_of_mem _ lowListed, below, le⟩
    · exact ⟨price, List.mem_cons_self, le.trans below, le_rfl⟩
  have upper : ∃ last ∈ price :: buys,
      average ≤ last.toInt ∧ (price.toInt : ℚ) ≤ last.toInt := by
    rcases le_total (price.toInt : ℚ) high.toInt with le | le
    · exact ⟨high, List.mem_cons_of_mem _ highListed, above, le⟩
    · exact ⟨price, List.mem_cons_self, above.trans le, le_rfl⟩
  obtain ⟨first, firstListed, firstBelow⟩ := lower
  obtain ⟨last, lastListed, lastAbove⟩ := upper
  exact ⟨first, firstListed, last, lastListed, ⟨firstBelow.1, lastAbove.1⟩, firstBelow.2,
    lastAbove.2⟩

/-- A buy that leaves a flat or long position long averages among the buys. -/
theorem EntryPriced.buy {record : BuyRecord} (priced : record.EntryPriced) {fill : Fill}
    (valid : fill.Valid) (buy : fill.side = .BUY)
    (long : 0 ≤ record.manager.getPosition fill.symbol)
    (turn : (record.manager.getPosition fill.symbol).toInt + fill.qty.toNat < 2 ^ 32)
    (positive : 0 < record.manager.getPosition fill.symbol + fill.qty.toInt32) :
    ∃ low ∈ fill.price :: record.buys fill.symbol,
      ∃ high ∈ fill.price :: record.buys fill.symbol,
        (low.toInt : ℚ) ≤ (record.next fill).manager.avgEntryPrice fill.symbol ∧
          (record.next fill).manager.avgEntryPrice fill.symbol ≤ high.toInt := by
  rw [avgEntryPrice_next, if_pos ⟨rfl, buy⟩]
  by_cases held : 0 < record.manager.getPosition fill.symbol
  · obtain ⟨low, lowListed, high, highListed, averageMem, priceMem⟩ :=
      exists_bounds fill.price (priced fill.symbol valid.symbol held)
    exact ⟨low, lowListed, high, highListed,
      averagedEntry_mem valid long turn positive (fun _ => averageMem) priceMem⟩
  · refine ⟨fill.price, List.mem_cons_self, fill.price, List.mem_cons_self, ?_⟩
    apply averagedEntry_mem valid long turn positive _ ⟨le_rfl, le_rfl⟩
    exact fun some => absurd some held

/-- A fill that neither crosses nor laps keeps every average among the buys. -/
theorem EntryPriced.next {record : BuyRecord} (priced : record.EntryPriced) {fill : Fill}
    (valid : fill.Valid) (noCrossing : ¬ record.manager.Crosses fill)
    (noLap : ¬ record.manager.Laps fill) : (record.next fill).EntryPriced := by
  intro id member long
  rw [buys_next long]
  rw [getPosition_next] at long
  by_cases own : id = fill.symbol
  · subst own
    rw [if_pos rfl] at long
    by_cases buy : fill.side = .BUY
    · rw [if_pos ⟨rfl, buy⟩]
      have notShort : 0 ≤ record.manager.getPosition fill.symbol := by
        apply Int32.not_lt.mp
        intro short
        exact noCrossing ⟨Int32.le_of_lt short, long, fun flat => short.ne flat.2⟩
      have turn : (record.manager.getPosition fill.symbol).toInt + fill.qty.toNat < 2 ^ 32 := by
        have size := fill.qty.toNat_lt
        rcases notShort.eq_or_lt with flat | held
        · rw [← flat, Int32.toInt_zero]
          omega
        · by_contra round
          exact noLap ⟨buy, held, by omega⟩
      rw [movedPosition, if_pos buy] at long
      exact priced.buy valid buy notShort turn long
    · rw [if_neg fun both => buy both.2, avgEntryPrice_next, if_neg fun both => buy both.2]
      apply priced fill.symbol member
      apply Int32.not_le.mp
      intro notLong
      exact noCrossing ⟨notLong, long, fun both => buy both.1⟩
  · rw [if_neg own] at long
    rw [if_neg fun both => own both.1, avgEntryPrice_next, if_neg fun both => own both.1]
    exact priced id member long

/-- After a crossing the average is not among the buys: a sell leaves none, and the one buy
that counts was cheaper. -/
theorem not_crosses_of_entryPriced {record : BuyRecord} (fresh : record.Fresh) {fill : Fill}
    (valid : fill.Valid) (priced : (record.next fill).EntryPriced) :
    ¬ record.manager.Crosses fill := by
  rintro ⟨notLong, long, notFromFlat⟩
  have none := fresh fill.symbol valid.symbol notLong
  have positive : 0 < (record.next fill).manager.getPosition fill.symbol := by
    rw [getPosition_next, if_pos rfl]
    exact long
  obtain ⟨low, -, high, highListed, -, above⟩ := priced fill.symbol valid.symbol positive
  rw [buys_next positive, none] at highListed
  by_cases buy : fill.side = .BUY
  · have only : high = fill.price := by simpa [buy] using highListed
    have short : record.manager.getPosition fill.symbol < 0 :=
      lt_of_le_of_ne notLong fun flat => notFromFlat ⟨buy, flat⟩
    rw [movedPosition, if_pos buy] at long
    rw [avgEntryPrice_next, if_pos ⟨rfl, buy⟩, only] at above
    exact absurd (price_lt_averagedEntry valid _ short long) (not_lt_of_ge above)
  · simp [buy] at highListed

/-! ### Runs -/

/-- In a run from flat the average entry lies among the buys as long as no fill crosses or laps;
and wherever it lies there throughout, no fill crosses. -/
theorem entryPriced_of_noCrossing {manager : SymbolManager} (flat : manager.Flat)
    {fills : List Fill} (valid : ∀ fill ∈ fills, fill.Valid) :
    (Along next (fun record fill => ¬ record.manager.Crosses fill ∧ ¬ record.manager.Laps fill)
        (start manager) fills →
      ∀ earlier, earlier <+: fills → (earlier.foldl next (start manager)).EntryPriced) ∧
    ((∀ earlier, earlier <+: fills → (earlier.foldl next (start manager)).EntryPriced) →
      Along next (fun record fill => ¬ record.manager.Crosses fill) (start manager) fills) := by
  constructor
  · intro run
    have opening : (start manager).EntryPriced := by
      intro id member long
      exact absurd long (by simp [start, flat id member])
    apply invariant_everywhere _ opening (run.and_inputs valid)
    intro record fill priced allowed
    exact priced.next allowed.1 allowed.2.1 allowed.2.2
  · intro everywhere
    have run := (along_of_prefixes everywhere).and_inputs valid
    apply Along.of_invariant _ _ fresh_start run
    · intro record fill _ _
      exact fresh_next record fill
    · intro record fill fresh allowed
      exact not_crosses_of_entryPriced fresh allowed.1 allowed.2

/-- Two buys, a sell of a part, and a buy on top of the rest. -/
def averagedBuys : List Fill :=
  [⟨3, .BUY, 2, 100⟩, ⟨3, .BUY, 1, 103⟩, ⟨3, .SELL, 2, 106⟩, ⟨3, .BUY, 4, 99⟩]

theorem entryPriced_of_noCrossing_averagedBuys :
    (averagedBuys.foldl next (start .empty)).EntryPriced := by
  have valid : ∀ fill ∈ averagedBuys, fill.Valid := by
    intro fill member
    simp only [averagedBuys, List.mem_cons, List.not_mem_nil, or_false] at member
    rcases member with rfl | rfl | rfl | rfl <;>
      exact ⟨by decide, by decide, by decide, by decide⟩
  refine (entryPriced_of_noCrossing (by decide) valid).1 ?_ _ (List.prefix_refl _)
  simp only [averagedBuys, along_cons, along_nil]
  decide

/-- A short position of 5, and a buy of 10 on top of it. -/
def boughtThrough : List Fill := [⟨3, .SELL, 5, 100⟩, ⟨3, .BUY, 10, 100⟩]

/-- The 5 that are left long are entered at 200, though the only buy was at 100. -/
theorem boughtThrough_overpriced :
    (∀ fill ∈ boughtThrough, fill.Valid) ∧ SymbolManager.empty.Flat ∧
      (boughtThrough.foldl next (start .empty)).manager.getPosition 3 = 5 ∧
      (boughtThrough.foldl next (start .empty)).buys 3 = [100] ∧
      (boughtThrough.foldl next (start .empty)).manager.avgEntryPrice 3 = 200 ∧
      ¬ (boughtThrough.foldl next (start .empty)).EntryPriced := by
  have bought : (boughtThrough.foldl next (start .empty)).buys 3 = [100] := by decide
  have average : (boughtThrough.foldl next (start .empty)).manager.avgEntryPrice 3 = 200 := by
    decide +kernel
  refine ⟨?_, by decide, by decide, bought, average, ?_⟩
  · intro fill member
    simp only [boughtThrough, List.mem_cons, List.not_mem_nil, or_false] at member
    rcases member with rfl | rfl <;> exact ⟨by decide, by decide, by decide, by decide⟩
  · intro priced
    obtain ⟨low, -, high, highListed, -, above⟩ := priced 3 (by decide) (by decide)
    rw [bought, List.mem_singleton] at highListed
    rw [average, highListed] at above
    exact absurd above (by decide)

end BuyRecord

end HftAlgorithms
