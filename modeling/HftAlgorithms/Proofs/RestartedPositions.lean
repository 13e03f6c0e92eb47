/-
Module: HftAlgorithms.Proofs.RestartedPositions
Purpose: What a restart loses.  The positions file carries the positions and
  nothing else, so a position that was bought before the restart is sold after it
  at an entry price of zero.
Trusted boundary: none
Main exports: SymbolManager.getPosition_restart, Watch, Watch.SellsKnown,
  SymbolManager.restart_transparent_iff
-/
import HftAlgorithms.Proofs.RealizedPnl

namespace HftAlgorithms

open StateMachine

namespace SymbolManager

/-! ### The file -/

@[simp] theorem getPosition_loadPosition (manager : SymbolManager) (line : UInt32 × Int32)
    (id : UInt32) :
    (manager.loadPosition line).getPosition id =
      if id = line.1 then line.2 else manager.getPosition id := by
  by_cases own : id = line.1
  · subst own
    simp [loadPosition, setSlot, getPosition]
  · simp [loadPosition, setSlot, getPosition, own]

/-- Loading stores positions and leaves the rest of the books alone. -/
theorem loadPositions_books (manager : SymbolManager) (lines : List (UInt32 × Int32)) :
    (manager.loadPositions lines).avgEntryPrice = manager.avgEntryPrice ∧
      (manager.loadPositions lines).totalPnl = manager.totalPnl :=
  @invariant_foldl_always _ _ loadPosition
    (fun later => later.avgEntryPrice = manager.avgEntryPrice ∧ later.totalPnl = manager.totalPnl)
    (fun _ _ same => same) manager ⟨rfl, rfl⟩ lines

/-- Loading what has been saved for some ids gives these ids their saved positions, where they are
not zero. -/
theorem getPosition_load_saved (saved : SymbolManager) (ids : List UInt32)
    (manager : SymbolManager) (id : UInt32) :
    (((ids.map fun id => (id, saved.getPosition id)).filter fun line => line.2 ≠ 0).foldl
        loadPosition manager).getPosition id =
      if id ∈ ids ∧ saved.getPosition id ≠ 0 then saved.getPosition id
      else manager.getPosition id := by
  induction ids generalizing manager with
  | nil => simp
  | cons first ids inductionHypothesis =>
      rw [List.map_cons, List.filter_cons]
      by_cases open_position : saved.getPosition first = 0
      · rw [if_neg (by simpa using open_position), inductionHypothesis]
        by_cases own : id = first
        · subst own
          simp [open_position]
        · simp [own]
      · rw [if_pos (by simpa using open_position), List.foldl_cons, inductionHypothesis,
          getPosition_loadPosition]
        by_cases own : id = first
        · subst own
          simp [open_position]
        · simp [own]

/-- The positions of the thirteen symbols survive. -/
theorem getPosition_restart (manager : SymbolManager) {id : UInt32} (known : id ∈ symbolIds) :
    manager.restart.getPosition id = manager.getPosition id := by
  have listed : id ∈ symbolList := by simpa [symbolIds, symbolList] using known
  have loaded : manager.restart.getPosition id = _ :=
    getPosition_load_saved manager symbolList .empty id
  have fresh : SymbolManager.empty.getPosition id = 0 := rfl
  rw [loaded, fresh]
  by_cases flat : manager.getPosition id = 0
  · rw [flat, ite_self]
  · rw [if_pos ⟨listed, flat⟩]

/-- No entry price and no PnL does. -/
theorem restart_books (manager : SymbolManager) :
    manager.restart.avgEntryPrice = (fun _ => 0) ∧ manager.restart.totalPnl = 0 :=
  loadPositions_books .empty manager.savePositions

end SymbolManager

/-! ### What a fill books -/

namespace SymbolManager

/-- The average of the fill's symbol once the fill has been averaged in. -/
def averageAfter (manager : SymbolManager) (fill : Fill) : ℚ :=
  if fill.side = .BUY then
    averagedEntry (manager.avgEntryPrice fill.symbol) (manager.getPosition fill.symbol) fill.qty
      fill.price
  else manager.avgEntryPrice fill.symbol

/-- The PnL that the fill realizes. -/
def gain (manager : SymbolManager) (fill : Fill) : ℚ :=
  if (fill.side = .SELL ∧ manager.getPosition fill.symbol > 0) ∨
      (fill.side = .BUY ∧ manager.getPosition fill.symbol < 0) then
    realized (manager.averageAfter fill) (manager.getPosition fill.symbol) fill.side fill.qty
      fill.price
  else 0

theorem getTotalPnl_fill (manager : SymbolManager) (fill : Fill) :
    (manager.fill fill).getTotalPnl = manager.getTotalPnl + manager.gain fill := by
  change (if _ then manager.totalPnl + _ else manager.totalPnl) = _
  split
  · rename_i reducing
    exact congrArg (manager.totalPnl + ·) (if_pos reducing).symm
  · rename_i keeping
    exact ((congrArg (manager.totalPnl + ·) (if_neg keeping)).trans (add_zero _)).symm

theorem avgEntryPrice_fill (manager : SymbolManager) (fill : Fill) (id : UInt32) :
    (manager.fill fill).avgEntryPrice id =
      if id = fill.symbol then manager.averageAfter fill else manager.avgEntryPrice id := by
  by_cases own : id = fill.symbol
  · subst own
    simp [SymbolManager.fill, onFill, averageAfter, getPosition]
  · simp [SymbolManager.fill, onFill, own]

end SymbolManager

/-- A buy tells two old averages apart only when it adds to a long position. -/
theorem averagedEntry_ne_iff (first second : ℚ) (oldPos : Int32) (qty : UInt32) (price : Int32) :
    SymbolManager.averagedEntry first oldPos qty price ≠
        SymbolManager.averagedEntry second oldPos qty price ↔
      (oldPos > 0 ∧ oldPos + qty.toInt32 > 0) ∧ first ≠ second := by
  rw [SymbolManager.averagedEntry, SymbolManager.averagedEntry]
  by_cases long : oldPos + qty.toInt32 > 0
  · have size : ((oldPos + qty.toInt32).toInt : ℚ) ≠ 0 := by
      have positive := Int32.lt_iff_toInt_lt.mp long
      rw [Int32.toInt_zero] at positive
      exact_mod_cast positive.ne'
    rw [if_pos long, if_pos long, Ne, div_left_inj' size, add_left_inj]
    by_cases held : oldPos > 0
    · have worth : ((max oldPos 0).toInt : ℚ) ≠ 0 := by
        have positive := Int32.lt_iff_toInt_lt.mp held
        rw [Int32.toInt_zero] at positive
        rw [max_eq_left (Int32.le_of_lt held)]
        exact_mod_cast positive.ne'
      rw [mul_left_inj' worth]
      simp [held, long]
    · rw [max_eq_right (Int32.not_lt.mp held)]
      simp [held]
  · simp [long]

/-! ### What the file does not say -/

/-- The manager, and for each symbol whether the restart has lost an entry price that still
counts. -/
structure Watch where
  manager : SymbolManager
  lost : UInt32 → Bool

namespace Watch

/-- At the restart every entry price is lost that is not zero. -/
def opening (manager : SymbolManager) : Watch := ⟨manager, fun id => manager.avgEntryPrice id ≠ 0⟩

/-- A buy whose new average is made of the old one: it adds to a long position. -/
def AddsToLong (watch : Watch) (fill : Fill) : Prop :=
  watch.manager.getPosition fill.symbol > 0 ∧
    watch.manager.getPosition fill.symbol + fill.qty.toInt32 > 0

instance decidableAddsToLong (watch : Watch) (fill : Fill) : Decidable (watch.AddsToLong fill) :=
  inferInstanceAs (Decidable (_ ∧ _))

/-- Any other buy sets the average anew. -/
def next (watch : Watch) (fill : Fill) : Watch where
  manager := watch.manager.fill fill
  lost id :=
    if id = fill.symbol ∧ fill.side = .BUY ∧ ¬ watch.AddsToLong fill then false else watch.lost id

/-- The fill sells nothing out of a long position whose entry price is lost. -/
def SellsKnown (watch : Watch) (fill : Fill) : Prop :=
  ¬ (fill.side = .SELL ∧ fill.qty ≠ 0 ∧ watch.manager.getPosition fill.symbol > 0 ∧
    watch.lost fill.symbol = true)

instance decidableSellsKnown (watch : Watch) (fill : Fill) : Decidable (watch.SellsKnown fill) :=
  inferInstanceAs (Decidable (¬ _))

end Watch

/-! ### Two managers -/

/-- The manager that went on and the one that was restarted. -/
structure Restarted where
  watch : Watch
  restarted : SymbolManager

namespace Restarted

def opening (manager : SymbolManager) : Restarted := ⟨Watch.opening manager, manager.restart⟩

def next (run : Restarted) (fill : Fill) : Restarted :=
  ⟨run.watch.next fill, run.restarted.fill fill⟩

/-- Same positions, and the PnL has changed by as much since the restart, at which it was `base`. -/
def Agrees (base : ℚ) (run : Restarted) : Prop :=
  (∀ id ∈ symbolIds, run.restarted.getPosition id = run.watch.manager.getPosition id) ∧
    run.restarted.getTotalPnl = run.watch.manager.getTotalPnl - base

/-- The two agree, and an average differs exactly where it is lost. -/
structure Tracks (base : ℚ) (run : Restarted) : Prop where
  agrees : run.Agrees base
  lost : ∀ id, run.watch.lost id = true ↔
    run.restarted.avgEntryPrice id ≠ run.watch.manager.avgEntryPrice id

theorem tracks_opening (manager : SymbolManager) :
    (opening manager).Tracks manager.getTotalPnl where
  agrees := by
    refine ⟨fun id known => manager.getPosition_restart known, ?_⟩
    exact manager.restart_books.2.trans (sub_self _).symm
  lost id := by
    change decide (manager.avgEntryPrice id ≠ 0) = true ↔
      manager.restart.avgEntryPrice id ≠ manager.avgEntryPrice id
    rw [manager.restart_books.1, decide_eq_true_iff]
    exact ne_comm

section Step

variable {base : ℚ} {run : Restarted} {fill : Fill}

/-- What a sell realizes out of a long position tells two averages apart, unless it is empty. -/
theorem realized_sell_ne_iff (first second : ℚ) {oldPos : Int32} (held : oldPos > 0) (qty : UInt32)
    (price : Int32) :
    SymbolManager.realized first oldPos .SELL qty price ≠
        SymbolManager.realized second oldPos .SELL qty price ↔ qty ≠ 0 ∧ first ≠ second := by
  have positive := Int32.lt_iff_toInt_lt.mp held
  rw [Int32.toInt_zero] at positive
  have magnitude := FixedWidth.toNat_toUInt32_abs_of_nonneg (Int32.le_of_lt held)
  have closing : (min qty oldPos.abs.toUInt32).toNat = 0 ↔ qty = 0 := by
    rw [UInt32.min_def, ← UInt32.toNat_inj, UInt32.toNat_zero]
    split
    · exact Iff.rfl
    · rename_i less
      rw [UInt32.le_iff_toNat_le] at less
      omega
  rw [SymbolManager.realized, SymbolManager.realized, if_pos rfl, if_pos rfl]
  by_cases empty : qty = 0
  · rw [closing.mpr empty]
    simp [empty]
  · have some : ((min qty oldPos.abs.toUInt32).toNat : ℚ) ≠ 0 := by
      exact_mod_cast fun none => empty (closing.mp none)
    rw [Ne, mul_left_inj' some, sub_right_inj]
    simp [empty]

variable (tracks : run.Tracks base) (known : fill.symbol ∈ symbolIds)

include tracks known

theorem position_eq :
    run.restarted.getPosition fill.symbol = run.watch.manager.getPosition fill.symbol :=
  tracks.agrees.1 fill.symbol known

/-- After the fill the average of its symbol differs where it did before, and a buy keeps a
difference only when it adds to a long position. -/
theorem averageAfter_ne_iff :
    run.restarted.averageAfter fill ≠ run.watch.manager.averageAfter fill ↔
      (fill.side = .BUY → run.watch.AddsToLong fill) ∧ run.watch.lost fill.symbol = true := by
  rw [SymbolManager.averageAfter, SymbolManager.averageAfter, position_eq tracks known, tracks.lost]
  split
  · rename_i buy
    rw [averagedEntry_ne_iff]
    simp [buy, Watch.AddsToLong]
  · rename_i sell
    simp [sell]

/-- Both managers realize the same on a fill exactly when it sells nothing at a lost price. -/
theorem gain_eq_iff :
    run.restarted.gain fill = run.watch.manager.gain fill ↔ run.watch.SellsKnown fill := by
  have averages := averageAfter_ne_iff tracks known
  rw [SymbolManager.gain, SymbolManager.gain, position_eq tracks known, Watch.SellsKnown]
  by_cases sell : fill.side = .SELL
  · have noBuy : fill.side ≠ .BUY := by
      rw [sell]
      decide
    by_cases held : run.watch.manager.getPosition fill.symbol > 0
    · rw [if_pos (Or.inl ⟨sell, held⟩), if_pos (Or.inl ⟨sell, held⟩), sell, ← not_iff_not,
        ← Ne, realized_sell_ne_iff _ _ held, averages]
      simp [noBuy, held]
    · simp [noBuy, held]
  · -- a buy that covers a short position does not add to a long one
    have same : run.watch.manager.getPosition fill.symbol < 0 → fill.side = .BUY →
        run.restarted.averageAfter fill = run.watch.manager.averageAfter fill := by
      intro short buy
      by_contra different
      exact absurd ((averages.mp different).1 buy).1 (Int32.not_lt.mpr (Int32.le_of_lt short))
    refine iff_of_true ?_ (fun sells => sell sells.1)
    split
    · rename_i reducing
      rcases reducing with ⟨sells, -⟩ | ⟨buy, short⟩
      · exact absurd sells sell
      · rw [same short buy]
    · rfl

/-- A fill keeps track of the two managers unless it sells at a lost price. -/
theorem tracks_next (sells : run.watch.SellsKnown fill) : (run.next fill).Tracks base := by
  have averages := averageAfter_ne_iff tracks known
  refine ⟨⟨?_, ?_⟩, ?_⟩
  · intro id listed
    change (run.restarted.fill fill).getPosition id = (run.watch.manager.fill fill).getPosition id
    rw [SymbolManager.getPosition_fill, SymbolManager.getPosition_fill, position_eq tracks known,
      tracks.agrees.1 id listed]
  · change (run.restarted.fill fill).getTotalPnl = (run.watch.manager.fill fill).getTotalPnl - base
    rw [SymbolManager.getTotalPnl_fill, SymbolManager.getTotalPnl_fill,
      (gain_eq_iff tracks known).mpr sells, tracks.agrees.2]
    ring
  · intro id
    change (if id = fill.symbol ∧ fill.side = .BUY ∧ ¬ run.watch.AddsToLong fill then false
      else run.watch.lost id) = true ↔
        (run.restarted.fill fill).avgEntryPrice id ≠ (run.watch.manager.fill fill).avgEntryPrice id
    rw [SymbolManager.avgEntryPrice_fill, SymbolManager.avgEntryPrice_fill]
    by_cases own : id = fill.symbol
    · subst own
      rw [if_pos rfl, if_pos rfl, averages]
      by_cases buy : fill.side = .BUY <;> by_cases adds : run.watch.AddsToLong fill <;>
        simp [buy, adds]
    · rw [if_neg own, if_neg own, if_neg fun all => own all.1]
      exact tracks.lost id

/-- A fill that sells at a lost price sets the two apart. -/
theorem sellsKnown_of_agrees (agrees : (run.next fill).Agrees base) :
    run.watch.SellsKnown fill := by
  rw [← gain_eq_iff tracks known]
  have after := agrees.2
  change (run.restarted.fill fill).getTotalPnl = (run.watch.manager.fill fill).getTotalPnl - base
    at after
  rw [SymbolManager.getTotalPnl_fill, SymbolManager.getTotalPnl_fill, tracks.agrees.2] at after
  linarith

end Step

end Restarted

/-! ### Runs -/

namespace SymbolManager

/-- After any fills, a restart, and any later fills: all along the later fills the positions and the
change of the PnL are those of a manager that was not restarted, exactly when none of them sells
out of a long position whose entry price the restart has lost. -/
theorem restart_transparent_iff (before after : List Fill)
    (known : ∀ fill ∈ after, fill.symbol ∈ symbolIds) :
    let old := before.foldl SymbolManager.fill empty
    (∀ later, later <+: after →
      (∀ id ∈ symbolIds, (later.foldl SymbolManager.fill old.restart).getPosition id =
        (later.foldl SymbolManager.fill old).getPosition id) ∧
      (later.foldl SymbolManager.fill old.restart).getTotalPnl - old.restart.getTotalPnl =
        (later.foldl SymbolManager.fill old).getTotalPnl - old.getTotalPnl) ↔
      Along Watch.next Watch.SellsKnown (Watch.opening old) after := by
  intro old
  have wentOn : ∀ later : List Fill,
      (later.foldl Restarted.next (Restarted.opening old)).watch.manager =
        later.foldl SymbolManager.fill old :=
    fun later => (List.foldl_hom (fun run : Restarted => run.watch.manager) fun _ _ => rfl).symm
  have restarted : ∀ later : List Fill,
      (later.foldl Restarted.next (Restarted.opening old)).restarted =
        later.foldl SymbolManager.fill old.restart :=
    fun later => (List.foldl_hom Restarted.restarted fun _ _ => rfl).symm
  have agrees : ∀ later : List Fill,
      (later.foldl Restarted.next (Restarted.opening old)).Agrees old.getTotalPnl ↔
        (∀ id ∈ symbolIds, (later.foldl SymbolManager.fill old.restart).getPosition id =
          (later.foldl SymbolManager.fill old).getPosition id) ∧
        (later.foldl SymbolManager.fill old.restart).getTotalPnl - old.restart.getTotalPnl =
          (later.foldl SymbolManager.fill old).getTotalPnl - old.getTotalPnl := by
    intro later
    have none : old.restart.getTotalPnl = 0 := old.restart_books.2
    rw [Restarted.Agrees, wentOn, restarted, none, sub_zero]
  have project : Along Restarted.next (fun run fill => run.watch.SellsKnown fill)
      (Restarted.opening old) after ↔
        Along Watch.next Watch.SellsKnown (Watch.opening old) after :=
    along_project (fun _ _ => rfl) (Restarted.opening old) after
  have everywhere : (∀ later, later <+: after →
      (later.foldl Restarted.next (Restarted.opening old)).Agrees old.getTotalPnl) ↔
        Along Restarted.next (fun run fill => run.watch.SellsKnown fill)
          (Restarted.opening old) after := by
    refine everywhere_iff_along_of_inputs (fun _ tracks => tracks.agrees) ?_ ?_
      (Restarted.tracks_opening old) known
    · intro run fill listed tracks sells
      exact Restarted.tracks_next tracks listed sells
    · intro run fill listed tracks holds
      exact Restarted.sellsKnown_of_agrees tracks listed holds
  rw [← project, ← everywhere]
  exact forall₂_congr fun later _ => (agrees later).symm

/-- A flat position at the restart loses nothing, whatever its entry price was. -/
theorem restart_transparent_boughtAgain :
    let old := [⟨3, .BUY, 1, 100⟩, ⟨3, .SELL, 1, 110⟩].foldl SymbolManager.fill empty
    let later : List Fill := [⟨3, .BUY, 2, 90⟩, ⟨3, .SELL, 1, 95⟩]
    (later.foldl SymbolManager.fill old.restart).getTotalPnl - old.restart.getTotalPnl =
      (later.foldl SymbolManager.fill old).getTotalPnl - old.getTotalPnl :=
  (((restart_transparent_iff [⟨3, .BUY, 1, 100⟩, ⟨3, .SELL, 1, 110⟩]
    [⟨3, .BUY, 2, 90⟩, ⟨3, .SELL, 1, 95⟩] (by decide)).mpr (by decide +kernel)) _
      List.prefix_rfl).2

/-- Bought at 100 before the restart and sold at 110 after it: the PnL goes up by 110. -/
theorem sold_after_restart_books_notional :
    let old := [⟨3, .BUY, 1, 100⟩].foldl SymbolManager.fill empty
    let sell : Fill := ⟨3, .SELL, 1, 110⟩
    (old.fill sell).getTotalPnl - old.getTotalPnl = 10 ∧
      (old.restart.fill sell).getTotalPnl - old.restart.getTotalPnl = 110 := by
  refine ⟨by decide +kernel, by decide +kernel⟩

end SymbolManager

end HftAlgorithms
