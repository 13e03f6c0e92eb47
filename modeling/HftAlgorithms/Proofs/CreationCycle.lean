/-
Module: HftAlgorithms.Proofs.CreationCycle
Purpose: The books of a creation cycle: the dorms are bought, `/create` is booked
  at the prices the bot sees, and UNDY is sold.
Trusted boundary: none
Main exports: Run.creationBookings, Ledger.Holding, Ledger.Selling,
  Run.creation_sold
-/
import HftAlgorithms.Proofs.CreationLimits
import HftAlgorithms.Proofs.CycleLedger

namespace HftAlgorithms

open FiniteMap StateMachine

theorem arbSymbols_subset_symbolIds {symbol : UInt32} (member : symbol ∈ arbSymbols) :
    symbol ∈ symbolIds := by
  rcases List.mem_cons.mp member with rfl | dorm
  · decide
  · exact SymbolManager.mem_symbolIds_of_dorm dorm

namespace Ledger

/-! ### Ledgers on the way -/

/-- No position is open, nothing is sold, and nothing of the symbols that are still to be bought
works. -/
structure Firing (bot : BotState) (symbols : List UInt32) (ledger : Ledger) : Prop where
  kept : ledger.Kept bot.manager 0 0
  flat : ∀ symbol ∈ symbolIds, ledger.desk.position symbol = 0
  noAsks : ∀ symbol ∈ symbolIds, ledger.desk.workingOn symbol .ask = 0
  undy : ledger.desk.workingOn SYM_UNDY .bid = 0
  unsent : ∀ symbol ∈ symbols, ledger.desk.workingOn symbol .bid = 0

/-- Nothing is sold, there is no UNDY, and the dorms still to be booked hold the quantity. -/
structure Holding (bot : BotState) (qty : Nat) (symbols : List UInt32) (synthetic : ℚ)
    (ledger : Ledger) : Prop where
  kept : ledger.Kept bot.manager 0 synthetic
  noAsks : ∀ symbol ∈ symbolIds, ledger.desk.workingOn symbol .ask = 0
  undy : ledger.desk.position SYM_UNDY = 0 ∧ ledger.desk.workingOn SYM_UNDY .bid = 0
  held : ∀ symbol ∈ symbols, (qty : Int) ≤ ledger.desk.position symbol

/-- UNDY is sold and no longer bought; each attempt has sent at most 9. -/
structure Selling (bot : BotState) (synthetic : ℚ) (attempts : Nat) (ledger : Ledger) : Prop where
  kept : ledger.Kept bot.manager (9 * attempts) synthetic
  undy : ledger.desk.position SYM_UNDY ≤ 9 ∧ ledger.desk.workingOn SYM_UNDY .bid = 0

/-- The attempts are over. -/
def Sold (bot : BotState) (synthetic : ℚ) (ledger : Ledger) : Prop :=
  ∃ attempts ≤ 5, ledger.Selling bot synthetic attempts

variable {bot : BotState} {qty symbol : UInt32} {symbols : List UInt32} {synthetic : ℚ}
  {ledger : Ledger}

theorem kept_opening (flat : bot.manager.Flat) : (opening bot).Kept bot.manager 0 0 where
  roomy := by
    have closed : ∀ symbol ∈ symbolIds, (Desk.opening bot).position symbol = 0 := by
      intro symbol member
      rw [Desk.position]
      exact (congrArg Int32.toInt (flat symbol member)).trans Int32.toInt_zero
    refine ⟨Desk.routed_opening bot, fun _ _ found => (by cases found), ?_, ?_, ?_, by omega,
      Or.inl rfl⟩
    · intro symbol member
      change (Desk.opening bot).position symbol + (0 : Int) ≤ _
      rw [closed symbol member]
      omega
    · intro symbol member _
      change 0 ≤ (Desk.opening bot).position symbol - (0 : Int)
      rw [closed symbol member]
      omega
    · change _ ≤ (Desk.opening bot).position SYM_UNDY - (0 : Int)
      rw [closed _ Desk.undy_mem_symbolIds]
      omega
  books := by
    refine Or.inr ⟨SymbolManager.long_of_flat flat, ?_⟩
    change bot.manager.cashBalance = bot.manager.cashBalance + (0 : ℚ) + 0
    ring

/-- The next dorm buy. -/
theorem Firing.buy (firing : ledger.Firing bot (symbol :: symbols)) (dorm : symbol ∈ DORM_IDS)
    (notAgain : symbol ∉ symbols) (small : qty.toNat ≤ 2 ^ 30) (price : Int32) :
    (ledger.next (.sendOrder symbol .BUY qty price)).Firing bot symbols := by
  have member := SymbolManager.mem_symbolIds_of_dorm dorm
  have notUndy := Desk.dorm_ne_undy dorm
  have closed := firing.flat symbol member
  have none := firing.unsent symbol List.mem_cons_self
  have elsewhere := @Desk.workingOn_sendOrder_elsewhere ledger.desk symbol .BUY qty price
  refine ⟨?_, firing.flat, ?_, ?_, ?_⟩
  · refine firing.kept.sendOrder ?_ fun both => notUndy both.1
    exact firing.kept.roomy.buy member (Or.inl rfl) (by omega) price
  · intro other known
    refine Nat.le_zero.mp ((elsewhere fun both => absurd both.2 (by decide)).trans ?_)
    exact (firing.noAsks other known).le
  · exact Nat.le_zero.mp ((elsewhere fun both => notUndy both.1).trans firing.undy.le)
  · intro other later
    refine Nat.le_zero.mp ((elsewhere fun both => notAgain (both.1 ▸ later)).trans ?_)
    exact (firing.unsent other (List.mem_cons_of_mem _ later)).le

theorem Holding.receive (holding : ledger.Holding bot 0 [] synthetic) {response : OeResponse}
    (fills : ledger.FillsOwn (.receive response)) :
    (ledger.next (.receive response)).Holding bot 0 [] synthetic := by
  have moves := fun symbol member =>
    @Desk.Roomy.moves 0 ledger.desk holding.kept.roomy response fills symbol member
  refine ⟨holding.kept.receive fills, ?_, ?_, fun _ none => absurd none List.not_mem_nil⟩
  · intro symbol member
    obtain ⟨bought, sold, -, -, asks⟩ := moves symbol member
    have none := holding.noAsks symbol member
    change (ledger.desk.next (.receive response)).workingOn symbol .ask = 0
    omega
  · obtain ⟨bought, sold, moved, bids, asks⟩ := moves SYM_UNDY Desk.undy_mem_symbolIds
    obtain ⟨closed, noBids⟩ := holding.undy
    have none := holding.noAsks SYM_UNDY Desk.undy_mem_symbolIds
    change (ledger.desk.next (.receive response)).position SYM_UNDY = 0 ∧
      (ledger.desk.next (.receive response)).workingOn SYM_UNDY .bid = 0
    omega

/-- The next dorm is booked out. -/
theorem Holding.book (holding : ledger.Holding bot qty.toNat (symbol :: symbols) synthetic)
    (dorm : symbol ∈ DORM_IDS) (notAgain : symbol ∉ symbols) (price : Int32) :
    (ledger.next (.book symbol .SELL qty price)).Holding bot qty.toNat symbols
      (synthetic + Fill.booked ⟨symbol, .SELL, qty, price⟩) := by
  have member := SymbolManager.mem_symbolIds_of_dorm dorm
  have held := holding.held symbol List.mem_cons_self
  have none := holding.noAsks symbol member
  have above := holding.kept.roomy.above symbol member
  have left : exactMove (ledger.desk.position symbol) .SELL qty.toNat =
      ledger.desk.position symbol - qty.toNat := if_neg (by decide)
  have moved := @Desk.position_book ledger.desk symbol .SELL qty (by omega) (by omega) price
  refine ⟨holding.kept.book holding.undy.1.ge member (Or.inr rfl) (by omega) (by omega) price,
    holding.noAsks, ⟨?_, holding.undy.2⟩, ?_⟩
  · exact (moved SYM_UNDY).trans
      ((if_neg (Desk.dorm_ne_undy dorm).symm).trans holding.undy.1)
  · intro other later
    have still : (ledger.next (.book symbol .SELL qty price)).desk.position other =
        ledger.desk.position other :=
      (moved other).trans (if_neg (by rintro rfl; exact notAgain later))
    rw [still]
    exact holding.held other (List.mem_cons_of_mem _ later)

/-- UNDY is booked in. -/
theorem Holding.bookUndy (holding : ledger.Holding bot qty.toNat [] synthetic)
    (small : qty.toNat ≤ 9) (price : Int32) :
    (ledger.next (.book SYM_UNDY .BUY qty price)).Selling bot
      (synthetic + Fill.booked ⟨SYM_UNDY, .BUY, qty, price⟩) 0 := by
  obtain ⟨closed, noBids⟩ := holding.undy
  have none := holding.noAsks SYM_UNDY Desk.undy_mem_symbolIds
  have raised : exactMove (ledger.desk.position SYM_UNDY) .BUY qty.toNat = qty.toNat := by
    rw [exactMove, if_pos rfl, closed, Int.zero_add]
  have moved := @Desk.position_book ledger.desk SYM_UNDY .BUY qty (by omega) (by omega) price
  refine ⟨holding.kept.book closed.ge Desk.undy_mem_symbolIds (Or.inl rfl) (by omega) (by omega)
    price, ?_, noBids⟩
  change (ledger.desk.next (.book SYM_UNDY .BUY qty price)).position SYM_UNDY ≤ 9
  rw [moved, if_pos rfl]
  omega

theorem Selling.receive {attempts : Nat} (selling : ledger.Selling bot synthetic attempts)
    {response : OeResponse} (fills : ledger.FillsOwn (.receive response)) :
    (ledger.next (.receive response)).Selling bot synthetic attempts := by
  obtain ⟨bought, sold, moved, bids, -⟩ :=
    selling.kept.roomy.moves fills Desk.undy_mem_symbolIds
  obtain ⟨atMost, noBids⟩ := selling.undy
  refine ⟨selling.kept.receive fills, ?_⟩
  change (ledger.desk.next (.receive response)).position SYM_UNDY ≤ 9 ∧
    (ledger.desk.next (.receive response)).workingOn SYM_UNDY .bid = 0
  omega

/-- One more attempt to sell what there is of UNDY. -/
theorem Selling.sell {attempts : Nat} (selling : ledger.Selling bot synthetic attempts)
    (few : attempts < 5) (whole : (qty.toNat : Int) = ledger.desk.position SYM_UNDY)
    (price : Int32) :
    (ledger.next (.sendOrder SYM_UNDY .SELL qty price)).Selling bot synthetic (attempts + 1) := by
  obtain ⟨atMost, noBids⟩ := selling.undy
  have low := selling.kept.roomy.undy
  have roomy := @Desk.Roomy.sell _ ledger.desk selling.kept.roomy (9 * (attempts + 1)) SYM_UNDY qty
    Desk.undy_mem_symbolIds (by omega) (by omega) (Or.inr noBids) (fun other => absurd rfl other)
    (fun _ => by omega) price
  refine ⟨selling.kept.sendOrder roomy fun both => absurd both.2 (by decide), atMost, ?_⟩
  exact Nat.le_zero.mp ((Desk.workingOn_sendOrder_elsewhere ledger.desk price
    fun both => absurd both.2 (by decide)).trans noBids.le)

end Ledger

namespace Run

open Ledger

/-! ### The run -/

/-- Runs in which the exchange fills only what works, with what the ledger knows of them. -/
abbrev Cycle (bot : BotState) (post : Ledger → Prop) (run : Run) : Prop :=
  Stands Ledger.next Ledger.bot (Ledger.opening bot) Ledger.FillsOwn (fun _ => True) post run

/-- What `/create` is booked as: the dorms at the bids the bot sees, UNDY at the snapshot's bid. -/
def creationBookings (world : World) (snap : ArbSnapshot) : List Fill :=
  DORM_IDS.mapIdx (fun index symbol =>
    ⟨symbol, .SELL, (creationQty snap).toUInt32, world.bestBidPrice index symbol⟩) ++
  [⟨SYM_UNDY, .BUY, (creationQty snap).toUInt32, snap.undyBestBidPrice⟩]

section Creation

variable {bot : BotState} {snap : ArbSnapshot} {synthetic : ℚ} (world : World)

theorem within_of_flat (flat : bot.manager.Flat) : (Desk.opening bot).Within := by
  intro symbol member
  have closed : (Desk.opening bot).position symbol = 0 :=
    (congrArg Int32.toInt (flat symbol (arbSymbols_subset_symbolIds member))).trans
      Int32.toInt_zero
  rw [closed, toInt_POSITION_LIMIT]
  omega

/-- Before the first order nothing works. -/
theorem Cycle.opening (flat : bot.manager.Flat) (inbox : List OeResponse) :
    Cycle bot (Firing bot DORM_IDS) (Run.new bot inbox) := by
  refine Stands.new (fun _ _ => rfl) trivial ⟨kept_opening flat, ?_, fun _ _ => rfl, rfl,
    fun _ _ => rfl⟩
  intro symbol member
  exact (congrArg Int32.toInt (flat symbol member)).trans Int32.toInt_zero

theorem keptByReceive_holding :
    Stands.KeptByReceive Ledger.next Ledger.FillsOwn (fun _ => True)
      (Holding bot 0 [] synthetic) := by
  intro ledger response holding _ fills
  exact ⟨trivial, holding.receive fills⟩

theorem keptByReceive_sold :
    Stands.KeptByReceive Ledger.next Ledger.FillsOwn (fun _ => True)
      (Sold bot synthetic) := by
  rintro ledger response ⟨attempts, few, selling⟩ - fills
  exact ⟨trivial, attempts, few, selling.receive fills⟩

theorem keptByFlags_firing :
    Stands.KeptByFlags Ledger.next Ledger.FillsOwn (fun _ => True) (Firing bot DORM_IDS) := by
  rintro ledger action (⟨inProgress, rfl⟩ | ⟨time, rfl⟩) firing - -
  · exact ⟨trivial, firing.kept.idle rfl rfl rfl rfl, firing.flat, firing.noAsks, firing.undy,
      firing.unsent⟩
  · exact ⟨trivial, firing.kept.idle rfl rfl rfl rfl, firing.flat, firing.noAsks, firing.undy,
      firing.unsent⟩

/-- The ten buys, and the waits for them. -/
theorem Cycle.sendLegs (small : (creationQty snap).toUInt32.toNat ≤ 2 ^ 30) {run : Run}
    (cycle : Cycle bot (Firing bot DORM_IDS) run) :
    Cycle bot (Holding bot 0 [] 0) (run.sendLegs world snap).1 := by
  have started := Stands.startArb keptByFlags_firing (run.now world) cycle
  have fired := Stands.fireEach DormData.bestAskPrice snap
    (fun ledger symbol symbols price dorm notAgain firing _ _ =>
      ⟨trivial, firing.buy dorm notAgain small price⟩) started
  refine Stands.collect world keptByReceive_holding _ (Stands.weaken fired ?_)
  intro ledger _ firing _
  exact ⟨firing.kept, firing.noAsks, ⟨firing.flat _ Desk.undy_mem_symbolIds, firing.undy⟩,
    fun _ none => absurd none List.not_mem_nil⟩

/-- Bookings at successive quotes: the first one, and the others. -/
theorem bookedFlow_mapIdx_cons (side : Side) (qty : UInt32) (quote : Nat → UInt32 → Int32)
    (reads : Nat) (symbol : UInt32) (symbols : List UInt32) :
    bookedFlow ((symbol :: symbols).mapIdx fun index symbol =>
        ⟨symbol, side, qty, quote (reads + index) symbol⟩) =
      Fill.booked ⟨symbol, side, qty, quote reads symbol⟩ +
        bookedFlow (symbols.mapIdx fun index symbol =>
          ⟨symbol, side, qty, quote (reads + 1 + index) symbol⟩) := by
  have later : ∀ index : Nat, reads + 1 + index = reads + (index + 1) := fun index => by omega
  rw [List.mapIdx_cons, bookedFlow, List.map_cons, List.sum_cons]
  simp only [later]
  rfl

/-- The dorms are booked one after the other, each at the next quote. -/
theorem Cycle.bookEach {pending : List UInt32 → ℚ → Ledger → Prop} {side : Side} {qty : UInt32}
    (quote : Nat → UInt32 → Int32)
    (books : ∀ ledger symbol symbols synthetic price, symbol ∈ DORM_IDS → symbol ∉ symbols →
      pending (symbol :: symbols) synthetic ledger →
      pending symbols (synthetic + Fill.booked ⟨symbol, side, qty, price⟩)
        (ledger.next (.book symbol side qty price)))
    {run : Run} (cycle : Cycle bot (pending DORM_IDS synthetic) run) :
    Cycle bot (pending [] (synthetic + bookedFlow (DORM_IDS.mapIdx fun index symbol =>
        ⟨symbol, side, qty, quote (run.quoteReads + index) symbol⟩)))
      (DORM_IDS.foldl
        (fun run symbol => run.quoted.act (.book symbol side qty (quote run.quoteReads symbol)))
        run) := by
  -- what has been booked and what is still to be booked add up to the same throughout
  obtain ⟨total, totalEq⟩ : ∃ total, total = synthetic + bookedFlow (DORM_IDS.mapIdx
    fun index symbol => ⟨symbol, side, qty, quote (run.quoteReads + index) symbol⟩) := ⟨_, rfl⟩
  have booked := @Stands.bookEach _ _ _ _ _ _ _
    (fun reads symbols ledger => ∃ sofar, pending symbols sofar ledger ∧
      sofar + bookedFlow (symbols.mapIdx fun index symbol =>
        ⟨symbol, side, qty, quote (reads + index) symbol⟩) = total) side qty quote ?_
    (Stands.weaken cycle fun ledger _ still _ => ⟨synthetic, still, totalEq.symm⟩)
  · rw [← totalEq]
    refine Stands.weaken booked ?_
    rintro ledger - ⟨sofar, done, adds⟩ -
    rw [List.mapIdx_nil, bookedFlow, List.map_nil, List.sum_nil, add_zero] at adds
    rw [← adds]
    exact done
  · rintro ledger reads symbol symbols dorm notAgain ⟨sofar, still, adds⟩ - -
    rw [bookedFlow_mapIdx_cons, ← add_assoc] at adds
    exact ⟨trivial, _, books ledger symbol symbols sofar _ dorm notAgain still, adds⟩

/-- The bookings of a successful `/create`. -/
theorem Cycle.bookCreation {qty : Int32} (small : qty.toUInt32.toNat ≤ 9) {run : Run}
    (cycle : Cycle bot (Holding bot qty.toUInt32.toNat DORM_IDS synthetic) run) :
    Cycle bot (fun ledger => ledger.Selling bot
        (synthetic + bookedFlow (DORM_IDS.mapIdx fun index symbol =>
          ⟨symbol, .SELL, qty.toUInt32, world.bestBidPrice (run.quoteReads + index) symbol⟩) +
          Fill.booked ⟨SYM_UNDY, .BUY, qty.toUInt32, snap.undyBestBidPrice⟩) 0)
      (bookCreation world qty run snap) := by
  have dorms := @Cycle.bookEach bot synthetic
    (fun symbols synthetic ledger => ledger.Holding bot qty.toUInt32.toNat symbols synthetic)
    .SELL qty.toUInt32 world.bestBidPrice
    (fun ledger symbol symbols synthetic price dorm notAgain holding =>
      holding.book dorm notAgain price) run cycle
  refine Stands.act dorms ?_
  intro ledger _ holding _ _
  exact ⟨trivial, holding.bookUndy small _⟩

/-- The loop that sells UNDY. -/
theorem Cycle.sellUndy (fuel : Nat) {attempts : Nat} {undyPos : Int32} {run : Run}
    (few : attempts ≤ 5) (current : undyPos = run.getPosition SYM_UNDY)
    (cycle : Cycle bot (fun ledger => ledger.Selling bot synthetic attempts) run) :
    Cycle bot (Sold bot synthetic) (sellUndy world fuel attempts undyPos run).1 := by
  induction fuel generalizing attempts run undyPos with
  | zero => exact Stands.weaken cycle fun ledger _ selling _ => ⟨attempts, few, selling⟩
  | succ fuel inductionHypothesis =>
      have quoted : Cycle bot (fun ledger => ledger.Selling bot synthetic attempts) run.quoted :=
        Stands.of_eq cycle rfl rfl
      rw [Run.sellUndy]
      dsimp only
      split
      · rename_i again
        split
        · exact inductionHypothesis few rfl quoted
        · apply inductionHypothesis (Nat.succ_le_of_lt again.2) rfl
          subst current
          have kept : Stands.KeptByReceive Ledger.next Ledger.FillsOwn (fun _ => True)
              (fun ledger => ledger.Selling bot synthetic (attempts + 1)) :=
            fun ledger response selling _ fills => ⟨trivial, selling.receive fills⟩
          refine Stands.waitForResponse world kept _ (Stands.act quoted ?_)
          intro ledger same selling _ _
          have whole : ((run.getPosition SYM_UNDY).toUInt32.toNat : Int) =
              ledger.desk.position SYM_UNDY := by
            change ledger.desk.bot = run.state at same
            rw [toNat_toUInt32_of_pos again.1, Desk.position, same]
            rfl
          exact ⟨trivial, selling.sell again.2 whole _⟩
      · exact Stands.weaken cycle fun ledger _ selling _ => ⟨attempts, few, selling⟩

theorem quoteReads_receive (responses : List OeResponse) (run : Run) :
    (responses.foldl (fun run response => run.act (.receive response)) run).quoteReads =
      run.quoteReads := by
  induction responses generalizing run with
  | nil => rfl
  | cons response responses inductionHypothesis => exact inductionHypothesis _

/-- No quote is read before the bookings. -/
theorem quoteReads_sendLegs (run : Run) :
    (run.sendLegs world snap).1.quoteReads = run.quoteReads := by
  have collected : ∀ (ids : List UInt64) (run : Run),
      (run.collect world ids).1.quoteReads = run.quoteReads := by
    intro ids
    induction ids with
    | nil => exact fun _ => rfl
    | cons id ids inductionHypothesis =>
        exact fun run => (inductionHypothesis _).trans (quoteReads_receive _ _)
  refine (collected _ _).trans ?_
  rw [fireLegs]
  refine @invariant_foldl_always (Run × List UInt64) _ _
    (fun fired => fired.1.quoteReads = run.quoteReads) ?_ _ ?_ _
  · exact fun _ _ same => same
  · rfl

/-- The bookings of `/create` or `/redeem` are in the log. -/
def Booked (run : Run) : Prop := ∃ action ∈ run.log, BotState.syntheticFills action ≠ []

instance decidableBooked (run : Run) : Decidable run.Booked :=
  inferInstanceAs (Decidable (∃ action ∈ run.log, _))

/-- Before its bookings the bot books nothing. -/
theorem unwinding_books_nothing :
    Unwinding fun _ action => BotState.syntheticFills action = [] where
  setsInProgress _ _ := rfl
  setsStartTime _ _ := rfl
  receives _ _ := rfl
  buys _ _ _ _ := rfl
  closes _ _ _ _ _ := rfl

theorem not_booked {inbox : List OeResponse} {later : Run}
    (reached : Extends (fun _ action => BotState.syntheticFills action = []) (new bot inbox)
      later) : ¬ later.Booked := by
  rintro ⟨action, member, booking⟩
  rcases reached.mem_log member with before | ⟨-, nothing⟩
  · exact absurd before List.not_mem_nil
  · exact booking nothing

/-- From the confirmed fills on. -/
theorem Cycle.createAndSell (fuel : Nat) {inbox : List OeResponse} {run : Run}
    (positive : creationQty snap > 0) (small : (creationQty snap).toUInt32.toNat ≤ 9)
    (unread : run.quoteReads = 0) (filled : run.allFilled (creationQty snap) = true)
    (reached : Extends (fun _ action => BotState.syntheticFills action = []) (new bot inbox) run)
    (booked : (createAndSell world fuel (creationQty snap) run snap).1.Booked)
    (cycle : Cycle bot (Holding bot 0 [] 0) run) :
    Cycle bot (Sold bot (bookedFlow (creationBookings world snap)))
      (createAndSell world fuel (creationQty snap) run snap).1 := by
  have called : Cycle bot (Holding bot (creationQty snap).toUInt32.toNat DORM_IDS 0)
      (run.act (.callCreate (creationQty snap)
        (world.create run.etfCalls (creationQty snap)))) := by
    refine Stands.act cycle ?_
    intro ledger same holding _ _
    refine ⟨trivial, holding.kept.idle rfl rfl rfl rfl, holding.noAsks, holding.undy, ?_⟩
    intro symbol dorm
    have held := Int32.le_iff_toInt_le.mp
      (of_decide_eq_true (List.all_eq_true.mp filled symbol dorm))
    rw [toNat_toUInt32_of_pos positive]
    change _ ≤ ledger.desk.position symbol
    change ledger.desk.bot = run.state at same
    rw [Desk.position, same]
    exact held
  rw [Run.createAndSell] at booked ⊢
  dsimp only at booked ⊢
  obtain ⟨counted, countedEq⟩ : ∃ counted : Run, counted =
    { run.act (.callCreate (creationQty snap) (world.create run.etfCalls (creationQty snap))) with
      etfCalls := run.etfCalls + 1 } := ⟨_, rfl⟩
  rw [← countedEq] at booked ⊢
  split at booked
  · dsimp only at booked
    have asked : Extends (fun _ action => BotState.syntheticFills action = []) run counted := by
      rw [countedEq]
      exact (Extends.act rfl).trans (Extends.of_eq rfl rfl)
    exact absurd booked (not_booked ((reached.trans asked).trans
      (unwindDormLongs_extends unwinding_books_nothing world counted)))
  · rename_i agreed
    have reads : counted.quoteReads = 0 := by
      rw [countedEq]
      exact unread
    have sold := @Cycle.bookCreation bot snap 0 world _ small counted (by
      rw [countedEq]
      exact Stands.of_eq called rfl rfl)
    rw [if_neg agreed]
    refine Cycle.sellUndy world fuel (by decide) rfl (Stands.weaken sold ?_)
    intro ledger _ selling _
    simp only [reads, zero_add] at selling
    rw [creationBookings, bookedFlow, List.map_append, List.sum_append]
    simpa [bookedFlow] using selling

/-- A creation that starts flat and gets to its bookings balances. -/
theorem creation_sold (fuel : Nat) (inbox : List OeResponse) (flat : bot.manager.Flat)
    (taken : SnapshotOf bot snap)
    (booked : ((new bot inbox).tryCreationArb world fuel snap).1.Booked) :
    Cycle bot (Sold bot (bookedFlow (creationBookings world snap)))
      ((new bot inbox).tryCreationArb world fuel snap).1 := by
  by_cases starts : (new bot inbox).startsCreation snap = true
  · have positive := creationQty_pos_of_starts starts
    have small : (creationQty snap).toUInt32.toNat ≤ 9 := by
      have below := creationQty_le taken (within_of_flat flat) (List.head_mem (by decide))
      have closed : (Desk.opening bot).position (DORM_IDS.head (by decide)) = 0 :=
        (congrArg Int32.toInt (flat _ (by decide))).trans Int32.toInt_zero
      have whole := toNat_toUInt32_of_pos positive
      omega
    have legs := @Cycle.sendLegs bot snap world (small.trans (by decide)) _
      (Cycle.opening flat inbox)
    have sent : Extends (fun _ action => BotState.syntheticFills action = []) (new bot inbox)
        ((new bot inbox).sendLegs world snap).1 :=
      sendLegs_extends unwinding_books_nothing world _ snap
    have goesOn := tryCreationArb_goesOn world fuel starts
    generalize (new bot inbox).tryCreationArb world fuel snap = tried at goesOn booked ⊢
    cases goesOn with
    | legsMissing missing =>
        dsimp only at booked
        exact absurd booked (not_booked (sent.trans
          (unwindDormLongs_extends unwinding_books_nothing world _)))
    | polling count =>
        dsimp only at booked
        exact absurd booked (not_booked (sent.trans (Extends.tick _ count)))
    | timedOut count =>
        dsimp only at booked
        refine absurd booked (not_booked (Extends.trans (Extends.trans (sent.trans ?_)
          (unwindDormLongs_extends unwinding_books_nothing world _)) (Extends.act rfl)))
        exact (Extends.tick _ count).trans (Extends.act rfl)
    | filled count filled =>
        refine Cycle.createAndSell world fuel positive small ?_ filled
          (sent.trans (Extends.tick _ count)) booked (Stands.of_eq legs rfl rfl)
        exact quoteReads_sendLegs world _
  · rw [tryCreationArb, if_pos starts] at booked
    exact absurd booked (not_booked (Extends.refl _))

end Creation

end Run

end HftAlgorithms
