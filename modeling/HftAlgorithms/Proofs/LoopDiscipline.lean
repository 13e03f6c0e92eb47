/-
Module: HftAlgorithms.Proofs.LoopDiscipline
Purpose: What the bot's two main loops never do, whatever the exchange, the ETF service,
  the books and the clock answer.  A table says in which state each action may be
  taken; every action that a run logs was allowed where it was taken.
Trusted boundary: none
Main exports: BotAction.Tame, BotState.Permits, BotState.Continues, MmState.Permits,
  MmState.Continues, Run.tryCreationArb_continues, Run.tryRedemptionArb_continues,
  LoopRun.blueMarketMaker_continues, LoopRun.runs_permitted
-/
import HftAlgorithms.Arb.ArbLoop
import HftAlgorithms.Proofs.ArbSnapshots
import HftAlgorithms.Proofs.LoopRuns
import HftAlgorithms.Proofs.RunLogic

namespace HftAlgorithms

open StateMachine

/-! ### The table -/

/-- An action that neither calls the ETF service nor begins or ends an arb: orders are for some
quantity at some price, bookings for some quantity. -/
def BotAction.Tame : BotAction → Prop
  | .sendOrder _ _ qty price => qty ≠ 0 ∧ price ≠ 0
  | .book _ _ qty _ => qty ≠ 0
  | .receive _ | .fillTimeout | .setArbStartTime _ => True
  | .callCreate _ _ | .setArbInProgress _ => False

/-- When the bot may take an action.  An arb begins where none is in progress and the PnL is not
near its limit; bookings and `/create` belong to an arb, and `/create` asks for no more than the bot
has of each dorm. -/
def BotState.Permits (bot : BotState) : BotAction → Prop
  | .sendOrder _ _ qty price => qty ≠ 0 ∧ price ≠ 0
  | .book _ _ qty _ => bot.arbInProgress = true ∧ qty ≠ 0
  | .callCreate amount _ => bot.arbInProgress = true ∧ 0 < amount ∧
      ∀ symbol ∈ DORM_IDS, amount ≤ bot.manager.getPosition symbol
  | .setArbInProgress true => bot.arbInProgress = false ∧ bot.manager.pnlNearLimit = false
  | .setArbInProgress false => bot.arbInProgress = true
  | .receive _ | .fillTimeout | .setArbStartTime _ => True

/-- The same, and no arb begins. -/
def BotState.Continues (bot : BotState) (action : BotAction) : Prop :=
  bot.Permits action ∧ action ≠ .setArbInProgress true

/-- When the loop may take one.  A market-maker order is sent when none of its kind is remembered;
the two quotes are for one lot, while no arb is in progress and the position is within the limit of
their side. -/
def MmState.Permits (mmLimit : Int32) (state : MmState) : LoopAction → Prop
  | .bot action => state.bot.Permits action
  | .sendMmOrder quote qty _ => state.quoteId quote = 0 ∧ qty ≠ 0 ∧
      (quote ≠ .flatten → qty = 1 ∧ state.bot.arbInProgress = false) ∧
      (quote = .bid → state.bot.manager.getPosition SYM_BLUE < mmLimit) ∧
      (quote = .ask → -mmLimit < state.bot.manager.getPosition SYM_BLUE)
  | .deleteOrder _ | .forget _ | .setLastBlueMid _ => True

/-- The same, and no arb begins. -/
def MmState.Continues (mmLimit : Int32) (state : MmState) (action : LoopAction) : Prop :=
  state.Permits mmLimit action ∧ action ≠ .bot (.setArbInProgress true)

/-! ### What actions leave alone -/

theorem BotState.arbInProgress_callbacks (callbacks : List Callback) (bot : BotState) :
    (callbacks.foldl callback bot).arbInProgress = bot.arbInProgress := by
  induction callbacks generalizing bot with
  | nil => rfl
  | cons first callbacks inductionHypothesis =>
      rw [List.foldl_cons, inductionHypothesis]
      cases first with
      | onReject orderId => rfl
      | onClose orderId => rfl
      | onFill event =>
          rw [callback, fillCallback]
          split
          · rfl
          · split
            · dsimp only
              split <;> rfl
            · rfl

theorem BotState.arbInProgress_act {action : BotAction}
    (keeps : ∀ inProgress, action ≠ .setArbInProgress inProgress) (bot : BotState) :
    (bot.act action).arbInProgress = bot.arbInProgress := by
  cases action with
  | receive response => exact arbInProgress_callbacks _ _
  | setArbInProgress inProgress => exact absurd rfl (keeps inProgress)
  | sendOrder | book | callCreate | fillTimeout | setArbStartTime => rfl

theorem BotState.arbInProgress_tame {action : BotAction} (tame : action.Tame) (bot : BotState) :
    (bot.act action).arbInProgress = bot.arbInProgress := by
  apply arbInProgress_act
  rintro inProgress rfl
  exact tame

theorem BotAction.Tame.continues {action : BotAction} (tame : action.Tame) {bot : BotState}
    (inProgress : bot.arbInProgress = true) : bot.Continues action := by
  cases action with
  | sendOrder symbol side qty price => exact ⟨tame, BotAction.noConfusion⟩
  | book symbol side qty price => exact ⟨⟨inProgress, tame⟩, BotAction.noConfusion⟩
  | callCreate amount result => exact absurd tame id
  | setArbInProgress flag => exact absurd tame id
  | receive | fillTimeout | setArbStartTime => exact ⟨trivial, BotAction.noConfusion⟩

namespace Run

/-! ### Tame stretches -/

/-- One run goes on to another by tame actions. -/
abbrev TameTo : Run → Run → Prop := Extends fun _ action => action.Tame

theorem Extends.mono {allowed weaker : BotState → BotAction → Prop}
    (implies : ∀ bot action, allowed bot action → weaker bot action) {run later : Run}
    (reached : Extends allowed run later) : Extends weaker run later := by
  obtain ⟨added, grown, final, along⟩ := reached
  have always : ∀ (bot : BotState) (action : BotAction), True → allowed bot action → True :=
    fun _ _ _ _ => trivial
  exact ⟨added, grown, final, along.of_invariant always (fun bot action _ => implies bot action)
    trivial⟩

/-- What the bot may do while the arb that has begun goes on. -/
def UnderWay (run later : Run) : Prop :=
  Extends BotState.Continues run later ∧ later.state.arbInProgress = true

theorem UnderWay.refl {run : Run} (inProgress : run.state.arbInProgress = true) :
    UnderWay run run :=
  ⟨Extends.refl run, inProgress⟩

theorem UnderWay.tame {run between later : Run} (underWay : UnderWay run between)
    (tame : TameTo between later) : UnderWay run later := by
  obtain ⟨added, grown, final, along⟩ := tame
  have keeps : ∀ (bot : BotState) (action : BotAction), bot.arbInProgress = true → action.Tame →
      (bot.act action).arbInProgress = true := by
    intro bot action flag tame
    rw [BotState.arbInProgress_tame tame, flag]
  have continues := along.of_invariant keeps
    (fun bot action flag tame => BotAction.Tame.continues tame flag) underWay.2
  refine ⟨underWay.1.trans ⟨added, grown, final, continues⟩, ?_⟩
  rw [final]
  exact invariant_foldl keeps underWay.2 along

/-- The arb ends. -/
theorem UnderWay.ends {run later : Run} (underWay : UnderWay run later) :
    Extends BotState.Continues run (later.act (.setArbInProgress false)) :=
  underWay.1.trans
    (@Extends.act _ later (.setArbInProgress false) ⟨underWay.2, by simp⟩)

section Waits

variable {allowed : BotState → BotAction → Prop}
  (receives : ∀ bot response, allowed bot (.receive response)) (world : World)

include receives

theorem wait_extends (run : Run) (id : UInt64) :
    Extends allowed run (run.waitForResponse world id).1 :=
  Extends.trans (Extends.of_eq rfl rfl)
    (Extends.foldl (fun _ response => Extends.act (receives _ response)) _ _)

theorem waits_extend (run : Run) (ids : List UInt64) :
    Extends allowed run (run.collect world ids).1 := by
  induction ids generalizing run with
  | nil => exact Extends.refl run
  | cons id ids inductionHypothesis =>
      exact (wait_extends receives world run id).trans (inductionHypothesis _)

theorem fillWait_extends (run : Run) (id : UInt64) :
    Extends allowed run (run.waitForFill world id).1 :=
  Extends.trans (Extends.of_eq rfl rfl)
    (Extends.foldl (fun _ response => Extends.act (receives _ response)) _ _)

end Waits

theorem tame_receives (_ : BotState) (response : OeResponse) :
    (BotAction.receive response).Tame := trivial

/-! ### Quantities that are not zero -/

theorem toUInt32_ne_zero {value : Int32} (nonzero : value ≠ 0) : value.toUInt32 ≠ 0 := by
  intro zero
  apply nonzero
  rw [← Int32.toInt32_toUInt32 value, zero]
  rfl

theorem toUInt32_ne_zero_of_pos {value : Int32} (positive : value > 0) : value.toUInt32 ≠ 0 := by
  apply toUInt32_ne_zero
  rintro rfl
  exact absurd positive (by decide)

theorem toUInt32_abs_ne_zero {value : Int32} (nonzero : value ≠ 0) : value.abs.toUInt32 ≠ 0 := by
  intro zero
  have size := FixedWidth.toNat_toUInt32_abs value
  rw [zero] at size
  have exactly : value.toInt = 0 := Int.natAbs_eq_zero.mp size.symm
  exact nonzero (Int32.toInt_inj.mp exactly)

theorem ne_zero_of_not_le {price : Int32} (positive : ¬ price ≤ 0) : price ≠ 0 := by
  rintro rfl
  exact positive (by decide)

theorem ne_zero_of_gt {price : Int32} (positive : price > 0) : price ≠ 0 := by
  rintro rfl
  exact absurd positive (by decide)

/-! ### The helpers of the arbs -/

section Helpers

variable (world : World)

omit world in
theorem sendOrder_tame (run : Run) (symbol : UInt32) (side : Side) {qty : UInt32} {price : Int32}
    (some_qty : qty ≠ 0) (some_price : price ≠ 0) :
    TameTo run (run.sendOrderNoWait symbol side qty price) :=
  @Extends.act _ run (.sendOrder symbol side qty price) ⟨some_qty, some_price⟩

omit world in
theorem book_tame (run : Run) (symbol : UInt32) (side : Side) {qty : UInt32} (price : Int32)
    (some_qty : qty ≠ 0) : TameTo run (run.act (.book symbol side qty price)) :=
  @Extends.act _ run (.book symbol side qty price) some_qty

theorem sendNewOrder_tame (run : Run) (symbol : UInt32) (side : Side) {qty : UInt32}
    {price : Int32} (some_qty : qty ≠ 0) (some_price : price ≠ 0) :
    TameTo run (run.sendNewOrder world symbol side qty price).1 :=
  (sendOrder_tame run symbol side some_qty some_price).trans
    (wait_extends tame_receives world _ _)

theorem unwindLeg_tame (fired : Run × List UInt64) (symbol : UInt32) :
    TameTo fired.1 (unwindLeg world fired symbol).1 := by
  have readQuote : TameTo fired.1 fired.1.quoted := Extends.quoted fired.1
  rw [unwindLeg]
  dsimp only
  split
  · rename_i long
    split
    · exact readQuote
    · rename_i bid
      exact readQuote.trans (sendOrder_tame _ symbol .SELL (toUInt32_ne_zero_of_pos long)
        (ne_zero_of_not_le bid))
  · split
    · rename_i short
      split
      · exact readQuote
      · rename_i ask
        have held : fired.1.getPosition symbol ≠ 0 := by
          intro flat
          rw [flat] at short
          exact absurd short (by decide)
        exact readQuote.trans (sendOrder_tame _ symbol .BUY (toUInt32_abs_ne_zero held)
          (ne_zero_of_not_le ask))
    · exact Extends.refl fired.1

theorem unwindDormLongs_tame (run : Run) : TameTo run (run.unwindDormLongs world) :=
  (Extends.foldl_fst (unwindLeg_tame world) DORM_IDS (run, [])).trans
    (waits_extend tame_receives world _ _)

theorem sellUndy_tame (fuel attempts : Nat) (undyPos : Int32) (run : Run) :
    TameTo run (sellUndy world fuel attempts undyPos run).1 := by
  induction fuel generalizing attempts undyPos run with
  | zero => exact Extends.refl run
  | succ fuel inductionHypothesis =>
      rw [sellUndy]
      dsimp only
      split
      · rename_i again
        split
        · exact (Extends.quoted run).trans (inductionHypothesis _ _ _)
        · rename_i bid
          have sold := sendNewOrder_tame world run.quoted SYM_UNDY .SELL
            (toUInt32_ne_zero_of_pos again.1) (ne_zero_of_not_le bid)
          exact ((Extends.quoted run).trans sold).trans (inductionHypothesis _ _ _)
      · exact Extends.refl run

/-- The loop that sends an order for each dorm. -/
theorem fireEach_tame {side : Side} {qty : UInt32} (some_qty : qty ≠ 0)
    (price : DormData → Int32) {snap : ArbSnapshot}
    (priced : ∀ dorm ∈ snap.dorms.toList, price dorm ≠ 0) (run : Run) :
    TameTo run
      ((DORM_IDS.zip snap.dorms.toList).foldl
        (fun fired leg =>
          (fired.1.sendOrderNoWait leg.1 side qty (price leg.2),
            fired.2 ++ [fired.1.state.nextOrderId]))
        (run, [])).1 := by
  have legs : ∀ legs : List (UInt32 × DormData), (∀ leg ∈ legs, price leg.2 ≠ 0) →
      ∀ fired : Run × List UInt64, TameTo fired.1
        (legs.foldl
          (fun fired leg =>
            (fired.1.sendOrderNoWait leg.1 side qty (price leg.2),
              fired.2 ++ [fired.1.state.nextOrderId]))
          fired).1 := by
    intro legs
    induction legs with
    | nil => exact fun _ fired => Extends.refl fired.1
    | cons leg legs inductionHypothesis =>
        intro nonzero fired
        have later := inductionHypothesis
          (fun other member => nonzero other (List.mem_cons_of_mem _ member))
        exact (sendOrder_tame fired.1 leg.1 side some_qty
          (nonzero leg List.mem_cons_self)).trans (later _)
  exact legs _ (fun leg member => priced leg.2 (List.of_mem_zip member).2) (run, [])

/-- The loop that books each dorm. -/
theorem bookEach_tame {side : Side} {qty : UInt32} (some_qty : qty ≠ 0)
    (price : Run → UInt32 → Int32) (run : Run) :
    TameTo run (DORM_IDS.foldl
      (fun run symbol => run.quoted.act (.book symbol side qty (price run symbol))) run) :=
  Extends.foldl (fun run symbol =>
    (Extends.quoted run).trans (book_tame run.quoted symbol side _ some_qty)) DORM_IDS run

theorem bookCreation_tame {qty : Int32} (some_qty : qty.toUInt32 ≠ 0) (run : Run)
    (snap : ArbSnapshot) : TameTo run (bookCreation world qty run snap) := by
  have dorms := @bookEach_tame .SELL _ some_qty (fun run symbol => run.bestBid world symbol) run
  rw [bookCreation]
  exact dorms.trans (book_tame _ SYM_UNDY .BUY _ some_qty)

theorem bookRedemption_tame {qty : Int32} (some_qty : qty.toUInt32 ≠ 0) (run : Run)
    (snap : ArbSnapshot) : TameTo run (bookRedemption world qty run snap) := by
  have undy := book_tame run SYM_UNDY .SELL snap.undyBestAskPrice some_qty
  rw [bookRedemption]
  exact undy.trans
    (@bookEach_tame .BUY _ some_qty (fun run symbol => run.bestAsk world symbol) _)

theorem arbTimeout_continues {run : Run} (inProgress : run.state.arbInProgress = true) :
    Extends BotState.Continues run (run.arbTimeout world) := by
  rw [arbTimeout]
  dsimp only
  have unwound := unwindDormLongs_tame world run
  generalize run.unwindDormLongs world = unwoundRun at unwound
  have sold : TameTo run
      (if unwoundRun.getPosition SYM_UNDY > 0 then
        if unwoundRun.bestBid world SYM_UNDY > 0 then
          (unwoundRun.quoted.sendNewOrder world SYM_UNDY .SELL
            (unwoundRun.getPosition SYM_UNDY).toUInt32 (unwoundRun.bestBid world SYM_UNDY)).1
        else unwoundRun.quoted
      else unwoundRun) := by
    split
    · rename_i long
      split
      · rename_i bid
        exact unwound.trans ((Extends.quoted _).trans (sendNewOrder_tame world _ SYM_UNDY .SELL
          (toUInt32_ne_zero_of_pos long) (ne_zero_of_gt bid)))
      · exact unwound.trans (Extends.quoted _)
    · exact unwound
  exact ((UnderWay.refl inProgress).tame sold).ends

end Helpers

end Run

/-! ### The arbs -/

/-- A snapshot that says that no price is missing has none of 0. -/
structure ArbSnapshot.Priced (snap : ArbSnapshot) : Prop where
  asks : snap.anyDormAskMissing = false → ∀ dorm ∈ snap.dorms.toList, dorm.bestAskPrice ≠ 0
  bids : snap.anyDormBidMissing = false → ∀ dorm ∈ snap.dorms.toList, dorm.bestBidPrice ≠ 0

theorem SymbolManager.priced_snapshot (manager : SymbolManager) : manager.snapshot.Priced := by
  have side : ∀ price : DormData → Int32,
      (((DORM_IDS.map manager.dormData).map price).foldl addToNav (0, false)).2 = false →
      ∀ dorm ∈ DORM_IDS.map manager.dormData, price dorm ≠ 0 := by
    intro price present dorm member zero
    have missing := (missing_foldl_addToNav (0, false)
      ((DORM_IDS.map manager.dormData).map price)).mpr
        (Or.inr (List.mem_map.mpr ⟨dorm, member, zero⟩))
    rw [present] at missing
    cases missing
  exact ⟨side DormData.bestAskPrice, side DormData.bestBidPrice⟩

namespace Run

section Arbs

variable (world : World) {run : Run} {snap : ArbSnapshot}

/-- The run when the ten buys of a creation have been sent. -/
def legsFired (run : Run) (snap : ArbSnapshot) : Run :=
  (fireLegs (creationQty snap)
    (((run.act (.setArbInProgress true)).tick 1).act (.setArbStartTime (run.now world))) snap).1

/-- The run when the UNDY buy of a redemption has been sent. -/
def undyOrdered (run : Run) (snap : ArbSnapshot) : Run :=
  (((run.act (.setArbInProgress true)).tick 1).act
    (.setArbStartTime (run.now world))).sendOrderNoWait SYM_UNDY .BUY
      (redemptionQty snap).toUInt32 snap.undyBestAskPrice

section Begins

variable (priced : snap.Priced) (calm : run.state.manager.pnlNearLimit = false)

include calm

/-- An arb begins. -/
theorem startArb_permits (idle : ¬ run.state.arbInProgress = true) (time : Int) {later : Run}
    (tame : TameTo (((run.act (.setArbInProgress true)).tick 1).act (.setArbStartTime time))
      later) :
    Extends BotState.Permits run later ∧ later.state.arbInProgress = true := by
  have begun : Extends BotState.Permits run (run.act (.setArbInProgress true)) :=
    @Extends.act _ run (.setArbInProgress true) ⟨Bool.eq_false_of_not_eq_true idle, calm⟩
  have timed : TameTo (run.act (.setArbInProgress true))
      (((run.act (.setArbInProgress true)).tick 1).act (.setArbStartTime time)) :=
    (Extends.tick _ 1).trans
      (@Extends.act _ ((run.act (.setArbInProgress true)).tick 1) (.setArbStartTime time) trivial)
  obtain ⟨continues, flag⟩ :=
    (@UnderWay.refl (run.act (.setArbInProgress true)) rfl).tame (timed.trans tame)
  exact ⟨begun.trans (continues.mono fun _ _ here => here.1), flag⟩

include priced

theorem legsFired_permits (starts : run.startsCreation snap = true) :
    Extends BotState.Permits run (run.legsFired world snap) ∧
      (run.legsFired world snap).state.arbInProgress = true := by
  have positive := creationQty_pos_of_starts starts
  rw [startsCreation, decide_eq_true_iff] at starts
  obtain ⟨present, idle, -, -⟩ := starts
  have asks : snap.anyDormAskMissing = false :=
    Bool.eq_false_of_not_eq_true fun missing => present (Or.inl missing)
  exact startArb_permits calm idle _ (@fireEach_tame .BUY _ (toUInt32_ne_zero_of_pos positive)
    DormData.bestAskPrice _ (priced.asks asks) _)

omit priced in
theorem undyOrdered_permits (starts : run.startsRedemption snap = true) :
    Extends BotState.Permits run (run.undyOrdered world snap) ∧
      (run.undyOrdered world snap).state.arbInProgress = true := by
  have some_qty := toUInt32_ne_zero_of_pos (redemptionQty_pos_of_starts starts)
  rw [startsRedemption, decide_eq_true_iff] at starts
  obtain ⟨present, idle, -, -⟩ := starts
  exact startArb_permits calm idle _
    (sendOrder_tame _ SYM_UNDY .BUY some_qty fun zero => present (Or.inr zero))

end Begins

/-- Where all fills are there, `/create` may be called. -/
theorem createAndSell_continues (fuel : Nat) {qty : Int32} (positive : qty > 0) {held : Run}
    (underWay : UnderWay run held) (filled : held.allFilled qty = true) :
    Extends BotState.Continues run (createAndSell world fuel qty held snap).1 := by
  have holds : ∀ symbol ∈ DORM_IDS, qty ≤ held.state.manager.getPosition symbol := by
    rw [allFilled, List.all_eq_true] at filled
    exact fun symbol member => of_decide_eq_true (filled symbol member)
  have called : UnderWay run
      { held.act (.callCreate qty (world.create held.etfCalls qty)) with
        etfCalls := held.etfCalls + 1 } := by
    refine ⟨underWay.1.trans (Extends.trans (@Extends.act _ held
      (.callCreate qty (world.create held.etfCalls qty))
        ⟨⟨underWay.2, positive, holds⟩, BotAction.noConfusion⟩)
        (Extends.of_eq rfl rfl)), underWay.2⟩
  rw [createAndSell]
  dsimp only
  generalize { held.act (.callCreate qty (world.create held.etfCalls qty)) with
    etfCalls := held.etfCalls + 1 } = creation at called
  split
  · dsimp only
    exact (called.tame (unwindDormLongs_tame world creation)).1
  · have booked := called.tame
      (bookCreation_tame world (toUInt32_ne_zero_of_pos positive) _ snap)
    exact (booked.tame (sellUndy_tame world fuel 0 _ _)).1

/-- A creation whose legs have been sent goes on without another beginning. -/
theorem tryCreationArb_continues (fuel : Nat) (starts : run.startsCreation snap = true)
    (inProgress : (run.legsFired world snap).state.arbInProgress = true) :
    Extends BotState.Continues (run.legsFired world snap)
      (run.tryCreationArb world fuel snap).1 := by
  have sent : UnderWay (run.legsFired world snap) (run.sendLegs world snap).1 :=
    (UnderWay.refl inProgress).tame (waits_extend tame_receives world _ _)
  have goesOn := tryCreationArb_goesOn world fuel starts
  generalize run.tryCreationArb world fuel snap = tried at goesOn
  cases goesOn with
  | legsMissing missing =>
      dsimp only
      exact (sent.tame (unwindDormLongs_tame world _)).1
  | polling count =>
      dsimp only
      exact (sent.tame (Extends.tick _ count)).1
  | timedOut count =>
      dsimp only
      generalize (run.sendLegs world snap).1 = legs at sent
      have expired : TameTo (legs.tick count) ((legs.tick count).act .fillTimeout) :=
        @Extends.act _ (legs.tick count) .fillTimeout trivial
      have polled := (sent.tame (Extends.tick legs count)).tame expired
      exact (polled.tame (unwindDormLongs_tame world _)).ends
  | filled count filled =>
      exact createAndSell_continues world fuel (creationQty_pos_of_starts starts)
        (sent.tame (Extends.tick _ count)) filled

/-- So does a redemption whose UNDY buy has been sent. -/
theorem tryRedemptionArb_continues (world : EtfWorld) (priced : snap.Priced)
    (starts : run.startsRedemption snap = true)
    (inProgress : (run.undyOrdered world.toWorld snap).state.arbInProgress = true) :
    Extends BotState.Continues (run.undyOrdered world.toWorld snap)
      (run.tryRedemptionArb world snap).1 := by
  have some_qty := toUInt32_ne_zero_of_pos (redemptionQty_pos_of_starts starts)
  have bids : snap.anyDormBidMissing = false := by
    rw [startsRedemption, decide_eq_true_iff] at starts
    exact Bool.eq_false_of_not_eq_true fun missing => starts.1 (Or.inl missing)
  have bought : UnderWay (run.undyOrdered world.toWorld snap)
      (run.buyUndy world.toWorld snap).1 :=
    (UnderWay.refl inProgress).tame (wait_extends tame_receives world.toWorld _ _)
  have filled := bought.tame
    (fillWait_extends tame_receives world.toWorld _ run.state.nextOrderId)
  rw [tryRedemptionArb, if_neg (not_not.mpr starts)]
  dsimp only
  split
  · exact bought.ends
  · split
    · exact filled.ends
    · generalize ((run.buyUndy world.toWorld snap).1.waitForFill world.toWorld
        run.state.nextOrderId).1 = held at filled
      have called : UnderWay (run.undyOrdered world.toWorld snap)
          { held with etfCalls := held.etfCalls + 1 } := filled.tame (Extends.of_eq rfl rfl)
      rw [redeemAndSell]
      dsimp only
      split
      · exact called.1
      · have booked := called.tame (bookRedemption_tame world.toWorld some_qty _ snap)
        have fired := booked.tame
          (@fireEach_tame .SELL _ some_qty DormData.bestBidPrice _ (priced.bids bids) _)
        exact (fired.tame (waits_extend tame_receives world.toWorld _ _)).1

section Permits

variable (priced : snap.Priced) (calm : run.state.manager.pnlNearLimit = false)

include priced calm

theorem tryCreationArb_permits (fuel : Nat) :
    Extends BotState.Permits run (run.tryCreationArb world fuel snap).1 := by
  by_cases starts : run.startsCreation snap = true
  · obtain ⟨fired, inProgress⟩ := legsFired_permits world priced calm starts
    exact fired.trans ((tryCreationArb_continues world fuel starts inProgress).mono
      fun _ _ here => here.1)
  · rw [tryCreationArb, if_pos starts]
    exact Extends.refl run

theorem tryRedemptionArb_permits (world : EtfWorld) :
    Extends BotState.Permits run (run.tryRedemptionArb world snap).1 := by
  by_cases starts : run.startsRedemption snap = true
  · obtain ⟨ordered, inProgress⟩ := undyOrdered_permits world.toWorld calm starts
    exact ordered.trans ((tryRedemptionArb_continues world priced starts inProgress).mono
      fun _ _ here => here.1)
  · rw [tryRedemptionArb, if_pos starts]
    exact Extends.refl run

end Permits

/-- A creation that has started never lets a redemption have its turn. -/
theorem tryCreationArb_started (fuel : Nat) (starts : run.startsCreation snap = true) :
    (run.tryCreationArb world fuel snap).2 ≠ some false := by
  intro refused
  have goesOn := tryCreationArb_goesOn world fuel starts
  generalize run.tryCreationArb world fuel snap = tried at *
  cases goesOn with
  | legsMissing missing => cases refused
  | polling count => cases refused
  | timedOut count => cases refused
  | filled count filled =>
      rw [createAndSell] at refused
      dsimp only at refused
      split at refused
      · cases refused
      · obtain ⟨-, -, impossible⟩ := Option.map_eq_some_iff.mp refused
        cases impossible

/-- One that has not started has done nothing. -/
theorem tryCreationArb_refused {fuel : Nat}
    (refused : (run.tryCreationArb world fuel snap).2 = some false) :
    (run.tryCreationArb world fuel snap).1 = run := by
  by_cases starts : run.startsCreation snap = true
  · exact absurd refused (tryCreationArb_started world fuel starts)
  · rw [tryCreationArb, if_pos starts]

end Arbs

end Run

/-! ### The market maker's own actions -/

/-- An action of the market maker that is no order. -/
def LoopAction.Free : LoopAction → Prop
  | .bot (.receive _) | .deleteOrder _ | .forget _ | .setLastBlueMid _ => True
  | .bot _ | .sendMmOrder _ _ _ => False

/-- The same, or an order of another kind than `quote`. -/
def LoopAction.Spares (quote : MmQuote) : LoopAction → Prop
  | .sendMmOrder other _ _ => other ≠ quote
  | .bot (.receive _) | .deleteOrder _ | .forget _ | .setLastBlueMid _ => True
  | .bot _ => False

theorem LoopAction.Free.spares {action : LoopAction} (free : action.Free) (quote : MmQuote) :
    action.Spares quote := by
  cases action with
  | bot inner => cases inner <;> trivial
  | sendMmOrder | deleteOrder | forget | setLastBlueMid => trivial

theorem LoopAction.Free.continues {action : LoopAction} (free : action.Free) (mmLimit : Int32)
    (state : MmState) : state.Continues mmLimit action := by
  constructor
  · cases action with
    | bot inner => cases inner <;> trivial
    | sendMmOrder | deleteOrder | forget | setLastBlueMid => trivial
  · rintro rfl
    exact free

/-- An order of the arb for some quantity at some price, or an answer. -/
def LoopAction.Unwinds : LoopAction → Prop
  | .bot (.sendOrder _ _ qty price) => qty ≠ 0 ∧ price ≠ 0
  | .bot (.receive _) => True
  | .bot _ | .sendMmOrder _ _ _ | .deleteOrder _ | .forget _ | .setLastBlueMid _ => False

theorem LoopAction.Unwinds.continues {action : LoopAction} (unwinds : action.Unwinds)
    (mmLimit : Int32) (state : MmState) : state.Continues mmLimit action := by
  constructor
  · cases action with
    | bot inner =>
        cases inner with
        | sendOrder symbol side qty price => exact unwinds
        | receive response => trivial
        | book | callCreate | fillTimeout | setArbInProgress | setArbStartTime =>
            exact absurd unwinds id
    | sendMmOrder | deleteOrder | forget | setLastBlueMid => exact absurd unwinds id
  · rintro rfl
    exact unwinds

theorem LoopAction.Unwinds.arbInProgress {action : LoopAction} (unwinds : action.Unwinds)
    (state : MmState) : (state.act action).bot.arbInProgress = state.bot.arbInProgress := by
  cases action with
  | bot inner =>
      apply BotState.arbInProgress_act
      rintro inProgress rfl
      exact unwinds
  | sendMmOrder | deleteOrder | forget | setLastBlueMid => exact absurd unwinds id

/-- No callback remembers a quote. -/
theorem BotState.forgotten_callbacks (callbacks : List Callback) (bot : BotState) :
    (bot.blueBidId = 0 → (callbacks.foldl callback bot).blueBidId = 0) ∧
      (bot.blueAskId = 0 → (callbacks.foldl callback bot).blueAskId = 0) := by
  induction callbacks generalizing bot with
  | nil => exact ⟨id, id⟩
  | cons first callbacks inductionHypothesis =>
      have later := inductionHypothesis (bot.callback first)
      have here : (bot.blueBidId = 0 → (bot.callback first).blueBidId = 0) ∧
          (bot.blueAskId = 0 → (bot.callback first).blueAskId = 0) := by
        cases first with
        | onReject orderId => exact ⟨id, id⟩
        | onClose orderId => exact ⟨id, id⟩
        | onFill event =>
            rw [callback, fillCallback]
            split
            · exact ⟨id, id⟩
            · split
              · dsimp only
                split
                · constructor
                  · intro forgotten
                    simp [forgotten]
                  · intro forgotten
                    simp [forgotten]
                · exact ⟨id, id⟩
              · exact ⟨id, id⟩
      exact ⟨fun forgotten => later.1 (here.1 forgotten),
        fun forgotten => later.2 (here.2 forgotten)⟩

namespace MmState

/-- A kind of quote that is not remembered stays so while it is spared. -/
theorem quoteId_act_of_spares {quote : MmQuote} {action : LoopAction}
    (spares : action.Spares quote) {state : MmState} (forgotten : state.quoteId quote = 0) :
    (state.act action).quoteId quote = 0 := by
  cases action with
  | bot inner =>
      cases inner with
      | receive response =>
          have kept := BotState.forgotten_callbacks response.callbacks
            { state.bot with client := state.bot.client.receive response }
          cases quote with
          | bid => exact kept.1 forgotten
          | ask => exact kept.2 forgotten
          | flatten => exact forgotten
      | sendOrder | book | callCreate | fillTimeout | setArbInProgress | setArbStartTime =>
          exact absurd spares id
  | deleteOrder id => cases quote <;> exact forgotten
  | sendMmOrder other qty price =>
      cases quote <;> cases other <;> first | exact forgotten | exact absurd rfl spares
  | forget other => cases quote <;> cases other <;> first | exact forgotten | rfl
  | setLastBlueMid mid => cases quote <;> exact forgotten

theorem arbInProgress_act_of_spares {quote : MmQuote} {action : LoopAction}
    (spares : action.Spares quote) (state : MmState) :
    (state.act action).bot.arbInProgress = state.bot.arbInProgress := by
  cases action with
  | bot inner =>
      apply BotState.arbInProgress_act
      rintro inProgress rfl
      exact spares
  | deleteOrder id => rfl
  | sendMmOrder other qty price => cases other <;> rfl
  | forget other => cases other <;> rfl
  | setLastBlueMid mid => rfl

end MmState

namespace LoopRun

/-- One run goes on to another without an order. -/
abbrev FreeTo : LoopRun → LoopRun → Prop := Extends fun _ action => action.Free

/-- One run goes on to another without an order of that kind. -/
abbrev SparesTo (quote : MmQuote) : LoopRun → LoopRun → Prop :=
  Extends fun _ action => action.Spares quote

/-- One run goes on to another by orders of the arb and answers. -/
abbrev UnwindsTo : LoopRun → LoopRun → Prop := Extends fun _ action => action.Unwinds

section Stretches

variable {allowed weaker : MmState → LoopAction → Prop} {loop later : LoopRun}

theorem Extends.mono (implies : ∀ state action, allowed state action → weaker state action)
    (reached : Extends allowed loop later) : Extends weaker loop later := by
  obtain ⟨added, grown, final, along⟩ := reached
  have always : ∀ (state : MmState) (action : LoopAction), True → allowed state action → True :=
    fun _ _ _ _ => trivial
  exact ⟨added, grown, final, along.of_invariant always (fun state action _ => implies state action)
    trivial⟩

/-- The flag is as before where every action leaves it. -/
theorem Extends.arbInProgress (reached : Extends allowed loop later)
    (leaves : ∀ state action, allowed state action →
      (state.act action).bot.arbInProgress = state.bot.arbInProgress) :
    later.state.bot.arbInProgress = loop.state.bot.arbInProgress := by
  obtain ⟨added, grown, final, along⟩ := reached
  have keeps : ∀ (state : MmState) (action : LoopAction),
      state.bot.arbInProgress = loop.state.bot.arbInProgress → allowed state action →
      (state.act action).bot.arbInProgress = loop.state.bot.arbInProgress :=
    fun state action kept here => (leaves state action here).trans kept
  rw [final]
  exact invariant_foldl keeps rfl along

/-- A kind of quote that is not remembered still is not. -/
theorem Extends.forgotten {quote : MmQuote} (spares : SparesTo quote loop later)
    (forgotten : loop.quoteId quote = 0) : later.quoteId quote = 0 := by
  obtain ⟨added, grown, final, along⟩ := spares
  have keeps : ∀ (state : MmState) (action : LoopAction), state.quoteId quote = 0 →
      action.Spares quote → (state.act action).quoteId quote = 0 :=
    fun _ _ kept here => MmState.quoteId_act_of_spares here kept
  rw [quoteId, final]
  exact invariant_foldl keeps forgotten along

theorem Extends.spares (free : FreeTo loop later) (quote : MmQuote) : SparesTo quote loop later :=
  free.mono fun _ _ here => here.spares quote

end Stretches

/-! ### The parts of the loops -/

section Parts

variable (world : World) {mmLimit : Int32}

theorem wait_free (loop : LoopRun) (id : UInt64) : FreeTo loop (loop.waitForResponse world id) := by
  have receives : Run.Extends (fun _ action => (LoopAction.bot action).Free) loop.toRun
      (loop.toRun.waitForResponse world id).1 :=
    Run.wait_extends (fun _ _ => trivial) world loop.toRun id
  exact Extends.absorb (fun _ _ free => free) receives

theorem deleteOrder_free (loop : LoopRun) (id : UInt64) :
    FreeTo loop (loop.deleteOrder world id) :=
  (@Extends.act _ loop (.deleteOrder id) trivial).trans (wait_free world _ id)

theorem safeDelete_free (loop : LoopRun) (quote : MmQuote) :
    FreeTo loop (loop.safeDelete world quote) := by
  rw [safeDelete]
  split
  · exact Extends.refl loop
  · exact (deleteOrder_free world loop _).trans (@Extends.act _ _ (.forget quote) trivial)

/-- After `safe_delete` nothing of that kind is remembered. -/
theorem quoteId_safeDelete (loop : LoopRun) (quote : MmQuote) :
    (loop.safeDelete world quote).quoteId quote = 0 := by
  rw [safeDelete]
  split
  · rename_i forgotten
    exact forgotten
  · cases quote <;> rfl

theorem guards_free (bluePos : Int32) (loop : LoopRun) :
    FreeTo loop ((loop.guardBid world mmLimit bluePos).guardAsk world mmLimit bluePos) := by
  have bid : FreeTo loop (loop.guardBid world mmLimit bluePos) := by
    rw [guardBid]
    split
    · exact safeDelete_free world loop .bid
    · exact Extends.refl loop
  rw [guardAsk]
  split
  · exact bid.trans (safeDelete_free world _ .ask)
  · exact bid

theorem Extends.continues {loop later : LoopRun} (free : FreeTo loop later) (mmLimit : Int32) :
    Extends (MmState.Continues mmLimit) loop later :=
  free.mono fun state _ here => here.continues mmLimit state

theorem sendMmOrder_continues {loop : LoopRun} {quote : MmQuote} {qty : UInt32} {price : Int32}
    (here : loop.state.Permits mmLimit (.sendMmOrder quote qty price)) :
    Extends (MmState.Continues mmLimit) loop (loop.sendMmOrder world quote qty price) :=
  (Extends.act ⟨here, LoopAction.noConfusion⟩).trans ((wait_free world _ _).continues mmLimit)

theorem flattenShort_continues (bluePos : Int32) (loop : LoopRun) :
    Extends (MmState.Continues mmLimit) loop (loop.flattenShort world bluePos) := by
  have readQuote : Extends (MmState.Continues mmLimit) loop loop.quoted := Extends.of_eq rfl rfl
  rw [flattenShort]
  dsimp only
  split
  · rename_i short
    split
    · have some_qty : (-bluePos).toUInt32 ≠ 0 := by
        apply Run.toUInt32_ne_zero
        rw [Int32.neg_ne_zero]
        intro flat
        rw [flat] at short
        exact absurd short.1 (by decide)
      exact readQuote.trans (sendMmOrder_continues world ⟨short.2, some_qty,
        fun other => absurd rfl other, by simp, by simp⟩)
    · exact readQuote
  · exact Extends.refl loop

theorem forgetFlatten_continues (bluePos : Int32) (loop : LoopRun) :
    Extends (MmState.Continues mmLimit) loop (loop.forgetFlatten bluePos) := by
  rw [forgetFlatten]
  split
  · exact @Extends.act _ loop (.forget .flatten) ⟨trivial, LoopAction.noConfusion⟩
  · exact Extends.refl loop

theorem quoteBid_continues (blueTick : UInt32) (mid : Int32) {loop : LoopRun}
    (forgotten : loop.quoteId .bid = 0) (idle : loop.state.bot.arbInProgress = false) :
    Extends (MmState.Continues mmLimit) loop (loop.quoteBid world mmLimit blueTick mid) := by
  rw [quoteBid]
  split
  · rename_i room
    exact sendMmOrder_continues world ⟨forgotten, by decide, fun _ => ⟨rfl, idle⟩, fun _ => room,
      by simp⟩
  · exact Extends.refl loop

theorem quoteBid_spares (blueTick : UInt32) (mid : Int32) (loop : LoopRun) :
    SparesTo .ask loop (loop.quoteBid world mmLimit blueTick mid) := by
  have sent : ∀ qty price, SparesTo .ask loop (loop.sendMmOrder world .bid qty price) := by
    intro qty price
    have bid : (LoopAction.sendMmOrder .bid qty price).Spares .ask := by simp [LoopAction.Spares]
    exact (@Extends.act _ loop (.sendMmOrder .bid qty price) bid).trans
      ((wait_free world _ _).spares .ask)
  rw [quoteBid]
  split
  · exact sent _ _
  · exact Extends.refl loop

theorem quoteAsk_continues (blueTick : UInt32) (mid : Int32) {loop : LoopRun}
    (forgotten : loop.quoteId .ask = 0) (idle : loop.state.bot.arbInProgress = false) :
    Extends (MmState.Continues mmLimit) loop (loop.quoteAsk world mmLimit blueTick mid) := by
  rw [quoteAsk]
  split
  · rename_i room
    exact sendMmOrder_continues world ⟨forgotten, by decide, fun _ => ⟨rfl, idle⟩, by simp,
      fun _ => room⟩
  · exact Extends.refl loop

/-- Both quotes are gone before new ones are sent. -/
theorem quoteAround_continues (blueTick : UInt32) (mid : Int32) {loop : LoopRun}
    (idle : loop.state.bot.arbInProgress = false) :
    Extends (MmState.Continues mmLimit) loop (loop.quoteAround world mmLimit blueTick mid) := by
  have bidGone := quoteId_safeDelete world loop .bid
  have askGone := quoteId_safeDelete world (loop.safeDelete world .bid) .ask
  have first := safeDelete_free world loop .bid
  have second := safeDelete_free world (loop.safeDelete world .bid) .ask
  have deleted := first.trans second
  have stillGone := (second.spares .bid).forgotten bidGone
  have stillIdle := (deleted.spares .bid).arbInProgress
    fun state _ spares => MmState.arbInProgress_act_of_spares spares state
  rw [quoteAround]
  generalize (loop.safeDelete world .bid).safeDelete world .ask = clean at *
  have bid := @quoteBid_continues world mmLimit blueTick mid _ stillGone (stillIdle.trans idle)
  have spares := @quoteBid_spares world mmLimit blueTick mid clean
  have bidIdle := spares.arbInProgress
    fun state _ spares => MmState.arbInProgress_act_of_spares spares state
  have ask := @quoteAsk_continues world mmLimit blueTick mid _ (spares.forgotten askGone)
    (bidIdle.trans (stillIdle.trans idle))
  exact (((deleted.continues mmLimit).trans bid).trans ask).trans
    (@Extends.act _ _ (.setLastBlueMid mid) ⟨trivial, LoopAction.noConfusion⟩)

theorem requote_continues (blueTick : UInt32) (loop : LoopRun) :
    Extends (MmState.Continues mmLimit) loop (loop.requote world mmLimit blueTick) := by
  have readQuotes : Extends (MmState.Continues mmLimit) loop loop.quoted.quoted :=
    Extends.of_eq rfl rfl
  rw [requote]
  dsimp only
  split
  · split
    · rename_i moved
      exact readQuotes.trans
        (quoteAround_continues world blueTick _ (Bool.eq_false_of_not_eq_true moved.2))
    · exact readQuotes
  · exact readQuotes

theorem blueMarketMaker_continues (blueTick : UInt32) (loop : LoopRun) :
    Extends (MmState.Continues mmLimit) loop (loop.blueMarketMaker world mmLimit blueTick) := by
  have guarded := (@guards_free world mmLimit (loop.getPosition SYM_BLUE) loop).continues mmLimit
  have flattened := guarded.trans (flattenShort_continues world (loop.getPosition SYM_BLUE) _)
  have forgotten := flattened.trans (forgetFlatten_continues (loop.getPosition SYM_BLUE) _)
  exact forgotten.trans (requote_continues world blueTick _)

/-- An order against a position. -/
theorem flattenSymbol_unwinds (loop : LoopRun) (symbol : UInt32) :
    UnwindsTo loop (loop.flattenSymbol world symbol) := by
  have readQuote : UnwindsTo loop loop.quoted := Extends.of_eq rfl rfl
  rw [flattenSymbol]
  generalize (if loop.getPosition symbol > 0 then loop.bestBid world symbol
    else loop.bestAsk world symbol) = price
  dsimp only
  split
  · exact Extends.refl loop
  · rename_i held
    split
    · exact readQuote
    · rename_i priced
      have sent : ∀ side : Side, Run.Extends (fun _ action => (LoopAction.bot action).Unwinds)
          loop.toRun (loop.quoted.toRun.sendNewOrder world symbol side
            (loop.getPosition symbol).abs.toUInt32 price).1 := by
        intro side
        refine Run.Extends.trans (Run.Extends.of_eq rfl rfl) (Run.Extends.trans
          (@Run.Extends.act _ loop.quoted.toRun (.sendOrder symbol side _ price)
            ⟨Run.toUInt32_abs_ne_zero held, Run.ne_zero_of_not_le priced⟩)
          (Run.wait_extends (fun _ _ => trivial) world _ _))
      exact Extends.absorb (fun _ _ unwinds => unwinds) (sent _)

end Parts

section Loops

variable (world : LoopWorld) {mmLimit : Int32}

theorem cancelAllOpenOrders_free (loop : LoopRun) :
    FreeTo loop (loop.cancelAllOpenOrders world) :=
  Extends.foldl (deleteOrder_free world.toWorld) _ loop

theorem runGuard_continues (fuel : Nat) (loop : LoopRun) :
    Extends (MmState.Continues mmLimit) loop (loop.runGuard world fuel).1 := by
  have cancelled := (cancelAllOpenOrders_free world loop).continues mmLimit
  have unwound := Extends.foldl (flattenSymbol_unwinds world.toWorld) symbolList
    (loop.cancelAllOpenOrders world)
  rw [runGuard]
  dsimp only
  exact cancelled.trans (unwound.mono fun state _ here => here.continues mmLimit state)

theorem pnlGuard_continues (fuel : Nat) (loop : LoopRun) :
    Extends (MmState.Continues mmLimit) loop (loop.pnlGuard world fuel).1 := by
  have deleted := (safeDelete_free world.toWorld loop .bid).trans
    (safeDelete_free world.toWorld _ .ask)
  have guarded := @runGuard_continues world mmLimit fuel
    ((loop.safeDelete world.toWorld .bid).safeDelete world.toWorld .ask)
  rw [runGuard] at guarded
  rw [pnlGuard]
  dsimp only at guarded ⊢
  exact (deleted.continues mmLimit).trans guarded

/-- What the functions of the arbs may do, the loop may do. -/
theorem absorb_permits {loop : LoopRun} {run : Run}
    (reached : Run.Extends BotState.Permits loop.toRun run) :
    Extends (MmState.Permits mmLimit) loop (loop.absorb run) :=
  Extends.absorb (fun _ _ here => here) reached

theorem expire_continues (world : World) {loop : LoopRun}
    (inProgress : loop.state.bot.arbInProgress = true) :
    Extends (MmState.Continues mmLimit) loop (loop.expire world) := by
  have timed : Extends (MmState.Continues mmLimit) loop
      { loop with clockReads := loop.clockReads + 1 } := Extends.of_eq rfl rfl
  rw [expire]
  split
  · have ended := @Run.arbTimeout_continues world { loop with
      clockReads := loop.clockReads + 1 }.toRun inProgress
    exact timed.trans (Extends.absorb (fun _ _ here => ⟨here.1, by simpa using here.2⟩) ended)
  · exact timed

/-- The part of `run_with_mm` and of `run` for an arb in progress. -/
theorem arbFlat_continues {loop later : LoopRun} (cleaned : UnwindsTo loop later)
    (inProgress : loop.state.bot.arbInProgress = true) :
    Extends (MmState.Continues mmLimit) loop (later.act (.bot (.setArbInProgress false))) := by
  have still := cleaned.arbInProgress fun state _ here => here.arbInProgress state
  exact (cleaned.mono fun state _ here => here.continues mmLimit state).trans
    (@Extends.act _ later (.bot (.setArbInProgress false)) ⟨still.trans inProgress, by simp⟩)

theorem tryArbs_permits (fuel : Nat) {loop : LoopRun}
    (calm : loop.state.bot.manager.pnlNearLimit = false) :
    Extends (MmState.Permits mmLimit) loop (loop.tryArbs world fuel).1 := by
  have priced : (loop.snapshot world).Priced := SymbolManager.priced_snapshot _
  have quoted : Run.Extends BotState.Permits loop.toRun loop.quoted.toRun :=
    Run.Extends.of_eq rfl rfl
  have tried := quoted.trans
    (@Run.tryCreationArb_permits world.toWorld loop.quoted.toRun _ priced calm fuel)
  rw [tryArbs]
  split
  · exact absorb_permits tried
  · exact absorb_permits tried
  · rename_i refused
    rw [Run.tryCreationArb_refused world.toWorld refused]
    exact absorb_permits (quoted.trans
      (@Run.tryRedemptionArb_permits loop.quoted.toRun _ priced calm world.toEtfWorld))

theorem Extends.permits {loop later : LoopRun}
    (continues : Extends (MmState.Continues mmLimit) loop later) :
    Extends (MmState.Permits mmLimit) loop later :=
  continues.mono fun _ _ here => here.1

theorem arbStep_permits (fuel : Nat) {loop : LoopRun}
    (calm : loop.state.bot.manager.pnlNearLimit = false) :
    Extends (MmState.Permits mmLimit) loop (loop.arbStep world fuel).1 := by
  rw [arbStep_eq]
  split
  · rename_i inProgress
    split
    · exact (arbFlat_continues (Extends.foldl (flattenSymbol_unwinds world.toWorld) DORM_IDS loop)
        inProgress).permits
    · exact (expire_continues world.toWorld inProgress).permits
  · exact tryArbs_permits world fuel calm

theorem iteration_permits (blueTick : UInt32) (fuel : Nat) (loop : LoopRun) :
    Extends (MmState.Permits mmLimit) loop (loop.iteration world mmLimit blueTick fuel).1 := by
  rw [iteration]
  split
  · exact (pnlGuard_continues world fuel loop).permits
  · rename_i calm
    have traded := @arbStep_permits world mmLimit fuel loop (Bool.eq_false_of_not_eq_true calm)
    dsimp only
    split
    · exact traded.trans (blueMarketMaker_continues world.toWorld blueTick _).permits
    · exact traded

theorem arbIteration_permits (fuel : Nat) (loop : LoopRun) :
    Extends (MmState.Permits mmLimit) loop (loop.arbIteration world fuel).1 := by
  rw [arbIteration]
  split
  · exact (runGuard_continues world fuel loop).permits
  · rename_i calm
    split
    · rename_i inProgress
      split
      · exact (arbFlat_continues (Extends.refl loop) inProgress).permits
      · exact (expire_continues world.toWorld inProgress).permits
    · exact tryArbs_permits world fuel (Bool.eq_false_of_not_eq_true calm)

theorem runWithMm_permits (blueTick : UInt32) (fuel turns : Nat) (loop : LoopRun) :
    Extends (MmState.Permits mmLimit) loop
      (loop.runWithMm world mmLimit blueTick fuel turns).1 := by
  induction turns generalizing loop with
  | zero => exact Extends.refl loop
  | succ turns inductionHypothesis =>
      have counted : Extends (MmState.Permits mmLimit) loop
          { loop with iterations := loop.iterations + 1 } := Extends.of_eq rfl rfl
      have turned := counted.trans (iteration_permits world blueTick fuel _)
      rw [runWithMm]
      dsimp only
      split
      · split
        · exact turned.trans (inductionHypothesis _)
        · exact turned
      · have deleted := (safeDelete_free world.toWorld loop .bid).trans
          (safeDelete_free world.toWorld _ .ask)
        exact (deleted.continues mmLimit).permits

theorem runArb_permits (fuel turns : Nat) (loop : LoopRun) :
    Extends (MmState.Permits mmLimit) loop (loop.runArb world fuel turns).1 := by
  induction turns generalizing loop with
  | zero => exact Extends.refl loop
  | succ turns inductionHypothesis =>
      have counted : Extends (MmState.Permits mmLimit) loop
          { loop with iterations := loop.iterations + 1 } := Extends.of_eq rfl rfl
      have turned := counted.trans (arbIteration_permits world fuel _)
      rw [runArb]
      dsimp only
      split
      · split
        · exact turned.trans (inductionHypothesis _)
        · exact turned
      · exact Extends.refl loop

/-- A run that started with an empty log has logged nothing but what is allowed. -/
theorem Extends.along_new {allowed : MmState → LoopAction → Prop} {state : MmState}
    {inbox : List OeResponse} {later : LoopRun}
    (reached : Extends allowed (new state inbox) later) :
    Along MmState.act allowed state later.log := by
  obtain ⟨added, grown, -, along⟩ := reached
  rw [grown]
  exact along

/-- Every action of either loop, however long it runs and whatever it is answered, is one that the
table permits in the state in which it is taken. -/
theorem runs_permitted (mmLimit : Int32) (blueTick : UInt32) (fuel turns : Nat) (state : MmState)
    (inbox : List OeResponse) :
    Along MmState.act (MmState.Permits mmLimit) state
        ((new state inbox).runWithMm world mmLimit blueTick fuel turns).1.log ∧
      Along MmState.act (MmState.Permits mmLimit) state
        ((new state inbox).runArb world fuel turns).1.log :=
  ⟨(runWithMm_permits world blueTick fuel turns _).along_new,
    (runArb_permits world fuel turns _).along_new⟩

end Loops

end LoopRun

end HftAlgorithms
