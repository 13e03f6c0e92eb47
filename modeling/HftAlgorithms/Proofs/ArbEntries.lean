/-
Module: HftAlgorithms.Proofs.ArbEntries
Purpose: How an arb of either loop begins.  In the snapshot with which its iteration
  has begun, what the first orders pay is less than what the other side of the arb
  was bid, and their quantity was displayed on every leg.
Trusted boundary: none
Main exports: LoopWorld.QuotesFit, LoopWorld.CreationEdge, LoopWorld.RedemptionEdge,
  LoopWorld.Opening, LoopRun.BeginsAtOnce, LoopRun.ArbsHaveEdge,
  LoopRun.arbs_have_edge
-/
import HftAlgorithms.Proofs.ArbSizing
import HftAlgorithms.Proofs.FillRouting
import HftAlgorithms.Proofs.LoopDiscipline

namespace HftAlgorithms

open StateMachine

/-! ### What an entry is worth -/

namespace LoopWorld

/-- Prices up to `10 ^ 8`, and 0 where a side is empty. -/
structure QuotesFit (world : LoopWorld) : Prop where
  bid : ∀ reading symbol, 0 ≤ (world.bestBidPrice reading symbol).toInt ∧
    (world.bestBidPrice reading symbol).toInt ≤ 10 ^ 8
  ask : ∀ reading symbol, 0 ≤ (world.bestAskPrice reading symbol).toInt ∧
    (world.bestAskPrice reading symbol).toInt ≤ 10 ^ 8

/-- In one pass over the caches, one lot of each dorm was offered for less than UNDY was bid, and
so was this quantity. -/
structure CreationEdge (world : LoopWorld) (reading : Nat) (qty : Int32) : Prop where
  positive : 0 < qty.toInt
  edge : (DORM_IDS.map fun id => (world.bestAskPrice reading id).toInt).sum <
    (world.bestBidPrice reading SYM_UNDY).toInt
  undy : qty.toInt ≤ (world.bestBidQty reading SYM_UNDY).toNat
  dorms : ∀ id ∈ DORM_IDS, qty.toInt ≤ (world.bestAskQty reading id).toNat

/-- UNDY was offered for less than one lot of each dorm was bid. -/
structure RedemptionEdge (world : LoopWorld) (reading : Nat) (qty : Int32) : Prop where
  positive : 0 < qty.toInt
  edge : (world.bestAskPrice reading SYM_UNDY).toInt <
    (DORM_IDS.map fun id => (world.bestBidPrice reading id).toInt).sum
  undy : qty.toInt ≤ (world.bestAskQty reading SYM_UNDY).toNat
  dorms : ∀ id ∈ DORM_IDS, qty.toInt ≤ (world.bestBidQty reading id).toNat

/-- How the log goes on behind the beginning of an arb: the time, and at the prices of a pass over
the caches either a buy of every dorm or one of UNDY. -/
inductive Opening (world : LoopWorld) (reading : Nat) : List LoopAction → Prop
  | creation {qty : Int32} (edge : world.CreationEdge reading qty) (time : Int)
      (later : List LoopAction) :
      Opening world reading (.bot (.setArbStartTime time) ::
        (DORM_IDS.map fun id =>
          .bot (.sendOrder id .BUY qty.toUInt32 (world.bestAskPrice reading id))) ++ later)
  | redemption {qty : Int32} (edge : world.RedemptionEdge reading qty) (time : Int)
      (later : List LoopAction) :
      Opening world reading (.bot (.setArbStartTime time) ::
        .bot (.sendOrder SYM_UNDY .BUY qty.toUInt32 (world.bestAskPrice reading SYM_UNDY)) ::
          later)

theorem Opening.grows {world : LoopWorld} {reading : Nat} (behind more : List LoopAction)
    (opening : Opening world reading behind) : Opening world reading (behind ++ more) := by
  cases opening with
  | creation edge time later =>
      rw [List.append_assoc]
      exact .creation edge time (later ++ more)
  | redemption edge time later => exact .redemption edge time (later ++ more)

end LoopWorld

/-- An arb begins. -/
def LoopAction.begins : LoopAction := .bot (.setArbInProgress true)

namespace LoopRun

/-! ### What a snapshot says -/

/-- No NAV of ten such prices wraps around. -/
theorem toInt_nav {price : UInt32 → Int32}
    (fit : ∀ id, 0 ≤ (price id).toInt ∧ (price id).toInt ≤ 10 ^ 8)
    (present : ((DORM_IDS.map price).foldl SymbolManager.addToNav (0, false)).2 = false) :
    ((DORM_IDS.map price).foldl SymbolManager.addToNav (0, false)).1.toInt =
        (DORM_IDS.map fun id => (price id).toInt).sum ∧
      0 ≤ (DORM_IDS.map fun id => (price id).toInt).sum ∧
      (DORM_IDS.map fun id => (price id).toInt).sum ≤ 10 ^ 9 := by
  have zero : ((0 : Int32), false).1.toInt = 0 := rfl
  have words : (DORM_IDS.map price).map Int32.toInt = DORM_IDS.map fun id => (price id).toInt :=
    List.map_map
  have positive : ∀ value ∈ DORM_IDS.map price, 1 ≤ value.toInt := by
    intro value member
    obtain ⟨id, dorm, rfl⟩ := List.mem_map.mp member
    have nonzero : price id ≠ 0 := by
      intro missing
      have told := (SymbolManager.missing_foldl_addToNav (0, false) (DORM_IDS.map price)).mpr
        (Or.inr (missing ▸ member))
      rw [present] at told
      cases told
    have atLeast := (fit id).1
    have different : (price id).toInt ≠ 0 := fun same => nonzero (Int32.toInt_inj.mp same)
    omega
  have least : 0 ≤ (DORM_IDS.map fun id => (price id).toInt).sum := by
    apply List.sum_nonneg
    intro value member
    obtain ⟨id, -, rfl⟩ := List.mem_map.mp member
    exact (fit id).1
  have most : (DORM_IDS.map fun id => (price id).toInt).sum ≤
      (DORM_IDS.map fun id => (price id).toInt).length • (10 ^ 8 : Int) := by
    apply List.sum_le_card_nsmul
    intro value member
    obtain ⟨id, -, rfl⟩ := List.mem_map.mp member
    exact (fit id).2
  have ten : (DORM_IDS.map fun id => (price id).toInt).length = 10 := rfl
  rw [ten, nsmul_eq_mul] at most
  refine ⟨?_, least, by omega⟩
  rw [SymbolManager.toInt_foldl_addToNav positive (by rw [zero]), zero, words, Int.zero_add]
  rw [zero, words]
  omega

/-- An edge above `MIN_EDGE` is one of exact prices. -/
theorem lt_of_edge {sells buys : Int32} (edge : sells - buys > Run.MIN_EDGE)
    (first : 0 ≤ sells.toInt ∧ sells.toInt ≤ 10 ^ 9)
    (second : 0 ≤ buys.toInt ∧ buys.toInt ≤ 10 ^ 9) : buys.toInt < sells.toInt := by
  have zero : Run.MIN_EDGE.toInt = 0 := rfl
  have exactly : (sells - buys).toInt = sells.toInt - buys.toInt := by
    rw [Int32.toInt_sub]
    exact Int.bmod_eq_of_le (by omega) (by omega)
  have above := Int32.lt_iff_toInt_lt.mp edge
  rw [exactly, zero] at above
  omega

section Snapshot

variable {world : LoopWorld} (fits : world.QuotesFit) (loop : LoopRun) {run : Run}

include fits

theorem creationEdge_of_starts (starts : run.startsCreation (loop.snapshot world) = true) :
    world.CreationEdge loop.quoteReads (Run.creationQty (loop.snapshot world)) := by
  have positive := Run.creationQty_pos_of_starts starts
  rw [Run.startsCreation, decide_eq_true_iff] at starts
  obtain ⟨present, -, edge, -⟩ := starts
  have asks : (loop.snapshot world).anyDormAskMissing = false :=
    Bool.eq_false_of_not_eq_true fun missing => present (Or.inl missing)
  obtain ⟨nav, least, most⟩ := toInt_nav (fits.ask loop.quoteReads) asks
  have bid := fits.bid loop.quoteReads SYM_UNDY
  have told : (loop.snapshot world).navAsk.toInt =
      (DORM_IDS.map fun id => (world.bestAskPrice loop.quoteReads id).toInt).sum := nav
  obtain ⟨undy, dorms, -⟩ := (Run.le_creationQty_iff (loop.snapshot world) _).mp (le_refl _)
  constructor
  · exact Int32.lt_iff_toInt_lt.mp positive
  · rw [← told]
    rw [← told] at least most
    exact lt_of_edge edge ⟨bid.1, by omega⟩ ⟨least, most⟩
  · exact undy.trans (toInt_toInt32_le _)
  · intro id dorm
    have displayed := (dorms _ (List.mem_map_of_mem dorm)).1
    exact displayed.trans (toInt_toInt32_le _)

theorem redemptionEdge_of_starts (starts : run.startsRedemption (loop.snapshot world) = true) :
    world.RedemptionEdge loop.quoteReads (Run.redemptionQty (loop.snapshot world)) := by
  have positive := Run.redemptionQty_pos_of_starts starts
  rw [Run.startsRedemption, decide_eq_true_iff] at starts
  obtain ⟨present, -, edge, -⟩ := starts
  have bids : (loop.snapshot world).anyDormBidMissing = false :=
    Bool.eq_false_of_not_eq_true fun missing => present (Or.inl missing)
  obtain ⟨nav, least, most⟩ := toInt_nav (fits.bid loop.quoteReads) bids
  have ask := fits.ask loop.quoteReads SYM_UNDY
  have told : (loop.snapshot world).navBid.toInt =
      (DORM_IDS.map fun id => (world.bestBidPrice loop.quoteReads id).toInt).sum := nav
  obtain ⟨undy, -, dorms⟩ := (Run.le_redemptionQty_iff (loop.snapshot world) _).mp (le_refl _)
  constructor
  · exact Int32.lt_iff_toInt_lt.mp positive
  · rw [← told]
    rw [← told] at least most
    exact lt_of_edge edge ⟨least, most⟩ ⟨ask.1, by omega⟩
  · exact undy.trans (toInt_toInt32_le _)
  · intro id dorm
    have displayed := (dorms _ (List.mem_map_of_mem dorm)).1
    exact displayed.trans (toInt_toInt32_le _)

end Snapshot

/-! ### The log of a beginning -/

/-- What the loop that sends an order for each dorm logs. -/
theorem log_fireEach (side : Side) (qty : UInt32) (price : DormData → Int32)
    (legs : List (UInt32 × DormData)) (fired : Run × List UInt64) :
    (legs.foldl
      (fun fired leg =>
        (fired.1.sendOrderNoWait leg.1 side qty (price leg.2),
          fired.2 ++ [fired.1.state.nextOrderId]))
      fired).1.log =
      fired.1.log ++ legs.map fun leg => .sendOrder leg.1 side qty (price leg.2) := by
  induction legs generalizing fired with
  | nil => simp
  | cons leg legs inductionHypothesis =>
      rw [List.foldl_cons, inductionHypothesis, List.map_cons]
      exact (List.append_cons _ _ _).symm

/-- One run of the loop goes on to another.  An arb begins there with the first action or not at
all, and it begins at the prices that the earlier of them reads next. -/
abbrev BeginsAtOnce (world : LoopWorld) (loop later : LoopRun) : Prop :=
  MarksAtOnce log LoopAction.begins (fun loop => world.Opening loop.quoteReads) loop later

/-- Wherever an arb begins in the log of a loop, one of its turns began with just what stands in
front of it logged, and entered the arb at the prices of the snapshot that it took. -/
def ArbsHaveEdge (world : LoopWorld) (run : Nat → LoopRun) (turns : Nat) : Prop :=
  ∀ earlier later, (run turns).log = earlier ++ LoopAction.begins :: later →
    ∃ turn < turns, (run turn).log = earlier ∧ world.Opening (run turn).quoteReads later

section Beginnings

variable {world : LoopWorld} {mmLimit : Int32}

/-- Where the loop only continues, no arb begins. -/
theorem Extends.absent {loop later : LoopRun}
    (continues : Extends (MmState.Continues mmLimit) loop later) :
    ∃ added, later.log = loop.log ++ added ∧ LoopAction.begins ∉ added := by
  obtain ⟨added, grown, -, along⟩ := continues
  refine ⟨added, grown, ?_⟩
  intro member
  obtain ⟨state, -, different⟩ := along.exists_of_mem member
  exact different rfl

theorem Extends.beginsAtOnce {loop later : LoopRun}
    (continues : Extends (MmState.Continues mmLimit) loop later) :
    BeginsAtOnce world loop later := by
  obtain ⟨added, grown, absent⟩ := continues.absent
  exact marksAtOnce_of_not_mem grown absent

theorem BeginsAtOnce.andContinues {loop halfway later : LoopRun}
    (begun : BeginsAtOnce world loop halfway)
    (continues : Extends (MmState.Continues mmLimit) halfway later) :
    BeginsAtOnce world loop later := by
  obtain ⟨added, grown, absent⟩ := continues.absent
  exact begun.append LoopWorld.Opening.grows grown absent

/-- An arb begins, and goes on without another. -/
theorem beginsAtOnce_absorb {loop : LoopRun} {begun later : Run} {opening : List BotAction}
    (log : begun.log = .setArbInProgress true :: opening)
    (none : BotAction.setArbInProgress true ∉ opening)
    (opens : world.Opening loop.quoteReads (opening.map .bot))
    (continues : Run.Extends BotState.Continues begun later) :
    BeginsAtOnce world loop (loop.absorb later) := by
  obtain ⟨added, grown, -, along⟩ := continues
  have absent : BotAction.setArbInProgress true ∉ opening ++ added := by
    intro member
    rcases List.mem_append.mp member with first | rest
    · exact none first
    · obtain ⟨bot, -, different⟩ := along.exists_of_mem rest
      exact different rfl
  apply @marksAtOnce_of_opening _ _ _ _ _ _ _ ((opening ++ added).map .bot)
  · rw [log, List.cons_append] at grown
    rw [absorb, grown]
    rfl
  · intro member
    obtain ⟨action, within, same⟩ := List.mem_map.mp member
    cases same
    exact absent within
  · rw [List.map_append]
    exact LoopWorld.Opening.grows _ _ opens

variable (fits : world.QuotesFit)

include fits

/-- A creation begins with its ten buys. -/
theorem creation_beginsAtOnce (fuel : Nat) {loop : LoopRun}
    (calm : loop.state.bot.manager.pnlNearLimit = false)
    (starts : loop.quoted.toRun.startsCreation (loop.snapshot world) = true) :
    BeginsAtOnce world loop (loop.absorb
      (loop.quoted.toRun.tryCreationArb world.toWorld fuel (loop.snapshot world)).1) := by
  have priced : (loop.snapshot world).Priced := SymbolManager.priced_snapshot _
  obtain ⟨-, inProgress⟩ :=
    @Run.legsFired_permits world.toWorld loop.quoted.toRun _ priced calm starts
  have continues := Run.tryCreationArb_continues world.toWorld fuel starts inProgress
  have edge := creationEdge_of_starts fits loop starts
  have opening := LoopWorld.Opening.creation edge (loop.quoted.toRun.now world.toWorld) []
  have log := log_fireEach .BUY (Run.creationQty (loop.snapshot world)).toUInt32
    DormData.bestAskPrice (DORM_IDS.zip (loop.snapshot world).dorms.toList)
    (((loop.quoted.toRun.act (.setArbInProgress true)).tick 1).act
      (.setArbStartTime (loop.quoted.toRun.now world.toWorld)), [])
  rw [List.append_nil] at opening
  exact beginsAtOnce_absorb log (by simp) opening continues

/-- A redemption begins with its UNDY buy. -/
theorem redemption_beginsAtOnce {loop : LoopRun}
    (calm : loop.state.bot.manager.pnlNearLimit = false)
    (starts : loop.quoted.toRun.startsRedemption (loop.snapshot world) = true) :
    BeginsAtOnce world loop (loop.absorb
      (loop.quoted.toRun.tryRedemptionArb world.toEtfWorld (loop.snapshot world)).1) := by
  have priced : (loop.snapshot world).Priced := SymbolManager.priced_snapshot _
  obtain ⟨-, inProgress⟩ :=
    @Run.undyOrdered_permits world.toWorld loop.quoted.toRun _ calm starts
  have continues := Run.tryRedemptionArb_continues world.toEtfWorld priced starts inProgress
  have edge := redemptionEdge_of_starts fits loop starts
  have opening := LoopWorld.Opening.redemption edge (loop.quoted.toRun.now world.toWorld) []
  have log : (loop.quoted.toRun.undyOrdered world.toWorld (loop.snapshot world)).log =
      .setArbInProgress true :: [.setArbStartTime (loop.quoted.toRun.now world.toWorld),
        .sendOrder SYM_UNDY .BUY (Run.redemptionQty (loop.snapshot world)).toUInt32
          (loop.snapshot world).undyBestAskPrice] := rfl
  exact beginsAtOnce_absorb log (by simp) opening continues

theorem tryArbs_beginsAtOnce (fuel : Nat) {loop : LoopRun}
    (calm : loop.state.bot.manager.pnlNearLimit = false) :
    BeginsAtOnce world loop (loop.tryArbs world fuel).1 := by
  by_cases starts : loop.quoted.toRun.startsCreation (loop.snapshot world) = true
  · have told := creation_beginsAtOnce fits fuel calm starts
    have answered := Run.tryCreationArb_started world.toWorld fuel starts
    rw [tryArbs]
    split
    · exact told
    · exact told
    · rename_i refused
      exact absurd refused answered
  · rw [tryArbs, Run.tryCreationArb, if_pos starts]
    dsimp only
    by_cases redeems : loop.quoted.toRun.startsRedemption (loop.snapshot world) = true
    · exact redemption_beginsAtOnce fits calm redeems
    · rw [Run.tryRedemptionArb, if_pos redeems]
      exact marksAtOnce_of_not_mem rfl List.not_mem_nil

theorem arbStep_beginsAtOnce (fuel : Nat) {loop : LoopRun}
    (calm : loop.state.bot.manager.pnlNearLimit = false) :
    BeginsAtOnce world loop (loop.arbStep world fuel).1 := by
  rw [arbStep_eq]
  split
  · rename_i inProgress
    split
    · exact (@arbFlat_continues 0 _ _ (Extends.foldl (flattenSymbol_unwinds world.toWorld) DORM_IDS
        loop) inProgress).beginsAtOnce
    · exact (@expire_continues 0 world.toWorld _ inProgress).beginsAtOnce
  · exact tryArbs_beginsAtOnce fits fuel calm

theorem iteration_beginsAtOnce (mmLimit : Int32) (blueTick : UInt32) (fuel : Nat) (loop : LoopRun) :
    BeginsAtOnce world loop (loop.iteration world mmLimit blueTick fuel).1 := by
  rw [iteration]
  split
  · exact (@pnlGuard_continues world mmLimit fuel loop).beginsAtOnce
  · rename_i calm
    have traded := arbStep_beginsAtOnce fits fuel (Bool.eq_false_of_not_eq_true calm)
    dsimp only
    split
    · exact traded.andContinues (@blueMarketMaker_continues world.toWorld mmLimit blueTick _)
    · exact traded

theorem arbIteration_beginsAtOnce (fuel : Nat) (loop : LoopRun) :
    BeginsAtOnce world loop (loop.arbIteration world fuel).1 := by
  rw [arbIteration]
  split
  · exact (@runGuard_continues world 0 fuel loop).beginsAtOnce
  · rename_i calm
    split
    · rename_i inProgress
      split
      · exact (@arbFlat_continues 0 _ _ (Extends.refl loop) inProgress).beginsAtOnce
      · exact (@expire_continues 0 world.toWorld _ inProgress).beginsAtOnce
    · exact tryArbs_beginsAtOnce fits fuel (Bool.eq_false_of_not_eq_true calm)

/-- A turn of `run_with_mm`: another follows or it was the last. -/
theorem runWithMm_round (mmLimit : Int32) (blueTick : UInt32) (fuel : Nat) (loop : LoopRun) :
    ∃ turned, BeginsAtOnce world loop turned ∧
      ((∀ turns, (loop.runWithMm world mmLimit blueTick fuel (turns + 1)).1 =
          (turned.runWithMm world mmLimit blueTick fuel turns).1) ∨
        ∀ turns, (loop.runWithMm world mmLimit blueTick fuel (turns + 1)).1 = turned) := by
  by_cases goesOn : world.running loop.iterations = true
  · have turned := iteration_beginsAtOnce fits mmLimit blueTick fuel
      { loop with iterations := loop.iterations + 1 }
    refine ⟨_, turned, ?_⟩
    cases ends : (LoopRun.iteration world mmLimit blueTick fuel
        { loop with iterations := loop.iterations + 1 }).2 with
    | true =>
        left
        intro turns
        rw [runWithMm, if_pos goesOn]
        dsimp only
        rw [if_pos ends]
    | false =>
        right
        intro turns
        rw [runWithMm, if_pos goesOn]
        dsimp only
        rw [if_neg (by simp [ends])]
  · have deleted := (safeDelete_free world.toWorld loop .bid).trans
      (safeDelete_free world.toWorld _ .ask)
    refine ⟨_, (deleted.continues mmLimit).beginsAtOnce, Or.inr ?_⟩
    intro turns
    rw [runWithMm, if_neg goesOn]

theorem runArb_round (fuel : Nat) (loop : LoopRun) :
    ∃ turned, BeginsAtOnce world loop turned ∧
      ((∀ turns, (loop.runArb world fuel (turns + 1)).1 = (turned.runArb world fuel turns).1) ∨
        ∀ turns, (loop.runArb world fuel (turns + 1)).1 = turned) := by
  by_cases goesOn : world.running loop.iterations = true
  · have turned := arbIteration_beginsAtOnce fits fuel
      { loop with iterations := loop.iterations + 1 }
    refine ⟨_, turned, ?_⟩
    cases ends : (LoopRun.arbIteration world fuel
        { loop with iterations := loop.iterations + 1 }).2 with
    | true =>
        left
        intro turns
        rw [runArb, if_pos goesOn]
        dsimp only
        rw [if_pos ends]
    | false =>
        right
        intro turns
        rw [runArb, if_pos goesOn]
        dsimp only
        rw [if_neg (by simp [ends])]
  · refine ⟨loop, (@Extends.refl (MmState.Continues 0) loop).beginsAtOnce, Or.inr ?_⟩
    intro turns
    rw [runArb, if_neg goesOn]

/-- No arb of either loop begins unless, in the snapshot of the turn in which it begins, the prices
that its first orders pay had an edge over what the other side was bid, and its quantity was
displayed on all eleven legs. -/
theorem arbs_have_edge (mmLimit : Int32) (blueTick : UInt32) (fuel turns : Nat) (state : MmState)
    (inbox : List OeResponse) :
    ArbsHaveEdge world
        (fun turns => ((new state inbox).runWithMm world mmLimit blueTick fuel turns).1) turns ∧
      ArbsHaveEdge world (fun turns => ((new state inbox).runArb world fuel turns).1) turns := by
  constructor
  · intro earlier later logged
    exact @exists_round_of_mark _ _ log _ _ (new state inbox)
      (fun turns loop => (loop.runWithMm world mmLimit blueTick fuel turns).1) (fun _ => rfl)
      (runWithMm_round fits mmLimit blueTick fuel) (fun _ => LoopWorld.Opening.grows) turns earlier
      later logged
  · intro earlier later logged
    exact @exists_round_of_mark _ _ log _ _ (new state inbox)
      (fun turns loop => (loop.runArb world fuel turns).1) (fun _ => rfl)
      (runArb_round fits fuel) (fun _ => LoopWorld.Opening.grows) turns earlier later logged

omit fits in
/-- The dorms are bid 1000 in all and UNDY is offered at 950: UNDY is bought. -/
theorem arbs_have_edge_redeemed :
    let run := fun turns => ((new (.new launchedBot) []).runWithMm redeemableWorld 4 5 9 turns).1
    LoopAction.begins ∈ (run 1).log ∧ ArbsHaveEdge redeemableWorld run 1 := by
  have fits : redeemableWorld.QuotesFit := by
    constructor
    · intro reading symbol
      simp only [redeemableWorld]
      split
      · decide
      · split <;> decide
    · intro reading symbol
      simp only [redeemableWorld]
      split
      · decide
      · split <;> decide
  exact ⟨by decide +kernel, (arbs_have_edge fits 4 5 9 1 (.new launchedBot) []).1⟩

end Beginnings

end LoopRun

end HftAlgorithms
