/-
Module: HftAlgorithms.Proofs.RiskBooks
Purpose: What the total PnL of the risk manager is.  Against average-cost books of the
  fills it has booked, it is what they realized and what the open position would
  still make at the mark, in every state of every run.
Trusted boundary: none
Main exports: TradingBooks, TradingBooks.next, RiskManager.booked,
  RiskManager.Balanced, RiskManager.balanced_next, RiskManager.totalPnl_is_booked
-/
import HftAlgorithms.Proofs.ShutdownLatch
import HftAlgorithms.Proofs.UnrealizedPnl

namespace HftAlgorithms

open StateMachine

/-- A position at its average entry price, and what has been realized on the way to it. -/
structure TradingBooks where
  account : AverageCost ℚ
  realized : ℚ

namespace TradingBooks

def opening : TradingBooks := ⟨.flat, 0⟩

/-- A fill realizes what it closes. -/
def next (books : TradingBooks) : PnlCall → TradingBooks
  | .onFill side qty price =>
      { account := books.account.fill (fillMove side qty) price.toInt
        realized := books.realized + books.account.gain (fillMove side qty) price.toInt }
  | .updateMarkPrice _ => books

/-- Realized and unrealized. -/
def total (books : TradingBooks) (mark : ℚ) : ℚ :=
  books.realized + books.account.unrealized mark

end TradingBooks

namespace PnlTracker

/-- The account is of the tracker's position, and what it cost and what was realized make up the
difference of the two sums. -/
structure Balances (tracker : PnlTracker) (books : TradingBooks) : Prop where
  tracks : tracker.Tracks books.account
  net : tracker.gross.sold - tracker.gross.bought = books.realized - books.account.cost

theorem balances_new (minPnl : ℚ) : (new minPnl).Balances .opening where
  tracks := tracks_new minPnl
  net := by simp [TradingBooks.opening, AverageCost.flat, AverageCost.cost, gross, new]

theorem balances_next {tracker : PnlTracker} {books : TradingBooks} {call : PnlCall}
    (balances : tracker.Balances books) (fits : tracker.FitsCall call) :
    (tracker.next call).Balances (books.next call) := by
  have tracks := tracks_next balances.tracks fits
  cases call with
  | onFill side qty price =>
      refine ⟨tracks, ?_⟩
      rw [next, gross_onFill, AverageCost.net_fill, balances.net, TradingBooks.next,
        AverageCost.cost_fill]
      ring
  | updateMarkPrice price => exact ⟨tracks, balances.net⟩

theorem Balances.getTotalPnl_eq {tracker : PnlTracker} {books : TradingBooks}
    (balances : tracker.Balances books) :
    tracker.getTotalPnl = books.total tracker.markPrice.toInt := by
  have net : tracker.sellRevenue - tracker.buyCost = books.realized - books.account.cost :=
    balances.net
  rw [getTotalPnl, net, TradingBooks.total, AverageCost.unrealized_eq, balances.tracks.size]
  ring

end PnlTracker

namespace RiskManager

/-- What a call books: a fill, if its order is open, and a new mark. -/
def booked (manager : RiskManager) (call : RiskCall) : List PnlCall :=
  match call.op with
  | .onFill id qty price _ =>
      match manager.openOrders.lookup id with
      | none => []
      | some info => [.onFill info.side qty price]
  | .updateMarkPrice price => [.updateMarkPrice price]
  | _ => []

/-- The manager's two positions are one, and the PnL tracker balances with the books. -/
structure Balanced (manager : RiskManager) (books : TradingBooks) : Prop where
  position : manager.pnlTracker.position = manager.getPosition
  balances : manager.pnlTracker.Balances books

theorem balanced_congr {first second : RiskManager} {books : TradingBooks}
    (same : second.evaluated = first.evaluated) (balanced : first.Balanced books) :
    second.Balanced books := by
  obtain ⟨position, balances⟩ := balanced
  have trackers := same
  simp only [evaluated, Prod.mk.injEq] at trackers
  rw [← getPosition_congr same, ← trackers.2.2] at position
  rw [← trackers.2.2] at balances
  exact ⟨position, balances⟩

theorem balanced_afterFill {manager : RiskManager} {books : TradingBooks}
    (balanced : manager.Balanced books) {side : Side} {qty : UInt32} {price : Int32}
    (fits : manager.pnlTracker.FitsCall (.onFill side qty price)) (id : UInt64) (closed : Bool) :
    (manager.afterFill id side qty price closed).Balanced
      (books.next (.onFill side qty price)) where
  position := by
    have moved := PnlTracker.position_onFill manager.pnlTracker side qty price
    rw [balanced.position] at moved
    exact moved
  balances := PnlTracker.balances_next balanced.balances fits

/-- Only a fill that is booked and a new mark change what the total PnL reads. -/
theorem balanced_next {manager : RiskManager} {books : TradingBooks} {call : RiskCall}
    (balanced : manager.Balanced books)
    (fits : ∀ fill ∈ manager.booked call, manager.pnlTracker.FitsCall fill) :
    (manager.next call).Balanced ((manager.booked call).foldl TradingBooks.next books) := by
  obtain ⟨op, env⟩ := call
  obtain ⟨second, start, refreshed⟩ := manager.refreshRateWindow_eq env.now
  cases op with
  | sendNewOrder id symbol side qty price =>
      apply balanced_congr _ balanced
      simp only [next, perform, sendNewOrder, refreshed]
      split
      · rw [evaluated_settle, afterNewOrder]
        split <;> rfl
      · rfl
  | modifyOrder id side qty price =>
      apply balanced_congr _ balanced
      simp only [next, perform, modifyOrder, refreshed]
      split
      · rw [evaluated_settle, afterModify]
        split <;> rfl
      · rfl
  | deleteOrder id =>
      apply balanced_congr _ balanced
      simp only [next, perform, deleteOrder]
      split <;> rfl
  | cancelAllOpenOrders =>
      exact balanced_congr (evaluated_cancelAllOpenOrders manager env) balanced
  | onFill id qty price closed =>
      simp only [next, perform, onFill, booked] at fits ⊢
      cases found : manager.openOrders.lookup id with
      | none => exact balanced
      | some info =>
          simp only [found] at fits ⊢
          have fill := balanced_afterFill balanced (fits _ List.mem_cons_self) id closed
          exact balanced_congr (evaluated_settle _ env []) fill
  | onReject id => exact @balanced_congr manager (manager.forget id) books rfl balanced
  | onClose id => exact @balanced_congr manager (manager.forget id) books rfl balanced
  | updateMarkPrice markPrice =>
      have marked := PnlTracker.balances_next balanced.balances (fits _ List.mem_cons_self)
      exact ⟨balanced.position, marked⟩
  | onSeqNumUpdate seqNum =>
      apply balanced_congr _ balanced
      simp only [next, perform, onSeqNumUpdate]
      split <;> rfl
  | checkAndShutdownIfNeeded =>
      exact balanced_congr (evaluated_settle manager env []) balanced

/-! ### Runs -/

/-- The fills that a call books leave the position, and its negative, within a signed word. -/
def FitsBooked (manager : RiskManager) (call : RiskCall) : Prop :=
  ∀ fill ∈ manager.booked call, manager.pnlTracker.FitsCall fill

instance decidableFitsBooked (manager : RiskManager) (call : RiskCall) :
    Decidable (manager.FitsBooked call) :=
  List.decidableBAll _ _

theorem balanced_of_run {manager : RiskManager} {books : TradingBooks} {calls : List RiskCall}
    (balanced : manager.Balanced books) (fits : Along next FitsBooked manager calls) :
    (calls.foldl next manager).Balanced
      ((emitted next booked manager calls).foldl TradingBooks.next books) := by
  induction calls generalizing manager books with
  | nil => exact balanced
  | cons call calls inductionHypothesis =>
      rw [emitted_cons, List.foldl_append]
      exact inductionHypothesis (balanced_next balanced fits.1) fits.2

/-- In every state of every run in which positions stay within a signed word: the position tracker
and the PnL tracker hold the same position, which is that of the average-cost books of the fills
booked so far; the total PnL is what these realized plus what the open position makes at the mark;
and it is this sum that is compared with the PnL floor. -/
theorem totalPnl_is_booked (limits : RiskLimits) (now : Int) (calls : List RiskCall)
    (fits : Along next FitsBooked (new limits now) calls) :
    ∀ earlier, earlier <+: calls →
      let manager := earlier.foldl next (new limits now)
      let books := (emitted next booked (new limits now) earlier).foldl TradingBooks.next .opening
      manager.pnlTracker.position = manager.getPosition ∧
        books.account.size = manager.getPosition.toInt ∧
        manager.getTotalPnl = books.total manager.pnlTracker.markPrice.toInt ∧
        (manager.pnlBreach = true ↔
          books.total manager.pnlTracker.markPrice.toInt < limits.minPnl) := by
  intro earlier isPrefix
  dsimp only
  have opening : (new limits now).Balanced .opening :=
    ⟨rfl, PnlTracker.balances_new limits.minPnl⟩
  have balanced := balanced_of_run opening (fits.earlier isPrefix)
  have configured : Configured limits (earlier.foldl next (new limits now)) :=
    @invariant_foldl_always _ _ next (Configured limits)
      (fun _ call configured => configured_next configured call) _ (configured_new limits now)
      earlier
  have total := balanced.balances.getTotalPnl_eq
  refine ⟨balanced.position, ?_, total, ?_⟩
  · rw [← balanced.position]
    exact balanced.balances.tracks.size
  · rw [pnlBreach_iff configured]
    exact iff_of_eq (congrArg (· < limits.minPnl) total)

/-- Five bought at 100 and three of them sold at 110, marked at 105. -/
def soldInPart : List RiskCall :=
  [acknowledged (.sendNewOrder 1 1 .BUY 5 100), acknowledged (.onFill 1 5 100 true),
    acknowledged (.sendNewOrder 2 1 .SELL 3 110), acknowledged (.onFill 2 3 110 true),
    acknowledged (.updateMarkPrice 105)]

theorem totalPnl_is_booked_soldInPart :
    let manager := soldInPart.foldl next (new .default 0)
    let books := (emitted next booked (new .default 0) soldInPart).foldl TradingBooks.next .opening
    manager.getTotalPnl = books.total 105 ∧ books.realized = 30 := by
  have all := totalPnl_is_booked .default 0 soldInPart (by decide +kernel) soldInPart
    List.prefix_rfl
  exact ⟨all.2.2.1.trans (by decide +kernel), by decide +kernel⟩

end RiskManager

end HftAlgorithms
