/-
Module: HftAlgorithms.Proofs.OrderRate
Purpose: How fast the risk manager lets order entry through.  The per-second
  counter belongs to a window that the first request a full second later restarts,
  so a window has at most the limit and an interval across a restart at most twice
  as much.
Trusted boundary: none
Main exports: RiskManager.forwardTimes, RiskManager.rateWindow,
  RiskManager.RateStep, RiskManager.rateStep_next,
  RiskManager.forwards_within_windows
-/
import HftAlgorithms.Lib.FixedWindow
import HftAlgorithms.Proofs.PnlFloor

namespace HftAlgorithms

open FixedWindow StateMachine

instance decidableIsOrderEntry : ∀ request : SenderRequest, Decidable request.IsOrderEntry
  | .newOrder _ _ _ _ _ | .modifyOrder _ _ _ _ => isTrue trivial
  | .deleteOrder _ => isFalse fun impossible => impossible

namespace RiskManager

/-- When the new-order and modify requests of a call are handed to the sender. -/
def forwardTimes (manager : RiskManager) (call : RiskCall) : List Int :=
  ((manager.requests call).filter fun request => request.IsOrderEntry).map fun _ => call.env.now

/-- A second, as the clock counts. -/
def second : Int := 1000000000

/-- The per-second counter and the start of its window. -/
def rateWindow (manager : RiskManager) : Window :=
  ⟨manager.secondWindowStart, manager.ordersThisSecond.toNat⟩

/-! ### One call -/

/-- `refresh_rate_window`: whole milliseconds, truncated, reach a thousand when a second has
passed. -/
theorem rateWindow_refreshRateWindow (manager : RiskManager) (now : Int) :
    (manager.refreshRateWindow now).rateWindow = refresh second manager.rateWindow now := by
  have whole : (now - manager.secondWindowStart).tdiv 1000000 ≥ 1000 ↔
      second ≤ now - manager.rateWindow.start := by
    change _ ↔ (1000000000 : Int) ≤ now - manager.secondWindowStart
    generalize now - manager.secondWindowStart = elapsed
    rcases Int.le_total 0 elapsed with forward | backward
    · rw [Int.tdiv_eq_ediv_of_nonneg forward]
      omega
    · have mirrored : elapsed.tdiv 1000000 = -((-elapsed) / 1000000) := by
        rw [← Int.tdiv_eq_ediv_of_nonneg (by omega), Int.neg_tdiv, Int.neg_neg]
      rw [mirrored]
      omega
  rw [refreshRateWindow, refresh]
  by_cases ended : second ≤ now - manager.rateWindow.start
  · rw [if_pos ended, if_pos (whole.mpr ended)]
    rfl
  · rw [if_neg ended, if_neg fun reached => ended (whole.mp reached)]

/-- What a call does to the window: nothing, or a refresh, or a refresh and one request that the
rate check lets through. -/
inductive RateStep (limit : Nat) (now : Int) (window after : Window) : List Int → Prop where
  | same (unchanged : after = window) : RateStep limit now window after []
  | refused (refreshed : after = refresh second window now) : RateStep limit now window after []
  | forwarded (room : (refresh second window now).count < limit)
      (counted : after = letIn (refresh second window now)) :
      RateStep limit now window after [now]

theorem rateWindow_cancelAllOpenOrders (manager : RiskManager) (env : CallEnv) :
    (manager.cancelAllOpenOrders env).manager.rateWindow = manager.rateWindow :=
  @foldl_cancelOne_eq _ rateWindow (fun _ _ => rfl) env manager _

theorem rateWindow_settle (manager : RiskManager) (env : CallEnv) (sent : List SenderRequest) :
    (manager.settle env sent).manager.rateWindow = manager.rateWindow := by
  rw [settle, checkAndShutdownIfNeeded]
  split
  · rfl
  split
  · rfl
  · exact rateWindow_cancelAllOpenOrders _ env

/-- A settled call forwards what it has sent before the shutdown's deletes. -/
theorem filter_requests_settle (manager : RiskManager) (env : CallEnv)
    (sent : List SenderRequest) :
    (manager.settle env sent).requests.filter (fun request => request.IsOrderEntry) =
      sent.filter fun request => request.IsOrderEntry := by
  have deletes : (manager.checkAndShutdownIfNeeded env).requests.filter
      (fun request => request.IsOrderEntry) = [] := by
    rw [List.filter_eq_nil_iff]
    intro request member
    have nothingSent : request ∈ (manager.settle env []).requests := member
    rcases mem_requests_settle nothingSent with early | delete
    · exact absurd early List.not_mem_nil
    · simpa using delete
  rw [settle, List.filter_append, deletes, List.append_nil]

/-- Counting does not wrap below the limit. -/
theorem rateWindow_countRequest {manager : RiskManager} {limit : Nat}
    (room : manager.ordersThisSecond.toNat < limit) (fits : limit < 2 ^ 32) :
    manager.countRequest.rateWindow = letIn manager.rateWindow := by
  have counted : (manager.ordersThisSecond + 1).toNat = manager.ordersThisSecond.toNat + 1 := by
    rw [UInt32.toNat_add]
    exact Nat.mod_eq_of_lt (by change _ + 1 < 2 ^ 32; omega)
  change Window.mk manager.secondWindowStart (manager.ordersThisSecond + 1).toNat = _
  rw [counted]
  rfl

/-- The rate check lets a request through only below the limit. -/
theorem room_of_checkRateLimits {manager : RiskManager}
    (passes : manager.checkRateLimits = .OK) :
    manager.rateWindow.count < manager.limits.maxOrdersPerSecond.toNat := by
  rw [checkRateLimits] at passes
  split at passes
  · cases passes
  · rename_i below
    exact UInt32.lt_iff_toNat_lt.mp (UInt32.not_le.mp below)

theorem limits_refreshRateWindow (manager : RiskManager) (now : Int) :
    (manager.refreshRateWindow now).limits = manager.limits := by
  obtain ⟨count, start, refreshed⟩ := manager.refreshRateWindow_eq now
  rw [refreshed]

/-- A request that is let through: it is counted, and neither the answer nor the check at the end
touches the window again. -/
theorem rateStep_settle {manager refreshed counted : RiskManager} {env : CallEnv}
    {sent : SenderRequest} (entry : sent.IsOrderEntry)
    (fresh : refreshed = manager.refreshRateWindow env.now)
    (passes : refreshed.checkRateLimits = .OK)
    (window : counted.rateWindow = refreshed.countRequest.rateWindow) :
    RateStep manager.limits.maxOrdersPerSecond.toNat env.now manager.rateWindow
      (counted.settle env [sent]).manager.rateWindow
      (((counted.settle env [sent]).requests.filter fun request => request.IsOrderEntry).map
        fun _ => env.now) := by
  have room := room_of_checkRateLimits passes
  rw [fresh, limits_refreshRateWindow, rateWindow_refreshRateWindow] at room
  have one : [sent].filter (fun request => request.IsOrderEntry) = [sent] :=
    List.filter_cons_of_pos (decide_eq_true entry)
  rw [filter_requests_settle, one]
  refine .forwarded room ?_
  rw [rateWindow_settle, window, ← rateWindow_refreshRateWindow, ← fresh]
  rw [← rateWindow_refreshRateWindow, ← fresh] at room
  exact rateWindow_countRequest room (UInt32.toNat_lt _)

theorem rateStep_next (manager : RiskManager) (call : RiskCall) :
    RateStep manager.limits.maxOrdersPerSecond.toNat call.env.now manager.rateWindow
      (manager.next call).rateWindow (manager.forwardTimes call) := by
  obtain ⟨op, env⟩ := call
  cases op with
  | sendNewOrder id symbol side qty price =>
      simp only [next, forwardTimes, requests, perform, sendNewOrder]
      split
      · rename_i admitted
        simp only [admitsNewOrder, decide_eq_true_eq] at admitted
        refine rateStep_settle trivial rfl admitted.2 ?_
        rw [afterNewOrder]
        split <;> rfl
      · exact .refused (manager.rateWindow_refreshRateWindow env.now)
  | modifyOrder id side qty price =>
      simp only [next, forwardTimes, requests, perform, modifyOrder]
      split
      · rename_i admitted
        simp only [admitsModify, decide_eq_true_eq] at admitted
        refine rateStep_settle trivial rfl admitted.2 ?_
        rw [afterModify]
        split <;> rfl
      · exact .refused (manager.rateWindow_refreshRateWindow env.now)
  | deleteOrder id =>
      simp only [next, forwardTimes, requests, perform, deleteOrder]
      split <;> exact .same rfl
  | cancelAllOpenOrders =>
      have window := manager.rateWindow_cancelAllOpenOrders env
      have deletes : manager.forwardTimes ⟨.cancelAllOpenOrders, env⟩ = [] := by
        simp [forwardTimes, requests, perform, cancelAllOpenOrders, SenderRequest.IsOrderEntry]
        exact fun _ _ => rfl
      rw [deletes]
      exact .same window
  | onFill id qty price closed =>
      simp only [next, forwardTimes, requests, perform, onFill]
      split
      · exact .same rfl
      · rw [filter_requests_settle]
        exact .same (rateWindow_settle _ env [])
  | onReject id => exact .same rfl
  | onClose id => exact .same rfl
  | updateMarkPrice markPrice => exact .same rfl
  | onSeqNumUpdate seqNum =>
      simp only [next, forwardTimes, requests, perform, onSeqNumUpdate]
      split <;> exact .same rfl
  | checkAndShutdownIfNeeded =>
      have deletes : manager.forwardTimes ⟨.checkAndShutdownIfNeeded, env⟩ = [] :=
        congrArg (List.map _) (filter_requests_settle manager env [])
      rw [deletes]
      exact .same (rateWindow_settle manager env [])

/-! ### Runs -/

section Runs

variable {limit : Nat} {window after : Window} {latest now : Int} {times added : List Int}

theorem RateStep.paced (step : RateStep limit now window after added)
    (paced : Paced second limit window latest times) (passes : latest ≤ now) :
    Paced second limit after now (times ++ added) := by
  have refreshed := paced.refresh (by decide) passes
  cases step with
  | same unchanged =>
      rw [unchanged, List.append_nil]
      exact paced.later passes
  | refused ended =>
      rw [ended, List.append_nil]
      exact refreshed
  | forwarded room counted =>
      rw [counted]
      exact refreshed.letIn room (lt_refresh (by decide))

/-- The window only ever moves a full second on. -/
theorem RateStep.restart (step : RateStep limit now window after added) :
    after.start = window.start ∨ window.start + second ≤ after.start := by
  have moved : (refresh second window now).start = window.start ∨
      window.start + second ≤ (refresh second window now).start := by
    rw [refresh]
    split
    · rename_i ended
      right
      change window.start + second ≤ now
      omega
    · exact Or.inl rfl
  cases step with
  | same unchanged =>
      rw [unchanged]
      exact Or.inl rfl
  | refused refreshed =>
      rw [refreshed]
      exact moved
  | forwarded _ counted =>
      rw [counted]
      exact moved

/-- The calls are made at clock readings that do not decrease, from `now` on. -/
def InOrder (now : Int) (calls : List RiskCall) : Prop :=
  List.Pairwise (· ≤ ·) (now :: calls.map fun call => call.env.now)

theorem paced_foldl {limits : RiskLimits} {manager : RiskManager} {calls : List RiskCall}
    (configured : Configured limits manager)
    (paced : Paced second limits.maxOrdersPerSecond.toNat manager.rateWindow latest times)
    (ordered : InOrder latest calls) :
    ∃ last,
      Paced second limits.maxOrdersPerSecond.toNat (calls.foldl next manager).rateWindow last
        (times ++ emitted next forwardTimes manager calls) := by
  induction calls generalizing manager latest times with
  | nil =>
      rw [emitted_nil, List.append_nil]
      exact ⟨latest, paced⟩
  | cons call calls inductionHypothesis =>
      obtain ⟨passes, later⟩ := List.pairwise_cons.mp ordered
      have step := manager.rateStep_next call
      rw [configured.own] at step
      rw [emitted_cons, ← List.append_assoc]
      exact inductionHypothesis (configured_next configured call)
        (step.paced paced (passes _ List.mem_cons_self)) later

end Runs

/-- For every run, at clock readings that do not decrease and whatever the sender answers: the
window is restarted only when it is a second old; at every moment at most
`max_orders_per_second` new orders and modifies have been forwarded since it was started; and within
any interval shorter than a second at most twice as many. -/
theorem forwards_within_windows (limits : RiskLimits) (now : Int) (calls : List RiskCall)
    (ordered : InOrder now calls) :
    Along next (fun manager call =>
        (manager.next call).secondWindowStart = manager.secondWindowStart ∨
          manager.secondWindowStart + second ≤ (manager.next call).secondWindowStart)
      (new limits now) calls ∧
    (∀ earlier, earlier <+: calls →
      (emitted next forwardTimes (new limits now) earlier).countP
          (fun time => (earlier.foldl next (new limits now)).secondWindowStart ≤ time) ≤
        limits.maxOrdersPerSecond.toNat) ∧
    ∀ start stop, stop - start < second →
      between start stop (emitted next forwardTimes (new limits now) calls) ≤
        2 * limits.maxOrdersPerSecond.toNat := by
  have sofar : ∀ earlier, InOrder now earlier →
      ∃ last, Paced second limits.maxOrdersPerSecond.toNat
        (earlier.foldl next (new limits now)).rateWindow last
        (emitted next forwardTimes (new limits now) earlier) := by
    intro earlier inOrder
    have fresh : Paced second limits.maxOrdersPerSecond.toNat (new limits now).rateWindow now [] :=
      paced_nil now
    exact paced_foldl (configured_new limits now) fresh inOrder
  refine ⟨?_, ?_, ?_⟩
  · exact @along_of_invariant_always _ _ _ _ (fun _ => True) (fun _ _ _ => trivial)
      (fun manager call _ => (manager.rateStep_next call).restart) _ trivial calls
  · rintro earlier ⟨later, rfl⟩
    have inOrder : InOrder now earlier := by
      apply List.Pairwise.sublist _ ordered
      rw [List.map_append]
      exact (List.sublist_append_left _ _).cons_cons now
    obtain ⟨_, paced⟩ := sofar earlier inOrder
    exact paced.counted.trans paced.limited
  · obtain ⟨_, paced⟩ := sofar calls ordered
    exact paced.anywhere

/-! ### Across a restart -/

/-- Three orders a second, and no limit per sequence number that matters. -/
def threeASecond : RiskLimits :=
  { RiskLimits.default with maxOrdersPerSecond := 3, maxOrdersPerSeqNum := 100 }

/-- A buy of one at a moment of the clock. -/
def buyAt (now : Int) (id : UInt64) : RiskCall :=
  ⟨.sendNewOrder id 1 .BUY 1 100, ⟨now, fun _ => true, .ascending⟩⟩

/-- Four attempts just before the second is over, and three when it is. -/
def acrossRestart : List RiskCall :=
  [buyAt 999000000 1, buyAt 999000000 2, buyAt 999000000 3, buyAt 999000000 4,
    buyAt 1000000000 5, buyAt 1000000000 6, buyAt 1000000000 7]

theorem forwards_within_windows_acrossRestart :
    between 999000000 1000000000 (emitted next forwardTimes (new threeASecond 0) acrossRestart) ≤
      2 * threeASecond.maxOrdersPerSecond.toNat :=
  (forwards_within_windows threeASecond 0 acrossRestart (by unfold InOrder; decide)).2.2 _ _
    (by decide)

/-- Six of them are forwarded within a millisecond. -/
theorem acrossRestart_forwards_six :
    InOrder 0 acrossRestart ∧ (1000000000 - 999000000 : Int) < second ∧
      between 999000000 1000000000
          (emitted next forwardTimes (new threeASecond 0) acrossRestart) = 6 ∧
      ¬ 6 ≤ threeASecond.maxOrdersPerSecond.toNat := by
  refine ⟨by unfold InOrder; decide, by decide, by decide +kernel, by decide⟩

end RiskManager

end HftAlgorithms
