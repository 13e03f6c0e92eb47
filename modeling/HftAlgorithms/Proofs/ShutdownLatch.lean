/-
Module: HftAlgorithms.Proofs.ShutdownLatch
Purpose: When the risk manager shuts down and what it does then.  The latch and
  the cancellation hold in every run; the trigger misses exactly one position,
  the least signed word, whose machine absolute value is negative.
Trusted boundary: none
Main exports: RiskManager.Settles, RiskManager.checkedState,
  RiskManager.perform_of_settles, RiskManager.Breached, RiskManager.LatchHolds,
  RiskManager.latchHolds_iff
-/
import HftAlgorithms.Lib.StateMachine
import HftAlgorithms.Proofs.RiskChecks
import HftAlgorithms.Proofs.RiskSteps

namespace HftAlgorithms

open FiniteMap StateMachine

/-- A request that enters or changes an order. -/
def SenderRequest.IsOrderEntry : SenderRequest → Prop
  | .newOrder .. => True
  | .modifyOrder .. => True
  | .deleteOrder _ => False

namespace RiskManager

/-! ### Calls that end in the shutdown check -/

/-- A new order or modify that gets past the risk and rate checks, or a fill of an open
order. -/
def evaluates (manager : RiskManager) (call : RiskCall) : Bool :=
  match call.op with
  | .sendNewOrder id _ side qty price =>
      (manager.refreshRateWindow call.env.now).admitsNewOrder id side qty price
  | .modifyOrder id side qty price =>
      (manager.refreshRateWindow call.env.now).admitsModify id side qty price
  | .onFill id _ _ _ => (manager.openOrders.lookup id).isSome
  | _ => false

/-- The calls that run `check_and_shutdown_if_needed`. -/
def Settles (manager : RiskManager) (call : RiskCall) : Prop :=
  manager.evaluates call ∨ call.op = .checkAndShutdownIfNeeded

instance decidableSettles (manager : RiskManager) (call : RiskCall) :
    Decidable (manager.Settles call) :=
  inferInstanceAs (Decidable (_ ∨ _))

/-- The order entry that a call forwards. -/
def forwarded (manager : RiskManager) (call : RiskCall) : List SenderRequest :=
  match call.op with
  | .sendNewOrder id symbol side qty price =>
      if (manager.refreshRateWindow call.env.now).admitsNewOrder id side qty price then
        [.newOrder id symbol side qty price]
      else []
  | .modifyOrder id side qty price =>
      if (manager.refreshRateWindow call.env.now).admitsModify id side qty price then
        [.modifyOrder id side qty price]
      else []
  | _ => []

/-- The state in which a call that settles runs the check. -/
def checkedState (manager : RiskManager) (call : RiskCall) : RiskManager :=
  match call.op with
  | .sendNewOrder id symbol side qty price =>
      (manager.refreshRateWindow call.env.now).afterNewOrder
        (call.env.answer (.newOrder id symbol side qty price)) id symbol side qty price
  | .modifyOrder id side qty price =>
      (manager.refreshRateWindow call.env.now).afterModify
        (call.env.answer (.modifyOrder id side qty price)) id side qty price
  | .onFill id qty price closed =>
      match manager.openOrders.lookup id with
      | none => manager
      | some info => manager.afterFill id info.side qty price closed
  | _ => manager

theorem perform_of_settles {manager : RiskManager} {call : RiskCall}
    (settles : manager.Settles call) :
    manager.perform call =
      (manager.checkedState call).settle call.env (manager.forwarded call) := by
  obtain ⟨op, env⟩ := call
  rcases settles with evaluates | rfl
  · cases op with
    | sendNewOrder id symbol side qty price =>
        simp only [RiskManager.evaluates] at evaluates
        simp only [perform, sendNewOrder, checkedState, forwarded, if_pos evaluates]
    | modifyOrder id side qty price =>
        simp only [RiskManager.evaluates] at evaluates
        simp only [perform, modifyOrder, checkedState, forwarded, if_pos evaluates]
    | onFill id qty price closed =>
        simp only [RiskManager.evaluates] at evaluates
        obtain ⟨info, found⟩ := Option.isSome_iff_exists.mp evaluates
        simp only [perform, onFill, checkedState, forwarded, found]
    | deleteOrder _ => cases evaluates
    | cancelAllOpenOrders => cases evaluates
    | onReject _ => cases evaluates
    | onClose _ => cases evaluates
    | updateMarkPrice _ => cases evaluates
    | onSeqNumUpdate _ => cases evaluates
    | checkAndShutdownIfNeeded => cases evaluates
  · rfl

/-! ### What cancelling leaves alone -/

/-- A reading of the state that the removal of orders does not change. -/
theorem foldl_cancelOne_eq {α : Type*} {read : RiskManager → α}
    (forget : ∀ manager id, read (manager.forget id) = read manager) (env : CallEnv)
    (manager : RiskManager) (ids : List UInt64) :
    read (ids.foldl (cancelOne env) manager) = read manager := by
  induction ids generalizing manager with
  | nil => rfl
  | cons id ids inductionHypothesis =>
      rw [List.foldl_cons, inductionHypothesis, cancelOne]
      split
      · exact forget manager id
      · rfl

/-- What the shutdown condition reads. -/
def evaluated (manager : RiskManager) : RiskLimits × PositionTracker × PnlTracker :=
  (manager.limits, manager.positionTracker, manager.pnlTracker)

theorem evaluated_cancelAllOpenOrders (manager : RiskManager) (env : CallEnv) :
    (manager.cancelAllOpenOrders env).manager.evaluated = manager.evaluated :=
  foldl_cancelOne_eq (fun _ _ => rfl) env manager _

theorem isShutdown_cancelAllOpenOrders (manager : RiskManager) (env : CallEnv) :
    (manager.cancelAllOpenOrders env).manager.isShutdown = manager.isShutdown :=
  foldl_cancelOne_eq (fun _ _ => rfl) env manager _

theorem inShutdown_cancelAllOpenOrders (manager : RiskManager) (env : CallEnv) :
    (manager.cancelAllOpenOrders env).manager.inShutdown = manager.inShutdown :=
  foldl_cancelOne_eq (fun _ _ => rfl) env manager _

/-! ### The shutdown check -/

/-- The condition as `check_and_shutdown_if_needed` computes it. -/
def breach (manager : RiskManager) : Bool := manager.pnlBreach || manager.posBreach

theorem breach_congr {first second : RiskManager} (same : first.evaluated = second.evaluated) :
    first.breach = second.breach := by
  simp only [evaluated, Prod.mk.injEq] at same
  obtain ⟨limits, position, pnl⟩ := same
  simp [breach, pnlBreach, posBreach, getPosition, limits, position, pnl]

theorem settle_of_quiet {manager : RiskManager}
    (quiet : manager.isShutdown = true ∨ manager.breach = false) (env : CallEnv)
    (sent : List SenderRequest) : manager.settle env sent = ⟨manager, sent⟩ := by
  have check : manager.checkAndShutdownIfNeeded env = ⟨manager, []⟩ := by
    rw [checkAndShutdownIfNeeded]
    split
    · rfl
    rename_i flags
    rcases quiet with down | calm
    · exact absurd (Or.inl down) flags
    · simp only [breach, Bool.or_eq_false_iff] at calm
      rw [if_pos ⟨by simp [calm.1], by simp [calm.2]⟩]
  rw [settle, check, List.append_nil]

/-- A running manager with a breach shuts down, deleting what is open. -/
theorem settle_of_breach {manager : RiskManager} (running : manager.isShutdown = false)
    (idle : manager.inShutdown = false) (breach : manager.breach = true) (env : CallEnv)
    (sent : List SenderRequest) :
    (manager.settle env sent).manager.isShutdown = true ∧
      (manager.settle env sent).manager.inShutdown = false ∧
      (manager.settle env sent).requests =
        sent ++ (env.keyOrder.keys manager.openOrders).map .deleteOrder := by
  have flags : ¬ (manager.isShutdown = true ∨ manager.inShutdown = true) := by
    simp [running, idle]
  have breached : ¬ (¬ manager.pnlBreach = true ∧ ¬ manager.posBreach = true) := by
    rw [RiskManager.breach, Bool.or_eq_true] at breach
    tauto
  rw [settle, checkAndShutdownIfNeeded, if_neg flags, if_neg breached]
  refine ⟨?_, rfl, rfl⟩
  exact isShutdown_cancelAllOpenOrders _ env

theorem evaluated_settle (manager : RiskManager) (env : CallEnv) (sent : List SenderRequest) :
    (manager.settle env sent).manager.evaluated = manager.evaluated := by
  rw [settle, checkAndShutdownIfNeeded]
  split
  · rfl
  split
  · rfl
  · exact evaluated_cancelAllOpenOrders _ env

/-! ### One call -/

theorem flags_checkedState (manager : RiskManager) (call : RiskCall) :
    (manager.checkedState call).isShutdown = manager.isShutdown ∧
      (manager.checkedState call).inShutdown = manager.inShutdown := by
  obtain ⟨op, env⟩ := call
  obtain ⟨second, start, refreshed⟩ := manager.refreshRateWindow_eq env.now
  cases op with
  | sendNewOrder id symbol side qty price =>
      simp only [checkedState, refreshed, afterNewOrder]
      split <;> exact ⟨rfl, rfl⟩
  | modifyOrder id side qty price =>
      simp only [checkedState, refreshed, afterModify]
      split <;> exact ⟨rfl, rfl⟩
  | onFill id qty price closed =>
      simp only [checkedState]
      split <;> exact ⟨rfl, rfl⟩
  | _ => exact ⟨rfl, rfl⟩

/-- What a call that does not run the check can do: it moves no position, changes nothing that
the check reads but the mark price, and sends only deletes. -/
structure LeavesUnchecked (manager : RiskManager) (call : RiskCall) : Prop where
  isShutdown : (manager.next call).isShutdown = manager.isShutdown
  inShutdown : (manager.next call).inShutdown = manager.inShutdown
  position : (manager.next call).getPosition = manager.getPosition
  evaluated : (∀ price, call.op ≠ .updateMarkPrice price) →
    (manager.next call).evaluated = manager.evaluated
  deletes : ∀ request ∈ manager.requests call, ¬ request.IsOrderEntry

/-- A call that only refreshes the rate window and is refused. -/
theorem leavesUnchecked_of_refused {manager : RiskManager} {call : RiskCall}
    (refused : manager.perform call = ⟨manager.refreshRateWindow call.env.now, []⟩) :
    manager.LeavesUnchecked call := by
  obtain ⟨second, start, refreshed⟩ := manager.refreshRateWindow_eq call.env.now
  rw [refreshed] at refused
  have after := congrArg Outcome.manager refused
  have sent := congrArg Outcome.requests refused
  refine ⟨?_, ?_, ?_, fun _ => ?_, ?_⟩
  · rw [next, after]
  · rw [next, after]
  · rw [next, after]
    rfl
  · rw [next, after]
    rfl
  · rw [requests, sent]
    simp

theorem leavesUnchecked_of_not_settles {manager : RiskManager} {call : RiskCall}
    (unsettled : ¬ manager.Settles call) : manager.LeavesUnchecked call := by
  obtain ⟨op, env⟩ := call
  cases op with
  | sendNewOrder id symbol side qty price =>
      apply leavesUnchecked_of_refused
      have refused : ¬ (manager.refreshRateWindow env.now).admitsNewOrder id side qty price =
          true := fun admitted => unsettled (Or.inl admitted)
      simp only [perform, sendNewOrder, if_neg refused]
  | modifyOrder id side qty price =>
      apply leavesUnchecked_of_refused
      have refused : ¬ (manager.refreshRateWindow env.now).admitsModify id side qty price =
          true := fun admitted => unsettled (Or.inl admitted)
      simp only [perform, modifyOrder, if_neg refused]
  | deleteOrder id =>
      have after : manager.next ⟨.deleteOrder id, env⟩ = cancelOne env manager id := rfl
      refine ⟨?_, ?_, ?_, fun _ => ?_, ?_⟩
      · rw [after, cancelOne]
        split <;> rfl
      · rw [after, cancelOne]
        split <;> rfl
      · rw [after, cancelOne]
        split <;> rfl
      · rw [after, cancelOne]
        split <;> rfl
      · simp [requests, perform, deleteOrder, SenderRequest.IsOrderEntry]
  | cancelAllOpenOrders =>
      refine ⟨isShutdown_cancelAllOpenOrders manager env,
        inShutdown_cancelAllOpenOrders manager env,
        foldl_cancelOne_eq (fun _ _ => rfl) env manager _,
        fun _ => evaluated_cancelAllOpenOrders manager env, ?_⟩
      intro request member
      obtain ⟨id, -, rfl⟩ := List.mem_map.mp member
      exact fun entry => entry
  | onFill id qty price closed =>
      have unknown : manager.openOrders.lookup id = none := by
        cases found : manager.openOrders.lookup id with
        | none => rfl
        | some info => exact absurd (Or.inl (by simp [evaluates, found])) unsettled
      have ignored : manager.perform ⟨.onFill id qty price closed, env⟩ = ⟨manager, []⟩ := by
        simp only [perform, onFill, unknown]
      refine ⟨?_, ?_, ?_, fun _ => ?_, ?_⟩ <;> simp [next, requests, ignored]
  | onReject id => exact ⟨rfl, rfl, rfl, fun _ => rfl, by simp [requests, perform]⟩
  | onClose id => exact ⟨rfl, rfl, rfl, fun _ => rfl, by simp [requests, perform]⟩
  | updateMarkPrice markPrice =>
      exact ⟨rfl, rfl, rfl, fun notMark => absurd rfl (notMark markPrice),
        by simp [requests, perform]⟩
  | onSeqNumUpdate seqNum =>
      have after : manager.next ⟨.onSeqNumUpdate seqNum, env⟩ = manager.onSeqNumUpdate seqNum := rfl
      refine ⟨?_, ?_, ?_, fun _ => ?_, by simp [requests, perform]⟩
      · rw [after, onSeqNumUpdate]
        split <;> rfl
      · rw [after, onSeqNumUpdate]
        split <;> rfl
      · rw [after, onSeqNumUpdate]
        split <;> rfl
      · rw [after, onSeqNumUpdate]
        split <;> rfl
  | checkAndShutdownIfNeeded => exact absurd (Or.inr rfl) unsettled

/-- Nothing is forwarded once the latch is set. -/
theorem forwarded_of_shutdown {manager : RiskManager} (down : manager.isShutdown = true)
    (call : RiskCall) : manager.forwarded call = [] := by
  obtain ⟨op, env⟩ := call
  cases op with
  | sendNewOrder id symbol side qty price =>
      have refused : manager.checkNewOrder id side qty price = .SYSTEM_SHUTDOWN := by
        rw [checkNewOrder, if_pos down]
      simp [forwarded, admitsNewOrder, refused]
  | modifyOrder id side qty price =>
      have refused : manager.checkModifyOrder id side qty price = .SYSTEM_SHUTDOWN := by
        rw [checkModifyOrder, if_pos down]
      simp [forwarded, admitsModify, refused]
  | _ => rfl

/-- The latch stays set, and only deletes reach the sender. -/
theorem latched_next {manager : RiskManager} (down : manager.isShutdown = true)
    (call : RiskCall) :
    (manager.next call).isShutdown = true ∧
      ∀ request ∈ manager.requests call, ¬ request.IsOrderEntry := by
  by_cases settles : manager.Settles call
  · have flags := (manager.flags_checkedState call).1.trans down
    rw [next, requests, perform_of_settles settles, settle_of_quiet (Or.inl flags),
      forwarded_of_shutdown down]
    exact ⟨flags, by simp⟩
  · have unchecked := leavesUnchecked_of_not_settles settles
    exact ⟨unchecked.isShutdown.trans down, unchecked.deletes⟩

/-- Between calls the reentry guard is down. -/
theorem inShutdown_next {manager : RiskManager} (idle : manager.inShutdown = false)
    (call : RiskCall) : (manager.next call).inShutdown = false := by
  by_cases settles : manager.Settles call
  · obtain ⟨shutdown, guard⟩ := manager.flags_checkedState call
    rw [next, perform_of_settles settles]
    by_cases quiet : (manager.checkedState call).isShutdown = true ∨
        (manager.checkedState call).breach = false
    · rw [settle_of_quiet quiet]
      exact guard.trans idle
    · push Not at quiet
      exact (settle_of_breach (by simpa using quiet.1) (guard.trans idle)
        (by simpa using quiet.2) _ _).2.1
  · exact (leavesUnchecked_of_not_settles settles).inShutdown.trans idle

/-! ### The trigger, exactly -/

/-- `get_total_pnl() < min_pnl` or `|position| > max_position`, in exact numbers. -/
def Breached (limits : RiskLimits) (manager : RiskManager) : Prop :=
  manager.getTotalPnl < limits.minPnl ∨
    limits.maxPosition.toInt < manager.getPosition.toInt.natAbs

theorem pnlBreach_iff {limits : RiskLimits} {manager : RiskManager}
    (configured : Configured limits manager) :
    manager.pnlBreach = true ↔ manager.getTotalPnl < limits.minPnl := by
  rw [pnlBreach, PnlTracker.belowMinPnl, decide_eq_true_eq, configured.minPnl, getTotalPnl]

/-- The computed condition is the exact one at every position but the least signed word. -/
theorem breach_iff {limits : RiskLimits} {manager : RiskManager}
    (configured : Configured limits manager) (notLeast : manager.getPosition ≠ Int32.minValue) :
    manager.breach = true ↔ Breached limits manager := by
  have position : manager.posBreach = true ↔
      limits.maxPosition.toInt < manager.getPosition.toInt.natAbs := by
    rw [posBreach, decide_eq_true_eq, configured.own, gt_iff_lt, Int32.lt_iff_toInt_lt,
      FixedWidth.toInt_abs_of_ne notLeast]
  rw [breach, Bool.or_eq_true, pnlBreach_iff configured, position, Breached]

/-- At the least signed word only the PnL is seen, though the limit is always exceeded. -/
theorem breach_least {limits : RiskLimits} {manager : RiskManager}
    (configured : Configured limits manager) (least : manager.getPosition = Int32.minValue) :
    Breached limits manager ∧ (manager.breach = true ↔ manager.getTotalPnl < limits.minPnl) := by
  have high := limits.maxPosition.toInt_lt
  refine ⟨Or.inr ?_, ?_⟩
  · rw [least]
    exact Int.lt_of_lt_of_le high (by decide)
  · have unseen : manager.posBreach = false := by
      rw [posBreach, least, FixedWidth.abs_minValue, decide_eq_false_iff_not, gt_iff_lt,
        Int32.not_lt, Int32.le_iff_toInt_le]
      exact Int32.le_toInt _
    rw [breach, unseen, Bool.or_false, pnlBreach_iff configured]

/-! ### The claim -/

/-- The call sends what it forwards, and then one delete for each order open at that moment. -/
def CancelsOpen (manager : RiskManager) (call : RiskCall) : Prop :=
  ∃ ids : List UInt64, ids.Nodup ∧
    (∀ id, id ∈ ids ↔ ((manager.checkedState call).openOrders.lookup id).isSome) ∧
    manager.requests call = manager.forwarded call ++ ids.map .deleteOrder

/-- The three parts of the latch over a run from a fresh manager. -/
structure LatchHolds (limits : RiskLimits) (now : Int) (calls : List RiskCall) : Prop where
  latched : ∀ earlier later, earlier ++ later = calls →
    (earlier.foldl next (new limits now)).isShutdown = true →
    (calls.foldl next (new limits now)).isShutdown = true ∧
      ∀ request ∈ emitted next requests (earlier.foldl next (new limits now)) later,
        ¬ request.IsOrderEntry
  triggered : Along next (fun manager call => manager.evaluates call →
    Breached limits (manager.next call) → (manager.next call).isShutdown = true)
    (new limits now) calls
  cancelled : Along next (fun manager call => manager.isShutdown = false →
    (manager.next call).isShutdown = true → manager.CancelsOpen call) (new limits now) calls

/-- A fill of an open order of a running manager, with the PnL not below its floor after it,
does not leave the position at the least signed word. -/
def AvoidsLeast (limits : RiskLimits) (manager : RiskManager) (call : RiskCall) : Prop :=
  ∀ id qty price closed info, call.op = .onFill id qty price closed →
    manager.openOrders.lookup id = some info → manager.isShutdown = false →
    ¬ (manager.pnlTracker.onFill info.side qty price).getTotalPnl < limits.minPnl →
    movedPosition manager.getPosition info.side qty ≠ Int32.minValue

theorem cancelsOpen_of_shutdown {manager : RiskManager} (idle : manager.inShutdown = false)
    {call : RiskCall} (running : manager.isShutdown = false)
    (down : (manager.next call).isShutdown = true) : manager.CancelsOpen call := by
  by_cases settles : manager.Settles call
  · obtain ⟨shutdown, guard⟩ := manager.flags_checkedState call
    rw [next, perform_of_settles settles] at down
    by_cases quiet : (manager.checkedState call).isShutdown = true ∨
        (manager.checkedState call).breach = false
    · rw [settle_of_quiet quiet, shutdown, running] at down
      cases down
    · push Not at quiet
      obtain ⟨-, -, sent⟩ := settle_of_breach (shutdown.trans running) (guard.trans idle)
        (by simpa using quiet.2) call.env (manager.forwarded call)
      refine ⟨_, call.env.keyOrder.nodup _, call.env.keyOrder.mem_keys _, ?_⟩
      rw [requests, perform_of_settles settles, sent]
  · rw [(leavesUnchecked_of_not_settles settles).isShutdown, running] at down
    cases down

/-- Where the check sees a breach the call ends shut down. -/
theorem isShutdown_of_breach {manager : RiskManager} (idle : manager.inShutdown = false)
    {call : RiskCall} (settles : manager.Settles call)
    (breach : (manager.checkedState call).breach = true) :
    (manager.next call).isShutdown = true := by
  obtain ⟨shutdown, guard⟩ := manager.flags_checkedState call
  rw [next, perform_of_settles settles]
  cases running : (manager.checkedState call).isShutdown with
  | false => exact (settle_of_breach running (guard.trans idle) breach _ _).1
  | true =>
      rw [settle_of_quiet (Or.inl running)]
      exact running

/-- What the check reads is still there when the call returns. -/
theorem evaluated_next_of_settles {manager : RiskManager} {call : RiskCall}
    (settles : manager.Settles call) :
    (manager.next call).evaluated = (manager.checkedState call).evaluated := by
  rw [next, perform_of_settles settles, evaluated_settle]

/-- Only a fill changes what the check reads before the check runs. -/
theorem checkedState_cases (manager : RiskManager) (call : RiskCall) :
    (∃ id qty price closed info, call.op = .onFill id qty price closed ∧
        manager.openOrders.lookup id = some info ∧
        manager.checkedState call = manager.afterFill id info.side qty price closed) ∨
      (manager.checkedState call).evaluated = manager.evaluated := by
  obtain ⟨op, env⟩ := call
  obtain ⟨second, start, refreshed⟩ := manager.refreshRateWindow_eq env.now
  cases op with
  | sendNewOrder id symbol side qty price =>
      right
      simp only [checkedState, refreshed, afterNewOrder]
      split <;> rfl
  | modifyOrder id side qty price =>
      right
      simp only [checkedState, refreshed, afterModify]
      split <;> rfl
  | onFill id qty price closed =>
      cases found : manager.openOrders.lookup id with
      | none =>
          right
          simp only [checkedState, found]
      | some info =>
          left
          exact ⟨id, qty, price, closed, info, rfl, found, by simp only [checkedState, found]⟩
  | _ => exact Or.inr rfl

theorem getPosition_congr {first second : RiskManager} (same : first.evaluated = second.evaluated) :
    first.getPosition = second.getPosition := by
  simp only [evaluated, Prod.mk.injEq] at same
  rw [getPosition, getPosition, same.2.1]

theorem getTotalPnl_congr {first second : RiskManager} (same : first.evaluated = second.evaluated) :
    first.getTotalPnl = second.getTotalPnl := by
  simp only [evaluated, Prod.mk.injEq] at same
  rw [getTotalPnl, getTotalPnl, same.2.2]

/-- Between calls: the limits are the configured ones, the guard is down, and while the manager
runs the machine absolute value of the position is right. -/
structure Watched (limits : RiskLimits) (manager : RiskManager) : Prop where
  configured : Configured limits manager
  idle : manager.inShutdown = false
  notLeast : manager.isShutdown = false → manager.getPosition ≠ Int32.minValue

theorem watched_new (limits : RiskLimits) (now : Int) : Watched limits (new limits now) := by
  have notLeast : (0 : Int32) ≠ Int32.minValue := by decide
  exact ⟨configured_new limits now, rfl, fun _ => notLeast⟩

theorem running_of_next {manager : RiskManager} {call : RiskCall}
    (running : (manager.next call).isShutdown = false) : manager.isShutdown = false := by
  cases down : manager.isShutdown with
  | false => rfl
  | true =>
      rw [(latched_next down call).1] at running
      cases running

theorem watched_next {limits : RiskLimits} {manager : RiskManager} {call : RiskCall}
    (watched : Watched limits manager) (avoids : AvoidsLeast limits manager call) :
    Watched limits (manager.next call) := by
  refine ⟨configured_next watched.configured call, inShutdown_next watched.idle call, ?_⟩
  intro running
  have before := running_of_next running
  by_cases settles : manager.Settles call
  · have same := evaluated_next_of_settles settles
    rw [getPosition_congr same]
    rcases manager.checkedState_cases call with fill | unchanged
    · obtain ⟨id, qty, price, closed, info, op, found, state⟩ := fill
      by_cases below : (manager.pnlTracker.onFill info.side qty price).getTotalPnl < limits.minPnl
      · -- such a fill shuts the manager down
        have breach : (manager.checkedState call).breach = true := by
          rw [← breach_congr same, breach, Bool.or_eq_true]
          left
          rw [pnlBreach_iff (configured_next watched.configured call), getTotalPnl_congr same,
            state]
          exact below
        rw [isShutdown_of_breach watched.idle settles breach] at running
        cases running
      · rw [state]
        exact avoids id qty price closed info op found before below
    · rw [getPosition_congr unchanged]
      exact watched.notLeast before
  · rw [(leavesUnchecked_of_not_settles settles).position]
    exact watched.notLeast before

theorem triggered_of_watched {limits : RiskLimits} {manager : RiskManager} {call : RiskCall}
    (watched : Watched limits manager) (avoids : AvoidsLeast limits manager call)
    (evaluates : manager.evaluates call) (breached : Breached limits (manager.next call)) :
    (manager.next call).isShutdown = true := by
  have after := watched_next watched avoids
  cases running : (manager.next call).isShutdown with
  | true => rfl
  | false =>
      have seen := (breach_iff after.configured (after.notLeast running)).mpr breached
      rw [breach_congr (evaluated_next_of_settles (Or.inl evaluates))] at seen
      rw [← running]
      exact isShutdown_of_breach watched.idle (Or.inl evaluates) seen

theorem avoidsLeast_of_triggered {limits : RiskLimits} {manager : RiskManager} {call : RiskCall}
    (configured : Configured limits manager)
    (triggered : manager.evaluates call → Breached limits (manager.next call) →
      (manager.next call).isShutdown = true) : AvoidsLeast limits manager call := by
  intro id qty price closed info op found running above least
  have evaluates : manager.evaluates call := by
    rw [RiskManager.evaluates, op]
    simp [found]
  have state : manager.checkedState call = manager.afterFill id info.side qty price closed := by
    simp only [checkedState, op, found]
  have same := evaluated_next_of_settles (Or.inl evaluates)
  have position : (manager.next call).getPosition = Int32.minValue := by
    rw [getPosition_congr same, state]
    exact least
  obtain ⟨breached, seen⟩ := breach_least (configured_next configured call) position
  have unseen : (manager.checkedState call).breach = false := by
    rw [← breach_congr same, ← Bool.not_eq_true, seen, getTotalPnl_congr same, state]
    exact above
  have down := triggered evaluates breached
  rw [next, perform_of_settles (Or.inl evaluates), settle_of_quiet (Or.inr unseen),
    (manager.flags_checkedState call).1, running] at down
  cases down

theorem latched_foldl {manager : RiskManager} (down : manager.isShutdown = true)
    (calls : List RiskCall) :
    (calls.foldl next manager).isShutdown = true ∧
      ∀ request ∈ emitted next requests manager calls, ¬ request.IsOrderEntry := by
  have step : ∀ (before : RiskManager) (call : RiskCall), before.isShutdown = true →
      (before.next call).isShutdown = true := fun _ call down => (latched_next down call).1
  refine ⟨invariant_foldl_always step down calls, ?_⟩
  apply emitted_forall
  exact along_of_invariant_always step (fun _ call down => (latched_next down call).2) down calls

/-- The latch and the cancellation hold in every run.  The trigger holds in exactly the runs in
which no fill of an open order leaves a running manager, with its PnL not below the floor, at
the least signed position. -/
theorem latchHolds_iff (limits : RiskLimits) (now : Int) (calls : List RiskCall) :
    LatchHolds limits now calls ↔ Along next (AvoidsLeast limits) (new limits now) calls := by
  constructor
  · intro holds
    have step : ∀ (manager : RiskManager) (call : RiskCall), Configured limits manager →
        (manager.evaluates call → Breached limits (manager.next call) →
          (manager.next call).isShutdown = true) → Configured limits (manager.next call) :=
      fun _ call configured _ => configured_next configured call
    refine Along.of_invariant step ?_ (configured_new limits now) holds.triggered
    · intro manager call configured triggered
      exact avoidsLeast_of_triggered configured triggered
  · intro avoids
    refine ⟨?_, ?_, ?_⟩
    · rintro earlier later rfl down
      rw [List.foldl_append]
      exact latched_foldl down later
    · exact Along.of_invariant (fun _ _ => watched_next)
        (fun _ _ => triggered_of_watched) (watched_new limits now) avoids
    · refine Along.of_invariant (fun _ _ => watched_next) ?_ (watched_new limits now) avoids
      intro manager call watched _ running down
      exact cancelsOpen_of_shutdown watched.idle running down

/-- The default limits with no cap on quantities and exposure. -/
def uncappedQuantity : RiskLimits :=
  { RiskLimits.default with maxQtyPerOrder := -1, maxQtyPerSide := -1, maxExposure := -1 }

/-- A sell of 2^31 is accepted, because the absolute value of the position it leads to is
negative, and then filled. -/
def sellToLeast : List RiskCall :=
  [acknowledged (.sendNewOrder 1 3 .SELL 2147483648 1), acknowledged (.onFill 1 2147483648 1 true)]

/-- The position is 2^31 short with a limit of 200, and the manager is still running. -/
theorem sellToLeast_not_shut_down : ¬ LatchHolds uncappedQuantity 0 sellToLeast := by
  intro holds
  have evaluates : ((new uncappedQuantity 0).next
      (acknowledged (.sendNewOrder 1 3 .SELL 2147483648 1))).evaluates
      (acknowledged (.onFill 1 2147483648 1 true)) := by
    show Option.isSome _ = true
    decide +kernel
  have breached : Breached uncappedQuantity (sellToLeast.foldl next (new uncappedQuantity 0)) := by
    right
    decide +kernel
  exact absurd (holds.triggered.2.1 evaluates breached) (by decide +kernel)

end RiskManager

end HftAlgorithms
