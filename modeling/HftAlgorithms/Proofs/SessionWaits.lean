/-
Module: HftAlgorithms.Proofs.SessionWaits
Purpose: What the risk manager writes to the socket when the client calls back into
  it.  A wait, with all that its callbacks do and the waits inside them, writes
  deletes only, leaves the counters alone and never takes the shutdown back; so an
  operation writes at most one new order or modify, in front of everything else.
Trusted boundary: none
Main exports: OeRequest.Enters, RiskManager.counters, RiskSession.Quiet,
  RiskSession.StepRule, RiskSession.WaitRule, RiskSession.WaitRule.waitForResponse,
  RiskSession.Waited, RiskSession.OpStep, RiskSession.opStep_next,
  RiskSession.unacked_zero_or_one, RiskSession.entries_within_seqNum,
  RiskSession.only_deletes_after_shutdown
-/
import HftAlgorithms.Lib.StateMachine
import HftAlgorithms.Proofs.FillAccounting
import HftAlgorithms.Proofs.RiskChecks
import HftAlgorithms.Proofs.RiskSteps

namespace HftAlgorithms

open StateMachine

/-- A request that brings an order to the exchange or changes one. -/
def OeRequest.Enters : OeRequest → Prop
  | .newOrder .. => True
  | .modifyOrder .. => True
  | .deleteOrder .. => False

instance decidableEnters : ∀ request : OeRequest, Decidable request.Enters
  | .newOrder .. | .modifyOrder .. => isTrue trivial
  | .deleteOrder .. => isFalse id

/-- The counters of requests, and the limits they are compared with. -/
def RiskManager.counters (manager : RiskManager) : RiskLimits × UInt32 × UInt32 × UInt32 :=
  (manager.limits, manager.ordersThisSeqNum, manager.lastSeqNum, manager.unackedOrders)

/-- Every order that is open after was open before. -/
def RiskManager.OpensNothing (after before : RiskManager) : Prop :=
  ∀ id, (after.openOrders.lookup id).isSome → (before.openOrders.lookup id).isSome

theorem RiskManager.opensNothing_forget (manager : RiskManager) (id : UInt64) :
    (manager.forget id).OpensNothing manager := by
  intro other found
  obtain ⟨info, lookup⟩ := Option.isSome_iff_exists.mp found
  exact Option.isSome_iff_exists.mpr ⟨info, FiniteMap.lookup_of_lookup_erase lookup⟩

theorem RiskManager.opensNothing_afterFill (manager : RiskManager) (id : UInt64) (side : Side)
    (qty : UInt32) (price : Int32) (closed : Bool) :
    (manager.afterFill id side qty price closed).OpensNothing manager := by
  cases closed with
  | true => exact manager.opensNothing_forget id
  | false => exact fun _ found => found

namespace RiskSession

/-! ### The rule of waits

What a wait does is a chain of small steps: a message is read, the client or the manager takes note
of it, a delete is written, a check may shut down.  A relation that the steps have, every wait has,
whatever its callbacks do and however deep they wait again. -/

/-- Nothing is written, no order is registered, and at most messages are read. -/
structure Quiet (before after : RiskSession) : Prop where
  counters : after.manager.counters = before.manager.counters
  isShutdown : after.manager.isShutdown = before.manager.isShutdown
  openOrders : after.manager.OpensNothing before.manager
  sent : after.sent = before.sent
  readings : ∃ added, after.readings = before.readings ++ added ∧
    ∀ reading ∈ added, reading.manager = before.manager

theorem quiet_of_same {before after : RiskSession}
    (counters : after.manager.counters = before.manager.counters)
    (isShutdown : after.manager.isShutdown = before.manager.isShutdown)
    (openOrders : after.manager.OpensNothing before.manager) (sent : after.sent = before.sent)
    (readings : after.readings = before.readings) : Quiet before after :=
  ⟨counters, isShutdown, openOrders, sent, [], by rw [readings, List.append_nil], by simp⟩

/-- A message is taken off the socket, and the manager books or forgets an order. -/
theorem quiet_of_readMsg {session after : RiskSession} {msg : ExchangeMsg}
    (counters : after.manager.counters = session.manager.counters)
    (isShutdown : after.manager.isShutdown = session.manager.isShutdown)
    (openOrders : after.manager.OpensNothing session.manager) (sent : after.sent = session.sent)
    (readings : after.readings = session.readings ++ [⟨session.manager, msg⟩]) :
    Quiet session after :=
  ⟨counters, isShutdown, openOrders, sent, [⟨session.manager, msg⟩], readings, by simp⟩

/-- A relation that the steps of a wait have. -/
structure StepRule (related : RiskSession → RiskSession → Prop) : Prop where
  refl : ∀ session, related session session
  trans : ∀ {before between after}, related before between → related between after →
    related before after
  quiet : ∀ {before after}, Quiet before after → related before after
  writes : ∀ session id, related session (session.write fun header => .deleteOrder header id)

section Steps

variable {related : RiskSession → RiskSession → Prop} (rule : StepRule related)
  {wait : UInt64 → RiskSession → RiskSession × Bool} (world : SessionWorld)
  (waits : ∀ id session, related session (wait id session).1)

include rule waits

theorem StepRule.requestDelete (session : RiskSession) (id : UInt64) :
    related session (session.requestDelete wait id).1 :=
  rule.trans (rule.writes session id) (waits id _)

theorem StepRule.cancelOne (session : RiskSession) (id : UInt64) :
    related session (session.cancelOne wait id) := by
  have answered := rule.requestDelete waits session id
  rw [RiskSession.cancelOne]
  dsimp only
  split
  · exact rule.trans answered
      (rule.quiet (quiet_of_same rfl rfl (RiskManager.opensNothing_forget _ id) rfl rfl))
  · exact answered

theorem StepRule.cancelAllOpenOrders (session : RiskSession) :
    related session (session.cancelAllOpenOrders wait world) := by
  rw [RiskSession.cancelAllOpenOrders]
  generalize world.keyOrder.keys session.manager.openOrders = ids
  induction ids generalizing session with
  | nil => exact rule.refl session
  | cons id ids inductionHypothesis =>
      exact rule.trans (rule.cancelOne waits session id) (inductionHypothesis _)

end Steps

/-- One that the checks have as well, if the waits inside them have it. -/
structure WaitRule (world : SessionWorld) (related : RiskSession → RiskSession → Prop) : Prop
    extends StepRule related where
  checks : ∀ {wait}, (∀ id session, related session (wait id session).1) →
    ∀ session, related session (session.checkAndShutdownIfNeeded wait world)

section Waits

variable {world : SessionWorld} {related : RiskSession → RiskSession → Prop}
  (rule : WaitRule world related)

include rule

theorem WaitRule.onFill {wait : UInt64 → RiskSession → RiskSession × Bool}
    (waits : ∀ id session, related session (wait id session).1) (session : RiskSession)
    (id : UInt64) (qty : UInt32) (price : Int32) (closed : Bool) :
    related session (session.onFill wait world id qty price closed) := by
  rw [RiskSession.onFill]
  cases session.manager.openOrders.lookup id with
  | none => exact rule.refl session
  | some info =>
      have booked : related session
          { session with manager := session.manager.afterFill id info.side qty price closed } :=
        rule.quiet (quiet_of_same rfl rfl (RiskManager.opensNothing_afterFill _ _ _ _ _ _) rfl rfl)
      exact rule.trans booked (rule.checks waits _)

theorem WaitRule.unlessLate {loop : UInt64 → RiskSession → RiskSession × Bool}
    (loops : ∀ id session, related session (loop id session).1) (id : UInt64)
    (session : RiskSession) : related session (unlessLate world loop id session).1 := by
  have timed : related session { session with clockReads := session.clockReads + 2 } :=
    rule.quiet (quiet_of_same rfl rfl (fun _ found => found) rfl rfl)
  rw [RiskSession.unlessLate]
  split
  · exact timed
  · exact rule.trans timed (loops id _)

/-- The loop, by induction on how many messages it may read: a wait inside the callback of a fill
has one message less. -/
theorem WaitRule.readLoop (fuel : Nat) (id : UInt64) (session : RiskSession) :
    related session (readLoop world fuel id session).1 := by
  induction fuel generalizing id session with
  | zero => exact rule.refl session
  | succ fuel inductionHypothesis =>
      cases unread : session.unread with
      | nil =>
          rw [RiskSession.readLoop, unread]
          exact rule.refl session
      | cons msg rest =>
          rw [RiskSession.readLoop, unread]
          obtain ⟨response, side⟩ := msg
          cases response with
          | ack orderId =>
              have acked : related session
                  { session.readMsg ⟨.ack orderId, side⟩ rest with
                    client := session.client.receive (.ack orderId) } :=
                rule.quiet (quiet_of_readMsg rfl rfl (fun _ found => found) rfl rfl)
              dsimp only
              split
              · exact acked
              · exact rule.trans acked (inductionHypothesis id _)
          | reject orderId rejectReason =>
              have rejected : related session
                  { session.readMsg ⟨.reject orderId rejectReason, side⟩ rest with
                    manager := session.manager.onReject orderId } :=
                rule.quiet (quiet_of_readMsg rfl rfl (RiskManager.opensNothing_forget _ _) rfl rfl)
              dsimp only
              split
              · exact rejected
              · exact rule.trans rejected (inductionHypothesis id _)
          | fill orderId quantity price flags =>
              have taken : related session
                  (session.readMsg ⟨.fill orderId quantity price flags, side⟩ rest) :=
                rule.quiet (quiet_of_readMsg rfl rfl (fun _ found => found) rfl rfl)
              have filled := rule.trans taken (rule.onFill
                (rule.unlessLate inductionHypothesis) _ orderId quantity price (flags = .CLOSED))
              dsimp only
              split
              · exact rule.trans filled
                  (rule.quiet (quiet_of_same rfl rfl (fun _ found => found) rfl rfl))
              · exact rule.trans filled (inductionHypothesis id _)
          | closed orderId =>
              exact rule.quiet
                (quiet_of_readMsg rfl rfl (RiskManager.opensNothing_forget _ _) rfl rfl)
          | other =>
              have taken : related session (session.readMsg ⟨.other, side⟩ rest) :=
                rule.quiet (quiet_of_readMsg rfl rfl (fun _ found => found) rfl rfl)
              exact rule.trans taken (inductionHypothesis id _)

theorem WaitRule.waitForResponse (id : UInt64) (session : RiskSession) :
    related session (waitForResponse world id session).1 :=
  rule.unlessLate (rule.readLoop session.unread.length) id session

omit rule in
theorem isShutdown_refreshRateWindow (session : RiskSession) (world : SessionWorld) :
    (session.refreshRateWindow world).manager.isShutdown = session.manager.isShutdown := by
  obtain ⟨second, start, refreshed⟩ :=
    session.manager.refreshRateWindow_eq (world.clock session.clockReads)
  simp only [RiskSession.refreshRateWindow, refreshed]

theorem WaitRule.refreshRateWindow (session : RiskSession) :
    related session (session.refreshRateWindow world) := by
  obtain ⟨second, start, refreshed⟩ :=
    session.manager.refreshRateWindow_eq (world.clock session.clockReads)
  apply rule.quiet
  apply quiet_of_same
  · simp only [RiskSession.refreshRateWindow, refreshed]
    rfl
  · exact session.isShutdown_refreshRateWindow world
  · simp only [RiskSession.refreshRateWindow, refreshed]
    exact fun _ found => found
  · rfl
  · rfl

theorem WaitRule.deleteOrder (session : RiskSession) (id : UInt64) :
    related session (session.deleteOrder world id).1 := by
  refine rule.trans (rule.requestDelete rule.waitForResponse session id) ?_
  cases answer : (session.requestDelete (RiskSession.waitForResponse world) id).2 with
  | true =>
      simp only [RiskSession.deleteOrder, answer, if_true]
      exact rule.quiet (quiet_of_same rfl rfl (RiskManager.opensNothing_forget _ id) rfl rfl)
  | false =>
      simp only [RiskSession.deleteOrder, answer, Bool.false_eq_true, if_false]
      exact rule.refl _

end Waits

/-! ### What a wait leaves alone -/

/-- One session goes on to another by waiting. -/
structure Waited (before after : RiskSession) : Prop where
  counters : after.manager.counters = before.manager.counters
  latched : before.manager.isShutdown = true → after.manager.isShutdown = true
  written : ∃ deletes, after.sent = before.sent ++ deletes ∧ ∀ request ∈ deletes, ¬ request.Enters
  read : ∃ added, after.readings = before.readings ++ added ∧
    ∀ reading ∈ added, reading.manager.counters = before.manager.counters

namespace Waited

variable {before between after : RiskSession}

theorem of_quiet (quiet : Quiet before after) : Waited before after where
  counters := quiet.counters
  latched down := by rw [quiet.isShutdown, down]
  written := ⟨[], by rw [quiet.sent, List.append_nil], by simp⟩
  read := by
    obtain ⟨added, grown, managers⟩ := quiet.readings
    refine ⟨added, grown, ?_⟩
    intro reading member
    rw [managers reading member]

theorem refl (session : RiskSession) : Waited session session :=
  of_quiet (quiet_of_same rfl rfl (fun _ found => found) rfl rfl)

theorem trans (one : Waited before between) (two : Waited between after) :
    Waited before after where
  counters := two.counters.trans one.counters
  latched down := two.latched (one.latched down)
  written := by
    obtain ⟨first, grown, deletes⟩ := one.written
    obtain ⟨second, grownAgain, deletesAgain⟩ := two.written
    refine ⟨first ++ second, by rw [grownAgain, grown, List.append_assoc], ?_⟩
    intro request member
    rcases List.mem_append.mp member with early | late
    · exact deletes request early
    · exact deletesAgain request late
  read := by
    obtain ⟨first, grown, counted⟩ := one.read
    obtain ⟨second, grownAgain, countedAgain⟩ := two.read
    refine ⟨first ++ second, by rw [grownAgain, grown, List.append_assoc], ?_⟩
    intro reading member
    rcases List.mem_append.mp member with early | late
    · exact counted reading early
    · exact (countedAgain reading late).trans one.counters

end Waited

theorem stepRule_waited : StepRule Waited where
  refl := Waited.refl
  trans := Waited.trans
  quiet := Waited.of_quiet
  writes session id :=
    { counters := rfl
      latched down := down
      written := ⟨_, rfl, by simp [OeRequest.Enters]⟩
      read := ⟨[], by simp [write], by simp⟩ }

section World

variable (world : SessionWorld)

theorem waitRule_waited : WaitRule world Waited where
  toStepRule := stepRule_waited
  checks := by
    intro wait waits session
    rw [checkAndShutdownIfNeeded]
    split
    · exact Waited.refl session
    · split
      · exact Waited.refl session
      · have latched : Waited session { session with
            manager := { session.manager with isShutdown := true, inShutdown := true } } :=
          { counters := rfl
            latched _ := rfl
            written := ⟨[], by simp, by simp⟩
            read := ⟨[], by simp, by simp⟩ }
        exact (latched.trans (stepRule_waited.cancelAllOpenOrders world waits _)).trans
          (Waited.of_quiet (quiet_of_same rfl rfl (fun _ found => found) rfl rfl))

/-! ### Operations -/

/-- Order entry: one request enters in front of all deletes, below the limit and before any
shutdown; it is unacknowledged while its answer is awaited, and no longer when the checks at the end
wait. -/
structure Entered (before after : RiskSession) : Prop where
  running : before.manager.isShutdown = false
  room : before.manager.ordersThisSeqNum < before.manager.limits.maxOrdersPerSeqNum
  counters : after.manager.counters =
    (before.manager.limits, before.manager.ordersThisSeqNum + 1, before.manager.lastSeqNum,
      before.manager.unackedOrders)
  written : ∃ request deletes, after.sent = before.sent ++ request :: deletes ∧ request.Enters ∧
    ∀ other ∈ deletes, ¬ other.Enters
  read : ∃ awaiting settling, after.readings = before.readings ++ (awaiting ++ settling) ∧
    (∀ reading ∈ awaiting,
      reading.manager.unackedOrders = before.manager.unackedOrders + 1) ∧
    ∀ reading ∈ settling, reading.manager.unackedOrders = before.manager.unackedOrders

theorem seqRoom_of_checkRateLimits {manager : RiskManager}
    (passes : manager.checkRateLimits = .OK) :
    manager.ordersThisSeqNum < manager.limits.maxOrdersPerSeqNum := by
  rw [RiskManager.checkRateLimits] at passes
  split at passes
  · cases passes
  · split at passes
    · cases passes
    · rename_i below
      exact UInt32.not_le.mp below

/-- The steps that `send_new_order` and `modify_order` share once their checks pass. -/
theorem entered_of_checked {session : RiskSession}
    {body : OeRequestHeader → OeRequest} (enters : ∀ header, (body header).Enters)
    (running : (session.refreshRateWindow world).manager.isShutdown = false)
    (passes : (session.refreshRateWindow world).manager.checkRateLimits = .OK)
    {answered : RiskSession}
    (awaited : Waited (write { session.refreshRateWindow world with
      manager := (session.refreshRateWindow world).manager.countRequest } body) answered)
    {settling : RiskManager}
    (settled : settling.counters = answered.manager.countAnswer.counters) :
    Entered session (checkAndShutdownIfNeeded (waitForResponse world) world
      { answered with manager := settling }) := by
  have refreshed := (waitRule_waited world).refreshRateWindow session
  have checks := (waitRule_waited world).checks (waitRule_waited world).waitForResponse
    { answered with manager := settling }
  have room := seqRoom_of_checkRateLimits passes
  have same := refreshed.counters
  have counted := awaited.counters
  simp only [RiskManager.counters, Prod.mk.injEq] at same
  obtain ⟨limits, seq, last, unacked⟩ := same
  -- while the answer is awaited the request counts as unacknowledged, and after it no longer
  have after_answer : settling.counters =
      (session.manager.limits, session.manager.ordersThisSeqNum + 1, session.manager.lastSeqNum,
        session.manager.unackedOrders) := by
    simp only [RiskManager.counters, Prod.mk.injEq] at counted
    obtain ⟨limitsKept, seqCounted, lastKept, unackedCounted⟩ := counted
    rw [settled]
    simp only [RiskManager.counters, RiskManager.countAnswer, Prod.mk.injEq]
    refine ⟨limitsKept.trans limits, ?_, lastKept.trans last, ?_⟩
    · rw [seqCounted, ← seq]
      rfl
    · rw [unackedCounted, ← unacked]
      exact UInt32.add_sub_cancel _ 1
  refine ⟨?_, ?_, checks.counters.trans after_answer, ?_, ?_⟩
  · by_contra down
    rw [refreshed.latched (by simpa using down)] at running
    cases running
  · rw [← limits, ← seq]
    exact room
  · obtain ⟨first, wrote, deletes⟩ := awaited.written
    obtain ⟨second, wroteAgain, deletesAgain⟩ := checks.written
    refine ⟨body session.client.header.2, first ++ second, ?_, enters _, ?_⟩
    · rw [wroteAgain, wrote]
      simp only [write, List.append_assoc, List.cons_append, List.nil_append]
      rfl
    · intro other member
      rcases List.mem_append.mp member with early | late
      · exact deletes other early
      · exact deletesAgain other late
  · obtain ⟨first, read, awaiting⟩ := awaited.read
    obtain ⟨second, readAgain, afterwards⟩ := checks.read
    refine ⟨first, second, ?_, ?_, ?_⟩
    · rw [readAgain, read]
      simp only [write, List.append_assoc]
      rfl
    · intro reading member
      have here := awaiting reading member
      simp only [RiskManager.counters, Prod.mk.injEq] at here
      rw [here.2.2.2, ← unacked]
      rfl
    · intro reading member
      have here := (afterwards reading member).trans after_answer
      simp only [RiskManager.counters, Prod.mk.injEq] at here
      exact here.2.2.2

/-- What an operation does. -/
inductive OpStep (before after : RiskSession) : SessionOp → Prop
  | waited {op : SessionOp} (quiet : Waited before after) : OpStep before after op
  | entered {op : SessionOp} (entry : Entered before after) : OpStep before after op
  | newSeqNum (seqNum : UInt32) (changed : seqNum ≠ before.manager.lastSeqNum)
      (renewed : after = { before with
        manager := { before.manager with ordersThisSeqNum := 0, lastSeqNum := seqNum } }) :
      OpStep before after (.onSeqNumUpdate seqNum)

theorem opStep_next (session : RiskSession) (op : SessionOp) :
    OpStep session (session.next world op) op := by
  have waits := (waitRule_waited world).waitForResponse
  have refreshed := (waitRule_waited world).refreshRateWindow session
  cases op with
  | sendNewOrder id symbol side qty price =>
      rw [next, sendNewOrder]
      dsimp only
      split
      · rename_i admitted
        rw [RiskManager.admitsNewOrder, decide_eq_true_eq] at admitted
        have running := (RiskManager.checkNewOrder_OK admitted.1).1
        refine .entered (@entered_of_checked world session
          (fun header => .newOrder header id symbol side qty price 0) (fun _ => trivial) running
          admitted.2 _ (waits id _) _ ?_)
        split <;> rfl
      · exact .waited refreshed
  | modifyOrder id side qty price =>
      rw [next, modifyOrder]
      dsimp only
      split
      · rename_i admitted
        rw [RiskManager.admitsModify, decide_eq_true_eq] at admitted
        obtain ⟨existing, found⟩ := RiskManager.exists_of_checkModifyOrder admitted.1
        have running := (RiskManager.checkModifyOrder_OK found admitted.1).1
        refine .entered (@entered_of_checked world session
          (fun header => .modifyOrder header id side qty price) (fun _ => trivial) running
          admitted.2 _ (waits id _) _ ?_)
        split <;> rfl
      · exact .waited refreshed
  | deleteOrder id => exact .waited ((waitRule_waited world).deleteOrder session id)
  | cancelAllOpenOrders =>
      exact .waited (stepRule_waited.cancelAllOpenOrders world waits session)
  | checkAndShutdownIfNeeded => exact .waited ((waitRule_waited world).checks waits session)
  | updateMarkPrice markPrice =>
      exact .waited (Waited.of_quiet (quiet_of_same rfl rfl (fun _ found => found) rfl rfl))
  | onSeqNumUpdate seqNum =>
      by_cases changed : seqNum ≠ session.manager.lastSeqNum
      · refine .newSeqNum seqNum changed ?_
        rw [next, RiskManager.onSeqNumUpdate, if_pos changed]
      · rw [next, RiskManager.onSeqNumUpdate, if_neg changed]
        exact .waited (Waited.refl session)
  | waitForResponse id => exact .waited (waits id session)

/-! ### Runs -/

/-- Between operations no request is unacknowledged, and under no reading on the way more than
one. -/
def AtMostOneUnacked (session : RiskSession) : Prop :=
  session.manager.unackedOrders = 0 ∧
    ∀ reading ∈ session.readings,
      reading.manager.unackedOrders = 0 ∨ reading.manager.unackedOrders = 1

theorem atMostOneUnacked_next {session : RiskSession} (op : SessionOp)
    (few : session.AtMostOneUnacked) : (session.next world op).AtMostOneUnacked := by
  obtain ⟨none, readings⟩ := few
  cases opStep_next world session op with
  | waited quiet =>
      have counters := quiet.counters
      obtain ⟨added, grown, counted⟩ := quiet.read
      simp only [RiskManager.counters, Prod.mk.injEq] at counters counted
      refine ⟨counters.2.2.2.trans none, ?_⟩
      rw [grown]
      intro reading member
      rcases List.mem_append.mp member with early | late
      · exact readings reading early
      · exact Or.inl ((counted reading late).2.2.2.trans none)
  | entered entry =>
      have counters := entry.counters
      obtain ⟨awaiting, settling, grown, one, again⟩ := entry.read
      simp only [RiskManager.counters, Prod.mk.injEq] at counters
      refine ⟨counters.2.2.2.trans none, ?_⟩
      rw [grown]
      intro reading member
      rcases List.mem_append.mp member with early | late
      · exact readings reading early
      · rcases List.mem_append.mp late with waiting | settled
        · right
          rw [one reading waiting, none]
          rfl
        · exact Or.inl ((again reading settled).trans none)
  | newSeqNum seqNum changed renewed =>
      rw [renewed]
      exact ⟨none, readings⟩

/-- With the client calling back into the manager, shutdowns inside waits included: the count of
unacknowledged orders is 0 between operations, and 0 or 1 whenever a response is read. -/
theorem unacked_zero_or_one (limits : RiskLimits) (now : Int) (client : OEClient)
    (stream : List ExchangeMsg) (ops : List SessionOp) :
    (ops.foldl (next world) (start limits now client stream)).AtMostOneUnacked :=
  @invariant_foldl_always _ _ (next world) AtMostOneUnacked
    (fun _ op few => atMostOneUnacked_next world op few) _ ⟨rfl, by simp [start]⟩ ops

/-- The operation does not start another sequence number. -/
def KeepsSeqNum (session : RiskSession) (op : SessionOp) : Prop :=
  ∀ seqNum, op = .onSeqNumUpdate seqNum → seqNum = session.manager.lastSeqNum

/-- While the sequence number stays the same, from any state on, at most `max_orders_per_seq_num`
new orders and modifies are written to the socket, whatever the exchange answers. -/
theorem entries_within_seqNum (session : RiskSession) (ops : List SessionOp)
    (same : Along (next world) KeepsSeqNum session ops) :
    ∃ written, (ops.foldl (next world) session).sent = session.sent ++ written ∧
      written.countP (fun request => request.Enters) ≤
        session.manager.limits.maxOrdersPerSeqNum.toNat := by
  have counted : ∃ written, (ops.foldl (next world) session).sent = session.sent ++ written ∧
      written.countP (fun request => request.Enters) + session.manager.ordersThisSeqNum.toNat ≤
        max session.manager.limits.maxOrdersPerSeqNum.toNat
          session.manager.ordersThisSeqNum.toNat := by
    induction ops generalizing session with
    | nil => exact ⟨[], by simp, by simp⟩
    | cons op ops inductionHypothesis =>
        obtain ⟨here, later⟩ := same
        obtain ⟨written, grown, few⟩ := inductionHypothesis _ later
        rw [List.foldl_cons, grown]
        cases opStep_next world session op with
        | waited quiet =>
            obtain ⟨deletes, wrote, quietly⟩ := quiet.written
            have counters := quiet.counters
            simp only [RiskManager.counters, Prod.mk.injEq] at counters
            rw [counters.1, counters.2.1] at few
            have none : deletes.countP (fun request => request.Enters) = 0 := by
              simpa [List.countP_eq_zero] using quietly
            refine ⟨deletes ++ written, by rw [wrote, List.append_assoc], ?_⟩
            rw [List.countP_append, none, Nat.zero_add]
            exact few
        | entered entry =>
            obtain ⟨request, deletes, wrote, enters, quietly⟩ := entry.written
            have counters := entry.counters
            simp only [RiskManager.counters, Prod.mk.injEq] at counters
            have room := UInt32.lt_iff_toNat_lt.mp entry.room
            have bound := session.manager.limits.maxOrdersPerSeqNum.toNat_lt
            have next_count : (session.manager.ordersThisSeqNum + 1).toNat =
                session.manager.ordersThisSeqNum.toNat + 1 := by
              rw [UInt32.toNat_add]
              exact Nat.mod_eq_of_lt (by change _ + 1 < 2 ^ 32; omega)
            rw [counters.1, counters.2.1, next_count] at few
            have none : deletes.countP (fun request => request.Enters) = 0 := by
              simpa [List.countP_eq_zero] using quietly
            refine ⟨request :: deletes ++ written, by rw [wrote, List.append_assoc], ?_⟩
            rw [List.countP_append, List.countP_cons_of_pos (by simpa using enters), none]
            omega
        | newSeqNum seqNum changed renewed => exact absurd (here seqNum rfl) changed
  obtain ⟨written, grown, few⟩ := counted
  exact ⟨written, grown, by omega⟩

/-- Once it is shut down, from any state on, the manager stays so, and nothing but deletes is
written to the socket. -/
theorem only_deletes_after_shutdown (session : RiskSession) (ops : List SessionOp)
    (down : session.manager.isShutdown = true) :
    (ops.foldl (next world) session).manager.isShutdown = true ∧
      ∃ deletes, (ops.foldl (next world) session).sent = session.sent ++ deletes ∧
        ∀ request ∈ deletes, ¬ request.Enters := by
  induction ops generalizing session with
  | nil => exact ⟨down, [], by simp, by simp⟩
  | cons op ops inductionHypothesis =>
      rw [List.foldl_cons]
      cases opStep_next world session op with
      | waited quiet =>
          obtain ⟨deletes, wrote, quietly⟩ := quiet.written
          obtain ⟨stays, more, grown, quietlyMore⟩ :=
            inductionHypothesis _ (quiet.latched down)
          refine ⟨stays, deletes ++ more, by rw [grown, wrote, List.append_assoc], ?_⟩
          intro request member
          rcases List.mem_append.mp member with early | late
          · exact quietly request early
          · exact quietlyMore request late
      | entered entry =>
          rw [entry.running] at down
          cases down
      | newSeqNum seqNum changed renewed =>
          rw [renewed]
          exact inductionHypothesis _ down

end World

/-- Two buys, of which the first is acknowledged. -/
theorem entries_within_seqNum_twoBuys :
    ∃ written, ([SessionOp.sendNewOrder 1 3 .BUY 5 100, .sendNewOrder 2 3 .BUY 5 100].foldl
        (next stillWorld) (wired [⟨.ack 1, .BUY⟩])).sent =
          (wired [⟨.ack 1, .BUY⟩]).sent ++ written ∧
      written.countP (fun request => request.Enters) ≤ 5 :=
  entries_within_seqNum stillWorld (wired [⟨.ack 1, .BUY⟩])
    [SessionOp.sendNewOrder 1 3 .BUY 5 100, .sendNewOrder 2 3 .BUY 5 100]
    ⟨by simp [KeepsSeqNum], by simp [KeepsSeqNum], trivial⟩

/-- Bought at 100, marked at 50, and shut down by the next check. -/
def markedDown : RiskSession :=
  [SessionOp.sendNewOrder 1 3 .BUY 5 100, .waitForResponse 1, .updateMarkPrice 50,
    .checkAndShutdownIfNeeded].foldl (next stillWorld)
      (wired [⟨.ack 1, .BUY⟩, ⟨.fill 1 5 100 .CLOSED, .BUY⟩])

theorem only_deletes_after_shutdown_markedDown :
    let session := [SessionOp.sendNewOrder 2 3 .SELL 5 100].foldl (next stillWorld) markedDown
    session.manager.isShutdown = true ∧
      ∃ deletes, session.sent = markedDown.sent ++ deletes ∧
        ∀ request ∈ deletes, ¬ request.Enters :=
  only_deletes_after_shutdown stillWorld markedDown [SessionOp.sendNewOrder 2 3 .SELL 5 100]
    (by decide +kernel)

end RiskSession

end HftAlgorithms
