/-
Module: HftAlgorithms.Proofs.KillSwitch
Purpose: What a shutdown does on the wire when the client calls back into the risk
  manager.  Whatever stands open after it has a delete behind the shutdown, save one
  order at most: the one whose own answer was awaited when the shutdown came.
Trusted boundary: none
Main exports: Deleted, RiskSession.Swept, RiskSession.waitRule_swept,
  SessionOp.entering, RiskSession.ShutDownAwaiting, RiskSession.OpSwept,
  RiskSession.opSwept_next, RiskSession.shutdown_deletes_open_orders
-/
import HftAlgorithms.Proofs.SessionWaits

namespace HftAlgorithms

open StateMachine

/-- A delete of the order is among the requests. -/
def Deleted (requests : List OeRequest) (id : UInt64) : Prop :=
  ∃ header, .deleteOrder header id ∈ requests

theorem Deleted.earlier {requests : List OeRequest} {id : UInt64} (deleted : Deleted requests id)
    (more : List OeRequest) : Deleted (requests ++ more) id := by
  obtain ⟨header, member⟩ := deleted
  exact ⟨header, List.mem_append_left more member⟩

theorem Deleted.later {requests : List OeRequest} {id : UInt64} (deleted : Deleted requests id)
    (before : List OeRequest) : Deleted (before ++ requests) id := by
  obtain ⟨header, member⟩ := deleted
  exact ⟨header, List.mem_append_right before member⟩

namespace RiskSession

/-- The order is registered as open. -/
def IsOpen (session : RiskSession) (id : UInt64) : Prop :=
  (session.manager.openOrders.lookup id).isSome

instance decidableIsOpen (session : RiskSession) (id : UInt64) : Decidable (session.IsOpen id) :=
  inferInstanceAs (Decidable (_ = true))

/-! ### Waits

No wait opens an order, and a wait in which the manager shuts down writes a delete for every order
that is left open. -/

/-- One session goes on to another without opening orders; if it shuts down on the way, all that is
left has been deleted. -/
structure Swept (before after : RiskSession) : Prop where
  opensNothing : after.manager.OpensNothing before.manager
  written : ∃ added, after.sent = before.sent ++ added ∧
    (before.manager.isShutdown = false → after.manager.isShutdown = true →
      ∀ id, after.IsOpen id → Deleted added id)

namespace Swept

variable {before between after : RiskSession}

theorem of_same (opensNothing : after.manager.OpensNothing before.manager)
    (isShutdown : after.manager.isShutdown = before.manager.isShutdown)
    (sent : after.sent = before.sent) : Swept before after where
  opensNothing := opensNothing
  written := by
    refine ⟨[], by rw [sent, List.append_nil], ?_⟩
    intro running down
    rw [isShutdown, running] at down
    cases down

theorem trans (one : Swept before between) (two : Swept between after) : Swept before after where
  opensNothing id found := one.opensNothing id (two.opensNothing id found)
  written := by
    obtain ⟨first, grown, deletes⟩ := one.written
    obtain ⟨second, grownAgain, deletesAgain⟩ := two.written
    refine ⟨first ++ second, by rw [grownAgain, grown, List.append_assoc], ?_⟩
    intro running down id found
    -- the shutdown came in the first part or in the second
    cases halfway : between.manager.isShutdown with
    | true => exact (deletes running halfway id (two.opensNothing id found)).earlier second
    | false => exact (deletesAgain halfway down id found).later first

end Swept

theorem stepRule_swept : StepRule Swept where
  refl _ := Swept.of_same (fun _ found => found) rfl rfl
  trans := Swept.trans
  quiet quiet := Swept.of_same quiet.openOrders quiet.isShutdown quiet.sent
  writes session id := by
    refine ⟨fun _ found => found, _, rfl, ?_⟩
    intro running down
    rw [write, running] at down
    cases down

section Wait

variable {wait : UInt64 → RiskSession → RiskSession × Bool}
  (waits : ∀ id session, Swept session (wait id session).1)

include waits

/-- One turn of the loop writes the delete of its order. -/
theorem deleted_cancelOne (session : RiskSession) (id : UInt64) :
    ∃ added, (session.cancelOne wait id).sent = session.sent ++ added ∧ Deleted added id := by
  obtain ⟨added, grown, -⟩ :=
    (waits id (session.write fun header => .deleteOrder header id)).written
  have wrote : (session.requestDelete wait id).1.sent =
      session.sent ++ (.deleteOrder session.client.header.2 id :: added) := by
    rw [requestDelete, grown, write, List.append_assoc]
    rfl
  refine ⟨.deleteOrder session.client.header.2 id :: added, ?_, session.client.header.2,
    List.mem_cons_self⟩
  rw [cancelOne, ← wrote]
  dsimp only
  split <;> rfl

theorem deleted_foldl_cancelOne (session : RiskSession) (ids : List UInt64) :
    ∃ added, (ids.foldl (cancelOne wait) session).sent = session.sent ++ added ∧
      ∀ id ∈ ids, Deleted added id := by
  induction ids generalizing session with
  | nil => exact ⟨[], by simp, by simp⟩
  | cons id ids inductionHypothesis =>
      obtain ⟨first, grown, deleted⟩ := deleted_cancelOne waits session id
      obtain ⟨second, grownAgain, others⟩ := inductionHypothesis (session.cancelOne wait id)
      refine ⟨first ++ second, by rw [List.foldl_cons, grownAgain, grown, List.append_assoc], ?_⟩
      intro other member
      rcases List.mem_cons.mp member with rfl | later
      · exact deleted.earlier second
      · exact (others other later).later first

end Wait

variable (world : SessionWorld)

theorem waitRule_swept : WaitRule world Swept where
  toStepRule := stepRule_swept
  checks := by
    intro wait waits session
    rw [checkAndShutdownIfNeeded]
    split
    · exact stepRule_swept.refl session
    · split
      · exact stepRule_swept.refl session
      · let latched := { session with
          manager := { session.manager with isShutdown := true, inShutdown := true } }
        have opens := (stepRule_swept.cancelAllOpenOrders world waits latched).opensNothing
        obtain ⟨added, grown, deleted⟩ := deleted_foldl_cancelOne waits latched
          (world.keyOrder.keys latched.manager.openOrders)
        refine ⟨opens, added, grown, ?_⟩
        intro _ _ id found
        exact deleted id ((world.keyOrder.mem_keys _ id).mpr (opens id found))

end RiskSession

/-! ### Operations -/

/-- The order that an operation brings to the exchange or changes there. -/
def SessionOp.entering : SessionOp → Option UInt64
  | .sendNewOrder id .. => some id
  | .modifyOrder id .. => some id
  | _ => none

namespace RiskSession

variable (world : SessionWorld)

/-- The session once an operation has awaited the answer to the order that it enters, which it has
not registered yet. -/
def answered (session : RiskSession) (op : SessionOp) : RiskSession :=
  let checked := session.refreshRateWindow world
  let counted := { checked with manager := checked.manager.countRequest }
  match op with
  | .sendNewOrder id symbol side qty price =>
      (waitForResponse world id
        (counted.write fun header => .newOrder header id symbol side qty price 0)).1
  | .modifyOrder id side qty price =>
      (waitForResponse world id
        (counted.write fun header => .modifyOrder header id side qty price)).1
  | _ => session

/-- The manager shuts down while the answer to the order that is entered is awaited. -/
def ShutDownAwaiting (session : RiskSession) (op : SessionOp) : Prop :=
  (session.answered world op).manager.isShutdown = true

/-- What an operation leaves open.  Only a running manager opens an order, and only the one that is
entered; where the manager shuts down, every other one that is left has been deleted, and that one
too unless its answer was still awaited. -/
structure OpSwept (before after : RiskSession) (entering : Option UInt64) (awaiting : Prop) :
    Prop where
  opens : ∀ id, after.IsOpen id →
    before.IsOpen id ∨ (before.manager.isShutdown = false ∧ entering = some id)
  written : ∃ added, after.sent = before.sent ++ added ∧
    (before.manager.isShutdown = false → after.manager.isShutdown = true →
      ∀ id, after.IsOpen id → (entering = some id ∧ awaiting) ∨ Deleted added id)

theorem Swept.opSwept {before after : RiskSession} (swept : Swept before after)
    (entering : Option UInt64) (awaiting : Prop) : OpSwept before after entering awaiting where
  opens id found := Or.inl (swept.opensNothing id found)
  written := by
    obtain ⟨added, grown, deleted⟩ := swept.written
    refine ⟨added, grown, ?_⟩
    intro running down id found
    exact Or.inr (deleted running down id found)

/-- Order entry: the request is written, its answer awaited, the order registered if the answer was
good, and the manager checked.  A shutdown during the wait does not see the order. -/
theorem opSwept_of_entered {session : RiskSession} {body : OeRequestHeader → OeRequest}
    {id : UInt64} (running : (session.refreshRateWindow world).manager.isShutdown = false)
    {answered : RiskSession}
    (awaited : Swept (write { session.refreshRateWindow world with
      manager := (session.refreshRateWindow world).manager.countRequest } body) answered)
    {settling : RiskManager} (latched : settling.isShutdown = answered.manager.isShutdown)
    (registers : ∀ other, (settling.openOrders.lookup other).isSome →
      answered.IsOpen other ∨ other = id) :
    OpSwept session (checkAndShutdownIfNeeded (waitForResponse world) world
      { answered with manager := settling }) (some id)
      (answered.manager.isShutdown = true) := by
  have rule := waitRule_swept world
  have refreshed := rule.refreshRateWindow session
  have checked := rule.checks rule.waitForResponse { answered with manager := settling }
  have runs := (session.isShutdown_refreshRateWindow world).symm.trans running
  obtain ⟨first, grown, deleted⟩ := awaited.written
  obtain ⟨second, grownAgain, deletedAgain⟩ := checked.written
  constructor
  · intro other found
    rcases registers other (checked.opensNothing other found) with before | rfl
    · exact Or.inl (refreshed.opensNothing other (awaited.opensNothing other before))
    · exact Or.inr ⟨runs, rfl⟩
  · refine ⟨body session.client.header.2 :: first ++ second, ?_, ?_⟩
    · rw [grownAgain, grown]
      simp only [write, List.append_assoc, List.cons_append, List.nil_append]
      rfl
    · intro _ down other found
      cases halfway : answered.manager.isShutdown with
      | true =>
          rcases registers other (checked.opensNothing other found) with before | rfl
          · have early := (deleted running halfway other before).earlier second
            exact Or.inr (early.later [body session.client.header.2])
          · exact Or.inl ⟨rfl, rfl⟩
      | false =>
          have late := deletedAgain (latched.trans halfway) down other found
          exact Or.inr (late.later (body session.client.header.2 :: first))

theorem isOpen_register {manager : RiskManager} {id other : UInt64} {info : OpenOrderInfo}
    (found : ((manager.register id info).openOrders.lookup other).isSome) :
    (manager.openOrders.lookup other).isSome ∨ other = id := by
  by_cases same : other = id
  · exact Or.inr same
  · left
    rwa [RiskManager.register, FiniteMap.lookup_insert_eq, if_neg same] at found

theorem isOpen_replace {manager : RiskManager} {id other : UInt64} {info : OpenOrderInfo}
    (found : ((manager.replace id info).openOrders.lookup other).isSome) :
    (manager.openOrders.lookup other).isSome ∨ other = id := isOpen_register found

theorem opSwept_next (session : RiskSession) (op : SessionOp) :
    OpSwept session (session.next world op) op.entering (session.ShutDownAwaiting world op) := by
  have rule := waitRule_swept world
  have refreshed := rule.refreshRateWindow session
  cases op with
  | sendNewOrder id symbol side qty price =>
      rw [next, sendNewOrder]
      dsimp only
      split
      · rename_i admitted
        rw [RiskManager.admitsNewOrder, decide_eq_true_eq] at admitted
        have running := (RiskManager.checkNewOrder_OK admitted.1).1
        refine opSwept_of_entered world running (rule.waitForResponse id _) ?_ ?_
        · split <;> rfl
        · intro other found
          split at found
          · exact isOpen_register found
          · exact Or.inl found
      · exact refreshed.opSwept _ _
  | modifyOrder id side qty price =>
      rw [next, modifyOrder]
      dsimp only
      split
      · rename_i admitted
        rw [RiskManager.admitsModify, decide_eq_true_eq] at admitted
        obtain ⟨existing, registered⟩ := RiskManager.exists_of_checkModifyOrder admitted.1
        have running := (RiskManager.checkModifyOrder_OK registered admitted.1).1
        refine opSwept_of_entered world running (rule.waitForResponse id _) ?_ ?_
        · split <;> rfl
        · intro other found
          split at found
          · exact isOpen_replace found
          · exact Or.inl found
      · exact refreshed.opSwept _ _
  | deleteOrder id => exact (rule.deleteOrder session id).opSwept _ _
  | cancelAllOpenOrders =>
      exact (stepRule_swept.cancelAllOpenOrders world rule.waitForResponse session).opSwept _ _
  | checkAndShutdownIfNeeded => exact (rule.checks rule.waitForResponse session).opSwept _ _
  | updateMarkPrice markPrice =>
      have unchanged : Swept session (session.next world (.updateMarkPrice markPrice)) :=
        Swept.of_same (fun _ found => found) rfl rfl
      exact unchanged.opSwept _ _
  | onSeqNumUpdate seqNum =>
      have unchanged : Swept session (session.next world (.onSeqNumUpdate seqNum)) := by
        rw [next, RiskManager.onSeqNumUpdate]
        split <;> exact Swept.of_same (fun _ found => found) rfl rfl
      exact unchanged.opSwept _ _
  | waitForResponse id => exact (rule.waitForResponse id session).opSwept _ _

/-! ### Runs -/

/-- A manager that is shut down opens nothing any more. -/
theorem opensNothing_after_shutdown (session : RiskSession) (ops : List SessionOp)
    (down : session.manager.isShutdown = true) :
    (ops.foldl (next world) session).manager.OpensNothing session.manager ∧
      ∃ added, (ops.foldl (next world) session).sent = session.sent ++ added := by
  induction ops generalizing session with
  | nil => exact ⟨fun _ found => found, [], by simp⟩
  | cons op ops inductionHypothesis =>
      have swept := opSwept_next world session op
      obtain ⟨first, grown, -⟩ := swept.written
      obtain ⟨opens, second, grownAgain⟩ := inductionHypothesis (session.next world op)
        (only_deletes_after_shutdown world session [op] down).1
      constructor
      · intro id found
        rcases swept.opens id (opens id found) with before | ⟨running, -⟩
        · exact before
        · rw [down] at running
          cases running
      · exact ⟨first ++ second, by rw [List.foldl_cons, grownAgain, grown, List.append_assoc]⟩

/-- Every shutdown reaches the exchange.  There is an operation that shuts the manager down, and
behind its beginning a delete for each order that is open at the end, save for the one order that
this operation was entering if its answer was still awaited then. -/
theorem shutdown_deletes_open_orders (session : RiskSession) (ops : List SessionOp)
    (running : session.manager.isShutdown = false)
    (down : (ops.foldl (next world) session).manager.isShutdown = true) :
    ∃ earlier op later, ops = earlier ++ op :: later ∧
      (earlier.foldl (next world) session).manager.isShutdown = false ∧
      ((earlier.foldl (next world) session).next world op).manager.isShutdown = true ∧
      ∃ added, (ops.foldl (next world) session).sent =
          (earlier.foldl (next world) session).sent ++ added ∧
        ∀ id, (ops.foldl (next world) session).IsOpen id →
          (op.entering = some id ∧
              (earlier.foldl (next world) session).ShutDownAwaiting world op) ∨
            Deleted added id := by
  induction ops generalizing session with
  | nil =>
      rw [List.foldl_nil, running] at down
      cases down
  | cons op ops inductionHypothesis =>
      cases here : (session.next world op).manager.isShutdown with
      | false =>
          obtain ⟨earlier, last, later, split, runs, rest⟩ := inductionHypothesis _ here down
          exact ⟨op :: earlier, last, later, by rw [split, List.cons_append], runs, rest⟩
      | true =>
          obtain ⟨first, grown, deleted⟩ := (opSwept_next world session op).written
          obtain ⟨opens, second, grownAgain⟩ := opensNothing_after_shutdown world _ ops here
          refine ⟨[], op, ops, rfl, running, here, first ++ second, ?_, ?_⟩
          · rw [List.foldl_cons, grownAgain, grown, List.append_assoc]
            rfl
          · intro id found
            rcases deleted running here id (opens id found) with entered | early
            · exact Or.inl entered
            · exact Or.inr (early.earlier second)

/-- While the answer to order 2 is awaited, a fill of order 3 shuts the manager down. -/
def racedStream : List ExchangeMsg :=
  [⟨.ack 1, .BUY⟩, ⟨.ack 3, .BUY⟩, ⟨.fill 1 5 100 .CLOSED, .BUY⟩,
    ⟨.fill 3 1 100 .PARTIAL_FILL, .BUY⟩, ⟨.closed 3, .BUY⟩, ⟨.ack 2, .BUY⟩]

def racedOps : List SessionOp :=
  [.updateMarkPrice 100, .sendNewOrder 1 3 .BUY 5 100, .sendNewOrder 3 3 .BUY 2 100,
    .waitForResponse 1, .updateMarkPrice 50, .sendNewOrder 2 3 .BUY 1 100]

/-- Order 3 is deleted; order 2 is the one left open. -/
theorem shutdown_deletes_open_orders_raced :
    (racedOps.foldl (next stillWorld) (wired racedStream)).IsOpen 2 ∧
      ∃ earlier op later, racedOps = earlier ++ op :: later ∧
        (earlier.foldl (next stillWorld) (wired racedStream)).manager.isShutdown = false ∧
        ((earlier.foldl (next stillWorld) (wired racedStream)).next stillWorld
          op).manager.isShutdown = true ∧
        ∃ added, (racedOps.foldl (next stillWorld) (wired racedStream)).sent =
            (earlier.foldl (next stillWorld) (wired racedStream)).sent ++ added ∧
          ∀ id, (racedOps.foldl (next stillWorld) (wired racedStream)).IsOpen id →
            (op.entering = some id ∧ (earlier.foldl (next stillWorld)
                (wired racedStream)).ShutDownAwaiting stillWorld op) ∨
              Deleted added id :=
  ⟨by decide +kernel, shutdown_deletes_open_orders stillWorld (wired racedStream) racedOps
    (by decide +kernel) (by decide +kernel)⟩

end RiskSession

end HftAlgorithms
