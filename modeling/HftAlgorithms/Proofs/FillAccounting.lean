/-
Module: HftAlgorithms.Proofs.FillAccounting
Purpose: The position of the risk manager over the order-entry client is the
  signed sum of the fills that were read, as long as each of them was of an order
  that the manager had open when it was read.
Trusted boundary: none
Main exports: ExchangeMsg.filled, signedSum, Reading.Known, RiskSession.Reads,
  RiskSession.readLoop_succ, RiskSession.position_eq_signedSum
-/
import HftAlgorithms.Risk.RiskSession
import Mathlib.Algebra.BigOperators.Group.List.Basic

namespace HftAlgorithms

/-! ### What is counted -/

/-- What a message adds to the position on the exchange: the quantity of a FILL, with the sign of
its order's side. -/
def ExchangeMsg.filled (msg : ExchangeMsg) : Int :=
  match msg.response with
  | .fill _ quantity _ _ => exactMove 0 msg.side quantity.toNat
  | _ => 0

/-- The signed sum of the quantities of all FILLs. -/
def signedSum (msgs : List ExchangeMsg) : Int :=
  (msgs.map ExchangeMsg.filled).sum

/-- If the message is a FILL, its order was open when it was read, on the side it has on the
exchange. -/
def Reading.Known (reading : Reading) : Prop :=
  match reading.msg.response with
  | .fill orderId _ _ _ =>
      (reading.manager.openOrders.lookup orderId).map OpenOrderInfo.side = some reading.msg.side
  | _ => True

instance decidableKnown (reading : Reading) : Decidable reading.Known :=
  match same : reading.msg.response with
  | .fill orderId _ _ _ =>
      decidable_of_iff
        ((reading.manager.openOrders.lookup orderId).map OpenOrderInfo.side =
          some reading.msg.side) (by rw [Reading.Known, same])
  | .ack _ | .reject _ _ | .closed _ | .other => isTrue (by rw [Reading.Known, same]; trivial)

/-- The machine position after a fill is the one before plus the signed quantity as a word. -/
theorem movedPosition_eq_add_ofInt (position : Int32) (side : Side) (qty : UInt32) :
    movedPosition position side qty = position + Int32.ofInt (exactMove 0 side qty.toNat) := by
  apply Int32.toInt_inj.mp
  rw [movedPosition, exactMove]
  split
  · rw [Int32.toInt_add, Int32.toInt_add, FixedWidth.toInt_toInt32, Int32.toInt_ofInt, Int.zero_add]
    rfl
  · rw [Int32.toInt_sub, Int32.toInt_add, FixedWidth.toInt_toInt32, Int32.toInt_ofInt, Int.zero_sub,
      Int.sub_bmod_bmod, Int.sub_eq_add_neg]
    exact Int.add_bmod_bmod.symm

/-- Readings that follow each other from one position to another: each was read under the position
that the ones before it add up to. -/
def Follows : Int32 → List Reading → Int32 → Prop
  | position, [], after => after = position
  | position, reading :: readings, after =>
      reading.manager.getPosition = position ∧
        Follows (position + Int32.ofInt reading.msg.filled) readings after

theorem follows_append {first second : List Reading} {position between after : Int32}
    (one : Follows position first between) (two : Follows between second after) :
    Follows position (first ++ second) after := by
  induction first generalizing position with
  | nil =>
      cases one
      exact two
  | cons reading first inductionHypothesis => exact ⟨one.1, inductionHypothesis one.2⟩

/-- The position at the end is the sum. -/
theorem Follows.position_eq {readings : List Reading} {position after : Int32}
    (follows : Follows position readings after) :
    after = position + Int32.ofInt (signedSum (readings.map Reading.msg)) := by
  induction readings generalizing position with
  | nil =>
      cases follows
      exact (Int32.add_zero _).symm
  | cons reading readings inductionHypothesis =>
      rw [inductionHypothesis follows.2, Int32.add_assoc, ← Int32.ofInt_add]
      rfl

/-- And so is the position under each reading. -/
theorem Follows.position_eq_of_split {earlier later : List Reading} {reading : Reading}
    {position after : Int32} (follows : Follows position (earlier ++ reading :: later) after) :
    reading.manager.getPosition =
      position + Int32.ofInt (signedSum (earlier.map Reading.msg)) := by
  induction earlier generalizing position with
  | nil =>
      rw [follows.1]
      exact (Int32.add_zero _).symm
  | cons first earlier inductionHypothesis =>
      rw [inductionHypothesis follows.2, Int32.add_assoc, ← Int32.ofInt_add]
      rfl

namespace RiskSession

/-! ### What a step reads -/

/-- One session goes on to another by reading: the readings are those of the messages that left
the socket, in their order, and if all of them are known, nothing else moved the position. -/
def Reads (before after : RiskSession) : Prop :=
  ∃ added, after.readings = before.readings ++ added ∧
    before.unread = added.map Reading.msg ++ after.unread ∧
    ((∀ reading ∈ added, reading.Known) →
      Follows before.manager.getPosition added after.manager.getPosition)

namespace Reads

variable {before between after : RiskSession}

/-- Whatever neither reads nor moves the position. -/
theorem of_same (readings : after.readings = before.readings)
    (unread : after.unread = before.unread)
    (position : after.manager.getPosition = before.manager.getPosition) : Reads before after :=
  ⟨[], by rw [readings, List.append_nil], unread.symm, fun _ => position⟩

theorem refl (session : RiskSession) : Reads session session := of_same rfl rfl rfl

theorem trans (one : Reads before between) (two : Reads between after) : Reads before after := by
  obtain ⟨first, grown, taken, moved⟩ := one
  obtain ⟨second, grownAgain, takenAgain, movedAgain⟩ := two
  refine ⟨first ++ second, ?_, ?_, ?_⟩
  · rw [grownAgain, grown, List.append_assoc]
  · rw [taken, takenAgain, List.map_append, List.append_assoc]
  · intro known
    exact follows_append (moved fun reading member => known reading (List.mem_append_left _ member))
      (movedAgain fun reading member => known reading (List.mem_append_right _ member))

/-- Reading one message. -/
theorem one {msg : ExchangeMsg}
    (readings : after.readings = before.readings ++ [⟨before.manager, msg⟩])
    (unread : before.unread = msg :: after.unread)
    (moved : Reading.Known ⟨before.manager, msg⟩ →
      after.manager.getPosition = before.manager.getPosition + Int32.ofInt msg.filled) :
    Reads before after := by
  refine ⟨[⟨before.manager, msg⟩], readings, unread, ?_⟩
  intro known
  exact ⟨rfl, moved (known _ List.mem_cons_self)⟩

/-- Nothing comes back to the socket. -/
theorem length_le (reads : Reads before after) : after.unread.length ≤ before.unread.length := by
  obtain ⟨added, -, taken, -⟩ := reads
  rw [taken, List.length_append]
  exact Nat.le_add_left _ _

end Reads

section Wait

variable {wait : UInt64 → RiskSession → RiskSession × Bool} (world : SessionWorld)
  (waits : ∀ id session, Reads session (wait id session).1)

include waits

theorem reads_requestDelete (session : RiskSession) (id : UInt64) :
    Reads session (session.requestDelete wait id).1 :=
  (Reads.of_same rfl rfl rfl).trans (waits id _)

theorem reads_cancelOne (session : RiskSession) (id : UInt64) :
    Reads session (session.cancelOne wait id) := by
  have answered := reads_requestDelete waits session id
  rw [cancelOne]
  dsimp only
  split
  · refine answered.trans (Reads.of_same rfl rfl ?_)
    rfl
  · exact answered

theorem reads_cancelAllOpenOrders (session : RiskSession) :
    Reads session (session.cancelAllOpenOrders wait world) := by
  rw [cancelAllOpenOrders]
  generalize world.keyOrder.keys session.manager.openOrders = ids
  induction ids generalizing session with
  | nil => exact Reads.refl session
  | cons id ids inductionHypothesis =>
      exact (reads_cancelOne waits session id).trans (inductionHypothesis _)

theorem reads_checkAndShutdownIfNeeded (session : RiskSession) :
    Reads session (session.checkAndShutdownIfNeeded wait world) := by
  rw [checkAndShutdownIfNeeded]
  split
  · exact Reads.refl session
  · split
    · exact Reads.refl session
    · have latched : Reads session { session with
          manager := { session.manager with isShutdown := true, inShutdown := true } } :=
        Reads.of_same rfl rfl rfl
      exact (latched.trans (reads_cancelAllOpenOrders world waits _)).trans
        (Reads.of_same rfl rfl rfl)

/-- Reading a FILL and handling it: the position moves by it if its order is open, and then by what
the waits of a shutdown read. -/
theorem reads_fill {session : RiskSession} {msg : ExchangeMsg} {rest : List ExchangeMsg}
    (first : session.unread = msg :: rest) {orderId : UInt64} {quantity : UInt32} {price : Int32}
    {flags : FillFlags} (isFill : msg.response = .fill orderId quantity price flags)
    (closed : Bool) :
    Reads session ((session.readMsg msg rest).onFill wait world orderId quantity price closed) := by
  rw [onFill]
  cases found : (session.readMsg msg rest).manager.openOrders.lookup orderId with
  | none =>
      refine Reads.one rfl first ?_
      intro known
      change session.manager.openOrders.lookup orderId = none at found
      rw [Reading.Known, isFill] at known
      dsimp only at known
      rw [found] at known
      cases known
  | some info =>
      refine Reads.trans (Reads.one rfl first ?_) (reads_checkAndShutdownIfNeeded world waits _)
      intro known
      change session.manager.openOrders.lookup orderId = some info at found
      rw [Reading.Known, isFill] at known
      dsimp only at known
      rw [found] at known
      have side : info.side = msg.side := Option.some.inj known
      rw [ExchangeMsg.filled, isFill, ← side]
      exact movedPosition_eq_add_ofInt _ _ _

/-- Handling it puts nothing back. -/
theorem length_onFill_le (session : RiskSession) (id : UInt64) (qty : UInt32) (price : Int32)
    (closed : Bool) :
    (session.onFill wait world id qty price closed).unread.length ≤ session.unread.length := by
  rw [onFill]
  cases session.manager.openOrders.lookup id with
  | none => exact Nat.le_refl _
  | some info => exact (reads_checkAndShutdownIfNeeded world waits _).length_le

end Wait

/-! ### What the waits read -/

section World

variable (world : SessionWorld)

theorem reads_unlessLate {loop : UInt64 → RiskSession → RiskSession × Bool}
    (loops : ∀ id session, Reads session (loop id session).1) (id : UInt64)
    (session : RiskSession) : Reads session (unlessLate world loop id session).1 := by
  rw [unlessLate]
  split
  · exact Reads.of_same rfl rfl rfl
  · exact (Reads.of_same rfl rfl rfl).trans (loops id _)

theorem reads_readLoop (fuel : Nat) (id : UInt64) (session : RiskSession) :
    Reads session (readLoop world fuel id session).1 := by
  induction fuel generalizing id session with
  | zero => exact Reads.refl session
  | succ fuel inductionHypothesis =>
      cases unread : session.unread with
      | nil =>
          rw [readLoop, unread]
          exact Reads.refl session
      | cons msg rest =>
          rw [readLoop, unread]
          obtain ⟨response, side⟩ := msg
          -- a message that is not a fill leaves the position as it is
          have silent : ∀ after : RiskSession,
              after.readings = session.readings ++ [⟨session.manager, ⟨response, side⟩⟩] →
              after.unread = rest →
              after.manager.getPosition = session.manager.getPosition →
              (∀ orderId quantity price flags, response ≠ .fill orderId quantity price flags) →
              Reads session after := by
            intro after readings taken position noFill
            refine Reads.one readings (by rw [unread, taken]) ?_
            intro _
            rw [position]
            cases response with
            | fill orderId quantity price flags => exact absurd rfl (noFill _ _ _ _)
            | ack orderId => exact (Int32.add_zero _).symm
            | reject orderId rejectReason => exact (Int32.add_zero _).symm
            | closed orderId => exact (Int32.add_zero _).symm
            | other => exact (Int32.add_zero _).symm
          cases response with
          | ack orderId =>
              dsimp only
              have acked := silent
                { session.readMsg ⟨.ack orderId, side⟩ rest with
                  client := session.client.receive (.ack orderId) }
                rfl rfl rfl (fun _ _ _ _ => OeResponse.noConfusion)
              split
              · exact acked
              · exact acked.trans (inductionHypothesis id _)
          | reject orderId rejectReason =>
              dsimp only
              have rejected := silent
                { session.readMsg ⟨.reject orderId rejectReason, side⟩ rest with
                  manager := session.manager.onReject orderId }
                rfl rfl rfl (fun _ _ _ _ => OeResponse.noConfusion)
              split
              · exact rejected
              · exact rejected.trans (inductionHypothesis id _)
          | fill orderId quantity price flags =>
              dsimp only
              have filled := reads_fill world
                (reads_unlessLate world inductionHypothesis) unread
                (show (⟨.fill orderId quantity price flags, side⟩ : ExchangeMsg).response =
                  .fill orderId quantity price flags from rfl) (flags = .CLOSED)
              split
              · exact filled.trans (Reads.of_same rfl rfl rfl)
              · exact filled.trans (inductionHypothesis id _)
          | closed orderId =>
              exact silent _ rfl rfl rfl (fun _ _ _ _ => OeResponse.noConfusion)
          | other =>
              exact (silent (session.readMsg ⟨.other, side⟩ rest) rfl rfl rfl
                (fun _ _ _ _ => OeResponse.noConfusion)).trans (inductionHypothesis id _)

theorem reads_waitForResponse (id : UInt64) (session : RiskSession) :
    Reads session (waitForResponse world id session).1 :=
  reads_unlessLate world (reads_readLoop world session.unread.length) id session

/-! ### Enough fuel -/

/-- Waits that agree on sessions with at most `count` unread messages. -/
def AgreeUpTo (count : Nat) (first second : UInt64 → RiskSession → RiskSession × Bool) : Prop :=
  ∀ id session, session.unread.length ≤ count → first id session = second id session

section Agree

variable {count : Nat} {first second : UInt64 → RiskSession → RiskSession × Bool}
  (agree : AgreeUpTo count first second) {session : RiskSession}
  (few : session.unread.length ≤ count)

include agree few

theorem cancelOne_congr (id : UInt64) :
    session.cancelOne first id = session.cancelOne second id := by
  have same := agree id (session.write fun header => .deleteOrder header id) few
  rw [cancelOne, cancelOne, requestDelete, requestDelete, same]

theorem onFill_congr (waits : ∀ id session, Reads session (second id session).1) (id : UInt64)
    (qty : UInt32) (price : Int32) (closed : Bool) :
    session.onFill first world id qty price closed =
      session.onFill second world id qty price closed := by
  have cancels : ∀ (ids : List UInt64) (before : RiskSession), before.unread.length ≤ count →
      ids.foldl (cancelOne first) before = ids.foldl (cancelOne second) before := by
    intro ids
    induction ids with
    | nil => exact fun _ _ => rfl
    | cons id ids inductionHypothesis =>
        intro before fewer
        rw [List.foldl_cons, List.foldl_cons, cancelOne_congr agree fewer]
        exact inductionHypothesis _ ((reads_cancelOne waits before id).length_le.trans fewer)
  rw [onFill, onFill]
  cases session.manager.openOrders.lookup id with
  | none => rfl
  | some info =>
      dsimp only
      rw [checkAndShutdownIfNeeded, checkAndShutdownIfNeeded]
      split
      · rfl
      · split
        · rfl
        · dsimp only
          rw [cancelAllOpenOrders, cancelAllOpenOrders, cancels]
          exact few

end Agree

theorem unlessLate_congr {count : Nat} {first second : UInt64 → RiskSession → RiskSession × Bool}
    (agree : AgreeUpTo count first second) :
    AgreeUpTo count (unlessLate world first) (unlessLate world second) := by
  intro id session few
  rw [unlessLate, unlessLate]
  split
  · rfl
  · exact agree id _ few

/-- A loop with as much fuel as there are unread messages does not run out of it. -/
theorem readLoop_succ (fuel : Nat) :
    AgreeUpTo fuel (readLoop world (fuel + 1)) (readLoop world fuel) := by
  induction fuel with
  | zero =>
      intro id session few
      have empty : session.unread = [] := List.length_eq_zero_iff.mp (Nat.le_zero.mp few)
      simp only [readLoop, empty]
  | succ fuel inductionHypothesis =>
      intro id session few
      rw [readLoop, readLoop]
      cases unread : session.unread with
      | nil => rfl
      | cons msg rest =>
          rw [unread] at few
          have fewer : rest.length ≤ fuel := Nat.le_of_succ_le_succ few
          obtain ⟨response, side⟩ := msg
          cases response with
          | ack orderId =>
              dsimp only
              split
              · rfl
              · exact inductionHypothesis id _ fewer
          | reject orderId rejectReason =>
              dsimp only
              split
              · rfl
              · exact inductionHypothesis id _ fewer
          | fill orderId quantity price flags =>
              have nested := reads_unlessLate world (reads_readLoop world fuel)
              have left : (session.readMsg ⟨.fill orderId quantity price flags, side⟩
                  rest).unread.length ≤ fuel := fewer
              have same := onFill_congr world (unlessLate_congr world inductionHypothesis) left
                nested orderId quantity price (flags = .CLOSED)
              dsimp only
              rw [same]
              split
              · rfl
              · apply inductionHypothesis id
                exact (length_onFill_le world nested _ orderId quantity price _).trans fewer
          | closed orderId => rfl
          | other =>
              exact inductionHypothesis id _ fewer

/-- More fuel than unread messages changes nothing. -/
theorem readLoop_eq_waitForResponse {fuel : Nat} (id : UInt64) (session : RiskSession)
    (enough : session.unread.length ≤ fuel) :
    unlessLate world (readLoop world fuel) id session = waitForResponse world id session := by
  obtain ⟨more, rfl⟩ := Nat.exists_eq_add_of_le enough
  rw [waitForResponse]
  induction more with
  | zero => rfl
  | succ more inductionHypothesis =>
      have step := unlessLate_congr world (readLoop_succ world (session.unread.length + more)) id
        session (Nat.le_add_right _ _)
      exact step.trans (inductionHypothesis (Nat.le_add_right _ _))

/-! ### What a run reads -/

theorem reads_next (session : RiskSession) (op : SessionOp) :
    Reads session (session.next world op) := by
  have waits := reads_waitForResponse world
  have refreshed : Reads session (session.refreshRateWindow world) := by
    refine Reads.of_same rfl rfl ?_
    change (session.manager.refreshRateWindow _).getPosition = _
    rw [RiskManager.refreshRateWindow]
    split <;> rfl
  have answered : ∀ id body, Reads session (waitForResponse world id (write
      { session.refreshRateWindow world with
        manager := (session.refreshRateWindow world).manager.countRequest } body)).1 :=
    fun id body => (refreshed.trans (Reads.of_same rfl rfl rfl)).trans (waits id _)
  cases op with
  | sendNewOrder id symbol side qty price =>
      rw [next, sendNewOrder]
      dsimp only
      split
      · refine Reads.trans ?_ (reads_checkAndShutdownIfNeeded world waits _)
        refine (answered id _).trans (Reads.of_same rfl rfl ?_)
        dsimp only
        split <;> rfl
      · exact refreshed
  | modifyOrder id side qty price =>
      rw [next, modifyOrder]
      dsimp only
      split
      · refine Reads.trans ?_ (reads_checkAndShutdownIfNeeded world waits _)
        refine (answered id _).trans (Reads.of_same rfl rfl ?_)
        dsimp only
        split <;> rfl
      · exact refreshed
  | deleteOrder id =>
      refine (reads_requestDelete waits session id).trans (Reads.of_same rfl rfl ?_)
      change (ite _ _ _ : RiskManager).getPosition = _
      split <;> rfl
  | cancelAllOpenOrders => exact reads_cancelAllOpenOrders world waits session
  | checkAndShutdownIfNeeded => exact reads_checkAndShutdownIfNeeded world waits session
  | updateMarkPrice markPrice => exact Reads.of_same rfl rfl rfl
  | onSeqNumUpdate seqNum =>
      refine Reads.of_same rfl rfl ?_
      change (session.manager.onSeqNumUpdate seqNum).getPosition = _
      rw [RiskManager.onSeqNumUpdate]
      split <;> rfl
  | waitForResponse id => exact waits id session

theorem reads_run (session : RiskSession) (ops : List SessionOp) :
    Reads session (ops.foldl (next world) session) := by
  induction ops generalizing session with
  | nil => exact Reads.refl session
  | cons op ops inductionHypothesis =>
      exact (reads_next world session op).trans (inductionHypothesis _)

/-- In every run on every stream, if each FILL was of an open order when it was read: the position
at the end, and under each reading on the way, is the signed sum, as a word, of the fills read by
then, and what was read is the stream without what is left of it. -/
theorem position_eq_signedSum (limits : RiskLimits) (now : Int) (client : OEClient)
    (stream : List ExchangeMsg) (ops : List SessionOp)
    (known : ∀ reading ∈ (ops.foldl (next world) (start limits now client stream)).readings,
      reading.Known) :
    let session := ops.foldl (next world) (start limits now client stream)
    stream = session.readings.map Reading.msg ++ session.unread ∧
      session.manager.getPosition =
        Int32.ofInt (signedSum (session.readings.map Reading.msg)) ∧
      ∀ earlier reading later, session.readings = earlier ++ reading :: later →
        reading.manager.getPosition = Int32.ofInt (signedSum (earlier.map Reading.msg)) := by
  obtain ⟨added, grown, taken, moved⟩ := reads_run world (start limits now client stream) ops
  dsimp only
  generalize ops.foldl (next world) (start limits now client stream) = session at *
  have readings : session.readings = added := grown
  rw [readings] at known ⊢
  have follows := moved known
  refine ⟨taken, ?_, ?_⟩
  · rw [follows.position_eq]
    exact Int32.zero_add _
  · intro earlier reading later split
    rw [split] at follows
    rw [follows.position_eq_of_split]
    exact Int32.zero_add _

end World

/-! ### Three streams -/

/-- A clock that stands still. -/
def stillWorld : SessionWorld := ⟨fun _ => 0, .ascending⟩

/-- A manager that stops at a loss of 200, with a client that has logged in. -/
def wired (stream : List ExchangeMsg) : RiskSession :=
  start { RiskLimits.default with minPnl := -200 } 0
    { sessionId := 1, seqNum := 1, clientId := 8, liveOrders := ∅ } stream

/-- A BUY of 5 is acknowledged; the next wait reads a fill of 3 that shuts the manager down, and
the wait for the delete it then sends reads the fill of the other 2. -/
theorem position_eq_signedSum_shutdown :
    let session := [SessionOp.sendNewOrder 1 3 .BUY 5 100, .waitForResponse 2].foldl
      (next stillWorld) (wired [⟨.ack 1, .BUY⟩, ⟨.fill 1 3 100 .PARTIAL_FILL, .BUY⟩,
        ⟨.fill 1 2 100 .CLOSED, .BUY⟩])
    session.manager.isShutdown = true ∧ session.manager.getPosition = 5 := by
  have sum := position_eq_signedSum stillWorld { RiskLimits.default with minPnl := -200 } 0
    { sessionId := 1, seqNum := 1, clientId := 8, liveOrders := ∅ }
    [⟨.ack 1, .BUY⟩, ⟨.fill 1 3 100 .PARTIAL_FILL, .BUY⟩, ⟨.fill 1 2 100 .CLOSED, .BUY⟩]
    [SessionOp.sendNewOrder 1 3 .BUY 5 100, .waitForResponse 2] (by decide +kernel)
  exact ⟨by decide +kernel, sum.2.1.trans (by decide +kernel)⟩

/-- A BUY of 5 is sent and the stream answers. -/
def buyFive (stream : List ExchangeMsg) : RiskSession :=
  (wired stream).next stillWorld (.sendNewOrder 1 3 .BUY 5 100)

/-- A fill of 3 is read before the ACK of its order, and in the other stream a closing fill of 5 in
place of it: the manager does not know the order yet, and its position stays 0. -/
theorem fill_ahead_of_ack_lost :
    ((buyFive [⟨.fill 1 3 100 .PARTIAL_FILL, .BUY⟩, ⟨.ack 1, .BUY⟩]).unread = [] ∧
      signedSum ((buyFive [⟨.fill 1 3 100 .PARTIAL_FILL, .BUY⟩, ⟨.ack 1, .BUY⟩]).readings.map
        Reading.msg) = 3 ∧
      (buyFive [⟨.fill 1 3 100 .PARTIAL_FILL, .BUY⟩, ⟨.ack 1, .BUY⟩]).manager.getPosition = 0) ∧
    (buyFive [⟨.fill 1 5 100 .CLOSED, .BUY⟩]).unread = [] ∧
      signedSum ((buyFive [⟨.fill 1 5 100 .CLOSED, .BUY⟩]).readings.map Reading.msg) = 5 ∧
      (buyFive [⟨.fill 1 5 100 .CLOSED, .BUY⟩]).manager.getPosition = 0 ∧
      (buyFive [⟨.fill 1 5 100 .CLOSED, .BUY⟩]).manager.openOrders.lookup 1 =
        some ⟨3, .BUY, 5, 100⟩ := by
  decide +kernel

end RiskSession

end HftAlgorithms
