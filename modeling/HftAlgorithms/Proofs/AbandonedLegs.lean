/-
Module: HftAlgorithms.Proofs.AbandonedLegs
Purpose: What an arb that gives up leaves behind: it never asks for a delete, so a
  leg is over exactly when the call's own waits have read what ends it.
Trusted boundary: none
Main exports: Ended, Run.Over, Run.waits, Run.abandonedReads,
  Run.redemptionReads, Run.abandoned_legs_over_iff
-/
import HftAlgorithms.Arb.Redemption
import HftAlgorithms.Proofs.CreationCycle

namespace HftAlgorithms

open StateMachine

/-! ### The end of an order -/

namespace OeResponse

/-- The response ends the order with this id: it is rejected, closed, or filled to the end. -/
def Ends (id : UInt64) : OeResponse → Prop
  | .reject orderId _ => orderId = id
  | .fill orderId _ _ flags => orderId = id ∧ flags = .CLOSED
  | .closed orderId => orderId = id
  | .ack _ | .other => False

instance decidableEnds (id : UInt64) : ∀ response : OeResponse, Decidable (response.Ends id)
  | .reject _ _ => inferInstanceAs (Decidable (_ = _))
  | .fill _ _ _ _ => inferInstanceAs (Decidable (_ ∧ _))
  | .closed _ => inferInstanceAs (Decidable (_ = _))
  | .ack _ | .other => isFalse fun impossible => impossible

/-- What the response fills of the order with this id. -/
def filledQty (id : UInt64) : OeResponse → Nat
  | .fill orderId qty _ _ => if orderId = id then qty.toNat else 0
  | .ack _ | .reject _ _ | .closed _ | .other => 0

end OeResponse

/-- Among these responses one ends the order, or they fill all of it. -/
def Ended (id : UInt64) (qty : Nat) (responses : List OeResponse) : Prop :=
  (∃ response ∈ responses, response.Ends id) ∨
    qty ≤ (responses.map (OeResponse.filledQty id)).sum

instance decidableEnded (id : UInt64) (qty : Nat) (responses : List OeResponse) :
    Decidable (Ended id qty responses) :=
  inferInstanceAs (Decidable (_ ∨ _))

/-- The request that an action writes. -/
def BotState.requests (bot : BotState) : BotAction → List OeRequest
  | .sendOrder symbol side qty price =>
      [(bot.client.sendNewOrderNoWait bot.nextOrderId symbol side qty price).2]
  | _ => []

def BotAction.received : BotAction → Option OeResponse
  | .receive response => some response
  | _ => none

namespace Run

/-- The responses that have been read. -/
def received (run : Run) : List OeResponse := run.log.filterMap BotAction.received

/-- The order has been rejected, closed or filled, or a delete has been sent for it. -/
def Over (bot : BotState) (run : Run) (id : UInt64) (qty : Nat) : Prop :=
  Ended id qty run.received ∨
    ∃ header, .deleteOrder header id ∈ emitted BotState.act BotState.requests bot run.log

theorem requests_new {bot : BotState} {action : BotAction} {request : OeRequest}
    (asked : request ∈ bot.requests action) : ∀ header id, request ≠ .deleteOrder header id := by
  cases action with
  | sendOrder symbol side qty price =>
      rintro header id rfl
      cases List.mem_singleton.mp asked
  | receive response => exact absurd asked List.not_mem_nil
  | book symbol side qty price => exact absurd asked List.not_mem_nil
  | callCreate amount result => exact absurd asked List.not_mem_nil
  | fillTimeout => exact absurd asked List.not_mem_nil
  | setArbInProgress inProgress => exact absurd asked List.not_mem_nil
  | setArbStartTime time => exact absurd asked List.not_mem_nil

/-- The bot never asks for a delete. -/
theorem over_iff (bot : BotState) (run : Run) (id : UInt64) (qty : Nat) :
    run.Over bot id qty ↔ Ended id qty run.received := by
  refine or_iff_left ?_
  rintro ⟨header, asked⟩
  have never : ∀ request ∈ emitted BotState.act BotState.requests bot run.log,
      ∀ header id, request ≠ .deleteOrder header id :=
    emitted_forall (@along_of_invariant_always _ _ _ _ (fun _ => True) (fun _ _ _ => trivial)
      (fun _ _ _ request asked => requests_new asked) _ trivial run.log)
  exact never _ asked header id rfl

/-! ### What a row of waits reads -/

/-- A row of waits that has returned: what it has read, what it has left, and how many of the waits
returned true. -/
structure Waited where
  read : List OeResponse
  unread : List OeResponse
  confirmed : Nat

/-- What waits for the ids make of the stream, one after the other; the first reads the clock for
the time `reads`. -/
def waits (clock : Nat → Int) : Nat → List UInt64 → List OeResponse → Waited
  | _, [], stream => ⟨[], stream, 0⟩
  | reads, id :: ids, stream =>
      let waited := OEClient.waitScan (clock reads) (clock (reads + 1)) id stream
      let later := waits clock (reads + 2) ids waited.unread
      { read := waited.read ++ later.read
        unread := later.unread
        confirmed := later.confirmed + if waited.verdict.getD false then 1 else 0 }

theorem received_act (run : Run) (action : BotAction) :
    (run.act action).received = run.received ++ (BotAction.received action).toList := by
  change (run.log ++ [action]).filterMap _ = _
  rw [List.filterMap_append]
  cases found : BotAction.received action with
  | none => simp [received, found]
  | some response => simp [received, found]

theorem received_foldl (responses : List OeResponse) (run : Run) :
    (responses.foldl (fun run response => run.act (.receive response)) run).received =
      run.received ++ responses := by
  induction responses generalizing run with
  | nil => exact (List.append_nil _).symm
  | cons response responses inductionHypothesis =>
      rw [List.foldl_cons, inductionHypothesis, received_act, List.append_assoc]
      rfl

section Waits

variable (world : World)

/-- What `collect` leaves behind is what the row of waits makes of its inbox. -/
theorem collect_waits (ids : List UInt64) (run : Run) :
    let row := waits world.clock run.clockReads ids run.inbox
    let collected := run.collect world ids
    collected.1.received = run.received ++ row.read ∧ collected.1.inbox = row.unread ∧
      collected.2 = row.confirmed ∧ collected.1.clockReads = run.clockReads + 2 * ids.length ∧
      collected.1.state =
        row.read.foldl (fun bot response => bot.act (.receive response)) run.state := by
  induction ids generalizing run with
  | nil => exact ⟨(List.append_nil _).symm, rfl, rfl, rfl, rfl⟩
  | cons id ids inductionHypothesis =>
      obtain ⟨state, inbox, reads⟩ := foldl_receive (run.waitScan world id).read
        { run.tick 2 with inbox := (run.waitScan world id).unread }
      have received := received_foldl (run.waitScan world id).read
        { run.tick 2 with inbox := (run.waitScan world id).unread }
      obtain ⟨laterReceived, laterInbox, confirmed, laterReads, laterState⟩ :=
        inductionHypothesis (run.waitForResponse world id).1
      rw [waitForResponse] at laterReceived laterInbox confirmed laterReads laterState
      dsimp only at laterReceived laterInbox confirmed laterReads laterState
      rw [inbox, reads] at laterReceived laterInbox confirmed
      rw [inbox, reads, state] at laterState
      refine ⟨?_, laterInbox, congrArg (· + _) confirmed, ?_, ?_⟩
      · rw [collect, waits, ← List.append_assoc]
        exact laterReceived.trans (congrArg (· ++ _) received)
      · rw [collect, List.length_cons]
        refine laterReads.trans ?_
        rw [reads]
        change run.clockReads + 2 + _ = _
        omega
      · rw [collect, waits, List.foldl_append]
        exact laterState

/-! ### What an unwind sends -/

/-- The ids that `unwind_dorm_longs` sends at these positions, from the next id and the number of
quotes read so far: one for each dorm that is long or at -8 or below and that has a quote. -/
def unwindOrders (position : UInt32 → Int32) : UInt64 → Nat → List UInt32 → List UInt64
  | _, _, [] => []
  | nextId, quotes, symbol :: symbols =>
      if position symbol > 0 then
        if world.bestBidPrice quotes symbol ≤ 0 then
          unwindOrders position nextId (quotes + 1) symbols
        else nextId :: unwindOrders position (nextId + 1) (quotes + 1) symbols
      else if position symbol ≤ -8 then
        if world.bestAskPrice quotes symbol ≤ 0 then
          unwindOrders position nextId (quotes + 1) symbols
        else nextId :: unwindOrders position (nextId + 1) (quotes + 1) symbols
      else unwindOrders position nextId quotes symbols

/-- Nothing has been read since. -/
structure SendsOnly (run later : Run) : Prop where
  received : later.received = run.received
  inbox : later.inbox = run.inbox
  clockReads : later.clockReads = run.clockReads

theorem SendsOnly.sendOrder {run later : Run} (sofar : SendsOnly run later) (symbol : UInt32)
    (side : Side) (qty : UInt32) (price : Int32) :
    SendsOnly run (later.sendOrderNoWait symbol side qty price) := by
  refine ⟨?_, sofar.inbox, sofar.clockReads⟩
  rw [sendOrderNoWait, received_act]
  exact (List.append_nil _).trans sofar.received

theorem SendsOnly.quoted {run later : Run} (sofar : SendsOnly run later) :
    SendsOnly run later.quoted := ⟨sofar.received, sofar.inbox, sofar.clockReads⟩

theorem foldl_unwindLeg {run : Run} (symbols : List UInt32) (fired : Run × List UInt64)
    (sofar : SendsOnly run fired.1) :
    (symbols.foldl (unwindLeg world) fired).2 =
        fired.2 ++ unwindOrders world fired.1.getPosition fired.1.state.nextOrderId
          fired.1.quoteReads symbols ∧
      SendsOnly run (symbols.foldl (unwindLeg world) fired).1 := by
  induction symbols generalizing fired with
  | nil => exact ⟨(List.append_nil _).symm, sofar⟩
  | cons symbol symbols inductionHypothesis =>
      have skipped := inductionHypothesis (fired.1.quoted, fired.2) sofar.quoted
      have sends : ∀ side qty price,
          let sent := (fired.1.quoted.sendOrderNoWait symbol side qty price,
            fired.2 ++ [fired.1.state.nextOrderId])
          (symbols.foldl (unwindLeg world) sent).2 =
              fired.2 ++ fired.1.state.nextOrderId :: unwindOrders world fired.1.getPosition
                (fired.1.state.nextOrderId + 1) (fired.1.quoteReads + 1) symbols ∧
            SendsOnly run (symbols.foldl (unwindLeg world) sent).1 := by
        intro side qty price
        obtain ⟨ids, after⟩ := inductionHypothesis
          (fired.1.quoted.sendOrderNoWait symbol side qty price,
            fired.2 ++ [fired.1.state.nextOrderId]) (sofar.quoted.sendOrder symbol side qty price)
        refine ⟨ids.trans ?_, after⟩
        rw [List.append_assoc]
        rfl
      rw [List.foldl_cons, unwindLeg, unwindOrders, bestBid, bestAsk]
      dsimp only
      split
      · split
        · exact skipped
        · exact sends _ _ _
      · split
        · split
          · exact skipped
          · exact sends _ _ _
        · exact inductionHypothesis fired sofar

/-- What an unwind reads is what its waits read. -/
theorem received_unwindDormLongs (run : Run) :
    (run.unwindDormLongs world).received = run.received ++
      (waits world.clock run.clockReads (unwindOrders world run.getPosition run.state.nextOrderId
        run.quoteReads DORM_IDS) run.inbox).read := by
  obtain ⟨ids, fired⟩ := foldl_unwindLeg world DORM_IDS (run, []) ⟨rfl, rfl, rfl⟩
  obtain ⟨read, -⟩ := collect_waits world (DORM_IDS.foldl (unwindLeg world) (run, [])).2
    (DORM_IDS.foldl (unwindLeg world) (run, [])).1
  rw [fired.received, fired.inbox, fired.clockReads, ids] at read
  rw [unwindDormLongs, ids]
  exact read

end Waits

/-! ### Giving up a creation -/

section Creation

variable {bot : BotState} {snap : ArbSnapshot} (world : World)

/-- What the ten waits for the legs make of the stream. -/
def legWaits (bot : BotState) (stream : List OeResponse) : Waited :=
  waits world.clock 1 (bot.legs.map Prod.fst) stream

/-- A position when the legs' waits have returned. -/
def legPosition (bot : BotState) (stream : List OeResponse) (symbol : UInt32) : Int32 :=
  bot.manager.getPosition symbol +
    BotState.fillsBooked symbol bot.legRoutes bot.mmOrderMap (legWaits world bot stream).read

/-- How often the clock has been read when polling for positions that are missing ends: once past
the deadline, it is read no more. -/
def pollReads (clock : Nat → Int) (deadline : Int) : Nat → Nat → Nat
  | 0, reads => reads
  | fuel + 1, reads =>
      if clock reads > deadline then reads + 1 else pollReads clock deadline fuel (reads + 1)

/-- How often the clock has been read when a creation that gives up starts to unwind: once for the
start and twice for each leg; once more for the deadline of polling when no leg's answer is missing,
and then until the deadline has passed when a position is. -/
def unwindReads (fuel : Nat) (bot : BotState) (snap : ArbSnapshot) (stream : List OeResponse) :
    Nat :=
  if (legWaits world bot stream).confirmed < 10 then 21
  else if DORM_IDS.all fun symbol => creationQty snap ≤ legPosition world bot stream symbol then 22
  else pollReads world.clock (world.clock 21 + OEClient.milliseconds 5000) fuel 22

/-- What a creation that gives up takes off the stream: what the ten waits for its legs read, and
then what the waits for the orders of the unwind read. -/
def abandonedReads (fuel : Nat) (bot : BotState) (snap : ArbSnapshot)
    (stream : List OeResponse) : List OeResponse :=
  let legs := legWaits world bot stream
  let unwind := unwindOrders world (legPosition world bot stream) (bot.nextOrderId + 10) 0 DORM_IDS
  legs.read ++ (waits world.clock (unwindReads world fuel bot snap stream) unwind legs.unread).read

/-- Each order sent takes an id, and nothing is read. -/
theorem foldl_fireLeg_sends (qty : Int32) {run : Run} (orders : List (UInt32 × DormData))
    (fired : Run × List UInt64) (sofar : SendsOnly run fired.1) :
    let after := (orders.foldl
      (fun fired leg =>
        (fired.1.sendOrderNoWait leg.1 .BUY qty.toUInt32 leg.2.bestAskPrice,
          fired.2 ++ [fired.1.state.nextOrderId]))
      fired).1
    SendsOnly run after ∧
      after.state.nextOrderId = fired.1.state.nextOrderId + UInt64.ofNat orders.length := by
  induction orders generalizing fired with
  | nil => exact ⟨sofar, (UInt64.add_zero _).symm⟩
  | cons leg orders inductionHypothesis =>
      obtain ⟨sends, nextId⟩ := inductionHypothesis
        (fired.1.sendOrderNoWait leg.1 .BUY qty.toUInt32 leg.2.bestAskPrice,
          fired.2 ++ [fired.1.state.nextOrderId]) (sofar.sendOrder _ _ _ _)
      refine ⟨sends, nextId.trans ?_⟩
      change fired.1.state.nextOrderId + 1 + _ = _
      rw [List.length_cons, UInt64.ofNat_add, UInt64.add_assoc, UInt64.add_comm 1]
      rfl

/-- The waits for the legs have returned, nothing else has been read, and the clock has been read
`reads` times. -/
structure LegsWaited (bot : BotState) (stream : List OeResponse) (reads : Nat) (run : Run) :
    Prop where
  received : run.received = (legWaits world bot stream).read
  inbox : run.inbox = (legWaits world bot stream).unread
  clockReads : run.clockReads = reads
  quoteReads : run.quoteReads = 0
  nextOrderId : run.state.nextOrderId = bot.nextOrderId + 10
  positions : run.getPosition = legPosition world bot stream

theorem sendLegs_waited (stream : List OeResponse) :
    LegsWaited world bot stream 21 ((new bot stream).sendLegs world snap).1 ∧
      ((new bot stream).sendLegs world snap).2 = (legWaits world bot stream).confirmed := by
  obtain ⟨started, startedEq⟩ : ∃ started, started =
    (((new bot stream).act (.setArbInProgress true)).tick 1).act
      (.setArbStartTime ((new bot stream).now world)) := ⟨_, rfl⟩
  have begun : started.received = [] ∧ started.inbox = stream ∧ started.clockReads = 1 ∧
      started.state.nextOrderId = bot.nextOrderId ∧ started.state.manager = bot.manager ∧
      started.state.legs = bot.legs ∧ started.state.legRoutes = bot.legRoutes ∧
      started.state.mmOrderMap = bot.mmOrderMap := by
    rw [startedEq]
    exact ⟨rfl, rfl, rfl, rfl, rfl, rfl, rfl, rfl⟩
  obtain ⟨nothing, unread, reads, firstId, sameManager, sameLegs, sameRoutes, sameMm⟩ := begun
  obtain ⟨sends, nextId⟩ := foldl_fireLeg_sends (creationQty snap)
    (DORM_IDS.zip snap.dorms.toList) (started, []) ⟨rfl, rfl, rfl⟩
  obtain ⟨ids, routes, manager, mmOrders, -, -⟩ := fireLegs_spec (creationQty snap) started snap
  obtain ⟨received, inboxLeft, confirmed, clockReads, state⟩ := collect_waits world
    (fireLegs (creationQty snap) started snap).2 (fireLegs (creationQty snap) started snap).1
  have fired : SendsOnly started (fireLegs (creationQty snap) started snap).1 := sends
  rw [fired.received, fired.inbox, fired.clockReads, nothing, unread, reads, ids, sameLegs]
    at received
  rw [fired.inbox, fired.clockReads, unread, reads, ids, sameLegs] at inboxLeft confirmed state
  rw [fired.clockReads, reads, ids, sameLegs] at clockReads
  have quotes := @quoteReads_sendLegs snap world (new bot stream)
  rw [sendLegs] at quotes ⊢
  rw [← startedEq, ids, sameLegs] at quotes ⊢
  refine ⟨⟨received, inboxLeft, clockReads, quotes, ?_, ?_⟩, confirmed⟩
  · have ten : (DORM_IDS.zip snap.dorms.toList).length = 10 := by simp [DORM_IDS]
    rw [ten] at nextId
    rw [state, nextOrderId_receive, ← firstId]
    exact nextId
  · funext symbol
    rw [getPosition, state, BotState.getPosition_receive, manager, routes, mmOrders, sameManager,
      sameRoutes, sameMm]
    rfl

/-- Polling for positions that are missing only reads the clock. -/
theorem pollFills_of_missing {qty : Int32} (deadline : Int) (fuel : Nat) {run : Run}
    (missing : run.allFilled qty = false) :
    (pollFills world qty deadline fuel run).1 =
      { run with clockReads := pollReads world.clock deadline fuel run.clockReads } := by
  induction fuel generalizing run with
  | zero => rfl
  | succ fuel inductionHypothesis =>
      rw [pollFills, missing, if_neg Bool.false_ne_true, pollReads]
      change (if world.clock run.clockReads > deadline then _ else _ : Run × Option Bool).1 = _
      split
      · rfl
      · exact inductionHypothesis missing

/-- What is booked stays booked. -/
theorem booked_sellUndy (fuel : Nat) (run : Run) :
    (sellUndy world fuel 0 ((bookCreation world (creationQty snap) run snap).getPosition SYM_UNDY)
      (bookCreation world (creationQty snap) run snap)).1.Booked := by
  refine ⟨.book SYM_UNDY .BUY (creationQty snap).toUInt32 snap.undyBestBidPrice, ?_,
    List.cons_ne_nil _ _⟩
  apply (sellUndy_extends creating_always.toUnwinding world fuel 0 rfl).log_subset
  exact List.mem_append_right _ List.mem_cons_self

variable {world}

/-- An unwind of what the legs have left. -/
theorem LegsWaited.unwind {stream : List OeResponse} {reads : Nat} {run : Run}
    (waited : LegsWaited world bot stream reads run) :
    (run.unwindDormLongs world).received = (legWaits world bot stream).read ++
      (waits world.clock reads (unwindOrders world (legPosition world bot stream)
        (bot.nextOrderId + 10) 0 DORM_IDS) (legWaits world bot stream).unread).read := by
  rw [received_unwindDormLongs, waited.received, waited.inbox, waited.clockReads,
    waited.quoteReads, waited.nextOrderId, waited.positions]

theorem LegsWaited.allFilled {stream : List OeResponse} {reads : Nat} {run : Run}
    (waited : LegsWaited world bot stream reads run) (qty : Int32) :
    run.allFilled qty =
      DORM_IDS.all fun symbol => qty ≤ legPosition world bot stream symbol := by
  rw [Run.allFilled, waited.positions]

theorem LegsWaited.at_reads {stream : List OeResponse} {reads : Nat} {run : Run}
    (waited : LegsWaited world bot stream reads run) (later : Nat) :
    LegsWaited world bot stream later { run with clockReads := later } :=
  ⟨waited.received, waited.inbox, rfl, waited.quoteReads, waited.nextOrderId, waited.positions⟩

theorem LegsWaited.fillTimeout {stream : List OeResponse} {reads : Nat} {run : Run}
    (waited : LegsWaited world bot stream reads run) :
    LegsWaited world bot stream reads (run.act .fillTimeout) := by
  refine ⟨?_, waited.inbox, waited.clockReads, waited.quoteReads, waited.nextOrderId,
    waited.positions⟩
  rw [received_act, waited.received]
  exact List.append_nil _

theorem LegsWaited.callCreate {stream : List OeResponse} {reads : Nat} {run : Run}
    (waited : LegsWaited world bot stream reads run) (amount : Int32) (result : ETFResult)
    (calls : Nat) :
    LegsWaited world bot stream reads
      { run.act (.callCreate amount result) with etfCalls := calls } := by
  refine ⟨?_, waited.inbox, waited.clockReads, waited.quoteReads, waited.nextOrderId,
    waited.positions⟩
  change (run.act (.callCreate amount result)).received = _
  rw [received_act, waited.received]
  exact List.append_nil _

variable (world)

/-- The calls and waits after the ACKs: past the deadline, or after a failed `/create`. -/
theorem LegsWaited.afterAcks (fuel : Nat) {stream : List OeResponse} {run : Run}
    (waited : LegsWaited world bot stream 21 run)
    (returned : (run.afterAcks world fuel snap).2 = some true)
    (gaveUp : ¬ (run.afterAcks world fuel snap).1.Booked) :
    ∃ reads, reads = (if run.allFilled (creationQty snap) = true then 22
        else pollReads world.clock (world.clock 21 + OEClient.milliseconds 5000) fuel 22) ∧
      ∃ last, LegsWaited world bot stream reads last ∧
        (run.afterAcks world fuel snap).1.received = (last.unwindDormLongs world).received := by
  have ticked : LegsWaited world bot stream 22 (run.tick 1) := by
    rw [tick, waited.clockReads]
    exact waited.at_reads 22
  have deadline : run.now world = world.clock 21 := congrArg world.clock waited.clockReads
  rw [Run.afterAcks, deadline] at returned gaveUp ⊢
  by_cases filled : run.allFilled (creationQty snap) = true
  · -- with the positions there, only a failed `/create` is given up
    rw [if_pos filled]
    cases fuel with
    | zero => cases returned
    | succ fuel =>
        have polled : pollFills world (creationQty snap)
            (world.clock 21 + OEClient.milliseconds 5000) (fuel + 1) (run.tick 1) =
              (run.tick 1, some true) := if_pos filled
        rw [polled] at returned gaveUp ⊢
        dsimp only at returned gaveUp ⊢
        rw [createAndSell] at gaveUp ⊢
        dsimp only at gaveUp ⊢
        by_cases refused :
            ¬ (world.create (run.tick 1).etfCalls (creationQty snap)).success = true
        · rw [if_pos refused]
          dsimp only
          exact ⟨22, rfl, _, ticked.callCreate _ _ _, rfl⟩
        · rw [if_neg refused] at gaveUp
          exact absurd (booked_sellUndy world (fuel + 1) _) gaveUp
  · have missing : (run.tick 1).allFilled (creationQty snap) = false :=
      Bool.eq_false_of_not_eq_true filled
    have polled := pollFills_of_missing world (world.clock 21 + OEClient.milliseconds 5000) fuel
      missing
    have verdict := pollFills_ne_true world (world.clock 21 + OEClient.milliseconds 5000) fuel
      missing
    rw [if_neg filled]
    rw [polled, ticked.clockReads] at returned gaveUp ⊢
    split at returned
    · cases returned
    · refine ⟨_, rfl, _, (ticked.at_reads _).fillTimeout, ?_⟩
      dsimp only
      rw [received_act]
      exact List.append_nil _
    · rename_i found
      exact absurd found verdict

/-- A creation that has returned without its bookings has received `abandonedReads`. -/
theorem received_tryCreationArb (fuel : Nat) {stream : List OeResponse}
    (starts : (new bot stream).startsCreation snap = true)
    (returned : ((new bot stream).tryCreationArb world fuel snap).2 = some true)
    (gaveUp : ¬ ((new bot stream).tryCreationArb world fuel snap).1.Booked) :
    ((new bot stream).tryCreationArb world fuel snap).1.received =
      abandonedReads world fuel bot snap stream := by
  obtain ⟨waited, confirmed⟩ := @sendLegs_waited bot snap world stream
  rw [tryCreationArb, if_neg (not_not.mpr starts)] at returned gaveUp ⊢
  rw [abandonedReads, unwindReads]
  dsimp only at returned gaveUp ⊢
  rw [← confirmed]
  by_cases missing : ((new bot stream).sendLegs world snap).2 < 10
  · rw [if_pos missing, if_pos missing]
    dsimp only
    exact waited.unwind
  · rw [if_neg missing] at returned gaveUp ⊢
    obtain ⟨reads, sameReads, last, lastWaited, received⟩ :=
      waited.afterAcks world fuel returned gaveUp
    rw [if_neg missing, ← waited.allFilled, ← sameReads, received]
    exact lastWaited.unwind

end Creation

/-! ### Giving up a redemption -/

section Redemption

variable {bot : BotState} {snap : ArbSnapshot}

/-- What a redemption that gives up takes off the stream: what the wait for the answer to the UNDY
buy reads and, when it returns true, what `wait_for_fill` reads. -/
def redemptionReads (clock : Nat → Int) (id : UInt64) (stream : List OeResponse) :
    List OeResponse :=
  let answer := OEClient.waitScan (clock 1) (clock 2) id stream
  if answer.verdict.getD false then
    answer.read ++
      (OEClient.fillScan (clock 3) (fun count => clock (4 + count)) id answer.unread).read
  else answer.read

theorem received_waitForFill (world : World) (run : Run) (id : UInt64) :
    (run.waitForFill world id).1.received = run.received ++ (run.fillScan world id).read :=
  received_foldl _ _

theorem received_buyUndy (world : World) (stream : List OeResponse) :
    let answer := OEClient.waitScan (world.clock 1) (world.clock 2) bot.nextOrderId stream
    let bought := (new bot stream).buyUndy world snap
    bought.1.received = answer.read ∧ bought.1.inbox = answer.unread ∧
      bought.1.clockReads = 3 ∧ bought.2 = answer.verdict.getD false := by
  obtain ⟨sent, sentEq⟩ : ∃ sent, sent =
    ((((new bot stream).act (.setArbInProgress true)).tick 1).act
      (.setArbStartTime ((new bot stream).now world))).sendOrderNoWait SYM_UNDY .BUY
        (redemptionQty snap).toUInt32 snap.undyBestAskPrice := ⟨_, rfl⟩
  have begun : sent.received = [] ∧ sent.inbox = stream ∧ sent.clockReads = 1 := by
    rw [sentEq]
    exact ⟨rfl, rfl, rfl⟩
  obtain ⟨nothing, unread, reads⟩ := begun
  have scans : sent.waitScan world bot.nextOrderId =
      OEClient.waitScan (world.clock 1) (world.clock 2) bot.nextOrderId stream := by
    rw [waitScan, now, now, tick, reads, unread]
  obtain ⟨-, inbox, laterReads⟩ := foldl_receive (sent.waitScan world bot.nextOrderId).read
    { sent.tick 2 with inbox := (sent.waitScan world bot.nextOrderId).unread }
  have received := received_foldl (sent.waitScan world bot.nextOrderId).read
    { sent.tick 2 with inbox := (sent.waitScan world bot.nextOrderId).unread }
  have bought : (new bot stream).buyUndy world snap =
      sent.waitForResponse world bot.nextOrderId := by
    rw [sentEq]
    rfl
  rw [bought, ← scans]
  refine ⟨received.trans ?_, inbox, laterReads.trans ?_, rfl⟩
  · change sent.received ++ _ = _
    rw [nothing, List.nil_append]
  · change sent.clockReads + 2 = 3
    rw [reads]

/-- The bookings of a redemption, after that of UNDY. -/
theorem bookRedemption_extends (world : World) (qty : Int32) (run : Run) (snap : ArbSnapshot) :
    Extends (fun _ _ => True)
      (run.act (.book SYM_UNDY .SELL qty.toUInt32 snap.undyBestAskPrice))
      (bookRedemption world qty run snap) := by
  rw [bookRedemption]
  exact Extends.foldl (fun _ _ => (Extends.quoted _).trans (Extends.act trivial)) _ _

theorem fireSells_extends (qty : Int32) (run : Run) (snap : ArbSnapshot) :
    Extends (fun _ _ => True) run (fireSells qty run snap).1 := by
  rw [fireSells]
  exact Extends.foldl_fst (fun _ _ => Extends.act trivial) _ (run, [])

/-- Once `/redeem` has agreed, all that follows the booking of UNDY goes on from it. -/
theorem redeemAndSell_extends (world : EtfWorld) (qty : Int32) {run : Run} (snap : ArbSnapshot)
    (agreed : ¬ ¬ (world.redeem run.etfCalls qty).success = true) :
    Extends (fun _ _ => True)
      ({ run with etfCalls := run.etfCalls + 1 }.act
        (.book SYM_UNDY .SELL qty.toUInt32 snap.undyBestAskPrice))
      (redeemAndSell world qty run snap).1 := by
  rw [redeemAndSell, if_neg agreed]
  have booked := bookRedemption_extends world.toWorld qty
    { run with etfCalls := run.etfCalls + 1 } snap
  have fired := booked.trans (fireSells_extends qty _ snap)
  exact fired.trans (collect_extends creating_always.toUnwinding world.toWorld _ _)

/-- A successful `/redeem` is booked. -/
theorem booked_redeemAndSell (world : EtfWorld) (qty : Int32) {run : Run}
    (agreed : ¬ ¬ (world.redeem run.etfCalls qty).success = true) :
    (redeemAndSell world qty run snap).1.Booked := by
  refine ⟨.book SYM_UNDY .SELL qty.toUInt32 snap.undyBestAskPrice, ?_, List.cons_ne_nil _ _⟩
  apply (redeemAndSell_extends world qty snap agreed).log_subset
  exact List.mem_append_right _ List.mem_cons_self

/-- A redemption that has made no bookings has received `redemptionReads`. -/
theorem received_tryRedemptionArb (world : EtfWorld) {stream : List OeResponse}
    (starts : (new bot stream).startsRedemption snap = true)
    (gaveUp : ¬ ((new bot stream).tryRedemptionArb world snap).1.Booked) :
    ((new bot stream).tryRedemptionArb world snap).1.received =
      redemptionReads world.clock bot.nextOrderId stream := by
  obtain ⟨received, inbox, reads, returned⟩ := @received_buyUndy bot snap world.toWorld stream
  rw [tryRedemptionArb, if_neg (not_not.mpr starts)] at gaveUp ⊢
  rw [redemptionReads]
  dsimp only at received inbox reads returned gaveUp ⊢
  rw [← returned]
  by_cases refused : ¬ ((new bot stream).buyUndy world.toWorld snap).2 = true
  · rw [if_pos refused, if_neg refused]
    dsimp only
    rw [received_act, received]
    exact List.append_nil _
  · have bought := not_not.mp refused
    rw [if_neg refused] at gaveUp ⊢
    rw [if_pos bought]
    have scans : ((new bot stream).buyUndy world.toWorld snap).1.fillScan world.toWorld
        bot.nextOrderId = OEClient.fillScan (world.clock 3) (fun count => world.clock (4 + count))
          bot.nextOrderId (OEClient.waitScan (world.clock 1) (world.clock 2) bot.nextOrderId
            stream).unread := by
      rw [fillScan, now, inbox, reads]
    have filled := received_waitForFill world.toWorld
      ((new bot stream).buyUndy world.toWorld snap).1 bot.nextOrderId
    rw [scans, received] at filled
    rw [← filled]
    by_cases unfilled : ¬ (((new bot stream).buyUndy world.toWorld snap).1.waitForFill world.toWorld
        (new bot stream).state.nextOrderId).2 = true
    · rw [if_pos unfilled]
      dsimp only
      rw [received_act]
      exact List.append_nil _
    · rw [if_neg unfilled] at gaveUp ⊢
      by_cases failed : ¬ (world.redeem (((new bot stream).buyUndy world.toWorld snap).1.waitForFill
          world.toWorld (new bot stream).state.nextOrderId).1.etfCalls
            (redemptionQty snap)).success = true
      · rw [redeemAndSell, if_pos failed]
        rfl
      · exact absurd (booked_redeemAndSell world _ failed) gaveUp

end Redemption

/-! ### Exactly when nothing is left live -/

/-- A creation that gives up leaves no leg live, and a redemption not its UNDY buy, exactly when
what ends the order is among the responses that the call takes off the stream. -/
theorem abandoned_legs_over_iff (bot : BotState) (snap : ArbSnapshot) :
    (∀ (world : World) (fuel : Nat) (stream : List OeResponse),
      (new bot stream).startsCreation snap = true →
      let tried := (new bot stream).tryCreationArb world fuel snap
      tried.2 = some true → ¬ tried.1.Booked →
      ((∀ leg ∈ bot.legs, tried.1.Over bot leg.1 (creationQty snap).toUInt32.toNat) ↔
        ∀ leg ∈ bot.legs, Ended leg.1 (creationQty snap).toUInt32.toNat
          (abandonedReads world fuel bot snap stream))) ∧
    ∀ (world : EtfWorld) (stream : List OeResponse),
      (new bot stream).startsRedemption snap = true →
      let tried := (new bot stream).tryRedemptionArb world snap
      ¬ tried.1.Booked →
      (tried.1.Over bot bot.nextOrderId (redemptionQty snap).toUInt32.toNat ↔
        Ended bot.nextOrderId (redemptionQty snap).toUInt32.toNat
          (redemptionReads world.clock bot.nextOrderId stream)) := by
  constructor
  · intro world fuel stream starts tried returned gaveUp
    have received := received_tryCreationArb world fuel starts returned gaveUp
    refine forall₂_congr fun leg _ => ?_
    rw [over_iff, received]
  · intro world stream starts tried gaveUp
    have received := received_tryRedemptionArb world starts gaveUp
    rw [over_iff, received]

/-- Ten rejected legs are over when the creation gives up, and so is a rejected UNDY buy. -/
theorem rejected_legs_over :
    let rejects := loggedInBot.legs.map fun leg => OeResponse.reject leg.1 .INVALID_ORDER
    let dearDorms := { cheapDorms with navBid := 1100 }
    let world : EtfWorld := { secondsWorld with redeem := fun _ amount => ⟨true, "", amount⟩ }
    (∀ leg ∈ loggedInBot.legs,
      ((new loggedInBot rejects).tryCreationArb secondsWorld 1 cheapDorms).1.Over loggedInBot
        leg.1 (creationQty cheapDorms).toUInt32.toNat) ∧
      ((new loggedInBot rejects).tryRedemptionArb world dearDorms).1.Over loggedInBot
        loggedInBot.nextOrderId (redemptionQty dearDorms).toUInt32.toNat := by
  refine ⟨?_, ?_⟩
  · exact ((abandoned_legs_over_iff loggedInBot cheapDorms).1 secondsWorld 1 _ (by decide +kernel)
      (by decide +kernel) (by decide +kernel)).mpr
      (@of_decide_eq_true _ (List.decidableBAll _ _) (by decide +kernel))
  · exact ((abandoned_legs_over_iff loggedInBot { cheapDorms with navBid := 1100 }).2
      { secondsWorld with redeem := fun _ amount => ⟨true, "", amount⟩ } _ (by decide +kernel)
      (by decide +kernel)).mpr (by decide +kernel)

/-- Ten ACKs and no fill: the polling times out and nothing is left to unwind, since no position
has moved.  The first leg still rests, and fills when the bot is idle. -/
theorem timed_out_leg_fills_later :
    let stream := (loggedInBot.legs.map fun leg => OeResponse.ack leg.1) ++
      [.fill 1001 5 90 .CLOSED]
    let tried := (new loggedInBot stream).tryCreationArb secondsWorld 10 cheapDorms
    let later := tried.1.waitForResponse secondsWorld 1011
    (new loggedInBot stream).startsCreation cheapDorms = true ∧ tried.2 = some true ∧
      ¬ tried.1.Booked ∧ loggedInBot.legs.head? = some (1001, DORM_IDS.head (by decide)) ∧
      ¬ tried.1.Over loggedInBot 1001 (creationQty cheapDorms).toUInt32.toNat ∧
      tried.1.state.arbInProgress = false ∧
      tried.1.getPosition (DORM_IDS.head (by decide)) = 0 ∧
      later.1.state.arbInProgress = false ∧
      later.1.getPosition (DORM_IDS.head (by decide)) = 5 := by
  refine ⟨by decide +kernel, by decide +kernel, by decide +kernel, by decide +kernel, ?_,
    by decide +kernel, by decide +kernel, by decide +kernel, by decide +kernel⟩
  rw [over_iff]
  decide +kernel

end Run

end HftAlgorithms
