/-
Module: HftAlgorithms.Proofs.CreationFills
Purpose: When the creation arb sees the fills of its ten legs.  Each wait may end
  on an ACK and leave fills unread, and the polling loop reads nothing.
Trusted boundary: none
Main exports: OEClient.readByWaits, BotState.fillsBooked, Run.SeesFills,
  Run.seesFills_iff
-/
import HftAlgorithms.Proofs.BotRuns

namespace HftAlgorithms

open StateMachine StreamScan

/-! ### What ten waits read -/

namespace OEClient

/-- What waits for the ids, one after the other, read from a stream when none is late. -/
def readByWaits : List UInt64 → List OeResponse → List OeResponse
  | [], _ => []
  | id :: ids, stream =>
      (scan (verdict id) stream).read ++ readByWaits ids (scan (verdict id) stream).unread

/-- Each wait ends with true. -/
def AllConfirmed : List UInt64 → List OeResponse → Prop
  | [], _ => True
  | id :: ids, stream =>
      (scan (verdict id) stream).verdict = some true ∧
        AllConfirmed ids (scan (verdict id) stream).unread

/-- `count` waits in a row compare the clock with their deadline in time, when the first one
reads the clock for the time `reads`. -/
def WaitsOnTime (clock : Nat → Int) (reads count : Nat) : Prop :=
  ∀ wait < count, clock (reads + 2 * wait + 1) ≤ clock (reads + 2 * wait) + milliseconds 3000

instance decidableWaitsOnTime (clock : Nat → Int) (reads count : Nat) :
    Decidable (WaitsOnTime clock reads count) :=
  inferInstanceAs (Decidable (∀ wait < count, _))

theorem waitsOnTime_succ (clock : Nat → Int) (reads count : Nat) :
    WaitsOnTime clock reads (count + 1) ↔
      clock (reads + 1) ≤ clock reads + milliseconds 3000 ∧
        WaitsOnTime clock (reads + 2) count := by
  constructor
  · intro onTime
    refine ⟨onTime 0 (Nat.succ_pos count), ?_⟩
    intro wait lt
    have later := onTime (wait + 1) (Nat.succ_lt_succ lt)
    rwa [show reads + 2 * (wait + 1) = reads + 2 + 2 * wait by omega] at later
  · rintro ⟨first, rest⟩ wait lt
    cases wait with
    | zero => exact first
    | succ wait =>
        have later := rest wait (Nat.lt_of_succ_lt_succ lt)
        rwa [show reads + 2 * (wait + 1) = reads + 2 + 2 * wait by omega]

/-- The order that a closing fill closes. -/
def closedByFill : OeResponse → Option UInt64
  | .fill orderId _ _ .CLOSED => some orderId
  | _ => none

theorem verdict_of_closedByFill (id : UInt64) {closed : UInt64} {response : OeResponse}
    (closes : closedByFill response = some closed) : verdict id response = some true := by
  cases response with
  | fill orderId quantity price flags =>
      cases flags with
      | CLOSED => rfl
      | NONE => cases closes
      | PARTIAL_FILL => cases closes
      | unknown byte => cases closes
  | ack orderId => cases closes
  | reject orderId rejectReason => cases closes
  | closed orderId => cases closes
  | other => cases closes

/-- What a wait reads over closes nothing. -/
theorem closedByFill_of_silent {id : UInt64} {stream : List OeResponse}
    (silent : ∀ response ∈ stream, verdict id response = none) :
    stream.filterMap closedByFill = [] := by
  rw [List.filterMap_eq_nil_iff]
  intro response member
  cases closes : closedByFill response with
  | none => rfl
  | some closed =>
      have ends := verdict_of_closedByFill id closes
      rw [silent response member] at ends
      cases ends

/-- Only a REJECT of the awaited order makes a wait end with false. -/
theorem verdict_eq_true {id : UInt64} {response : OeResponse} {value : Bool}
    (noReject : ∀ reason, response ≠ .reject id reason)
    (ends : verdict id response = some value) : value = true := by
  cases response with
  | reject orderId rejectReason =>
      have other : orderId ≠ id := fun same => noReject rejectReason (by rw [same])
      simp [verdict, other] at ends
  | ack orderId => simp_all [verdict]
  | fill orderId quantity price flags => simp_all [verdict]
  | closed orderId => simp_all [verdict]
  | other => cases ends

/-- Every wait uses up at most one closing fill, so as many waits as there are closing fills
all end. -/
theorem allConfirmed_of_closingFills {ids : List UInt64} {stream : List OeResponse}
    (enough : ids.length ≤ (stream.filterMap closedByFill).length)
    (noRejects : ∀ id ∈ ids, ∀ reason, .reject id reason ∉ stream) :
    AllConfirmed ids stream := by
  induction ids generalizing stream with
  | nil => trivial
  | cons id ids inductionHypothesis =>
      rcases silent_or_split (verdict id) stream with
        silent | ⟨earlier, message, value, later, rfl, silent, ends⟩
      · rw [closedByFill_of_silent silent] at enough
        exact absurd enough (Nat.not_succ_le_zero ids.length)
      · have positive : value = true :=
          verdict_eq_true (fun reason same => noRejects id List.mem_cons_self reason
            (same ▸ List.mem_append_right _ List.mem_cons_self)) ends
        have one : ((message :: later).filterMap closedByFill).length ≤
            (later.filterMap closedByFill).length + 1 := by
          rw [List.filterMap_cons]
          split <;> simp
        rw [List.filterMap_append, closedByFill_of_silent silent, List.nil_append,
          List.length_cons] at enough
        rw [AllConfirmed, scan_append_cons silent ends later, positive]
        refine ⟨rfl, inductionHypothesis ?_ ?_⟩
        · exact Nat.le_of_succ_le_succ (enough.trans one)
        · intro other member reason unread
          exact noRejects other (List.mem_cons_of_mem _ member) reason
            (List.mem_append_right _ (List.mem_cons_of_mem _ unread))

end OEClient

/-! ### What the fills among them book -/

/-- What a fill adds to a position. -/
def signedQty (side : Side) (qty : UInt32) : Int32 :=
  if side = .BUY then qty.toInt32 else -qty.toInt32

theorem movedPosition_eq_add (position : Int32) (side : Side) (qty : UInt32) :
    movedPosition position side qty = position + signedQty side qty := by
  rw [movedPosition, signedQty]
  split
  · rfl
  · exact Int32.sub_eq_add_neg position qty.toInt32

theorem getPosition_onFill_eq_add (manager : SymbolManager) (routed : UInt32) (side : Side)
    (qty : UInt32) (price : Int32) (symbol : UInt32) :
    (manager.onFill routed side qty price).getPosition symbol =
      manager.getPosition symbol + if symbol = routed then signedQty side qty else 0 := by
  rw [SymbolManager.getPosition_onFill]
  split
  · rename_i own
    rw [own, movedPosition_eq_add]
  · exact (Int32.add_zero _).symm

namespace BotState

/-- What the responses add to the position in `symbol`: fills are routed by the arb's order map,
then by the market maker's, and a routing entry goes with its closing fill. -/
def fillsBooked (symbol : UInt32) : OrderMap → OrderMap → List OeResponse → Int32
  | _, _, [] => 0
  | orders, mmOrders, .fill orderId qty _ flags :: rest =>
      match orders.lookup orderId with
      | some (routed, side) =>
          (if symbol = routed then signedQty side qty else 0) +
            fillsBooked symbol (if flags = .CLOSED then orders.erase orderId else orders) mmOrders
              rest
      | none =>
          match mmOrders.lookup orderId with
          | some (routed, side) =>
              (if symbol = routed then signedQty side qty else 0) +
                fillsBooked symbol orders
                  (if flags = .CLOSED then mmOrders.erase orderId else mmOrders) rest
          | none => fillsBooked symbol orders mmOrders rest
  | orders, mmOrders, .closed orderId :: rest =>
      fillsBooked symbol orders (mmOrders.erase orderId) rest
  | orders, mmOrders, _ :: rest => fillsBooked symbol orders mmOrders rest

/-- Reading responses moves each position by what their fills book. -/
theorem getPosition_receive (symbol : UInt32) (responses : List OeResponse) (bot : BotState) :
    (responses.foldl (fun bot response => bot.act (.receive response)) bot).manager.getPosition
        symbol =
      bot.manager.getPosition symbol +
        fillsBooked symbol bot.orderMap bot.mmOrderMap responses := by
  induction responses generalizing bot with
  | nil => exact (Int32.add_zero _).symm
  | cons response responses inductionHypothesis =>
      rw [List.foldl_cons, inductionHypothesis]
      cases response with
      | ack orderId => rfl
      | reject orderId rejectReason => rfl
      | closed orderId => rfl
      | other => rfl
      | fill orderId qty price flags =>
          cases routed : bot.orderMap.lookup orderId with
          | some route =>
              obtain ⟨manager, orders, mmOrders⟩ := receive_arbFill qty price flags routed
              rw [manager, orders, mmOrders, getPosition_onFill_eq_add, fillsBooked, routed,
                Int32.add_assoc]
          | none =>
              cases routedMm : bot.mmOrderMap.lookup orderId with
              | some route =>
                  obtain ⟨manager, orders, mmOrders⟩ :=
                    receive_mmFill qty price flags routed routedMm
                  rw [manager, orders, mmOrders, getPosition_onFill_eq_add, fillsBooked, routed,
                    routedMm, Int32.add_assoc]
              | none =>
                  obtain ⟨manager, orders, mmOrders⟩ :=
                    receive_strangeFill qty price flags routed routedMm
                  rw [manager, orders, mmOrders, fillsBooked, routed, routedMm]

/-- The ids that buys of the symbols get, each with its symbol. -/
def legOrders : UInt64 → List UInt32 → List (UInt64 × UInt32)
  | _, [] => []
  | nextId, symbol :: symbols => (nextId, symbol) :: legOrders (nextId + 1) symbols

/-- The ten legs of a creation that starts here. -/
def legs (bot : BotState) : List (UInt64 × UInt32) := legOrders bot.nextOrderId DORM_IDS

/-- The arb's order map once the ten legs are sent. -/
def legRoutes (bot : BotState) : OrderMap :=
  bot.legs.foldl (fun orders leg => orders.insert leg.1 (leg.2, .BUY)) bot.orderMap

theorem exists_of_mem_legOrders {nextId : UInt64} {symbols : List UInt32} {leg : UInt64 × UInt32}
    (member : leg ∈ legOrders nextId symbols) :
    ∃ index < symbols.length, leg.1 = nextId + UInt64.ofNat index := by
  induction symbols generalizing nextId with
  | nil => exact absurd member List.not_mem_nil
  | cons symbol symbols inductionHypothesis =>
      rcases List.mem_cons.mp member with rfl | later
      · exact ⟨0, Nat.succ_pos _, (UInt64.add_zero nextId).symm⟩
      · obtain ⟨index, lt, same⟩ := inductionHypothesis later
        refine ⟨index + 1, Nat.succ_lt_succ lt, ?_⟩
        rw [same, UInt64.ofNat_add, UInt64.add_assoc, UInt64.add_comm 1]
        rfl

/-- Ids in a row differ until they wrap around. -/
theorem nodup_legOrders (nextId : UInt64) {symbols : List UInt32}
    (few : symbols.length < UInt64.size) : ((legOrders nextId symbols).map Prod.fst).Nodup := by
  induction symbols generalizing nextId with
  | nil => exact List.nodup_nil
  | cons symbol symbols inductionHypothesis =>
      have fewer : symbols.length < UInt64.size := Nat.lt_of_succ_lt few
      refine List.nodup_cons.mpr ⟨?_, inductionHypothesis (nextId + 1) fewer⟩
      intro again
      obtain ⟨leg, member, same⟩ := List.mem_map.mp again
      obtain ⟨index, lt, is⟩ := exists_of_mem_legOrders member
      rw [is, UInt64.add_assoc, UInt64.add_eq_left] at same
      have wrapped := congrArg UInt64.toNat same
      rw [UInt64.toNat_add, UInt64.toNat_ofNat_of_lt' (Nat.lt_trans lt fewer)] at wrapped
      have small : 1 + index < 2 ^ 64 := by
        rw [List.length_cons] at few
        change symbols.length + 1 < 2 ^ 64 at few
        omega
      change (1 + index) % 2 ^ 64 = 0 at wrapped
      rw [Nat.mod_eq_of_lt small] at wrapped
      omega

theorem nodup_legs (bot : BotState) : (bot.legs.map Prod.fst).Nodup :=
  nodup_legOrders bot.nextOrderId (by decide)

end BotState

/-! ### The run up to the polling loop -/

namespace Run

open OEClient BotState

/-- Sending the legs gives them consecutive ids and routes them; it reads nothing. -/
theorem foldl_fireLeg (qty : Int32) (orders : List (UInt32 × DormData))
    (fired : Run × List UInt64) :
    let after := orders.foldl
      (fun fired leg =>
        (fired.1.sendOrderNoWait leg.1 .BUY qty.toUInt32 leg.2.bestAskPrice,
          fired.2 ++ [fired.1.state.nextOrderId]))
      fired
    let sent := legOrders fired.1.state.nextOrderId (orders.map Prod.fst)
    after.2 = fired.2 ++ sent.map Prod.fst ∧
      after.1.state.orderMap =
        sent.foldl (fun orders leg => orders.insert leg.1 (leg.2, .BUY)) fired.1.state.orderMap ∧
      after.1.state.manager = fired.1.state.manager ∧
      after.1.state.mmOrderMap = fired.1.state.mmOrderMap ∧
      after.1.inbox = fired.1.inbox ∧ after.1.clockReads = fired.1.clockReads := by
  induction orders generalizing fired with
  | nil => exact ⟨(List.append_nil _).symm, rfl, rfl, rfl, rfl, rfl⟩
  | cons leg orders inductionHypothesis =>
      obtain ⟨ids, routes, manager, mmOrders, inbox, reads⟩ := inductionHypothesis
        (fired.1.sendOrderNoWait leg.1 .BUY qty.toUInt32 leg.2.bestAskPrice,
          fired.2 ++ [fired.1.state.nextOrderId])
      refine ⟨?_, routes, manager, mmOrders, inbox, reads⟩
      rw [List.foldl_cons, ids, List.append_assoc]
      rfl

theorem fireLegs_spec (qty : Int32) (run : Run) (snap : ArbSnapshot) :
    let fired := fireLegs qty run snap
    fired.2 = run.state.legs.map Prod.fst ∧
      fired.1.state.orderMap = run.state.legRoutes ∧
      fired.1.state.manager = run.state.manager ∧
      fired.1.state.mmOrderMap = run.state.mmOrderMap ∧
      fired.1.inbox = run.inbox ∧ fired.1.clockReads = run.clockReads := by
  have fired := foldl_fireLeg qty (DORM_IDS.zip snap.dorms.toList) (run, [])
  rw [map_fst_legs] at fired
  exact fired

theorem foldl_receive (responses : List OeResponse) (run : Run) :
    let after := responses.foldl (fun run response => run.act (.receive response)) run
    after.state = responses.foldl (fun bot response => bot.act (.receive response)) run.state ∧
      after.inbox = run.inbox ∧ after.clockReads = run.clockReads := by
  induction responses generalizing run with
  | nil => exact ⟨rfl, rfl, rfl⟩
  | cons response responses inductionHypothesis =>
      exact inductionHypothesis (run.act (.receive response))

section Waits

variable (world : World)

/-- A wait that is not late scans the stream. -/
theorem waitForResponse_onTime {run : Run} (id : UInt64)
    (onTime : world.clock (run.clockReads + 1) ≤
      world.clock run.clockReads + OEClient.milliseconds 3000) :
    let waited := run.waitForResponse world id
    let scanned := scan (verdict id) run.inbox
    waited.1.state =
        scanned.read.foldl (fun bot response => bot.act (.receive response)) run.state ∧
      waited.1.inbox = scanned.unread ∧ waited.1.clockReads = run.clockReads + 2 ∧
      (waited.2 = true ↔ scanned.verdict = some true) := by
  have scans : run.waitScan world id = scan (verdict id) run.inbox :=
    if_neg (not_lt.mpr onTime)
  rw [waitForResponse, scans]
  obtain ⟨state, inbox, reads⟩ := foldl_receive (scan (verdict id) run.inbox).read
    { run.tick 2 with inbox := (scan (verdict id) run.inbox).unread }
  refine ⟨state, inbox, reads, ?_⟩
  cases (scan (verdict id) run.inbox).verdict <;> simp

theorem waitForResponse_late {run : Run} (id : UInt64)
    (late : ¬ world.clock (run.clockReads + 1) ≤
      world.clock run.clockReads + OEClient.milliseconds 3000) :
    (run.waitForResponse world id).2 = false := by
  have nothing : run.waitScan world id = ⟨[], run.inbox, some false⟩ := if_pos (not_le.mp late)
  rw [waitForResponse, nothing]
  rfl

theorem collect_le (ids : List UInt64) (run : Run) :
    (run.collect world ids).2 ≤ ids.length := by
  induction ids generalizing run with
  | nil => exact Nat.le_refl 0
  | cons id ids inductionHypothesis =>
      have rest := inductionHypothesis (run.waitForResponse world id).1
      rw [collect, List.length_cons]
      dsimp only
      split <;> omega

/-- Every wait returns true exactly when none is late and every scan ends with true. -/
theorem collect_eq_length_iff (ids : List UInt64) (run : Run) :
    (run.collect world ids).2 = ids.length ↔
      WaitsOnTime world.clock run.clockReads ids.length ∧ AllConfirmed ids run.inbox := by
  induction ids generalizing run with
  | nil => simp [collect, WaitsOnTime, AllConfirmed]
  | cons id ids inductionHypothesis =>
      have most := collect_le world ids (run.waitForResponse world id).1
      have counted : (run.collect world (id :: ids)).2 = (id :: ids).length ↔
          (run.waitForResponse world id).2 = true ∧
            ((run.waitForResponse world id).1.collect world ids).2 = ids.length := by
        rw [collect, List.length_cons]
        cases (run.waitForResponse world id).2 with
        | true => simp
        | false =>
            simp
            omega
      rw [counted, List.length_cons, waitsOnTime_succ, AllConfirmed]
      by_cases onTime : world.clock (run.clockReads + 1) ≤
          world.clock run.clockReads + OEClient.milliseconds 3000
      · obtain ⟨-, inbox, reads, returned⟩ := waitForResponse_onTime world id onTime
        rw [returned, inductionHypothesis, inbox, reads]
        tauto
      · rw [waitForResponse_late world id onTime]
        simp [onTime]

/-- When no wait is late, the bot has handled what the scans read. -/
theorem collect_state {ids : List UInt64} {run : Run}
    (onTime : WaitsOnTime world.clock run.clockReads ids.length) :
    (run.collect world ids).1.state =
      (readByWaits ids run.inbox).foldl (fun bot response => bot.act (.receive response))
        run.state := by
  induction ids generalizing run with
  | nil => rfl
  | cons id ids inductionHypothesis =>
      obtain ⟨first, rest⟩ := (waitsOnTime_succ _ _ _).mp onTime
      obtain ⟨state, inbox, reads, -⟩ := waitForResponse_onTime world id first
      rw [← reads] at rest
      rw [collect, readByWaits, List.foldl_append, ← state, ← inbox]
      exact inductionHypothesis rest

/-- The legs of a call that starts: ten waits, and what they have made of the positions. -/
theorem sendLegs_spec (state : BotState) (stream : List OeResponse) (snap : ArbSnapshot) :
    let legs := (new state stream).sendLegs world snap
    legs.2 ≤ 10 ∧
      (legs.2 = 10 ↔
        WaitsOnTime world.clock 1 10 ∧ AllConfirmed (state.legs.map Prod.fst) stream) ∧
      (WaitsOnTime world.clock 1 10 → ∀ symbol,
        legs.1.getPosition symbol =
          state.manager.getPosition symbol +
            fillsBooked symbol state.legRoutes state.mmOrderMap
              (readByWaits (state.legs.map Prod.fst) stream)) := by
  obtain ⟨fired, collected, ids, routes, manager, mmOrders, inbox, reads⟩ :
      ∃ fired : Run × List UInt64,
        (new state stream).sendLegs world snap = fired.1.collect world fired.2 ∧
        fired.2 = state.legs.map Prod.fst ∧ fired.1.state.orderMap = state.legRoutes ∧
        fired.1.state.manager = state.manager ∧
        fired.1.state.mmOrderMap = state.mmOrderMap ∧ fired.1.inbox = stream ∧
        fired.1.clockReads = 1 := ⟨_, rfl, fireLegs_spec (creationQty snap) _ snap⟩
  have ten : (state.legs.map Prod.fst).length = 10 := rfl
  rw [collected, ids]
  refine ⟨collect_le world _ _, ?_, ?_⟩
  · have counted := collect_eq_length_iff world (state.legs.map Prod.fst) fired.1
    rwa [ten, inbox, reads] at counted
  · intro onTime symbol
    rw [← reads, ← ten] at onTime
    rw [getPosition, collect_state world onTime, getPosition_receive, manager, routes, mmOrders,
      inbox]

end Waits

/-! ### The polling loop and what follows it -/

/-- The call goes on to `/create` and never reports a fill timeout. -/
def SeesFills (run : Run) : Prop :=
  (∃ amount result, .callCreate amount result ∈ run.log) ∧ .fillTimeout ∉ run.log

/-- Anything but the two outcomes of the polling loop. -/
def Undecided (_ : BotState) (action : BotAction) : Prop :=
  action ≠ .fillTimeout ∧ ∀ amount result, action ≠ .callCreate amount result

theorem unwinding_undecided : Unwinding Undecided where
  setsInProgress _ _ := ⟨BotAction.noConfusion, fun _ _ => BotAction.noConfusion⟩
  setsStartTime _ _ := ⟨BotAction.noConfusion, fun _ _ => BotAction.noConfusion⟩
  receives _ _ := ⟨BotAction.noConfusion, fun _ _ => BotAction.noConfusion⟩
  buys _ _ _ _ := ⟨BotAction.noConfusion, fun _ _ => BotAction.noConfusion⟩
  closes _ _ _ _ _ := ⟨BotAction.noConfusion, fun _ _ => BotAction.noConfusion⟩

/-- A call that is still undecided has not got to `/create`. -/
theorem not_seesFills {state : BotState} {stream : List OeResponse} {later : Run}
    (undecided : Extends Undecided (new state stream) later) : ¬ later.SeesFills := by
  rintro ⟨⟨amount, result, created⟩, -⟩
  rcases undecided.mem_log created with before | ⟨-, -, other⟩
  · exact absurd before List.not_mem_nil
  · exact other amount result rfl

theorem creating_noTimeout : Creating fun _ action => action ≠ .fillTimeout where
  setsInProgress _ _ := BotAction.noConfusion
  setsStartTime _ _ := BotAction.noConfusion
  receives _ _ := BotAction.noConfusion
  buys _ _ _ _ := BotAction.noConfusion
  closes _ _ _ _ _ := BotAction.noConfusion
  books _ _ _ _ _ := BotAction.noConfusion
  creates _ _ _ := BotAction.noConfusion

section Polling

variable (world : World)

/-- With the positions there, the bot calls `/create` and reports no timeout. -/
theorem createAndSell_seesFills (fuel : Nat) (qty : Int32) {run : Run} (snap : ArbSnapshot)
    (noTimeout : .fillTimeout ∉ run.log) :
    (createAndSell world fuel qty run snap).1.SeesFills := by
  constructor
  · refine ⟨qty, world.create run.etfCalls qty, ?_⟩
    have called : .callCreate qty (world.create run.etfCalls qty) ∈
        (run.act (.callCreate qty (world.create run.etfCalls qty))).log :=
      List.mem_append_right _ (List.mem_singleton_self _)
    rw [createAndSell]
    dsimp only
    split
    · dsimp only
      exact (unwindDormLongs_extends creating_noTimeout.toUnwinding world _).log_subset called
    · have booked := bookCreation_extends creating_noTimeout world qty
        { run.act (.callCreate qty (world.create run.etfCalls qty)) with
          etfCalls := run.etfCalls + 1 } snap
      exact (sellUndy_extends creating_noTimeout.toUnwinding world fuel 0 rfl).log_subset
        (booked.log_subset called)
  · intro timeout
    rcases (createAndSell_extends creating_noTimeout world fuel qty run snap).mem_log timeout with
      before | ⟨-, other⟩
    · exact noTimeout before
    · exact other rfl

/-- With a position missing, it reports a timeout or keeps polling. -/
theorem afterAcks_not_seesFills (fuel : Nat) {run : Run} (snap : ArbSnapshot)
    {state : BotState} {stream : List OeResponse}
    (undecided : Extends Undecided (new state stream) run)
    (missing : run.allFilled (creationQty snap) = false) :
    ¬ (run.afterAcks world fuel snap).1.SeesFills := by
  have missed := pollFills_ne_true world (run.now world + OEClient.milliseconds 5000) fuel
    (show (run.tick 1).allFilled (creationQty snap) = false from missing)
  have polled : Extends Undecided run (pollFills world (creationQty snap)
      (run.now world + OEClient.milliseconds 5000) fuel (run.tick 1)).1 :=
    (Extends.tick run 1).trans (pollFills_extends world _ _ _ _)
  rw [afterAcks]
  split
  · exact not_seesFills (undecided.trans polled)
  · rintro ⟨-, noTimeout⟩
    refine noTimeout ?_
    refine List.mem_append_left _ ?_
    apply (unwindDormLongs_extends unwinding_undecided world _).log_subset
    exact List.mem_append_right _ (List.mem_singleton_self _)
  · rename_i found
    exact absurd found missed

/-- After ten positive waits, everything depends on the positions they leave. -/
theorem afterAcks_seesFills_iff (fuel : Nat) {run : Run} (snap : ArbSnapshot)
    {state : BotState} {stream : List OeResponse}
    (undecided : Extends Undecided (new state stream) run) :
    (run.afterAcks world (fuel + 1) snap).1.SeesFills ↔
      run.allFilled (creationQty snap) = true := by
  cases filled : run.allFilled (creationQty snap) with
  | false =>
      have missed := afterAcks_not_seesFills world (fuel + 1) snap undecided filled
      exact ⟨fun sees => absurd sees missed, Bool.noConfusion⟩
  | true =>
      have polled : pollFills world (creationQty snap)
          (run.now world + OEClient.milliseconds 5000) (fuel + 1) (run.tick 1) =
          (run.tick 1, some true) := if_pos filled
      have noTimeout : .fillTimeout ∉ (run.tick 1).log := by
        intro timeout
        rcases undecided.mem_log timeout with before | ⟨-, other, -⟩
        · exact absurd before List.not_mem_nil
        · exact other rfl
      rw [afterAcks, polled]
      exact ⟨fun _ => rfl, fun _ => createAndSell_seesFills world _ _ snap noTimeout⟩

end Polling

/-! ### The whole call -/

/-- A call that starts, and whose ten legs are all filled to the end in the stream and none of
them rejected, gets to `/create` exactly when no wait is late and the fills that the ten waits
read bring every dorm's position to the wanted quantity. -/
theorem seesFills_iff (world : World) (fuel : Nat) (state : BotState) (stream : List OeResponse)
    (snap : ArbSnapshot) (starts : (new state stream).startsCreation snap = true)
    (filled : ∀ leg ∈ state.legs, ∃ qty price, .fill leg.1 qty price .CLOSED ∈ stream)
    (noRejects : ∀ leg ∈ state.legs, ∀ reason, .reject leg.1 reason ∉ stream) :
    ((new state stream).tryCreationArb world (fuel + 1) snap).1.SeesFills ↔
      WaitsOnTime world.clock 1 10 ∧
        ∀ symbol ∈ DORM_IDS, creationQty snap ≤
          state.manager.getPosition symbol +
            fillsBooked symbol state.legRoutes state.mmOrderMap
              (readByWaits (state.legs.map Prod.fst) stream) := by
  have confirmed : AllConfirmed (state.legs.map Prod.fst) stream := by
    apply allConfirmed_of_closingFills
    · apply List.Subperm.length_le
      apply List.subperm_of_subset state.nodup_legs
      intro id member
      obtain ⟨leg, sent, rfl⟩ := List.mem_map.mp member
      obtain ⟨qty, price, fill⟩ := filled leg sent
      exact List.mem_filterMap.mpr ⟨_, fill, rfl⟩
    · intro id member
      obtain ⟨leg, sent, rfl⟩ := List.mem_map.mp member
      exact noRejects leg sent
  obtain ⟨most, all, positions⟩ := sendLegs_spec world state stream snap
  have undecided := sendLegs_extends unwinding_undecided world (new state stream) snap
  rw [tryCreationArb, starts, if_neg (by simp)]
  dsimp only
  by_cases few : ((new state stream).sendLegs world snap).2 < 10
  · rw [if_pos few]
    have late : ¬ WaitsOnTime world.clock 1 10 := fun onTime =>
      absurd (all.mpr ⟨onTime, confirmed⟩) (Nat.ne_of_lt few)
    have unwound := undecided.trans (unwindDormLongs_extends unwinding_undecided world _)
    dsimp only
    exact ⟨fun sees => absurd sees (not_seesFills unwound),
      fun condition => absurd condition.1 late⟩
  · have onTime := (all.mp (Nat.le_antisymm most (Nat.not_lt.mp few))).1
    rw [if_neg few, afterAcks_seesFills_iff world fuel snap undecided, allFilled,
      List.all_eq_true]
    simp only [positions onTime, decide_eq_true_eq, onTime, true_and]

/-! ### Two interleavings of the same answers -/

/-- Each leg answered by its complete closing fill. -/
def legFills : List OeResponse :=
  loggedInBot.legs.map fun leg => .fill leg.1 5 90 .CLOSED

theorem no_reject_in_legFills (id : UInt64) (reason : RejectReason) :
    .reject id reason ∉ legFills := by
  intro member
  obtain ⟨leg, -, same⟩ := List.mem_map.mp member
  cases same

/-- Without ACKs, the ten waits read the ten fills. -/
theorem seesFills_legFills :
    ((new loggedInBot legFills).tryCreationArb secondsWorld 1 cheapDorms).1.SeesFills :=
  (seesFills_iff secondsWorld 0 loggedInBot legFills cheapDorms (by decide +kernel)
    (fun leg sent => ⟨5, 90, List.mem_map.mpr ⟨leg, sent, rfl⟩⟩)
    (fun leg _ reason => no_reject_in_legFills leg.1 reason)).mpr
    ⟨by decide +kernel, @of_decide_eq_true _ (List.decidableBAll _ _) (by decide +kernel)⟩

/-- With the ten ACKs ahead of the ten fills, the waits read the ACKs, the fills stay unread and
the loop times out. -/
theorem acks_first_time_out :
    let stream := (loggedInBot.legs.map fun leg => OeResponse.ack leg.1) ++ legFills
    let tried := (new loggedInBot stream).tryCreationArb secondsWorld 10 cheapDorms
    (new loggedInBot stream).startsCreation cheapDorms = true ∧
      (∀ leg ∈ loggedInBot.legs,
        .fill leg.1 (creationQty cheapDorms).toUInt32 90 .CLOSED ∈ stream) ∧
      (∀ symbol ∈ DORM_IDS, 0 ≤ loggedInBot.manager.getPosition symbol) ∧
      .fillTimeout ∈ tried.1.log ∧ ¬ tried.1.SeesFills := by
  have timeout : .fillTimeout ∈ ((new loggedInBot
      ((loggedInBot.legs.map fun leg => OeResponse.ack leg.1) ++ legFills)).tryCreationArb
        secondsWorld 10 cheapDorms).1.log := by decide +kernel
  refine ⟨by decide +kernel, ?_, ?_, timeout, fun sees => sees.2 timeout⟩
  · exact @of_decide_eq_true _ (List.decidableBAll _ _) (by decide +kernel)
  · exact @of_decide_eq_true _ (List.decidableBAll _ _) (by decide +kernel)

end Run

end HftAlgorithms
