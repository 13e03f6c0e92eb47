/-
Module: HftAlgorithms.Proofs.FillRouting
Purpose: Every FILL the bot reads reaches the symbol its order was sent for.  An
  order is routed by one of the two maps from before it is sent until its closing
  FILL or CLOSE, so on an exchange that keeps to that no FILL is unknown.
Trusted boundary: none
Main exports: FillLedger, FillLedger.Honest, FillLedger.Routes,
  FillLedger.Registered, FillLedger.routes_of_honest, LoopRun.fills_routed
-/
import HftAlgorithms.Proofs.LoopRuns

namespace HftAlgorithms

open FiniteMap StateMachine

/-! ### Orders sent and orders ended -/

/-- The id whose order a read response ends. -/
def LoopAction.ended : LoopAction → Option UInt64
  | .bot (.receive response) => response.ended
  | _ => none

/-- The loop, the orders it has sent, and the ids that have had their closing FILL or CLOSE. -/
structure FillLedger where
  state : MmState
  sent : List (UInt64 × UInt32 × Side)
  ended : List UInt64

namespace FillLedger

/-- Before the first order. -/
def opening (bot : BotState) : FillLedger := ⟨MmState.new bot, [], []⟩

def next (ledger : FillLedger) (action : LoopAction) : FillLedger where
  state := ledger.state.act action
  sent := ledger.sent ++ ledger.state.newOrders action
  ended := ledger.ended ++ action.ended.toList

def ids (ledger : FillLedger) : List UInt64 := ledger.sent.map Prod.fst

def position (ledger : FillLedger) (symbol : UInt32) : Int32 :=
  ledger.state.bot.manager.getPosition symbol

/-- What is assumed of the exchange: a FILL is for an order that was sent and has not ended. -/
def Honest (ledger : FillLedger) : LoopAction → Prop
  | .bot (.receive (.fill orderId _ _ _)) => orderId ∈ ledger.ids ∧ orderId ∉ ledger.ended
  | _ => True

/-- One of the maps knows the order, so that the callback does not warn. -/
def Known (ledger : FillLedger) (orderId : UInt64) : Prop :=
  (ledger.state.bot.orderMap.lookup orderId).isSome ∨
    (ledger.state.bot.mmOrderMap.lookup orderId).isSome

/-- A position has moved by the quantity, as a word of 32 bits and, where the exact result is one,
exactly. -/
def Moved (before after : Int32) (side : Side) (qty : UInt32) : Prop :=
  after = movedPosition before side qty ∧
    (-2 ^ 31 ≤ exactMove before.toInt side qty.toNat →
      exactMove before.toInt side qty.toNat < 2 ^ 31 →
        after.toInt = exactMove before.toInt side qty.toNat)

/-- A FILL that is read moves the position of the symbol its order was sent for, the order's way and
by the filled quantity, and no other. -/
def Routes (ledger : FillLedger) : LoopAction → Prop
  | .bot (.receive (.fill orderId qty price flags)) =>
      let after := ledger.next (.bot (.receive (.fill orderId qty price flags)))
      ledger.Known orderId ∧
        ∃ symbol side, (orderId, symbol, side) ∈ ledger.sent ∧
          Moved (ledger.position symbol) (after.position symbol) side qty ∧
          ∀ elsewhere, elsewhere ≠ symbol → after.position elsewhere = ledger.position elsewhere
  | _ => True

instance decidableHonest (ledger : FillLedger) : ∀ action, Decidable (ledger.Honest action)
  | .bot (.receive (.fill _ _ _ _)) => inferInstanceAs (Decidable (_ ∧ _))
  | .bot (.receive (.ack _)) | .bot (.receive (.reject _ _)) | .bot (.receive (.closed _))
  | .bot (.receive .other) | .bot (.sendOrder _ _ _ _) | .bot (.book _ _ _ _)
  | .bot (.callCreate _ _) | .bot .fillTimeout | .bot (.setArbInProgress _)
  | .bot (.setArbStartTime _) | .deleteOrder _ | .sendMmOrder _ _ _ | .forget _
  | .setLastBlueMid _ => isTrue trivial

/-! ### The maps -/

/-- One of the maps has this route for the order. -/
def HasRoute (ledger : FillLedger) (orderId : UInt64) (route : UInt32 × Side) : Prop :=
  ledger.state.bot.orderMap.lookup orderId = some route ∨
    ledger.state.bot.mmOrderMap.lookup orderId = some route

/-- The maps route only what was sent, and everything that has not ended. -/
structure Registered (ledger : FillLedger) : Prop where
  fresh : ledger.ids.Nodup
  fromSent : ∀ orderId route, ledger.HasRoute orderId route → (orderId, route) ∈ ledger.sent
  routed : ∀ orderId route, (orderId, route) ∈ ledger.sent → orderId ∉ ledger.ended →
    ledger.HasRoute orderId route

section Registered

variable {ledger : FillLedger}

theorem registered_opening {bot : BotState} (noArb : bot.orderMap = ∅)
    (noMm : bot.mmOrderMap = ∅) : (opening bot).Registered where
  fresh := List.nodup_nil
  fromSent orderId route := by
    rintro (found | found)
    · change bot.orderMap.lookup orderId = _ at found
      rw [noArb] at found
      cases found
    · change bot.mmOrderMap.lookup orderId = _ at found
      rw [noMm] at found
      cases found
  routed _ _ member := absurd member List.not_mem_nil

/-- An id has been sent for one symbol and side. -/
theorem Registered.route_unique (registered : ledger.Registered) {orderId : UInt64}
    {first second : UInt32 × Side} (one : (orderId, first) ∈ ledger.sent)
    (two : (orderId, second) ∈ ledger.sent) : first = second := by
  have same := List.inj_on_of_nodup_map registered.fresh one two rfl
  exact congrArg Prod.snd same

/-- An order sent under a fresh id is registered by the map that takes it. -/
theorem Registered.send (registered : ledger.Registered) {orderId : UInt64}
    {route : UInt32 × Side} {after : FillLedger}
    (sent : after.sent = ledger.sent ++ [(orderId, route)]) (ended : after.ended = ledger.ended)
    (fresh : after.ids.Nodup) (inserted : after.HasRoute orderId route)
    (own : ∀ found, after.HasRoute orderId found → found = route ∨ ledger.HasRoute orderId found)
    (others : ∀ id found, id ≠ orderId → (after.HasRoute id found ↔ ledger.HasRoute id found)) :
    after.Registered where
  fresh := fresh
  fromSent id found hasRoute := by
    rw [sent]
    by_cases same : id = orderId
    · subst same
      rcases own found hasRoute with rfl | before
      · exact List.mem_append_right _ (List.mem_singleton_self _)
      · exact List.mem_append_left _ (registered.fromSent id found before)
    · exact List.mem_append_left _
        (registered.fromSent id found ((others id found same).mp hasRoute))
  routed id found member live := by
    have grown : after.ids = ledger.ids ++ [orderId] := by
      rw [ids, sent, List.map_append]
      rfl
    rw [grown] at fresh
    rw [ended] at live
    rw [sent] at member
    rcases List.mem_append.mp member with before | here
    · have other : id ≠ orderId := by
        rintro rfl
        have known : id ∈ ledger.ids := List.mem_map_of_mem before
        exact (List.nodup_append.mp fresh).2.2 id known id (List.mem_singleton_self id) rfl
      exact (others id found other).mpr (registered.routed id found before live)
    · cases List.mem_singleton.mp here
      exact inserted

/-- An action that sends nothing keeps the maps registered if it adds no route and takes away only
what has ended. -/
theorem Registered.keep (registered : ledger.Registered) {action : LoopAction}
    (quiet : ledger.state.newOrders action = [])
    (fewer : ∀ id route, (ledger.next action).HasRoute id route → ledger.HasRoute id route)
    (kept : ∀ id route, action.ended ≠ some id → ledger.HasRoute id route →
      (ledger.next action).HasRoute id route) : (ledger.next action).Registered := by
  have sent : (ledger.next action).sent = ledger.sent := by
    change ledger.sent ++ ledger.state.newOrders action = ledger.sent
    rw [quiet, List.append_nil]
  refine ⟨?_, ?_, ?_⟩
  · rw [ids, sent]
    exact registered.fresh
  · intro id route hasRoute
    rw [sent]
    exact registered.fromSent id route (fewer id route hasRoute)
  · intro id route member live
    rw [sent] at member
    have before : id ∉ ledger.ended := fun there => live (List.mem_append_left _ there)
    have notNow : action.ended ≠ some id := by
      intro now
      apply live
      apply List.mem_append_right
      rw [now]
      exact List.mem_singleton_self id
    exact kept id route notNow (registered.routed id route member before)

/-- Where the two maps stay as they are. -/
theorem Registered.same (registered : ledger.Registered) {action : LoopAction}
    (quiet : ledger.state.newOrders action = [])
    (orders : (ledger.state.act action).bot.orderMap = ledger.state.bot.orderMap)
    (mmOrders : (ledger.state.act action).bot.mmOrderMap = ledger.state.bot.mmOrderMap) :
    (ledger.next action).Registered := by
  have unchanged : ∀ id route, (ledger.next action).HasRoute id route ↔
      ledger.HasRoute id route := by
    intro id route
    change (ledger.state.act action).bot.orderMap.lookup id = _ ∨
      (ledger.state.act action).bot.mmOrderMap.lookup id = _ ↔ _
    rw [orders, mmOrders]
    exact Iff.rfl
  exact registered.keep quiet (fun id route => (unchanged id route).mp)
    (fun id route _ => (unchanged id route).mpr)

/-- What a response erases has ended. -/
theorem Registered.receive (registered : ledger.Registered) (response : OeResponse) :
    (ledger.next (.bot (.receive response))).Registered := by
  obtain ⟨orders, mmOrders⟩ := ledger.state.bot.maps_receive response
  apply registered.keep rfl
  · rintro id route (inArb | inMm)
    · exact Or.inl (orders.lookup_before inArb)
    · exact Or.inr (mmOrders.lookup_before inMm)
  · rintro id route live (inArb | inMm)
    · exact Or.inl ((orders.lookup_after live).trans inArb)
    · exact Or.inr ((mmOrders.lookup_after live).trans inMm)

/-- An arb order is in `order_map_` before it is sent. -/
theorem Registered.sendOrder (registered : ledger.Registered) (symbol : UInt32) (side : Side)
    (qty : UInt32) (price : Int32)
    (fresh : (ledger.next (.bot (.sendOrder symbol side qty price))).ids.Nodup) :
    (ledger.next (.bot (.sendOrder symbol side qty price))).Registered := by
  have looked : ∀ id route,
      (ledger.next (.bot (.sendOrder symbol side qty price))).HasRoute id route ↔
        (if id = ledger.state.bot.nextOrderId then some (symbol, side)
          else ledger.state.bot.orderMap.lookup id) = some route ∨
        ledger.state.bot.mmOrderMap.lookup id = some route := by
    intro id route
    change (ledger.state.bot.orderMap.insert _ _).lookup id = _ ∨ _ ↔ _
    rw [lookup_insert_eq]
    exact Iff.rfl
  refine registered.send rfl (List.append_nil _) fresh ?_ ?_ ?_
  · rw [looked, if_pos rfl]
    exact Or.inl rfl
  · intro route hasRoute
    rw [looked, if_pos rfl] at hasRoute
    rcases hasRoute with new | before
    · exact Or.inl (Option.some.inj new).symm
    · exact Or.inr (Or.inr before)
  · intro id route other
    rw [looked, if_neg other]
    exact Iff.rfl

/-- A BLUE order is in `mm_order_map_` before it is sent. -/
theorem Registered.sendMmOrder (registered : ledger.Registered) (quote : MmQuote) (qty : UInt32)
    (price : Int32) (fresh : (ledger.next (.sendMmOrder quote qty price)).ids.Nodup) :
    (ledger.next (.sendMmOrder quote qty price)).Registered := by
  have looked : ∀ id route, (ledger.next (.sendMmOrder quote qty price)).HasRoute id route ↔
      ledger.state.bot.orderMap.lookup id = some route ∨
        (if id = ledger.state.mmOrderId + 1 then some (SYM_BLUE, quote.side)
          else ledger.state.bot.mmOrderMap.lookup id) = some route := by
    intro id route
    have orders : (ledger.state.setQuoteId quote (ledger.state.mmOrderId + 1)).bot.orderMap =
        ledger.state.bot.orderMap := by cases quote <;> rfl
    have mmOrders : (ledger.state.setQuoteId quote (ledger.state.mmOrderId + 1)).bot.mmOrderMap =
        ledger.state.bot.mmOrderMap := by cases quote <;> rfl
    change (ledger.state.setQuoteId quote _).bot.orderMap.lookup id = _ ∨
      ((ledger.state.setQuoteId quote _).bot.mmOrderMap.insert _ _).lookup id = _ ↔ _
    rw [orders, mmOrders, lookup_insert_eq]
  refine registered.send rfl (List.append_nil _) fresh ?_ ?_ ?_
  · rw [looked, if_pos rfl]
    exact Or.inr rfl
  · intro route hasRoute
    rw [looked, if_pos rfl] at hasRoute
    rcases hasRoute with before | new
    · exact Or.inr (Or.inl before)
    · exact Or.inl (Option.some.inj new).symm
  · intro id route other
    rw [looked, if_neg other]
    exact Iff.rfl

theorem registered_next (action : LoopAction) (registered : ledger.Registered)
    (fresh : (ledger.next action).ids.Nodup) : (ledger.next action).Registered := by
  cases action with
  | bot action =>
      cases action with
      | sendOrder symbol side qty price => exact registered.sendOrder symbol side qty price fresh
      | receive response => exact registered.receive response
      | book symbol side qty price => exact registered.same rfl rfl rfl
      | callCreate amount result => exact registered.same rfl rfl rfl
      | fillTimeout => exact registered.same rfl rfl rfl
      | setArbInProgress inProgress => exact registered.same rfl rfl rfl
      | setArbStartTime time => exact registered.same rfl rfl rfl
  | deleteOrder id => exact registered.same rfl rfl rfl
  | sendMmOrder quote qty price => exact registered.sendMmOrder quote qty price fresh
  | forget quote =>
      refine registered.same rfl ?_ ?_
      · cases quote <;> rfl
      · cases quote <;> rfl
  | setLastBlueMid mid => exact registered.same rfl rfl rfl

/-! ### Fills -/

/-- What the manager books under the route of the order. -/
theorem Registered.manager_fill (registered : ledger.Registered) {orderId : UInt64}
    {symbol : UInt32} {side : Side} (sent : (orderId, symbol, side) ∈ ledger.sent)
    (live : orderId ∉ ledger.ended) (qty : UInt32) (price : Int32) (flags : FillFlags) :
    ledger.Known orderId ∧
      (ledger.state.act (.bot (.receive (.fill orderId qty price flags)))).bot.manager =
        ledger.state.bot.manager.onFill symbol side qty price := by
  have route := registered.routed orderId (symbol, side) sent live
  cases arb : ledger.state.bot.orderMap.lookup orderId with
  | some other =>
      have same : other = (symbol, side) :=
        registered.route_unique (registered.fromSent orderId other (Or.inl arb)) sent
      rw [same] at arb
      refine ⟨Or.inl (by rw [arb]; rfl), ?_⟩
      exact (BotState.receive_arbFill qty price flags arb).1
  | none =>
      have mm : ledger.state.bot.mmOrderMap.lookup orderId = some (symbol, side) := by
        rcases route with inArb | inMm
        · rw [arb] at inArb
          cases inArb
        · exact inMm
      refine ⟨Or.inr (by rw [mm]; rfl), ?_⟩
      exact (BotState.receive_mmFill qty price flags arb mm).1

theorem moved_movedPosition (before : Int32) (side : Side) (qty : UInt32) :
    Moved before (movedPosition before side qty) side qty :=
  ⟨rfl, toInt_movedPosition⟩

/-- An honest step of registered maps routes. -/
theorem Registered.routes (registered : ledger.Registered) (action : LoopAction)
    (honest : ledger.Honest action) : ledger.Routes action := by
  rcases action with (_ | (_ | _ | ⟨orderId, qty, price, flags⟩ | _ | _) | _ | _ | _ | _ | _) | _ |
    _ | _ | _ <;> try trivial
  obtain ⟨member, live⟩ := honest
  obtain ⟨⟨id, symbol, side⟩, sent, rfl⟩ := List.mem_map.mp member
  obtain ⟨known, booked⟩ := registered.manager_fill sent live qty price flags
  have positions : ∀ other,
      (ledger.next (.bot (.receive (.fill id qty price flags)))).position other =
        if other = symbol then movedPosition (ledger.position symbol) side qty
        else ledger.position other := by
    intro other
    change (ledger.state.act _).bot.manager.getPosition other = _
    rw [booked, SymbolManager.getPosition_onFill]
    rfl
  refine ⟨known, symbol, side, sent, ?_, ?_⟩
  · rw [positions, if_pos rfl]
    exact moved_movedPosition _ side qty
  · intro elsewhere other
    rw [positions, if_neg other]

end Registered

/-! ### Runs -/

/-- The ledger's loop is the loop. -/
theorem foldl_state (log : List LoopAction) (ledger : FillLedger) :
    (log.foldl next ledger).state = log.foldl MmState.act ledger.state := by
  induction log generalizing ledger with
  | nil => rfl
  | cons action log inductionHypothesis => exact inductionHypothesis (ledger.next action)

theorem prefix_sent {earlier log : List LoopAction} (ledger : FillLedger)
    (isPrefix : earlier <+: log) :
    (earlier.foldl next ledger).ids <+: (log.foldl next ledger).ids := by
  obtain ⟨later, rfl⟩ := isPrefix
  rw [List.foldl_append]
  generalize earlier.foldl next ledger = reached
  induction later generalizing reached with
  | nil => exact List.prefix_rfl
  | cons action later inductionHypothesis =>
      refine List.IsPrefix.trans ?_ (inductionHypothesis (reached.next action))
      exact (List.prefix_append reached.sent (reached.state.newOrders action)).map Prod.fst

/-- Whatever is sent and read, in any order: if no id is sent twice and the exchange is honest,
every FILL is routed. -/
theorem routes_of_honest {ledger : FillLedger} (registered : ledger.Registered)
    {log : List LoopAction} (unique : (log.foldl next ledger).ids.Nodup)
    (honest : Along next Honest ledger log) : Along next Routes ledger log := by
  have fresh : Along next (fun before action => (before.next action).ids.Nodup) ledger log :=
    @along_of_prefixes _ _ next (fun reached => reached.ids.Nodup) ledger log
      fun earlier isPrefix => unique.sublist (prefix_sent ledger isPrefix).sublist
  exact Along.of_invariant (fun _ action kept allowed => registered_next action kept allowed.1)
    (fun _ action kept allowed => kept.routes action allowed.2) registered (fresh.and honest)

end FillLedger

namespace LoopRun

/-- In every run of the loop whose order ids do not repeat, on an exchange that fills only orders
that were sent and have not ended, every FILL that is read moves the position of its order's symbol
by its quantity, the order's way, and nothing else, and is never unknown. -/
theorem fills_routed (world : LoopWorld) (mmLimit : Int32) (blueTick : UInt32) (fuel turns : Nat)
    (bot : BotState) (inbox : List OeResponse) (noArb : bot.orderMap = ∅)
    (noMm : bot.mmOrderMap = ∅)
    (unique :
      (((new (MmState.new bot) inbox).runWithMm world mmLimit blueTick fuel turns).1.log.foldl
        FillLedger.next (FillLedger.opening bot)).ids.Nodup)
    (honest : Along FillLedger.next FillLedger.Honest (FillLedger.opening bot)
      ((new (MmState.new bot) inbox).runWithMm world mmLimit blueTick fuel turns).1.log) :
    let run := ((new (MmState.new bot) inbox).runWithMm world mmLimit blueTick fuel turns).1
    (run.log.foldl FillLedger.next (FillLedger.opening bot)).state = run.state ∧
      Along FillLedger.next FillLedger.Routes (FillLedger.opening bot) run.log := by
  refine ⟨?_, FillLedger.routes_of_honest (FillLedger.registered_opening noArb noMm) unique honest⟩
  rw [FillLedger.foldl_state]
  exact (runWithMm_state world mmLimit blueTick fuel turns (MmState.new bot) inbox).symm

/-! ### A run -/

/-- Redeeming pays by 50 and the BLUE quotes stand; none of them ever moves. -/
def redeemableWorld : LoopWorld where
  clock _ := 0
  bestBidPrice _ symbol :=
    if symbol = SYM_UNDY then 900 else if symbol = SYM_BLUE then 1000 else 100
  bestAskPrice _ symbol :=
    if symbol = SYM_UNDY then 950 else if symbol = SYM_BLUE then 1010 else 105
  create _ amount := ⟨true, "", amount⟩
  redeem _ amount := ⟨true, "", amount⟩
  bestBidQty _ _ := 5
  bestAskQty _ _ := 5
  setOrder := .ascending
  running _ := true

/-- As the bot is when `run_with_mm` is called: logged in and without orders. -/
def launchedBot : BotState := { Run.loggedInBot with nextOrderId := 1000 }

/-- The first UNDY buy is refused and the two quotes rest; the second buy is filled in two parts,
with the bid between them, and a sell is filled while the acknowledgements are read. -/
def quotedThenRedeemed : List OeResponse :=
  [.reject 1000 .INVALID_PRICE, .ack 90001, .ack 90002, .ack 1001, .fill 1001 2 950 .PARTIAL_FILL,
    .fill 90001 1 1000 .CLOSED, .fill 1001 3 950 .CLOSED, .ack 1002, .fill 1002 5 100 .CLOSED]

theorem fills_routed_quotedThenRedeemed :
    let run :=
      ((new (MmState.new launchedBot) quotedThenRedeemed).runWithMm redeemableWorld 2 5 0 2).1
    (run.log.foldl FillLedger.next (FillLedger.opening launchedBot)).state = run.state ∧
      Along FillLedger.next FillLedger.Routes (FillLedger.opening launchedBot) run.log :=
  fills_routed redeemableWorld 2 5 0 2 launchedBot quotedThenRedeemed rfl rfl (by decide +kernel)
    (by decide +kernel)

end LoopRun

end HftAlgorithms
