/-
Module: HftAlgorithms.Proofs.VenueAgreement
Purpose: The bot and the exchange as two parties with messages in flight between
  them.  `live_orders_` is what the exchange has open but for what has not been read
  yet, and what is cancelled here is gone there once the deletes have been heard.
Trusted boundary: none
Main exports: Venue, Venue.Tells, Venue.Obeys, Floor, FloorEvent, Floor.next,
  Floor.Sound, Floor.Agrees, Floor.live_orders_agree, Floor.cancelled_at_venue
-/
import HftAlgorithms.Proofs.FillRouting
import HftAlgorithms.Proofs.LoopDiscipline

namespace HftAlgorithms

open StateMachine
open LoopRun (redeemableWorld launchedBot)

variable {σ ι : Type*}

/-! ### The two parties -/

/-- What a response leaves of the orders that are known to be open. -/
def OeResponse.leaves (live : Finset UInt64) : OeResponse → Finset UInt64
  | .ack orderId => insert orderId live
  | .fill orderId _ _ flags => if flags = .CLOSED then live.erase orderId else live
  | .closed orderId => live.erase orderId
  | .reject _ _ | .other => live

/-- The id of the order that a request asks for. -/
def OeRequest.opens? (request : OeRequest) : Option UInt64 := request.newOrder?.map Prod.fst

/-- An exchange: the orders it has open, how it answers a request, and how it moves on its own, as
where orders of others come in. -/
structure Venue (σ ι : Type*) where
  orders : σ → Finset UInt64
  hear : σ → OeRequest → σ × List OeResponse
  move : σ → ι → σ × List OeResponse

/-- It tells of everything that happens to an order, whatever it decides.  An order that rests has
been acknowledged; one that is filled at once need not be. -/
structure Venue.Tells (venue : Venue σ ι) : Prop where
  hears : ∀ state request, (venue.hear state request).2.foldl OeResponse.leaves
    (venue.orders state) = venue.orders (venue.hear state request).1
  moves : ∀ state input, (venue.move state input).2.foldl OeResponse.leaves
    (venue.orders state) = venue.orders (venue.move state input).1

/-- It obeys deletes, opens no order but the one that it is asked for, and opens none on its own. -/
structure Venue.Obeys (venue : Venue σ ι) : Prop where
  deletes : ∀ state header id, id ∉ venue.orders (venue.hear state (.deleteOrder header id)).1
  opens : ∀ state request id, id ∈ venue.orders (venue.hear state request).1 →
    id ∈ venue.orders state ∨ request.opens? = some id
  rests : ∀ state input, venue.orders (venue.move state input).1 ⊆ venue.orders state

/-- Both parties, the requests that the exchange has not heard yet, and the responses that the bot
has not read yet. -/
structure Floor (σ : Type*) where
  venue : σ
  requests : List OeRequest
  responses : List OeResponse
  bot : MmState

/-- The bot acts, the exchange hears the next request, or it moves on its own. -/
inductive FloorEvent (ι : Type*) where
  | act (action : LoopAction)
  | hear
  | move (input : ι)

/-- The response that an action reads. -/
def LoopAction.reads : LoopAction → List OeResponse
  | .bot (.receive response) => [response]
  | .bot _ | .deleteOrder _ | .sendMmOrder _ _ _ | .forget _ | .setLastBlueMid _ => []

/-- What the bot does. -/
def FloorEvent.action? : FloorEvent ι → Option LoopAction
  | .act action => some action
  | .hear | .move _ => none

namespace Floor

section Parties

variable (venue : Venue σ ι)

def next (floor : Floor σ) : FloorEvent ι → Floor σ
  | .act action =>
      { floor with
        bot := floor.bot.act action
        requests := floor.requests ++ floor.bot.requests action
        responses := floor.responses.drop action.reads.length }
  | .hear =>
      match floor.requests with
      | [] => floor
      | request :: requests =>
          let heard := venue.hear floor.venue request
          { floor with
            venue := heard.1, requests := requests, responses := floor.responses ++ heard.2 }
  | .move input =>
      let moved := venue.move floor.venue input
      { floor with venue := moved.1, responses := floor.responses ++ moved.2 }

/-- The bot reads what is told, in the order in which it is told. -/
def Reads (floor : Floor σ) : FloorEvent ι → Prop
  | .act action => action.reads <+: floor.responses
  | .hear | .move _ => True

instance decidableReads (floor : Floor σ) : ∀ event : FloorEvent ι, Decidable (floor.Reads event)
  | .act action => inferInstanceAs (Decidable (action.reads <+: floor.responses))
  | .hear => isTrue trivial
  | .move _ => isTrue trivial

abbrev Sound (floor : Floor σ) (events : List (FloorEvent ι)) : Prop :=
  Along (next venue) Reads floor events

/-- With what it has not read yet, `live_orders_` is what the exchange has open. -/
def Agrees (floor : Floor σ) : Prop :=
  floor.responses.foldl OeResponse.leaves floor.bot.bot.client.liveOrders =
    venue.orders floor.venue

end Parties

/-! ### A small exchange -/

/-- It keeps what it is sent, and fills one lot of what it is told to. -/
def restingVenue : Venue (Finset UInt64) UInt64 where
  orders resting := resting
  hear resting
    | .newOrder _ id _ _ _ _ _ =>
        if id ∈ resting then (resting, [.reject id .DUPLICATE_ORDER_ID])
        else (insert id resting, [.ack id])
    | .deleteOrder _ id =>
        if id ∈ resting then (resting.erase id, [.closed id])
        else (resting, [.reject id .UKNOWN_ORDER_ID])
    | .modifyOrder _ id _ _ _ =>
        if id ∈ resting then (resting, [.ack id]) else (resting, [.reject id .UKNOWN_ORDER_ID])
  move resting id :=
    if id ∈ resting then (resting.erase id, [.fill id 1 1000 .CLOSED]) else (resting, [])

theorem tells_restingVenue : restingVenue.Tells where
  hears resting request := by
    cases request with
    | newOrder header id symbol side quantity price flags =>
        by_cases rests : id ∈ resting
        · simp [restingVenue, OeResponse.leaves, rests]
        · simp [restingVenue, OeResponse.leaves, rests]
    | deleteOrder header id =>
        by_cases rests : id ∈ resting
        · simp [restingVenue, OeResponse.leaves, rests]
        · simp [restingVenue, OeResponse.leaves, rests]
    | modifyOrder header id side quantity price =>
        by_cases rests : id ∈ resting
        · simp [restingVenue, OeResponse.leaves, rests]
        · simp [restingVenue, OeResponse.leaves, rests]
  moves resting id := by
    by_cases rests : id ∈ resting
    · simp [restingVenue, OeResponse.leaves, rests]
    · simp [restingVenue, rests]

theorem obeys_restingVenue : restingVenue.Obeys where
  deletes resting header id := by
    by_cases rests : id ∈ resting
    · simp [restingVenue, rests]
    · simp [restingVenue, rests]
  opens resting request id isOpen := by
    cases request with
    | newOrder header other symbol side quantity price flags =>
        by_cases rests : other ∈ resting
        · simp only [restingVenue, if_pos rests] at isOpen
          exact Or.inl isOpen
        · simp only [restingVenue, if_neg rests, Finset.mem_insert] at isOpen
          rcases isOpen with rfl | before
          · exact Or.inr rfl
          · exact Or.inl before
    | deleteOrder header other =>
        by_cases rests : other ∈ resting
        · simp only [restingVenue, if_pos rests] at isOpen
          exact Or.inl (Finset.mem_of_mem_erase isOpen)
        · simp only [restingVenue, if_neg rests] at isOpen
          exact Or.inl isOpen
    | modifyOrder header other side quantity price =>
        by_cases rests : other ∈ resting
        · simp only [restingVenue, if_pos rests] at isOpen
          exact Or.inl isOpen
        · simp only [restingVenue, if_neg rests] at isOpen
          exact Or.inl isOpen
  rests resting id := by
    by_cases rests : id ∈ resting
    · simp [restingVenue, rests, Finset.erase_subset]
    · simp [restingVenue, rests]

/-- Only BLUE is quoted. -/
def blueWorld : LoopWorld :=
  { redeemableWorld with
    bestBidPrice := fun _ symbol => if symbol = SYM_BLUE then 1000 else 0
    bestAskPrice := fun _ symbol => if symbol = SYM_BLUE then 1010 else 0 }

/-- Nothing is in flight. -/
def opened (resting : Finset UInt64) (bot : BotState) : Floor (Finset UInt64) where
  venue := resting
  requests := []
  responses := []
  bot := .new bot

def quoting : List (FloorEvent UInt64) :=
  [.act (.forget .flatten), .act (.sendMmOrder .bid 1 1000), .hear,
    .act (.bot (.receive (.ack 90001))), .act (.sendMmOrder .ask 1 1010), .move 90001, .hear,
    .act (.bot (.receive (.fill 90001 1 1000 .CLOSED))), .act (.setLastBlueMid 1005)]

def oneResting : Floor (Finset UInt64) :=
  opened {90001} { launchedBot with client := { launchedBot.client with liveOrders := {90001} } }

def cancelling : List (FloorEvent UInt64) :=
  [.act (.deleteOrder 90001), .hear, .act (.bot (.receive (.closed 90001)))]

/-! ### Agreement -/

theorem client_callbacks (callbacks : List Callback) (bot : BotState) :
    (callbacks.foldl BotState.callback bot).client = bot.client := by
  induction callbacks generalizing bot with
  | nil => rfl
  | cons first callbacks inductionHypothesis =>
      rw [List.foldl_cons, inductionHypothesis]
      cases first with
      | onReject orderId => rfl
      | onClose orderId => rfl
      | onFill event =>
          rw [BotState.callback, BotState.fillCallback]
          split
          · rfl
          · split
            · dsimp only
              split <;> rfl
            · rfl

theorem liveOrders_receive (client : OEClient) (response : OeResponse) :
    (client.receive response).liveOrders = response.leaves client.liveOrders := by
  cases response with
  | fill orderId quantity price flags =>
      rw [OEClient.receive, OeResponse.leaves]
      split <;> rfl
  | ack | reject | closed | other => rfl

/-- Only what is read changes `live_orders_`. -/
theorem liveOrders_act (state : MmState) (action : LoopAction) :
    (state.act action).bot.client.liveOrders =
      action.reads.foldl OeResponse.leaves state.bot.client.liveOrders := by
  cases action with
  | bot inner =>
      cases inner with
      | receive response =>
          have kept := client_callbacks response.callbacks
            { state.bot with client := state.bot.client.receive response }
          exact (congrArg OEClient.liveOrders kept).trans (liveOrders_receive _ _)
      | sendOrder | book | callCreate | fillTimeout | setArbInProgress | setArbStartTime => rfl
  | sendMmOrder quote qty price => cases quote <;> rfl
  | deleteOrder id => rfl
  | forget quote => cases quote <;> rfl
  | setLastBlueMid mid => rfl

variable {venue : Venue σ ι}

theorem agrees_next (tells : venue.Tells) {floor : Floor σ} {event : FloorEvent ι}
    (agrees : floor.Agrees venue) (reads : floor.Reads event) :
    (floor.next venue event).Agrees venue := by
  cases event with
  | act action =>
      obtain ⟨rest, told⟩ := reads
      rw [Agrees, ← told, List.foldl_append] at agrees
      rw [Agrees, next, ← told, List.drop_left, liveOrders_act]
      exact agrees
  | hear =>
      rw [next]
      split
      · exact agrees
      · dsimp only
        rw [Agrees, List.foldl_append, agrees]
        exact tells.hears _ _
  | move input =>
      rw [Agrees, next, List.foldl_append, agrees]
      exact tells.moves _ _

/-- The bot goes its own way. -/
theorem bot_foldl (floor : Floor σ) (events : List (FloorEvent ι)) :
    (events.foldl (next venue) floor).bot =
      (events.filterMap FloorEvent.action?).foldl MmState.act floor.bot := by
  induction events generalizing floor with
  | nil => rfl
  | cons event events inductionHypothesis =>
      rw [List.foldl_cons, inductionHypothesis]
      cases event with
      | act action => rfl
      | move input => rfl
      | hear =>
          have same : (floor.next venue .hear).bot = floor.bot := by
            rw [next]
            split <;> rfl
          rw [same]
          rfl

/-- Whatever the messages between bot and exchange wait for, and whatever the exchange decides: once
`live_orders_` is what the exchange has open but for the responses in flight, it stays so through
every run of `run_with_mm`. -/
theorem live_orders_agree (tells : venue.Tells) (world : LoopWorld) (mmLimit : Int32)
    (blueTick : UInt32) (fuel turns : Nat) (inbox : List OeResponse) {floor : Floor σ}
    (agrees : floor.Agrees venue) {events : List (FloorEvent ι)} (sound : floor.Sound venue events)
    (acts : events.filterMap FloorEvent.action? =
      ((LoopRun.new floor.bot inbox).runWithMm world mmLimit blueTick fuel turns).1.log) :
    let run := ((LoopRun.new floor.bot inbox).runWithMm world mmLimit blueTick fuel turns).1
    let after := events.foldl (next venue) floor
    (∀ earlier, earlier <+: events → (earlier.foldl (next venue) floor).Agrees venue) ∧
      after.responses.foldl OeResponse.leaves run.state.bot.client.liveOrders =
        venue.orders after.venue := by
  have everywhere := invariant_everywhere (fun _ _ => agrees_next tells) agrees sound
  have final := LoopRun.runWithMm_state world mmLimit blueTick fuel turns floor.bot inbox
  dsimp only at final ⊢
  have same := @bot_foldl _ _ venue floor events
  rw [acts, ← final] at same
  have last := everywhere events (List.prefix_refl events)
  rw [Agrees, same] at last
  exact ⟨everywhere, last⟩

/-- The bid is acknowledged and filled before the answer for the ask is read, which ends the wait.
-/
theorem live_orders_agree_filled :
    let after := quoting.foldl (next restingVenue) (opened ∅ launchedBot)
    after.responses = [.ack 90002] ∧
      after.responses.foldl OeResponse.leaves after.bot.bot.client.liveOrders = {90002} := by
  have agreed := live_orders_agree tells_restingVenue blueWorld 4 5 9 1
    [.ack 90001, .fill 90001 1 1000 .CLOSED, .ack 90002]
    (rfl : (opened ∅ launchedBot).Agrees restingVenue) (by decide +kernel)
    (by decide +kernel : quoting.filterMap FloorEvent.action? = _)
  have orders : restingVenue.orders
      (quoting.foldl (next restingVenue) (opened ∅ launchedBot)).venue = {90002} := by
    decide +kernel
  exact ⟨by decide +kernel, (agreed.1 quoting (List.prefix_refl quoting)).trans orders⟩

/-! ### What is cancelled -/

/-- No order is asked for under that id. -/
def NotAgain (id : UInt64) (floor : Floor σ) : FloorEvent ι → Prop
  | .act action => ∀ request ∈ floor.bot.requests action, request.opens? ≠ some id
  | .hear | .move _ => True

/-- No request in flight asks for an order under that id. -/
def Unasked (id : UInt64) (floor : Floor σ) : Prop :=
  ∀ request ∈ floor.requests, request.opens? ≠ some id

/-- It is not open, or it is about to be deleted. -/
structure Doomed (venue : Venue σ ι) (id : UInt64) (floor : Floor σ) : Prop where
  unasked : floor.Unasked id
  gone : (∃ header, .deleteOrder header id ∈ floor.requests) ∨ id ∉ venue.orders floor.venue

theorem unasked_next {id : UInt64} {floor : Floor σ} {event : FloorEvent ι}
    (unasked : floor.Unasked id) (notAgain : floor.NotAgain id event) :
    (floor.next venue event).Unasked id := by
  cases event with
  | act action =>
      intro request member
      rcases List.mem_append.mp member with before | written
      · exact unasked request before
      · exact notAgain request written
  | hear =>
      rw [next]
      split
      · exact unasked
      · rename_i first rest waiting
        intro request member
        exact unasked request (waiting ▸ List.mem_cons_of_mem first member)
  | move input => exact unasked

theorem doomed_next (obeys : venue.Obeys) {id : UInt64} {floor : Floor σ} {event : FloorEvent ι}
    (doomed : floor.Doomed venue id) (notAgain : floor.NotAgain id event) :
    (floor.next venue event).Doomed venue id := by
  refine ⟨unasked_next doomed.unasked notAgain, ?_⟩
  cases event with
  | act action =>
      rcases doomed.gone with ⟨header, waits⟩ | closed
      · exact Or.inl ⟨header, List.mem_append_left _ waits⟩
      · exact Or.inr closed
  | hear =>
      have unasked := doomed.unasked
      have gone := doomed.gone
      rw [next]
      split
      · exact gone
      · rename_i first rest waiting
        rw [Unasked, waiting] at unasked
        rw [waiting] at gone
        rcases gone with ⟨header, waits⟩ | closed
        · rcases List.mem_cons.mp waits with rfl | later
          · exact Or.inr (obeys.deletes _ header id)
          · exact Or.inl ⟨header, later⟩
        · right
          intro opened
          rcases obeys.opens _ first id opened with before | asked
          · exact closed before
          · exact unasked first List.mem_cons_self asked
  | move input =>
      rcases doomed.gone with ⟨header, waits⟩ | closed
      · exact Or.inl ⟨header, waits⟩
      · exact Or.inr fun opened => closed (obeys.rests _ _ opened)

/-- An action of the market maker that is no order asks for none. -/
theorem notAgain_of_free (id : UInt64) {event : FloorEvent ι}
    (free : ∀ action, event.action? = some action → action.Free) (floor : Floor σ) :
    floor.NotAgain id event := by
  cases event with
  | act action =>
      have isFree := free action rfl
      intro request written
      cases action with
      | bot inner =>
          cases inner with
          | receive response => exact absurd written List.not_mem_nil
          | sendOrder | book | callCreate | fillTimeout | setArbInProgress | setArbStartTime =>
              exact False.elim isFree
      | deleteOrder other =>
          cases List.mem_singleton.mp written
          simp [OeRequest.opens?, OeRequest.newOrder?]
      | sendMmOrder => exact False.elim isFree
      | forget quote => exact absurd written List.not_mem_nil
      | setLastBlueMid mid => exact absurd written List.not_mem_nil
  | hear => trivial
  | move input => trivial

end Floor

/-- Each order of the list is deleted. -/
theorem LoopRun.deletes_each (world : World) {id : UInt64} {ids : List UInt64} (member : id ∈ ids)
    (loop : LoopRun) :
    ∃ added, (ids.foldl (deleteOrder world) loop).log = loop.log ++ added ∧
      .deleteOrder id ∈ added := by
  induction ids generalizing loop with
  | nil => exact absurd member List.not_mem_nil
  | cons first ids inductionHypothesis =>
      obtain ⟨answers, grown, -, -⟩ := wait_free world (loop.act (.deleteOrder first)) first
      obtain ⟨rest, others, -, -⟩ :=
        Extends.foldl (deleteOrder_free world) ids (loop.deleteOrder world first)
      have deleted : (loop.deleteOrder world first).log =
          loop.log ++ .deleteOrder first :: answers := by
        rw [List.append_cons]
        exact grown
      rcases List.mem_cons.mp member with rfl | later
      · refine ⟨.deleteOrder id :: answers ++ rest, ?_, List.mem_cons_self⟩
        rw [List.foldl_cons, others, deleted, List.append_assoc]
      · obtain ⟨added, grownLater, within⟩ :=
          inductionHypothesis later (loop.deleteOrder world first)
        refine ⟨.deleteOrder first :: answers ++ added, ?_, List.mem_append_right _ within⟩
        rw [List.foldl_cons, grownLater, deleted, List.append_assoc]

namespace Floor

variable {venue : Venue σ ι}

/-- An order that was live when `cancel_all_open_orders` was called is not open, at an exchange that
obeys, once its delete has been heard there, whatever happens meanwhile and afterwards, until
another is sent under its id. -/
theorem cancelled_at_venue (obeys : venue.Obeys) (world : LoopWorld) {loop : LoopRun} {id : UInt64}
    (live : id ∈ loop.state.bot.client.liveOrders) {floor : Floor σ} (unasked : floor.Unasked id)
    {events later : List (FloorEvent ι)}
    (acts : loop.log ++ events.filterMap FloorEvent.action? =
      (loop.cancelAllOpenOrders world).log)
    (notAgain : Along (next venue) (NotAgain id) (events.foldl (next venue) floor) later) :
    let after := (events ++ later).foldl (next venue) floor
    (∃ header, .deleteOrder header id ∈ after.requests) ∨ id ∉ venue.orders after.venue := by
  obtain ⟨added, grown, within⟩ := LoopRun.deletes_each world.toWorld
    ((world.setOrder.mem_list _ id).mpr live) loop
  obtain ⟨freeAdded, grownFree, -, free⟩ := LoopRun.cancelAllOpenOrders_free world loop
  rw [LoopRun.cancelAllOpenOrders] at acts grownFree
  rw [grown] at acts grownFree
  cases List.append_cancel_left acts
  cases List.append_cancel_left grownFree
  have everyFree : ∀ event ∈ events, ∀ action, event.action? = some action → action.Free := by
    intro event member action acts
    obtain ⟨-, isFree⟩ := free.exists_of_mem (List.mem_filterMap.mpr ⟨event, member, acts⟩)
    exact isFree
  have quiet : ∀ {part : List (FloorEvent ι)} (start : Floor σ), part ⊆ events →
      Along (next venue) (NotAgain id) start part := by
    intro part start within
    have always : ∀ (floor : Floor σ) (event : FloorEvent ι), True →
        (∀ action, event.action? = some action → action.Free) → True := fun _ _ _ _ => trivial
    exact (along_of_forall fun event member => everyFree event (within member)).of_invariant always
      (fun floor event _ isFree => notAgain_of_free id isFree floor) trivial
  obtain ⟨event, happens, isDelete⟩ := List.mem_filterMap.mp within
  obtain ⟨before, rest, rfl⟩ := List.append_of_mem happens
  have stillUnasked : (before.foldl (next venue) floor).Unasked id :=
    invariant_foldl (fun _ _ => unasked_next) unasked
      (quiet floor (List.subset_append_left before _))
  cases event with
  | hear => cases isDelete
  | move input => cases isDelete
  | act action =>
      cases isDelete
      have written : ((before.foldl (next venue) floor).next venue
          (.act (.deleteOrder id))).Doomed venue id := by
        refine ⟨unasked_next stillUnasked (notAgain_of_free id (everyFree _ happens) _), Or.inl ?_⟩
        exact ⟨_, List.mem_append_right _ (List.mem_singleton_self _)⟩
      have afterwards := invariant_foldl (fun _ _ => doomed_next obeys) written
        (quiet _ (fun other member => List.mem_append_right _ (List.mem_cons_of_mem _ member)))
      rw [List.foldl_append, List.foldl_cons] at notAgain
      have atLast := invariant_foldl (fun _ _ => doomed_next obeys) afterwards notAgain
      dsimp only
      rw [List.foldl_append, List.foldl_append, List.foldl_cons]
      exact atLast.gone

/-- The order rests, its delete is heard, and the answer is read. -/
theorem cancelled_at_venue_resting :
    (90001 : UInt64) ∉
      restingVenue.orders (cancelling.foldl (next restingVenue) oneResting).venue := by
  have heard : (cancelling.foldl (next restingVenue) oneResting).requests = [] := by decide +kernel
  have gone := @cancelled_at_venue _ _ restingVenue obeys_restingVenue blueWorld
    (.new oneResting.bot [.closed 90001]) 90001 (by decide +kernel) oneResting
    (fun _ member => absurd member List.not_mem_nil) cancelling [] (by decide +kernel) trivial
  dsimp only at gone
  rw [List.append_nil, heard] at gone
  exact gone.resolve_left fun ⟨_, member⟩ => List.not_mem_nil member

end Floor

end HftAlgorithms
