/-
Module: HftAlgorithms.Proofs.LimitBreaches
Purpose: Without the room, a creation or a redemption can be filled so that a
  position leaves the limit, so the room is exactly what the limit needs.
Trusted boundary: none
Main exports: Desk.Holds, Run.Allowed, Run.Keeps, Run.creation_oversells,
  Run.creation_overcovers, Run.redemption_redeems, Run.arbs_within_iff
-/
import HftAlgorithms.Proofs.CreationLimits
import HftAlgorithms.Proofs.RedemptionLimits

namespace HftAlgorithms

open FiniteMap StateMachine

namespace Desk

/-! ### Desks on the way -/

/-- The positions after `qty` lots of the symbols are traded. -/
def traded (positions : UInt32 → Int) (symbols : List UInt32) (side : Side) (qty : Nat) :
    UInt32 → Int :=
  fun symbol => if symbol ∈ symbols then exactMove (positions symbol) side qty else positions symbol

/-- The trade leads no position as far as a wrap. -/
def TradeFits (positions : UInt32 → Int) (symbols : List UInt32) (side : Side) (qty : Nat) : Prop :=
  ∀ symbol ∈ symbols, -2 ^ 31 ≤ exactMove (positions symbol) side qty ∧
    exactMove (positions symbol) side qty < 2 ^ 31

/-- The next orders will get the ids in `planned`, those in `orders` work as they are listed, and
the positions are known. -/
structure Holds (planned : List (UInt64 × UInt32)) (orders : List (UInt64 × WorkingOrder))
    (positions : UInt32 → Int) (desk : Desk) : Prop where
  next : BotState.legOrders desk.bot.nextOrderId (planned.map Prod.snd) = planned
  fresh : (orders.map Prod.fst ++ planned.map Prod.fst).Nodup
  works : ∀ entry ∈ orders, desk.working.lookup entry.1 = some entry.2
  positions : ∀ symbol, desk.position symbol = positions symbol

theorem map_snd_legOrders (nextId : UInt64) (symbols : List UInt32) :
    (BotState.legOrders nextId symbols).map Prod.snd = symbols := by
  induction symbols generalizing nextId with
  | nil => rfl
  | cons symbol symbols inductionHypothesis =>
      exact congrArg (symbol :: ·) (inductionHypothesis (nextId + 1))

theorem holds_opening (bot : BotState) {symbols : List UInt32}
    (few : symbols.length < UInt64.size) :
    (opening bot).Holds (BotState.legOrders bot.nextOrderId symbols) [] (opening bot).position where
  next := by
    rw [map_snd_legOrders]
    rfl
  fresh := BotState.nodup_legOrders bot.nextOrderId few
  works := fun _ member => absurd member List.not_mem_nil
  positions := fun _ => rfl

section Holds

variable {planned : List (UInt64 × UInt32)} {orders : List (UInt64 × WorkingOrder)}
  {positions : UInt32 → Int} {desk : Desk}

/-- What neither sends nor fills nor books keeps it all. -/
theorem Holds.same (holds : desk.Holds planned orders positions) {after : Desk}
    (nextId : after.bot.nextOrderId = desk.bot.nextOrderId)
    (working : after.working = desk.working)
    (still : ∀ symbol, after.position symbol = desk.position symbol) :
    after.Holds planned orders positions where
  next := nextId ▸ holds.next
  fresh := holds.fresh
  works := working ▸ holds.works
  positions := fun symbol => (still symbol).trans (holds.positions symbol)

/-- The next planned order is sent. -/
theorem Holds.sendOrder {leg : UInt64 × UInt32}
    (holds : desk.Holds (leg :: planned) orders positions)
    (side : Side) (qty : UInt32) (price : Int32) :
    desk.bot.nextOrderId = leg.1 ∧
      (desk.next (.sendOrder leg.2 side qty price)).Holds planned
        (orders ++ [(leg.1, ⟨leg.2, side, qty.toNat⟩)]) positions := by
  have first := holds.next
  rw [List.map_cons, BotState.legOrders] at first
  obtain ⟨head, rest⟩ := List.cons.inj first
  have id : desk.bot.nextOrderId = leg.1 := congrArg Prod.fst head
  refine ⟨id, rest, ?_, ?_, holds.positions⟩
  · rw [List.map_append, List.append_assoc]
    exact holds.fresh
  · intro entry member
    change (desk.working.insert _ _).lookup entry.1 = _
    rw [lookup_insert_eq, id]
    rcases List.mem_append.mp member with earlier | here
    · have different : entry.1 ≠ leg.1 := by
        intro same
        exact (List.disjoint_of_nodup_append holds.fresh) (List.mem_map_of_mem earlier)
          (same ▸ List.mem_cons_self)
      rw [if_neg different]
      exact holds.works entry earlier
    · rw [List.mem_singleton.mp here, if_pos rfl]

/-- The first order listed is filled, in whole or in part; what becomes of it does not matter. -/
theorem Holds.fill {id : UInt64} {order : WorkingOrder}
    (holds : desk.Holds planned ((id, order) :: orders) positions) (routed : desk.Routed)
    {qty : UInt32} (some_ : 0 < qty.toNat) (within : qty.toNat ≤ order.remaining)
    (fits : TradeFits positions [order.symbol] order.side qty.toNat) (price : Int32)
    (flags : FillFlags) :
    desk.Fills (.receive (.fill id qty price flags)) ∧
      (desk.next (.receive (.fill id qty price flags))).Holds planned orders
        (traded positions [order.symbol] order.side qty.toNat) := by
  have found := holds.works _ List.mem_cons_self
  obtain ⟨notTwice, fresh⟩ := List.nodup_cons.mp holds.fresh
  have nextId : (desk.next (.receive (.fill id qty price flags))).bot.nextOrderId =
      desk.bot.nextOrderId := Run.nextOrderId_receive [.fill id qty price flags] desk.bot
  refine ⟨⟨order, found, some_, within⟩, nextId ▸ holds.next, fresh, ?_, ?_⟩
  · intro entry later
    have listed : entry.1 ∈ orders.map Prod.fst := List.mem_map_of_mem later
    have elsewhere : entry.1 ≠ id := by
      rintro same
      exact notTwice (List.mem_append_left _ (same ▸ listed))
    change (settleResponse desk.working _).lookup entry.1 = _
    rw [settleResponse_of_lookup found]
    split
    · rw [lookup_erase_eq, if_neg elsewhere]
      exact holds.works entry (List.mem_cons_of_mem _ later)
    · rw [lookup_insert_eq, if_neg elsewhere]
      exact holds.works entry (List.mem_cons_of_mem _ later)
  · intro symbol
    obtain ⟨low, high⟩ := fits order.symbol List.mem_cons_self
    rw [← holds.positions] at low high
    rw [position_fill routed found, traded]
    simp only [List.mem_singleton]
    split
    · rename_i own
      rw [own, toInt_movedPosition low high, ← holds.positions]
      rfl
    · exact holds.positions symbol

/-- A booking. -/
theorem Holds.book (holds : desk.Holds planned orders positions) {symbol : UInt32} {side : Side}
    {qty : UInt32} (fits : TradeFits positions [symbol] side qty.toNat) (price : Int32) :
    (desk.next (.book symbol side qty price)).Holds planned orders
      (traded positions [symbol] side qty.toNat) := by
  refine ⟨holds.next, holds.fresh, holds.works, ?_⟩
  intro other
  obtain ⟨low, high⟩ := fits symbol List.mem_cons_self
  rw [← holds.positions] at low high
  rw [position_book low high, traded]
  simp only [List.mem_singleton]
  split
  · rename_i own
    rw [own, holds.positions]
  · exact holds.positions other

/-- What is not known of the orders is left out. -/
theorem Holds.onto (holds : desk.Holds planned orders positions)
    {fewer : List (UInt64 × WorkingOrder)} (sub : fewer.Sublist orders) {values : UInt32 → Int}
    (same : ∀ symbol, positions symbol = values symbol) : desk.Holds planned fewer values where
  next := holds.next
  fresh := holds.fresh.sublist ((sub.map Prod.fst).append (List.Sublist.refl _))
  works := fun entry member => holds.works entry (sub.subset member)
  positions := fun symbol => (holds.positions symbol).trans (same symbol)

end Holds

/-- Trading one symbol and then the others is trading them all. -/
theorem traded_cons (positions : UInt32 → Int) {symbol : UInt32} {symbols : List UInt32}
    (notAgain : symbol ∉ symbols) (side : Side) (qty : Nat) (other : UInt32) :
    traded (traded positions [symbol] side qty) symbols side qty other =
      traded positions (symbol :: symbols) side qty other := by
  by_cases own : other = symbol
  · subst own
    simp [traded, notAgain]
  · simp [traded, own]

theorem TradeFits.tail {positions : UInt32 → Int} {symbol : UInt32} {symbols : List UInt32}
    (notAgain : symbol ∉ symbols) {side : Side} {qty : Nat}
    (fits : TradeFits positions (symbol :: symbols) side qty) :
    TradeFits (traded positions [symbol] side qty) symbols side qty := by
  intro other later
  have elsewhere : other ≠ symbol := by
    rintro rfl
    exact notAgain later
  simp only [traded, List.mem_singleton, if_neg elsewhere]
  exact fits other (List.mem_cons_of_mem _ later)

end Desk

namespace Run

open Desk

/-! ### Runs that the fills allow -/

/-- The log of the run is one that the fills allow, `inbox` is still to be read, and the last desk
satisfies `post`. -/
structure Allowed (bot : BotState) (inbox : List OeResponse) (post : Desk → Prop) (run : Run) :
    Prop where
  state : (run.log.foldl Desk.next (opening bot)).bot = run.state
  routed : (run.log.foldl Desk.next (opening bot)).Routed
  fills : Along Desk.next Fills (opening bot) run.log
  unread : run.inbox = inbox
  holds : post (run.log.foldl Desk.next (opening bot))

namespace Allowed

variable {bot : BotState} {inbox : List OeResponse} {pre post : Desk → Prop} {run : Run}

theorem new (holds : post (opening bot)) : Allowed bot inbox post (new bot inbox) :=
  ⟨rfl, routed_opening bot, trivial, rfl, holds⟩

theorem of_eq {later : Run} (allowed : Allowed bot inbox post run) {rest : List OeResponse}
    (state : later.state = run.state) (log : later.log = run.log) (unread : later.inbox = rest) :
    Allowed bot rest post later := by
  refine ⟨?_, ?_, ?_, unread, ?_⟩
  · rw [log, state, allowed.state]
  · rw [log]
    exact allowed.routed
  · rw [log]
    exact allowed.fills
  · rw [log]
    exact allowed.holds

/-- A change of the counters alone. -/
theorem same {later : Run} (allowed : Allowed bot inbox post run)
    (state : later.state = run.state) (log : later.log = run.log)
    (unread : later.inbox = run.inbox) : Allowed bot inbox post later :=
  allowed.of_eq state log (unread.trans allowed.unread)

theorem weaken (allowed : Allowed bot inbox pre run)
    (implies : ∀ desk, desk.bot = run.state → pre desk → post desk) :
    Allowed bot inbox post run :=
  ⟨allowed.state, allowed.routed, allowed.fills, allowed.unread,
    implies _ allowed.state allowed.holds⟩

theorem act {action : BotAction} (allowed : Allowed bot inbox pre run)
    (step : ∀ desk : Desk, desk.bot = run.state → desk.Routed → pre desk →
      desk.Fills action ∧ post (desk.next action)) : Allowed bot inbox post (run.act action) := by
  obtain ⟨fills, holds⟩ := step _ allowed.state allowed.routed allowed.holds
  have last : (run.log ++ [action]).foldl Desk.next (opening bot) =
      (run.log.foldl Desk.next (opening bot)).next action := List.foldl_concat _ _ _ _
  refine ⟨?_, ?_, ?_, allowed.unread, ?_⟩
  · change ((run.log ++ [action]).foldl Desk.next (opening bot)).bot = run.state.act action
    rw [last, ← allowed.state]
    rfl
  · change ((run.log ++ [action]).foldl Desk.next (opening bot)).Routed
    rw [last]
    exact allowed.routed.next action
  · exact (along_append _ _ _).mpr ⟨allowed.fills, fills, trivial⟩
  · change post ((run.log ++ [action]).foldl Desk.next (opening bot))
    rw [last]
    exact holds

end Allowed

section Steps

variable {bot : BotState} {inbox : List OeResponse} {planned : List (UInt64 × UInt32)}
  {orders : List (UInt64 × WorkingOrder)} {positions : UInt32 → Int} {run : Run}

/-- The run's log is allowed, and its desk holds what is listed. -/
abbrev Keeps (bot : BotState) (inbox : List OeResponse) (planned : List (UInt64 × UInt32))
    (orders : List (UInt64 × WorkingOrder)) (positions : UInt32 → Int) (run : Run) : Prop :=
  Allowed bot inbox (Holds planned orders positions) run

/-- What the bot sees of a position. -/
theorem Keeps.toInt_getPosition (keeps : Keeps bot inbox planned orders positions run)
    (symbol : UInt32) : (run.getPosition symbol).toInt = positions symbol := by
  rw [← position_eq keeps.state]
  exact keeps.holds.positions symbol

/-- An action that neither sends nor reads nor books. -/
theorem Keeps.idle (keeps : Keeps bot inbox planned orders positions run) {action : BotAction}
    (silent : ∀ desk : Desk, desk.Fills action ∧
      (desk.next action).bot.nextOrderId = desk.bot.nextOrderId ∧
      (desk.next action).working = desk.working ∧
      ∀ symbol, (desk.next action).position symbol = desk.position symbol) :
    Keeps bot inbox planned orders positions (run.act action) :=
  Allowed.act keeps fun desk _ _ holds =>
    ⟨(silent desk).1, holds.same (silent desk).2.1 (silent desk).2.2.1 (silent desk).2.2.2⟩

/-- An arb begins. -/
theorem Keeps.startArb (keeps : Keeps bot inbox planned orders positions run) (time : Int) :
    Keeps bot inbox planned orders positions
      (((run.act (.setArbInProgress true)).tick 1).act (.setArbStartTime time)) := by
  have flagged : Keeps bot inbox planned orders positions (run.act (.setArbInProgress true)) :=
    Keeps.idle keeps fun _ => ⟨trivial, rfl, rfl, fun _ => rfl⟩
  have ticked : Keeps bot inbox planned orders positions
      ((run.act (.setArbInProgress true)).tick 1) := flagged.same rfl rfl rfl
  exact Keeps.idle ticked fun _ => ⟨trivial, rfl, rfl, fun _ => rfl⟩

/-- The next planned order is sent. -/
theorem Keeps.sendOrder {leg : UInt64 × UInt32}
    (keeps : Keeps bot inbox (leg :: planned) orders positions run) (side : Side) (qty : UInt32)
    (price : Int32) :
    run.state.nextOrderId = leg.1 ∧
      Keeps bot inbox planned (orders ++ [(leg.1, ⟨leg.2, side, qty.toNat⟩)]) positions
        (run.sendOrderNoWait leg.2 side qty price) := by
  refine ⟨?_, Allowed.act keeps fun desk _ _ holds => ⟨trivial, (holds.sendOrder side qty price).2⟩⟩
  rw [← keeps.state]
  exact (keeps.holds.sendOrder side qty price).1

/-- The orders that legs of one quantity are. -/
def legsAs (side : Side) (qty : Nat) (legs : List (UInt64 × UInt32)) :
    List (UInt64 × WorkingOrder) :=
  legs.map fun leg => (leg.1, ⟨leg.2, side, qty⟩)

/-- Orders of one quantity, sent one after the other. -/
theorem Keeps.fire (side : Side) (qty : UInt32) (price : DormData → Int32)
    {legs : List (UInt64 × UInt32)} {priced : List (UInt32 × DormData)}
    (symbols : priced.map Prod.fst = legs.map Prod.snd) {fired : Run × List UInt64}
    (keeps : Keeps bot inbox (legs ++ planned) orders positions fired.1) :
    let after := priced.foldl (fun fired leg =>
      (fired.1.sendOrderNoWait leg.1 side qty (price leg.2),
        fired.2 ++ [fired.1.state.nextOrderId])) fired
    after.2 = fired.2 ++ legs.map Prod.fst ∧
      Keeps bot inbox planned (orders ++ legsAs side qty.toNat legs) positions after.1 := by
  induction priced generalizing legs orders fired with
  | nil =>
      have none : legs = [] := List.map_eq_nil_iff.mp symbols.symm
      subst none
      simp only [legsAs, List.map_nil, List.append_nil, List.foldl_nil]
      exact ⟨trivial, keeps⟩
  | cons first priced inductionHypothesis =>
      cases legs with
      | nil => cases symbols
      | cons leg legs =>
          obtain ⟨own, rest⟩ := List.cons.inj symbols
          obtain ⟨id, sent⟩ := Keeps.sendOrder keeps side qty (price first.2)
          have later := @inductionHypothesis _ legs rest
            (fired.1.sendOrderNoWait first.1 side qty (price first.2),
              fired.2 ++ [fired.1.state.nextOrderId])
            (by
              dsimp only
              rw [show first.1 = leg.2 from own]
              exact sent)
          rw [List.foldl_cons]
          dsimp only at later ⊢
          rw [List.append_assoc, id] at later
          rw [id]
          refine ⟨later.1, ?_⟩
          have listed := later.2
          rw [List.append_assoc] at listed
          exact listed

/-- Bookings of one quantity in different symbols. -/
theorem Keeps.bookEach (side : Side) (qty : UInt32) (price : Run → UInt32 → Int32)
    {symbols : List UInt32} (nodup : symbols.Nodup)
    (fits : TradeFits positions symbols side qty.toNat)
    (keeps : Keeps bot inbox planned orders positions run) :
    Keeps bot inbox planned orders (traded positions symbols side qty.toNat)
      (symbols.foldl (fun run symbol =>
        run.quoted.act (.book symbol side qty (price run symbol))) run) := by
  induction symbols generalizing positions run with
  | nil =>
      refine Allowed.weaken keeps fun _ _ holds => holds.onto (List.Sublist.refl _) ?_
      intro symbol
      exact (if_neg List.not_mem_nil).symm
  | cons symbol symbols inductionHypothesis =>
      obtain ⟨notAgain, rest⟩ := List.nodup_cons.mp nodup
      have here : TradeFits positions [symbol] side qty.toNat := by
        intro other member
        rw [List.mem_singleton.mp member]
        exact fits symbol List.mem_cons_self
      have booked : Keeps bot inbox planned orders (traded positions [symbol] side qty.toNat)
          (run.quoted.act (.book symbol side qty (price run symbol))) :=
        Allowed.act (keeps.same rfl rfl rfl) fun desk _ _ holds => ⟨trivial, holds.book here _⟩
      exact Allowed.weaken (inductionHypothesis rest (fits.tail notAgain) booked) fun _ _ holds =>
        holds.onto (List.Sublist.refl _) fun other => traded_cons positions notAgain side _ other

end Steps

/-! ### A slow exchange -/

/-- Three seconds from each reading of the clock to the next, fixed quotes, and an ETF service that
always agrees. -/
def slowWorld (bid : Int32) : EtfWorld where
  clock count := OEClient.milliseconds (3000 * count)
  bestBidPrice _ _ := bid
  bestAskPrice _ _ := 1
  create _ amount := ⟨true, "", amount⟩
  redeem _ amount := ⟨true, "", amount⟩

section Waits

variable {bot : BotState} {inbox : List OeResponse} {planned : List (UInt64 × UInt32)}
  {orders : List (UInt64 × WorkingOrder)} {positions : UInt32 → Int} {run : Run} (bid : Int32)

theorem now_tick_slowWorld (run : Run) (count : Nat) :
    (run.tick count).now (slowWorld bid).toWorld =
      run.now (slowWorld bid).toWorld + OEClient.milliseconds (3000 * count) := by
  change OEClient.milliseconds (3000 * ((run.clockReads + count : Nat) : Int)) =
    OEClient.milliseconds (3000 * (run.clockReads : Int)) + _
  simp only [OEClient.milliseconds]
  omega

/-- The next reading of the clock meets a deadline that is no shorter than three seconds. -/
theorem onTime_slowWorld (run : Run) {allowed : Int} (enough : 3000 ≤ allowed) :
    ¬ (run.tick 1).now (slowWorld bid).toWorld >
      run.now (slowWorld bid).toWorld + OEClient.milliseconds allowed := by
  rw [now_tick_slowWorld]
  simp only [OEClient.milliseconds]
  omega

theorem waitScan_slowWorld (run : Run) (id : UInt64) :
    run.waitScan (slowWorld bid).toWorld id = StreamScan.scan (OEClient.verdict id) run.inbox := by
  rw [waitScan, OEClient.waitScan, if_neg (onTime_slowWorld bid run (Int.le_refl 3000))]

/-- A wait whose next response ends it reads that response. -/
theorem Allowed.waitForResponse_cons {pre post : Desk → Prop} {id : UInt64} {response : OeResponse}
    {rest : List OeResponse} {value : Bool} (ends : OEClient.verdict id response = some value)
    (step : ∀ desk : Desk, desk.Routed → pre desk →
      desk.Fills (.receive response) ∧ post (desk.next (.receive response)))
    (allowed : Allowed bot (response :: rest) pre run) :
    (run.waitForResponse (slowWorld bid).toWorld id).2 = value ∧
      Allowed bot rest post (run.waitForResponse (slowWorld bid).toWorld id).1 := by
  rw [waitForResponse, waitScan_slowWorld, allowed.unread, StreamScan.scan_cons_of_some ends rest]
  have before : Allowed bot rest pre { run.tick 2 with inbox := rest } :=
    allowed.of_eq rfl rfl rfl
  exact ⟨rfl, before.act fun desk _ routed holds => step desk routed holds⟩

/-- Each wait reads the acknowledgement of its leg. -/
theorem Keeps.collect_acks {legs : List (UInt64 × UInt32)}
    (keeps : Keeps bot (legs.map (fun leg => .ack leg.1) ++ inbox) planned orders positions run) :
    (run.collect (slowWorld bid).toWorld (legs.map Prod.fst)).2 = legs.length ∧
      Keeps bot inbox planned orders positions
        (run.collect (slowWorld bid).toWorld (legs.map Prod.fst)).1 := by
  induction legs generalizing run with
  | nil => exact ⟨rfl, keeps⟩
  | cons leg legs inductionHypothesis =>
      obtain ⟨returned, waited⟩ := Allowed.waitForResponse_cons bid
        (show OEClient.verdict leg.1 (.ack leg.1) = some true from if_pos rfl)
        (fun desk _ holds => ⟨trivial, holds.same rfl rfl fun _ => rfl⟩) keeps
      obtain ⟨counted, after⟩ := inductionHypothesis waited
      rw [List.map_cons, Run.collect]
      dsimp only
      rw [returned, counted]
      exact ⟨rfl, after⟩

/-- Each wait reads the fill that closes its leg. -/
theorem Keeps.collect_fills {side : Side} {qty : UInt32} (some_ : 0 < qty.toNat)
    {legs : List (UInt64 × UInt32)} (distinct : (legs.map Prod.snd).Nodup)
    (fits : TradeFits positions (legs.map Prod.snd) side qty.toNat)
    (keeps : Keeps bot (legs.map (fun leg => .fill leg.1 qty 1 .CLOSED) ++ inbox) planned
      (legsAs side qty.toNat legs) positions run) :
    (run.collect (slowWorld bid).toWorld (legs.map Prod.fst)).2 = legs.length ∧
      Keeps bot inbox planned [] (traded positions (legs.map Prod.snd) side qty.toNat)
        (run.collect (slowWorld bid).toWorld (legs.map Prod.fst)).1 := by
  induction legs generalizing positions run with
  | nil =>
      refine ⟨rfl, Allowed.weaken keeps fun _ _ holds => holds.onto (List.Sublist.refl _) ?_⟩
      intro symbol
      exact (if_neg List.not_mem_nil).symm
  | cons leg legs inductionHypothesis =>
      obtain ⟨notAgain, rest⟩ := List.nodup_cons.mp distinct
      have here : TradeFits positions [leg.2] side qty.toNat := by
        intro other member
        rw [List.mem_singleton.mp member]
        exact fits leg.2 List.mem_cons_self
      obtain ⟨returned, waited⟩ := Allowed.waitForResponse_cons bid
        (show OEClient.verdict leg.1 (.fill leg.1 qty 1 .CLOSED) = some true from rfl)
        (fun desk routed (holds : desk.Holds planned _ positions) =>
          holds.fill routed some_ (Nat.le_refl _) here 1 .CLOSED) keeps
      obtain ⟨counted, after⟩ := inductionHypothesis rest (fits.tail notAgain) waited
      rw [List.map_cons, Run.collect]
      dsimp only
      rw [returned, counted]
      refine ⟨rfl, Allowed.weaken after fun _ _ holds => holds.onto (List.Sublist.refl _) ?_⟩
      exact traded_cons positions notAgain side qty.toNat

/-- With nothing to read, waits change nothing. -/
theorem Allowed.collect_nil {post : Desk → Prop} (ids : List UInt64)
    (allowed : Allowed bot [] post run) :
    Allowed bot [] post (run.collect (slowWorld bid).toWorld ids).1 := by
  induction ids generalizing run with
  | nil => exact allowed
  | cons id ids inductionHypothesis =>
      have waited : Allowed bot [] post (run.waitForResponse (slowWorld bid).toWorld id).1 := by
        rw [waitForResponse, waitScan_slowWorld, allowed.unread]
        exact allowed.of_eq rfl rfl rfl
      rw [Run.collect]
      dsimp only
      exact inductionHypothesis waited

/-- The lots of the fills. -/
def lots (filled : List (UInt64 × UInt32)) : Nat := (filled.map fun own => own.2.toNat).sum

theorem lots_same (ids : List UInt64) (size : UInt32) :
    lots (ids.map (·, size)) = ids.length * size.toNat := by
  induction ids with
  | nil => exact (Nat.zero_mul _).symm
  | cons id ids inductionHypothesis =>
      rw [List.length_cons, Nat.succ_mul, ← inductionHypothesis]
      exact List.sum_cons.trans (Nat.add_comm _ _)

/-- Working orders in one symbol, each of its own quantity. -/
def ordersIn (symbol : UInt32) (side : Side) (filled : List (UInt64 × UInt32)) :
    List (UInt64 × WorkingOrder) :=
  filled.map fun own => (own.1, ⟨symbol, side, own.2.toNat⟩)

/-- Fills of whole orders that do not say that they close them. -/
def fillsOf (filled : List (UInt64 × UInt32)) : List OeResponse :=
  filled.map fun own => .fill own.1 own.2 1 .NONE

/-- What was traded in a symbol before is traded with it. -/
theorem traded_traded (positions : UInt32 → Int) (symbol : UInt32) (side : Side) (first rest : Nat)
    (other : UInt32) :
    traded (traded positions [symbol] side first) [symbol] side rest other =
      traded positions [symbol] side (first + rest) other := by
  by_cases own : other = symbol
  · subst own
    simp only [traded, List.mem_singleton, if_true, exactMove]
    split <;> omega
  · simp only [traded, List.mem_singleton, own, if_false]

/-- Fills of orders in one symbol, one after the other. -/
theorem Keeps.foldl_fills {symbol : UInt32} {side : Side} {filled : List (UInt64 × UInt32)}
    (some_ : ∀ own ∈ filled, 0 < own.2.toNat)
    (fits : (positions symbol).natAbs + lots filled < 2 ^ 31)
    (keeps : Keeps bot inbox planned (ordersIn symbol side filled ++ orders) positions run) :
    Keeps bot inbox planned orders (traded positions [symbol] side (lots filled))
      ((fillsOf filled).foldl (fun run response => run.act (.receive response)) run) := by
  induction filled generalizing positions run with
  | nil =>
      refine Allowed.weaken keeps fun _ _ holds => holds.onto (List.Sublist.refl _) ?_
      intro other
      by_cases own : other = symbol
      · subst own
        simp [traded, lots, exactMove]
      · simp [traded, own]
  | cons own filled inductionHypothesis =>
      have size : lots (own :: filled) = own.2.toNat + lots filled := List.sum_cons
      have near : (traded positions [symbol] side own.2.toNat symbol).natAbs ≤
          (positions symbol).natAbs + own.2.toNat := by
        simp only [traded, List.mem_singleton, if_true, exactMove]
        split <;> omega
      have here : TradeFits positions [symbol] side own.2.toNat := by
        intro other member
        rw [List.mem_singleton.mp member, exactMove]
        split <;> omega
      have first : Keeps bot inbox planned (ordersIn symbol side filled ++ orders)
          (traded positions [symbol] side own.2.toNat)
          (run.act (.receive (.fill own.1 own.2 1 .NONE))) :=
        Allowed.act keeps fun desk _ routed holds =>
          holds.fill routed (some_ own List.mem_cons_self) (Nat.le_refl _) here 1 .NONE
      have rest := inductionHypothesis
        (fun other member => some_ other (List.mem_cons_of_mem _ member))
        (by omega) first
      rw [size]
      exact Allowed.weaken rest fun _ _ holds => holds.onto (List.Sublist.refl _)
        (traded_traded positions symbol side own.2.toNat (lots filled))

/-- A wait in which they are read. -/
theorem Keeps.waitForResponse_fills {symbol : UInt32} {side : Side}
    {filled : List (UInt64 × UInt32)} (id : UInt64) (some_ : ∀ own ∈ filled, 0 < own.2.toNat)
    (fits : (positions symbol).natAbs + lots filled < 2 ^ 31)
    (keeps : Keeps bot (fillsOf filled) planned (ordersIn symbol side filled ++ orders) positions
      run) :
    Keeps bot [] planned orders (traded positions [symbol] side (lots filled))
      (run.waitForResponse (slowWorld bid).toWorld id).1 := by
  have silent : ∀ message ∈ fillsOf filled, OEClient.verdict id message = none := by
    intro message member
    obtain ⟨own, -, rfl⟩ := List.mem_map.mp member
    rfl
  have before : Keeps bot [] planned (ordersIn symbol side filled ++ orders) positions
      { run.tick 2 with inbox := [] } := keeps.of_eq rfl rfl rfl
  rw [waitForResponse, waitScan_slowWorld, keeps.unread, StreamScan.scan_of_silent silent]
  exact Keeps.foldl_fills some_ fits before

end Waits

/-! ### Five sells of the same UNDY -/

section Selling

variable {bot : BotState} {positions : UInt32 → Int} {run : Run}

/-- One more sell of the whole position. -/
def soldAgain (run : Run) (undyPos : Int32) : Run :=
  (run.quoted.sendNewOrder (slowWorld 1).toWorld SYM_UNDY .SELL undyPos.toUInt32 1).1

theorem sellUndy_again {undyPos : Int32} (long : undyPos > 0) {attempts : Nat} (few : attempts < 5)
    (fuel : Nat) (run : Run) :
    sellUndy (slowWorld 1).toWorld (fuel + 1) attempts undyPos run =
      sellUndy (slowWorld 1).toWorld fuel (attempts + 1)
        ((run.soldAgain undyPos).getPosition SYM_UNDY) (run.soldAgain undyPos) := by
  have bid : ¬ (run.bestBid (slowWorld 1).toWorld SYM_UNDY ≤ 0) :=
    show ¬ ((1 : Int32) ≤ 0) by decide
  rw [sellUndy]
  dsimp only
  rw [if_pos ⟨long, few⟩, if_neg bid]
  rfl

theorem sellUndy_stops (fuel : Nat) (undyPos : Int32) (run : Run) :
    sellUndy (slowWorld 1).toWorld (fuel + 1) 5 undyPos run = (run, some ()) := by
  rw [sellUndy, if_neg fun both => absurd both.2 (by decide)]

/-- The sells of `ids` are acknowledged one after the other, and in the wait for the last one all
sells are filled, those of `done` too. -/
theorem Keeps.sellUndy {undyPos : Int32} (long : undyPos > 0) {ids : List UInt64} {last : UInt64}
    {done all : List UInt64} (whole : all = done ++ ids ++ [last]) {attempts fuel : Nat}
    (five : attempts + ids.length = 4) (enough : ids.length + 2 ≤ fuel)
    (here : positions SYM_UNDY = undyPos.toInt)
    (fits : undyPos.toInt.natAbs + lots (all.map (·, undyPos.toUInt32)) < 2 ^ 31)
    (keeps : Keeps bot (ids.map OeResponse.ack ++ fillsOf (all.map (·, undyPos.toUInt32)))
      ((ids ++ [last]).map (·, SYM_UNDY))
      (ordersIn SYM_UNDY .SELL (done.map (·, undyPos.toUInt32))) positions run) :
    Keeps bot [] [] []
      (traded positions [SYM_UNDY] .SELL (lots (all.map (·, undyPos.toUInt32))))
      (sellUndy (slowWorld 1).toWorld fuel attempts undyPos run).1 := by
  induction ids generalizing done attempts fuel run with
  | nil =>
      obtain ⟨fuel, rfl⟩ : ∃ more, fuel = more + 2 := Nat.exists_eq_add_of_le' enough
      have fourth : attempts = 4 := five
      subst fourth
      have quoted : Keeps bot _ _ _ positions run.quoted := keeps.same rfl rfl rfl
      have sent := (Keeps.sendOrder quoted .SELL undyPos.toUInt32 1).2
      have listed : ordersIn SYM_UNDY .SELL (done.map (·, undyPos.toUInt32)) ++
          [(last, ⟨SYM_UNDY, .SELL, undyPos.toUInt32.toNat⟩)] =
          ordersIn SYM_UNDY .SELL (all.map (·, undyPos.toUInt32)) ++ [] := by
        simp [whole, ordersIn]
      rw [listed] at sent
      have some_ : ∀ own ∈ all.map (·, undyPos.toUInt32), 0 < own.2.toNat := by
        intro own member
        obtain ⟨id, -, rfl⟩ := List.mem_map.mp member
        have exact_ := toNat_toUInt32_of_pos long
        have positive := Int32.lt_iff_toInt_lt.mp long
        rw [Int32.toInt_zero] at positive
        dsimp only
        omega
      have filled : Keeps bot [] [] [] _ (run.soldAgain undyPos) :=
        Keeps.waitForResponse_fills 1 run.quoted.state.nextOrderId some_
          (by rw [here]; exact fits) sent
      rw [sellUndy_again long (by decide), sellUndy_stops]
      dsimp only
      exact filled
  | cons id ids inductionHypothesis =>
      obtain ⟨fuel, rfl⟩ : ∃ more, fuel = more + 1 :=
        Nat.exists_eq_add_of_le' (Nat.le_trans (by simp) enough)
      have quoted : Keeps bot _ _ _ positions run.quoted := keeps.same rfl rfl rfl
      obtain ⟨own, sent⟩ := Keeps.sendOrder quoted .SELL undyPos.toUInt32 1
      have acked : OEClient.verdict run.quoted.state.nextOrderId (.ack id) = some true :=
        if_pos own.symm
      have waited : Keeps bot _ _ _ positions (run.soldAgain undyPos) :=
        (Allowed.waitForResponse_cons 1 acked
          (fun desk _ holds => ⟨trivial, holds.same rfl rfl fun _ => rfl⟩) sent).2
      have same : (run.soldAgain undyPos).getPosition SYM_UNDY = undyPos :=
        Int32.toInt_inj.mp ((Keeps.toInt_getPosition waited SYM_UNDY).trans here)
      rw [List.length_cons] at five enough
      rw [sellUndy_again long (by omega), same]
      refine @inductionHypothesis _ (done ++ [id]) (by rw [whole]; simp) (attempts + 1) fuel
        (by omega) (by omega) ?_
      have listed : ordersIn SYM_UNDY .SELL (done.map (·, undyPos.toUInt32)) ++
          [(id, ⟨SYM_UNDY, .SELL, undyPos.toUInt32.toNat⟩)] =
          ordersIn SYM_UNDY .SELL ((done ++ [id]).map (·, undyPos.toUInt32)) := by
        simp [ordersIn]
      rw [← listed]
      exact waited

end Selling

section Creation

variable {bot : BotState} {snap : ArbSnapshot} {inbox : List OeResponse}
  {planned : List (UInt64 × UInt32)} {positions : UInt32 → Int}

/-- The ids of the later orders follow those of the first. -/
theorem exists_later (nextId : UInt64) (first later : List UInt32) :
    ∃ rest, BotState.legOrders nextId (first ++ later) = BotState.legOrders nextId first ++ rest ∧
      rest.map Prod.snd = later := by
  induction first generalizing nextId with
  | nil => exact ⟨_, rfl, map_snd_legOrders nextId later⟩
  | cons symbol first inductionHypothesis =>
      obtain ⟨rest, follows, symbols⟩ := inductionHypothesis (nextId + 1)
      exact ⟨rest, congrArg ((nextId, symbol) :: ·) follows, symbols⟩

/-- The ten buys of a creation are sent. -/
theorem Keeps.fireLegs {run : Run} (time : Int)
    (keeps : Keeps bot inbox (bot.legs ++ planned) [] positions run) :
    let fired := Run.fireLegs (creationQty snap)
      (((run.act (.setArbInProgress true)).tick 1).act (.setArbStartTime time)) snap
    fired.2 = bot.legs.map Prod.fst ∧
      Keeps bot inbox planned (legsAs .BUY (creationQty snap).toUInt32.toNat bot.legs) positions
        fired.1 := by
  have symbols : (DORM_IDS.zip snap.dorms.toList).map Prod.fst = bot.legs.map Prod.snd :=
    (map_fst_legs snap).trans (map_snd_legOrders _ _).symm
  have fired := @Keeps.fire bot inbox planned [] positions .BUY (creationQty snap).toUInt32
    DormData.bestAskPrice bot.legs _ symbols (_, []) (Keeps.startArb keeps time)
  rw [List.nil_append, List.nil_append] at fired
  exact fired

/-- Ten waits, each of which reads that its leg is filled. -/
theorem Keeps.sendLegs_filled (bid : Int32) {run : Run} (positive : creationQty snap > 0)
    (fits : TradeFits positions DORM_IDS .BUY (creationQty snap).toUInt32.toNat)
    (keeps : Keeps bot
      (bot.legs.map (fun leg => .fill leg.1 (creationQty snap).toUInt32 1 .CLOSED) ++ inbox)
      (bot.legs ++ planned) [] positions run) :
    (run.sendLegs (slowWorld bid).toWorld snap).2 = 10 ∧
      Keeps bot inbox planned [] (traded positions DORM_IDS .BUY (creationQty snap).toUInt32.toNat)
        (run.sendLegs (slowWorld bid).toWorld snap).1 := by
  have whole := toNat_toUInt32_of_pos positive
  have positive_ := Int32.lt_iff_toInt_lt.mp positive
  have symbols : bot.legs.map Prod.snd = DORM_IDS := map_snd_legOrders _ _
  rw [Int32.toInt_zero] at positive_
  obtain ⟨ids, fired⟩ := @Keeps.fireLegs bot snap _ _ positions run
    (run.now (slowWorld bid).toWorld) keeps
  have collected := Keeps.collect_fills bid (by omega) (symbols ▸ by decide) (symbols ▸ fits) fired
  rw [symbols, ← ids] at collected
  exact collected

/-- Ten waits, each of which reads that its leg is acknowledged. -/
theorem Keeps.sendLegs_acked (bid : Int32) {run : Run}
    (keeps : Keeps bot (bot.legs.map (fun leg => .ack leg.1) ++ inbox) (bot.legs ++ planned) []
      positions run) :
    (run.sendLegs (slowWorld bid).toWorld snap).2 = 10 ∧
      Keeps bot inbox planned (legsAs .BUY (creationQty snap).toUInt32.toNat bot.legs) positions
        (run.sendLegs (slowWorld bid).toWorld snap).1 := by
  obtain ⟨ids, fired⟩ := @Keeps.fireLegs bot snap _ _ positions run
    (run.now (slowWorld bid).toWorld) keeps
  have collected := Keeps.collect_acks bid fired
  rw [← ids] at collected
  exact collected

/-- The bookings of `/create`. -/
theorem Keeps.bookCreation (world : World) {orders : List (UInt64 × WorkingOrder)} {qty : Int32}
    {run : Run} (fits : TradeFits positions DORM_IDS .SELL qty.toUInt32.toNat)
    (room : TradeFits positions [SYM_UNDY] .BUY qty.toUInt32.toNat)
    (keeps : Keeps bot inbox planned orders positions run) :
    Keeps bot inbox planned orders
      (traded (traded positions DORM_IDS .SELL qty.toUInt32.toNat) [SYM_UNDY] .BUY
        qty.toUInt32.toNat) (Run.bookCreation world qty run snap) := by
  have dorms := Keeps.bookEach .SELL qty.toUInt32 (fun run symbol => run.bestBid world symbol)
    (by decide) fits keeps
  have elsewhere : SYM_UNDY ∉ DORM_IDS := by decide
  have undyRoom : TradeFits (traded positions DORM_IDS .SELL qty.toUInt32.toNat) [SYM_UNDY] .BUY
      qty.toUInt32.toNat := by
    intro symbol member
    have own := List.mem_singleton.mp member
    subst own
    rw [traded, if_neg elsewhere]
    exact room SYM_UNDY member
  exact Allowed.act dorms fun desk _ _ holds =>
    ⟨trivial, holds.book undyRoom snap.undyBestBidPrice⟩

/-- The position of UNDY once the quantity is created. -/
def createdUndy (bot : BotState) (snap : ArbSnapshot) : Int32 :=
  bot.manager.getPosition SYM_UNDY + creationQty snap

/-- From the confirmed fills on: what is created is sold five times. -/
theorem Keeps.createAndSell {run : Run} {ids : List UInt64} {last : UInt64}
    (four : ids.length = 4) (long : createdUndy bot snap > 0)
    (few : (createdUndy bot snap).toInt ≤ 18)
    (created : positions SYM_UNDY + (creationQty snap).toUInt32.toNat =
      (createdUndy bot snap).toInt)
    (fits : TradeFits positions DORM_IDS .SELL (creationQty snap).toUInt32.toNat)
    (keeps : Keeps bot
      (ids.map OeResponse.ack ++
        fillsOf ((ids ++ [last]).map (·, (createdUndy bot snap).toUInt32)))
      ((ids ++ [last]).map (·, SYM_UNDY)) [] positions run) :
    Allowed bot [] (fun desk => desk.position SYM_UNDY = -4 * (createdUndy bot snap).toInt)
      (createAndSell (slowWorld 1).toWorld 6 (creationQty snap) run snap).1 := by
  have called := @Keeps.idle bot _ _ [] positions run keeps
    (.callCreate (creationQty snap) ((slowWorld 1).create run.etfCalls (creationQty snap)))
    fun _ => ⟨trivial, rfl, rfl, fun _ => rfl⟩
  have room : TradeFits positions [SYM_UNDY] .BUY (creationQty snap).toUInt32.toNat := by
    intro symbol member
    rw [List.mem_singleton.mp member, exactMove, if_pos rfl, created]
    have low := Int32.le_toInt (createdUndy bot snap)
    exact ⟨low, by omega⟩
  have counted : Keeps bot _ _ [] positions
      { run.act (.callCreate (creationQty snap)
        ((slowWorld 1).create run.etfCalls (creationQty snap))) with
        etfCalls := run.etfCalls + 1 } := called.same rfl rfl rfl
  have keepsBooked := @Keeps.bookCreation bot snap _ _ positions (slowWorld 1).toWorld []
    (creationQty snap) _ fits room counted
  have elsewhere : SYM_UNDY ∉ DORM_IDS := by decide
  have gained : traded (traded positions DORM_IDS .SELL (creationQty snap).toUInt32.toNat)
      [SYM_UNDY] .BUY (creationQty snap).toUInt32.toNat SYM_UNDY =
        (createdUndy bot snap).toInt := by
    rw [traded, if_pos List.mem_cons_self, traded, if_neg elsewhere, exactMove, if_pos rfl, created]
  have agreed : ((slowWorld 1).create run.etfCalls (creationQty snap)).success = true := rfl
  rw [Run.createAndSell]
  dsimp only
  rw [if_neg (not_not.mpr agreed)]
  dsimp only at keepsBooked ⊢
  generalize Run.bookCreation _ _ _ _ = booked at keepsBooked ⊢
  have here : booked.getPosition SYM_UNDY = createdUndy bot snap :=
    Int32.toInt_inj.mp ((Keeps.toInt_getPosition keepsBooked SYM_UNDY).trans gained)
  have positive := Int32.lt_iff_toInt_lt.mp long
  have whole := toNat_toUInt32_of_pos long
  have five : lots ((ids ++ [last]).map (·, (createdUndy bot snap).toUInt32)) =
      5 * (createdUndy bot snap).toUInt32.toNat := by
    rw [lots_same, List.length_append, four, List.length_singleton]
  rw [Int32.toInt_zero] at positive
  have sold := @Keeps.sellUndy bot _ booked (createdUndy bot snap) long ids last [] (ids ++ [last])
    rfl 0 6 (by omega) (by omega) gained (by omega) keepsBooked
  rw [here]
  refine Allowed.weaken sold fun desk _ holds => ?_
  rw [holds.positions, traded, if_pos List.mem_cons_self, gained, five, exactMove,
    if_neg (by decide)]
  omega

/-- A creation in which every leg is filled and `/create` succeeds, without room for UNDY. -/
theorem creation_oversells (taken : SnapshotOf bot snap) (within : (opening bot).Within)
    (starts : (new bot []).startsCreation snap = true)
    (long : ∀ symbol ∈ DORM_IDS, 0 ≤ (opening bot).position symbol)
    (beyond : 3 ≤ (opening bot).position SYM_UNDY + (creationQty snap).toInt) :
    ∃ inbox, Allowed bot [] (fun desk => ¬ desk.Within)
      ((new bot inbox).tryCreationArb (slowWorld 1).toWorld 6 snap).1 := by
  have positive := creationQty_pos_of_starts starts
  have whole := toNat_toUInt32_of_pos positive
  have small := creationQty_le taken within (List.head_mem (l := DORM_IDS) (by decide))
  have least := long _ (List.head_mem (l := DORM_IDS) (by decide))
  have bounds := fun symbol member => within symbol member
  simp only [toInt_POSITION_LIMIT] at bounds
  obtain ⟨undyLow, undyHigh⟩ := bounds SYM_UNDY List.mem_cons_self
  have created : (opening bot).position SYM_UNDY + (creationQty snap).toUInt32.toNat =
      (createdUndy bot snap).toInt := by
    rw [createdUndy, Int32.toInt_add, whole]
    exact (Int.bmod_eq_of_le (by omega) (by omega)).symm
  have high : ∀ symbol ∈ DORM_IDS, (opening bot).position symbol ≤ 9 :=
    fun symbol dorm => (bounds symbol (List.mem_cons_of_mem _ dorm)).2
  have buys : TradeFits (opening bot).position DORM_IDS .BUY (creationQty snap).toUInt32.toNat := by
    intro symbol dorm
    have atLeast := long symbol dorm
    have atMost := high symbol dorm
    rw [exactMove, if_pos rfl]
    omega
  have sells : TradeFits (traded (opening bot).position DORM_IDS .BUY
      (creationQty snap).toUInt32.toNat) DORM_IDS .SELL (creationQty snap).toUInt32.toNat := by
    intro symbol dorm
    have atLeast := long symbol dorm
    have atMost := high symbol dorm
    rw [exactMove, if_neg (by decide), traded, if_pos dorm, exactMove, if_pos rfl]
    omega
  -- The ids of the five sells follow those of the legs.
  obtain ⟨later, follows, symbols⟩ :=
    exists_later bot.nextOrderId DORM_IDS (List.replicate 5 SYM_UNDY)
  have allUndy : later = (later.map Prod.fst).map (·, SYM_UNDY) := by
    rw [List.map_map]
    refine (List.map_id later).symm.trans (List.map_congr_left fun own member => ?_)
    have undy : own.2 ∈ later.map Prod.snd := List.mem_map_of_mem member
    rw [symbols] at undy
    exact Prod.ext rfl (List.eq_of_mem_replicate undy)
  have count : (later.map Prod.fst).length = 5 := by
    rw [List.length_map, ← List.length_map Prod.snd, symbols, List.length_replicate]
  obtain ⟨ids, last, split⟩ : ∃ ids last, later.map Prod.fst = ids ++ [last] :=
    (List.eq_nil_or_concat' (later.map Prod.fst)).resolve_left (by
      intro none
      rw [none] at count
      cases count)
  rw [split] at allUndy count
  have four : ids.length = 4 := by simpa using count
  obtain ⟨after, afterEq⟩ : ∃ after, after = ids.map OeResponse.ack ++
    fillsOf ((ids ++ [last]).map (·, (createdUndy bot snap).toUInt32)) := ⟨_, rfl⟩
  obtain ⟨inbox, inboxEq⟩ : ∃ inbox, inbox = bot.legs.map (fun leg =>
    OeResponse.fill leg.1 (creationQty snap).toUInt32 1 .CLOSED) ++ after := ⟨_, rfl⟩
  have begun : Keeps bot inbox (bot.legs ++ later) [] (opening bot).position (new bot inbox) := by
    have opened := holds_opening bot
      (show (DORM_IDS ++ List.replicate 5 SYM_UNDY).length < UInt64.size by decide)
    rw [follows] at opened
    exact Allowed.new opened
  rw [inboxEq] at begun
  obtain ⟨ten, filled⟩ := Keeps.sendLegs_filled 1 positive buys begun
  rw [← inboxEq] at ten filled
  refine ⟨inbox, ?_⟩
  obtain ⟨legs, legsEq⟩ : ∃ legs, legs = (new bot inbox).sendLegs (slowWorld 1).toWorld snap :=
    ⟨_, rfl⟩
  rw [← legsEq] at ten filled
  have allThere : (legs.1.tick 1).allFilled (creationQty snap) = true := by
    refine List.all_eq_true.mpr fun symbol dorm => decide_eq_true (Int32.le_iff_toInt_le.mpr ?_)
    have here : ((legs.1.tick 1).getPosition symbol).toInt = _ :=
      Keeps.toInt_getPosition filled symbol
    rw [traded, if_pos dorm, exactMove, if_pos rfl] at here
    have atLeast := long symbol dorm
    omega
  have elsewhere : SYM_UNDY ∉ DORM_IDS := by decide
  have polled : Keeps bot after later [] _ (legs.1.tick 1) := filled.same rfl rfl rfl
  rw [allUndy, afterEq] at polled
  have positiveUndy : createdUndy bot snap > 0 := by
    rw [gt_iff_lt, Int32.lt_iff_toInt_lt, Int32.toInt_zero]
    omega
  have sold := Keeps.createAndSell four positiveUndy (by omega)
    (by rw [traded, if_neg elsewhere]; exact created) sells polled
  have passes : ∀ inbox, (new bot inbox).startsCreation snap = true := fun _ => starts
  rw [tryCreationArb, if_neg (not_not.mpr (passes _))]
  dsimp only
  rw [← legsEq, if_neg (by omega), afterAcks, pollFills, if_pos allThere]
  refine Allowed.weaken sold fun desk _ short isWithin => ?_
  have low := (isWithin SYM_UNDY List.mem_cons_self).1
  rw [toInt_POSITION_LIMIT, short] at low
  omega

end Creation

/-! ### A cover on top of the buy that it follows -/

section Covering

variable {bot : BotState} {snap : ArbSnapshot} {inbox : List OeResponse}
  {planned : List (UInt64 × UInt32)} {orders : List (UInt64 × WorkingOrder)}
  {positions : UInt32 → Int}

/-- The orders that cover short positions. -/
def coversAs (positions : UInt32 → Int) (covers : List (UInt64 × UInt32)) :
    List (UInt64 × WorkingOrder) :=
  covers.map fun leg => (leg.1, ⟨leg.2, .BUY, (positions leg.2).natAbs⟩)

/-- Without bids, the unwind covers the dorms near the limit and nothing else. -/
theorem Keeps.unwindLegs {symbols : List UInt32} {covers : List (UInt64 × UInt32)}
    (short : covers.map Prod.snd = symbols.filter (positions · ≤ -8)) {fired : Run × List UInt64}
    (keeps : Keeps bot inbox (covers ++ planned) orders positions fired.1) :
    (symbols.foldl (unwindLeg (slowWorld 0).toWorld) fired).2 = fired.2 ++ covers.map Prod.fst ∧
      Keeps bot inbox planned (orders ++ coversAs positions covers) positions
        (symbols.foldl (unwindLeg (slowWorld 0).toWorld) fired).1 := by
  induction symbols generalizing covers orders fired with
  | nil =>
      have none : covers = [] := List.map_eq_nil_iff.mp short
      subst none
      simp only [coversAs, List.map_nil, List.append_nil, List.foldl_nil]
      exact ⟨trivial, keeps⟩
  | cons symbol symbols inductionHypothesis =>
      have seen := Keeps.toInt_getPosition keeps symbol
      have eight : (-8 : Int32).toInt = -8 := rfl
      rw [List.foldl_cons]
      by_cases near : positions symbol ≤ -8
      · rw [List.filter_cons, if_pos (decide_eq_true near)] at short
        obtain ⟨leg, rest, rfl, rfl, others⟩ := List.map_eq_cons_iff.mp short
        have notLong : ¬ (fired.1.getPosition leg.2 > 0) := by
          rw [gt_iff_lt, Int32.lt_iff_toInt_lt, Int32.toInt_zero]
          omega
        have deep : fired.1.getPosition leg.2 ≤ -8 := by
          rw [Int32.le_iff_toInt_le]
          omega
        have ask : ¬ (fired.1.bestAsk (slowWorld 0).toWorld leg.2 ≤ 0) :=
          show ¬ ((1 : Int32) ≤ 0) by decide
        have quoted : Keeps bot inbox (leg :: (rest ++ planned)) orders positions fired.1.quoted :=
          keeps.same rfl rfl rfl
        obtain ⟨id, sent⟩ := Keeps.sendOrder quoted .BUY (fired.1.getPosition leg.2).abs.toUInt32
          (fired.1.bestAsk (slowWorld 0).toWorld leg.2)
        have covered : unwindLeg (slowWorld 0).toWorld fired leg.2 =
            (fired.1.quoted.sendOrderNoWait leg.2 .BUY
              (fired.1.getPosition leg.2).abs.toUInt32
              (fired.1.bestAsk (slowWorld 0).toWorld leg.2), fired.2 ++ [leg.1]) := by
          rw [unwindLeg]
          dsimp only
          rw [if_neg notLong, if_pos deep, if_neg ask, ← id]
          rfl
        rw [FixedWidth.toNat_toUInt32_abs, seen] at sent
        have later := @inductionHypothesis _ rest others
          (fired.1.quoted.sendOrderNoWait leg.2 .BUY (fired.1.getPosition leg.2).abs.toUInt32
            (fired.1.bestAsk (slowWorld 0).toWorld leg.2), fired.2 ++ [leg.1]) sent
        rw [covered]
        dsimp only at later
        rw [List.append_assoc, List.append_assoc] at later
        exact later
      · rw [List.filter_cons, if_neg (by rwa [decide_eq_true_iff])] at short
        have shallow : ¬ (fired.1.getPosition symbol ≤ -8) := by
          rw [Int32.le_iff_toInt_le]
          omega
        have kept : (unwindLeg (slowWorld 0).toWorld fired symbol).2 = fired.2 ∧
            Keeps bot inbox (covers ++ planned) orders positions
              (unwindLeg (slowWorld 0).toWorld fired symbol).1 := by
          have bid : fired.1.bestBid (slowWorld 0).toWorld symbol ≤ 0 := Int32.le_refl 0
          rw [unwindLeg]
          dsimp only
          rw [if_pos bid, if_neg shallow]
          split
          · exact ⟨rfl, keeps.same rfl rfl rfl⟩
          · exact ⟨rfl, keeps⟩
        have later := inductionHypothesis short kept.2
        rw [kept.1] at later
        exact later

/-- Two turns of the polling loop take longer than its deadline allows. -/
theorem pollFills_slowWorld (bid : Int32) {qty : Int32} {run : Run}
    (missing : run.allFilled qty = false) :
    pollFills (slowWorld bid).toWorld qty
        (run.now (slowWorld bid).toWorld + OEClient.milliseconds 5000) 6 (run.tick 1) =
      (run.tick 3, some false) := by
  have first := @onTime_slowWorld bid run 5000 (by decide)
  have second : (run.tick 2).now (slowWorld bid).toWorld >
      run.now (slowWorld bid).toWorld + OEClient.milliseconds 5000 := by
    rw [now_tick_slowWorld]
    simp only [OEClient.milliseconds]
    omega
  have still : ∀ count, (run.tick count).allFilled qty = false := fun _ => missing
  rw [pollFills, still, if_neg Bool.false_ne_true, if_neg first]
  change pollFills _ _ _ 5 (run.tick 2) = _
  rw [pollFills, still, if_neg Bool.false_ne_true, if_pos second]
  rfl

/-- Legs that are not filled in time are unwound. -/
theorem afterAcks_slowWorld (bid : Int32) {run : Run}
    (missing : run.allFilled (creationQty snap) = false) :
    run.afterAcks (slowWorld bid).toWorld 6 snap =
      ((((run.tick 3).act .fillTimeout).unwindDormLongs (slowWorld bid).toWorld).act
        (.setArbInProgress false), some true) := by
  rw [afterAcks, pollFills_slowWorld bid missing]

/-- A creation whose legs are acknowledged and not filled in time, with a dorm near the limit and a
quantity beyond it: the dorm's buy and its cover are both filled. -/
theorem creation_overcovers (taken : SnapshotOf bot snap) (within : (opening bot).Within)
    (starts : (new bot []).startsCreation snap = true) {symbol : UInt32} (dorm : symbol ∈ DORM_IDS)
    (near : (opening bot).position symbol ≤ -8) (beyond : 9 < (creationQty snap).toInt) :
    ∃ inbox, Allowed bot [] (fun desk => ¬ desk.Within)
      ((new bot inbox).tryCreationArb (slowWorld 0).toWorld 6 snap).1 := by
  have positive := creationQty_pos_of_starts starts
  have whole := toNat_toUInt32_of_pos positive
  -- The first cover follows the legs, and one of the legs is of the same dorm.
  obtain ⟨covers, follows, symbols⟩ := exists_later bot.nextOrderId DORM_IDS
    (DORM_IDS.filter ((opening bot).position · ≤ -8))
  obtain ⟨first, others, rfl⟩ : ∃ first others, covers = first :: others := by
    refine List.exists_cons_of_ne_nil fun none => ?_
    have listed : symbol ∈ DORM_IDS.filter ((opening bot).position · ≤ -8) :=
      List.mem_filter.mpr ⟨dorm, decide_eq_true near⟩
    rw [← symbols, none] at listed
    exact absurd listed List.not_mem_nil
  obtain ⟨own, short⟩ : first.2 ∈ DORM_IDS ∧ (opening bot).position first.2 ≤ -8 := by
    have listed : first.2 ∈ DORM_IDS.filter ((opening bot).position · ≤ -8) :=
      symbols ▸ List.mem_cons_self
    exact ⟨(List.mem_filter.mp listed).1, of_decide_eq_true (List.mem_filter.mp listed).2⟩
  obtain ⟨leg, leads, same⟩ : ∃ leg ∈ bot.legs, leg.2 = first.2 := by
    have listed : first.2 ∈ bot.legs.map Prod.snd := by
      rw [BotState.legs, map_snd_legOrders]
      exact own
    exact List.mem_map.mp listed
  obtain ⟨filled, filledEq⟩ : ∃ filled, filled = [(leg.1, (creationQty snap).toUInt32),
    (first.1, (bot.manager.getPosition first.2).abs.toUInt32)] := ⟨_, rfl⟩
  have size : (bot.manager.getPosition first.2).abs.toUInt32.toNat =
      ((opening bot).position first.2).natAbs := FixedWidth.toNat_toUInt32_abs _
  have total : lots filled =
      (creationQty snap).toUInt32.toNat + ((opening bot).position first.2).natAbs := by
    rw [filledEq, lots, ← size]
    simp
  obtain ⟨inbox, inboxEq⟩ : ∃ inbox, inbox = bot.legs.map (fun leg => OeResponse.ack leg.1) ++
    fillsOf filled := ⟨_, rfl⟩
  refine ⟨inbox, ?_⟩
  -- The legs are acknowledged, and the polling loop times out.
  have begun : Keeps bot inbox (bot.legs ++ (first :: others)) [] (opening bot).position
      (new bot inbox) := by
    have opened := holds_opening bot (show (DORM_IDS ++ DORM_IDS.filter
      ((opening bot).position · ≤ -8)).length < UInt64.size from by
        rw [List.length_append]
        have fewer := List.length_filter_le ((opening bot).position · ≤ -8) DORM_IDS
        have ten : DORM_IDS.length = 10 := rfl
        change _ < 2 ^ 64
        omega)
    rw [follows] at opened
    exact Allowed.new opened
  rw [inboxEq] at begun
  obtain ⟨ten, acked⟩ := @Keeps.sendLegs_acked bot snap _ _ _ 0 _ begun
  rw [← inboxEq] at ten acked
  obtain ⟨legs, legsEq⟩ : ∃ legs, legs = (new bot inbox).sendLegs (slowWorld 0).toWorld snap :=
    ⟨_, rfl⟩
  rw [← legsEq] at ten acked
  have missing : legs.1.allFilled (creationQty snap) = false := by
    refine List.all_eq_false.mpr ⟨first.2, own, ?_⟩
    rw [decide_eq_true_iff, Int32.le_iff_toInt_le, Keeps.toInt_getPosition acked]
    omega
  have timedOut := @Keeps.idle _ _ _ _ _ (legs.1.tick 3) (acked.same rfl rfl rfl) .fillTimeout
    fun _ => ⟨trivial, rfl, rfl, fun _ => rfl⟩
  -- The covers are sent, and the wait for the first reads that it and its dorm's leg are filled.
  obtain ⟨ids, covered⟩ := @Keeps.unwindLegs bot _ [] _ _ DORM_IDS (first :: others) symbols
    (((legs.1.tick 3).act .fillTimeout), []) (by rw [List.append_nil]; exact timedOut)
  have listed : (ordersIn first.2 .BUY filled ++ []).Sublist
      (legsAs .BUY (creationQty snap).toUInt32.toNat bot.legs ++
        coversAs (opening bot).position (first :: others)) := by
    have bought : (leg.1, (⟨first.2, .BUY, (creationQty snap).toUInt32.toNat⟩ : WorkingOrder)) ∈
        legsAs .BUY (creationQty snap).toUInt32.toNat bot.legs :=
      List.mem_map.mpr ⟨leg, leads, by rw [same]⟩
    rw [filledEq, ordersIn, List.map_cons, List.map_cons, size]
    exact (List.singleton_sublist.mpr bought).append
      (List.singleton_sublist.mpr List.mem_cons_self)
  have bothFilled := @Keeps.waitForResponse_fills bot [] [] (opening bot).position _ 0 first.2 .BUY
    filled first.1 (by
      intro order member
      rw [filledEq] at member
      rcases List.mem_cons.mp member with rfl | last
      · dsimp only
        omega
      · rw [List.mem_singleton.mp last, size]
        omega) (by
      have low := (within first.2 (List.mem_cons_of_mem _ own)).1
      have high := creationQty_le taken within own
      rw [toInt_POSITION_LIMIT] at low
      rw [total]
      omega) (Allowed.weaken covered fun _ _ holds => holds.onto listed fun _ => rfl)
  have done := Allowed.collect_nil 0 (others.map Prod.fst) bothFilled
  have passes : ∀ inbox, (new bot inbox).startsCreation snap = true := fun _ => starts
  rw [tryCreationArb, if_neg (not_not.mpr (passes _))]
  dsimp only
  rw [← legsEq, if_neg (by omega), afterAcks_slowWorld 0 missing]
  dsimp only
  have unwound : Keeps bot [] [] [] (traded (opening bot).position [first.2] .BUY (lots filled))
      (((legs.1.tick 3).act .fillTimeout).unwindDormLongs (slowWorld 0).toWorld) := by
    rw [unwindDormLongs, ids, List.nil_append, List.map_cons, Run.collect]
    exact done
  have ended := @Keeps.idle _ _ _ _ _ _ unwound (.setArbInProgress false)
    fun _ => ⟨trivial, rfl, rfl, fun _ => rfl⟩
  refine Allowed.weaken ended fun desk _ holds isWithin => ?_
  have high := (isWithin first.2 (List.mem_cons_of_mem _ own)).2
  rw [toInt_POSITION_LIMIT, holds.positions, traded, if_pos List.mem_cons_self, exactMove,
    if_pos rfl, total] at high
  omega

end Covering

/-! ### Redeeming more than was bought, or than the dorms have room for -/

section Redemption

variable {bot : BotState} {snap : ArbSnapshot} {inbox : List OeResponse}
  {planned : List (UInt64 × UInt32)} {orders : List (UInt64 × WorkingOrder)}
  {positions : UInt32 → Int} (bid : Int32)

/-- A wait for a fill whose next response ends it reads that response. -/
theorem Allowed.waitForFill_cons {pre post : Desk → Prop} {id : UInt64} {response : OeResponse}
    {rest : List OeResponse} {value : Bool} {run : Run}
    (ends : OEClient.fillVerdict id response = some value)
    (step : ∀ desk : Desk, desk.Routed → pre desk →
      desk.Fills (.receive response) ∧ post (desk.next (.receive response)))
    (allowed : Allowed bot (response :: rest) pre run) :
    (run.waitForFill (slowWorld bid).toWorld id).2 = value ∧
      Allowed bot rest post (run.waitForFill (slowWorld bid).toWorld id).1 := by
  have scanned : run.fillScan (slowWorld bid).toWorld id = ⟨[response], rest, some value⟩ := by
    have onTime : ¬ (slowWorld bid).clock (run.clockReads + 1 + 0) >
        run.now (slowWorld bid).toWorld + OEClient.milliseconds 5000 :=
      onTime_slowWorld bid run (by decide)
    rw [fillScan, allowed.unread, OEClient.fillScan, StreamScan.scanUntil]
    dsimp only
    rw [if_neg (mt of_decide_eq_true onTime), ends]
  rw [waitForFill, scanned]
  have before : Allowed bot rest pre
      ({ run.tick (1 + ([response].length + if (some value).isSome then 0 else 1)) with
        inbox := rest } : Run) := allowed.of_eq rfl rfl rfl
  exact ⟨rfl, before.act fun desk _ routed holds => step desk routed holds⟩

/-- The bookings of `/redeem`. -/
theorem Keeps.bookRedemption (world : World) {qty : Int32} {run : Run}
    (undyFits : TradeFits positions [SYM_UNDY] .SELL qty.toUInt32.toNat)
    (fits : TradeFits positions DORM_IDS .BUY qty.toUInt32.toNat)
    (keeps : Keeps bot inbox planned orders positions run) :
    Keeps bot inbox planned orders
      (traded (traded positions [SYM_UNDY] .SELL qty.toUInt32.toNat) DORM_IDS .BUY
        qty.toUInt32.toNat) (Run.bookRedemption world qty run snap) := by
  have undy : Keeps bot inbox planned orders _
      (run.act (.book SYM_UNDY .SELL qty.toUInt32 snap.undyBestAskPrice)) :=
    Allowed.act keeps fun desk _ _ holds => ⟨trivial, holds.book undyFits snap.undyBestAskPrice⟩
  have dormFits : TradeFits (traded positions [SYM_UNDY] .SELL qty.toUInt32.toNat) DORM_IDS .BUY
      qty.toUInt32.toNat := by
    intro symbol dorm
    have elsewhere : symbol ∉ [SYM_UNDY] := fun own =>
      dorm_ne_undy dorm (List.mem_singleton.mp own)
    rw [traded, if_neg elsewhere]
    exact fits symbol dorm
  have dorms := Keeps.bookEach .BUY qty.toUInt32 (fun run symbol => run.bestAsk world symbol)
    (by decide) dormFits undy
  exact dorms

/-- From the confirmed fill on: `/redeem` is booked, and ten sells are sent that nobody fills. -/
theorem Keeps.redeemAndSell {sells : List (UInt64 × UInt32)}
    (symbols : sells.map Prod.snd = DORM_IDS)
    {qty : Int32} {run : Run}
    (undyFits : TradeFits positions [SYM_UNDY] .SELL qty.toUInt32.toNat)
    (fits : TradeFits positions DORM_IDS .BUY qty.toUInt32.toNat)
    (keeps : Keeps bot [] sells [] positions run) :
    Keeps bot [] [] (legsAs .SELL qty.toUInt32.toNat sells)
      (traded (traded positions [SYM_UNDY] .SELL qty.toUInt32.toNat) DORM_IDS .BUY
        qty.toUInt32.toNat) (redeemAndSell (slowWorld bid) qty run snap).1 := by
  have counted : Keeps bot [] sells [] positions { run with etfCalls := run.etfCalls + 1 } :=
    keeps.same rfl rfl rfl
  have booked := @Keeps.bookRedemption bot snap _ _ _ positions (slowWorld bid).toWorld qty _
    undyFits fits counted
  have agreed : ((slowWorld bid).redeem run.etfCalls qty).success = true := rfl
  rw [Run.redeemAndSell]
  dsimp only
  rw [if_neg (not_not.mpr agreed)]
  generalize Run.bookRedemption _ _ _ _ = later at booked ⊢
  rw [← List.append_nil sells] at booked
  have fired := (@Keeps.fire bot [] [] [] _ .SELL qty.toUInt32 DormData.bestBidPrice sells
    (DORM_IDS.zip snap.dorms.toList) ((map_fst_legs snap).trans symbols.symm) (later, []) booked).2
  exact Allowed.collect_nil bid _ fired

/-- A redemption whose UNDY buy is closed with `filled` lots of it filled. -/
theorem redemption_redeems (taken : SnapshotOf bot snap) (within : (opening bot).Within)
    (starts : (new bot []).startsRedemption snap = true) {filled : UInt32}
    (some_ : 0 < filled.toNat) (most : filled.toNat ≤ (redemptionQty snap).toUInt32.toNat) :
    ∃ inbox, Allowed bot []
      (fun desk =>
        desk.position SYM_UNDY =
          (opening bot).position SYM_UNDY + filled.toNat - (redemptionQty snap).toInt ∧
        ∀ symbol ∈ DORM_IDS,
          desk.position symbol = (opening bot).position symbol + (redemptionQty snap).toInt)
      ((new bot inbox).tryRedemptionArb (slowWorld bid) snap).1 := by
  have positive := redemptionQty_pos_of_starts starts
  have whole := toNat_toUInt32_of_pos positive
  have small := redemptionQty_le taken within
  have bounds := fun symbol member => within symbol member
  simp only [toInt_POSITION_LIMIT] at bounds
  obtain ⟨undyLow, undyHigh⟩ := bounds SYM_UNDY List.mem_cons_self
  obtain ⟨sells, sellsEq⟩ : ∃ sells, sells = BotState.legOrders (bot.nextOrderId + 1) DORM_IDS :=
    ⟨_, rfl⟩
  have symbols : sells.map Prod.snd = DORM_IDS := sellsEq ▸ map_snd_legOrders _ _
  have elsewhere : SYM_UNDY ∉ DORM_IDS := by decide
  obtain ⟨inbox, inboxEq⟩ : ∃ inbox, inbox = [OeResponse.ack bot.nextOrderId,
    .fill bot.nextOrderId filled 1 .CLOSED] := ⟨_, rfl⟩
  refine ⟨inbox, ?_⟩
  -- The UNDY buy is acknowledged, and then closed.
  have begun : Keeps bot inbox ((bot.nextOrderId, SYM_UNDY) :: sells) [] (opening bot).position
      (new bot inbox) := by
    rw [sellsEq]
    exact Allowed.new (holds_opening bot
      (show (SYM_UNDY :: DORM_IDS).length < UInt64.size by decide))
  have sent := (Keeps.sendOrder
    (Keeps.startArb begun ((new bot inbox).now (slowWorld bid).toWorld)) .BUY
    (redemptionQty snap).toUInt32 snap.undyBestAskPrice).2
  have acked : OEClient.verdict bot.nextOrderId (.ack bot.nextOrderId) = some true := if_pos rfl
  rw [inboxEq] at sent
  have bought : ((new bot inbox).buyUndy (slowWorld bid).toWorld snap).2 = true ∧
      Keeps bot [.fill bot.nextOrderId filled 1 .CLOSED] sells
        [(bot.nextOrderId, ⟨SYM_UNDY, .BUY, (redemptionQty snap).toUInt32.toNat⟩)]
        (opening bot).position ((new bot inbox).buyUndy (slowWorld bid).toWorld snap).1 := by
    rw [inboxEq]
    exact Allowed.waitForResponse_cons bid acked
      (fun desk _ holds => ⟨trivial, holds.same rfl rfl fun _ => rfl⟩) sent
  -- The fills are booked as if all of it had been bought.
  have buyFits : TradeFits (opening bot).position [SYM_UNDY] .BUY filled.toNat := by
    intro symbol member
    rw [List.mem_singleton.mp member, exactMove, if_pos rfl]
    omega
  obtain ⟨returned, closed⟩ := Allowed.waitForFill_cons bid
    (show OEClient.fillVerdict bot.nextOrderId (.fill bot.nextOrderId filled 1 .CLOSED) = some true
      from if_pos ⟨rfl, rfl⟩)
    (fun desk routed (holds : desk.Holds sells _ (opening bot).position) =>
      holds.fill routed some_ most buyFits 1 .CLOSED) bought.2
  have undyFits : TradeFits (traded (opening bot).position [SYM_UNDY] .BUY filled.toNat) [SYM_UNDY]
      .SELL (redemptionQty snap).toUInt32.toNat := by
    intro symbol member
    rw [List.mem_singleton.mp member, exactMove, if_neg (by decide), traded,
      if_pos List.mem_cons_self, exactMove, if_pos rfl]
    omega
  have alone : ∀ symbol ∈ DORM_IDS, symbol ∉ [SYM_UNDY] := fun symbol dorm own =>
    dorm_ne_undy dorm (List.mem_singleton.mp own)
  have fits : TradeFits (traded (opening bot).position [SYM_UNDY] .BUY filled.toNat) DORM_IDS
      .BUY (redemptionQty snap).toUInt32.toNat := by
    intro symbol dorm
    obtain ⟨low, high⟩ := bounds symbol (List.mem_cons_of_mem _ dorm)
    rw [exactMove, if_pos rfl, traded, if_neg (alone symbol dorm)]
    omega
  have redeemed := @Keeps.redeemAndSell bot snap _ bid sells symbols (redemptionQty snap) _ undyFits
    fits closed
  have passes : ∀ inbox, (new bot inbox).startsRedemption snap = true := fun _ => starts
  rw [tryRedemptionArb, if_neg (not_not.mpr (passes _))]
  dsimp only
  have nextId : (new bot inbox).state.nextOrderId = bot.nextOrderId := rfl
  rw [nextId, if_neg (not_not.mpr bought.1), if_neg (not_not.mpr returned)]
  refine Allowed.weaken redeemed fun desk _ holds => ⟨?_, ?_⟩
  · rw [holds.positions, traded, if_neg elsewhere, traded, if_pos List.mem_cons_self, exactMove,
      if_neg (by decide), traded, if_pos List.mem_cons_self, exactMove, if_pos rfl, whole]
  · intro symbol dorm
    rw [holds.positions, traded, if_pos dorm, exactMove, if_pos rfl, traded,
      if_neg (alone symbol dorm), traded, if_neg (alone symbol dorm), whole]

end Redemption

/-! ### Exactly when the limit is kept -/

section Limit

variable {bot : BotState} {snap : ArbSnapshot}

/-- A creation without room can be filled so that a position leaves the limit. -/
theorem creation_breaches (taken : SnapshotOf bot snap) (within : (opening bot).Within)
    (starts : (new bot []).startsCreation snap = true) (noRoom : ¬ RoomToCreate snap) :
    ∃ (world : World) (inbox : List OeResponse), Allowed bot [] (fun desk => ¬ desk.Within)
      ((new bot inbox).tryCreationArb world 6 snap).1 := by
  rw [RoomToCreate, Classical.not_and_iff_not_or_not, Classical.not_imp, Classical.not_imp]
    at noRoom
  rcases noRoom with ⟨long, beyond⟩ | ⟨⟨data, member, near⟩, beyond⟩
  · refine ⟨_, creation_oversells taken within starts ?_ ?_⟩
    · intro symbol dorm
      obtain ⟨data, member, same⟩ := taken.exists_data dorm
      exact same ▸ Int32.le_iff_toInt_le.mp (long data member)
    · rw [taken.undy_toInt] at beyond
      omega
  · obtain ⟨symbol, dorm, same⟩ := taken.exists_dorm member
    refine ⟨_, creation_overcovers taken within starts dorm ?_ ?_⟩
    · exact same ▸ Int32.le_iff_toInt_le.mp near
    · rw [Int32.le_iff_toInt_le, toInt_POSITION_LIMIT] at beyond
      omega

/-- A redemption without room can be filled so that a position leaves the limit. -/
theorem redemption_breaches (taken : SnapshotOf bot snap) (within : (opening bot).Within)
    (starts : (new bot []).startsRedemption snap = true) (noRoom : ¬ RoomToRedeem snap) :
    ∃ (world : EtfWorld) (inbox : List OeResponse), Allowed bot [] (fun desk => ¬ desk.Within)
      ((new bot inbox).tryRedemptionArb world snap).1 := by
  have positive := Int32.lt_iff_toInt_lt.mp (redemptionQty_pos_of_starts starts)
  have whole := toNat_toUInt32_of_pos (redemptionQty_pos_of_starts starts)
  rw [Int32.toInt_zero] at positive
  by_cases dorms : ∀ dorm ∈ snap.dorms.toList,
      dorm.position.toInt + (redemptionQty snap).toInt ≤ POSITION_LIMIT.toInt
  · -- UNDY is redeemed in whole where one lot of it has been bought.
    have beyond := fun undy => noRoom ⟨dorms, undy⟩
    obtain ⟨inbox, redeemed⟩ := @redemption_redeems bot snap 0 taken within starts 1 (by decide)
      (by change 1 ≤ _; omega)
    refine ⟨_, inbox, Allowed.weaken redeemed fun desk _ final isWithin => ?_⟩
    have low := (isWithin SYM_UNDY List.mem_cons_self).1
    rw [final.1, ← taken.undy_toInt] at low
    exact beyond low
  · -- The dorm for which there is no room, with all of UNDY bought.
    obtain ⟨data, member, beyond⟩ : ∃ data ∈ snap.dorms.toList,
        ¬ data.position.toInt + (redemptionQty snap).toInt ≤ POSITION_LIMIT.toInt := by
      simpa only [not_forall, exists_prop] using dorms
    obtain ⟨symbol, dorm, same⟩ := taken.exists_dorm member
    obtain ⟨inbox, redeemed⟩ := @redemption_redeems bot snap 0 taken within starts
      (redemptionQty snap).toUInt32 (by omega) (Nat.le_refl _)
    refine ⟨_, inbox, Allowed.weaken redeemed fun desk _ final isWithin => ?_⟩
    have high := (isWithin symbol (List.mem_cons_of_mem _ dorm)).2
    rw [final.2 symbol dorm, ← same] at high
    exact beyond high

/-- However the legs fill, with nothing else live, every dorm and UNDY are within the limit at every
point of the run. -/
def StaysWithin (bot : BotState) (run : Run) : Prop :=
  Along Desk.next Fills (opening bot) run.log →
    ∀ earlier, earlier <+: run.log → (earlier.foldl Desk.next (opening bot)).Within

theorem StaysWithin.of_limits {post : Desk → Prop} {run : Run} (limits : Limits bot post run) :
    StaysWithin bot run := by
  intro fills earlier isPrefix
  exact ((limits.assured fills).1 earlier isPrefix).within

theorem Allowed.not_staysWithin {inbox : List OeResponse} {run : Run}
    (allowed : Allowed bot inbox (fun desk => ¬ desk.Within) run) : ¬ StaysWithin bot run := by
  intro stays
  exact allowed.holds (stays allowed.fills run.log List.prefix_rfl)

/-- The arbs keep the limit, whatever the world does and however the legs fill, if and only if the
quantity that is traded leaves room for what the calls do with it. -/
theorem arbs_within_iff (taken : SnapshotOf bot snap) (within : (opening bot).Within) :
    ((∀ world fuel inbox,
        StaysWithin bot ((new bot inbox).tryCreationArb world fuel snap).1) ∧
      ∀ world inbox, StaysWithin bot ((new bot inbox).tryRedemptionArb world snap).1) ↔
      ((new bot []).startsCreation snap = true → RoomToCreate snap) ∧
        ((new bot []).startsRedemption snap = true → RoomToRedeem snap) := by
  constructor
  · rintro ⟨creations, redemptions⟩
    constructor
    · intro starts
      by_contra noRoom
      obtain ⟨world, inbox, breach⟩ := creation_breaches taken within starts noRoom
      exact breach.not_staysWithin (creations world 6 inbox)
    · intro starts
      by_contra noRoom
      obtain ⟨world, inbox, breach⟩ := redemption_breaches taken within starts noRoom
      exact breach.not_staysWithin (redemptions world inbox)
  · rintro ⟨creationRoom, redemptionRoom⟩
    constructor
    · intro world fuel inbox
      exact .of_limits (tryCreationArb_stands world fuel inbox taken within creationRoom)
    · intro world inbox
      exact .of_limits (tryRedemptionArb_stands world inbox taken within redemptionRoom)

/-- From flat positions there is room for two lots. -/
theorem arbs_within_flatBot :
    StaysWithin loggedInBot
      ((new loggedInBot (loggedInBot.legs.map fun leg => .fill leg.1 2 90 .CLOSED)).tryCreationArb
        secondsWorld 3 { cheapDorms with undyBestBidQty := 2 }).1 :=
  ((arbs_within_iff ⟨by decide +kernel, by decide +kernel⟩ (by decide +kernel)).mpr
    ⟨fun _ => by decide +kernel, fun _ => by decide +kernel⟩).1 _ _ _

/-- Five lots of UNDY are held already, and the five lots that `/create` delivers come on top. -/
theorem created_undy_beyond_limit :
    let bot := { loggedInBot with manager := SymbolManager.empty.onFill SYM_UNDY .BUY 5 1000 }
    let snap := { cheapDorms with undyPosition := 5 }
    let fills := (bot.legs.map fun leg => OeResponse.fill leg.1 5 90 .CLOSED) ++
      [.fill 1011 10 100 .CLOSED]
    let tried := (new bot fills).tryCreationArb secondsWorld 3 snap
    SnapshotOf bot snap ∧ (opening bot).Within ∧ creationQty snap = 5 ∧ tried.2 = some true ∧
      Along Desk.next Fills (opening bot) tried.1.log ∧
      ((tried.1.log.take 34).foldl Desk.next (opening bot)).position SYM_UNDY = 10 := by
  refine ⟨⟨by decide +kernel, by decide +kernel⟩, ?_⟩
  decide +kernel

end Limit

end Run

end HftAlgorithms
