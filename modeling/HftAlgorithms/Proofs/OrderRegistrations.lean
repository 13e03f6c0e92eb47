/-
Module: HftAlgorithms.Proofs.OrderRegistrations
Purpose: When the exposure tracker works exactly the open orders.  The manager
  forgets an open order when a fill is flagged as closing, the tracker when
  nothing is left of it: the two part ways at a closing fill that leaves a rest.
Trusted boundary: none
Main exports: ExposureTracker.Tallies, RiskManager.OnlyOpenOrdersWork,
  RiskManager.ClosingFillTakesAll, RiskManager.only_open_orders_work_iff
-/
import HftAlgorithms.Lib.StateMachine
import HftAlgorithms.Proofs.WorkingLimits

namespace HftAlgorithms

open FiniteMap StateMachine

namespace ExposureTracker

/-! ### Totals as sums

No bound is needed here: the totals are words, and they are sums of words. -/

/-- Each total is the sum of what is pending on its side, as a word. -/
def Tallies (tracker : ExposureTracker) : Prop :=
  ∀ side, tracker.outstanding side = UInt32.ofNat (tracker.pendingQty side)

theorem tallies_new (maxExposure : UInt32) : (new maxExposure).Tallies := by
  intro side
  cases side <;> rfl

/-- What is pending besides one order. -/
def otherQty (tracker : ExposureTracker) (id : UInt64) (side : BookSide) : Nat :=
  sumBy (fun _ other => other.side.share side other.qty.toNat) (tracker.pendingOrders.erase id)

/-- The totals once one order is taken out of them. -/
theorem Tallies.outstanding_of_lookup {tracker : ExposureTracker} (tallies : tracker.Tallies)
    {id : UInt64} {order : PendingOrder}
    (found : tracker.pendingOrders.lookup id = some order) (side : BookSide) :
    tracker.outstanding side =
      UInt32.ofNat (order.side.share side order.qty.toNat) +
        UInt32.ofNat (tracker.otherQty id side) := by
  rw [tallies side, pendingQty_of_lookup found, UInt32.ofNat_add, otherQty]

/-- One word moves the total of its own side. -/
theorem outstanding_setOutstanding_sub (tracker : ExposureTracker) (orderSide : Side)
    (qty : UInt32) (side : BookSide) :
    (tracker.setOutstanding orderSide.bookSide
        (tracker.outstanding orderSide.bookSide - qty)).outstanding side =
      tracker.outstanding side - UInt32.ofNat (orderSide.share side qty.toNat) := by
  rw [outstanding_setOutstanding, Side.share]
  by_cases same : orderSide.bookSide = side
  · subst side
    rw [if_pos rfl, if_pos rfl, UInt32.ofNat_toNat]
  · rw [if_neg (Ne.symm same), if_neg same]
    simp

theorem outstanding_setOutstanding_add (tracker : ExposureTracker) (orderSide : Side)
    (qty : UInt32) (side : BookSide) :
    (tracker.setOutstanding orderSide.bookSide
        (tracker.outstanding orderSide.bookSide + qty)).outstanding side =
      tracker.outstanding side + UInt32.ofNat (orderSide.share side qty.toNat) := by
  rw [outstanding_setOutstanding, Side.share]
  by_cases same : orderSide.bookSide = side
  · subst side
    rw [if_pos rfl, if_pos rfl, UInt32.ofNat_toNat]
  · rw [if_neg (Ne.symm same), if_neg same]
    simp

theorem outstanding_onOrderSent (tracker : ExposureTracker) (id : UInt64) (orderSide : Side)
    (qty : UInt32) (price : Int32) (side : BookSide) :
    (tracker.onOrderSent id orderSide qty price).outstanding side =
      tracker.outstanding side + UInt32.ofNat (orderSide.share side qty.toNat) := by
  rw [← outstanding_setOutstanding_add]
  exact outstanding_congr rfl rfl side

theorem tallies_onOrderSent {tracker : ExposureTracker} (tallies : tracker.Tallies) {id : UInt64}
    (absent : tracker.pendingOrders.lookup id = none) (orderSide : Side) (qty : UInt32)
    (price : Int32) : (tracker.onOrderSent id orderSide qty price).Tallies := by
  intro side
  have pending : (tracker.onOrderSent id orderSide qty price).pendingQty side =
      orderSide.share side qty.toNat + tracker.pendingQty side :=
    sumBy_insert_of_lookup_none _ _ absent
  rw [outstanding_onOrderSent, pending, tallies side, UInt32.ofNat_add, UInt32.add_comm]

/-- The quantity that one order has working on a side. -/
def working (tracker : ExposureTracker) (id : UInt64) (side : BookSide) : Nat :=
  ((tracker.pendingOrders.lookup id).map fun order => order.side.share side order.qty.toNat).getD 0

theorem outstanding_onOrderRemoved (tracker : ExposureTracker) (id : UInt64) (side : BookSide) :
    (tracker.onOrderRemoved id).outstanding side =
      tracker.outstanding side - UInt32.ofNat (tracker.working id side) := by
  cases found : tracker.pendingOrders.lookup id with
  | none => simp [onOrderRemoved_of_lookup_none found, working, found]
  | some order =>
      have share : tracker.working id side = order.side.share side order.qty.toNat := by
        simp [working, found]
      rw [share, ← outstanding_setOutstanding_sub, onOrderRemoved, found]
      exact outstanding_congr rfl rfl side

theorem tallies_onOrderRemoved {tracker : ExposureTracker} (tallies : tracker.Tallies)
    (id : UInt64) : (tracker.onOrderRemoved id).Tallies := by
  cases found : tracker.pendingOrders.lookup id with
  | none =>
      rw [onOrderRemoved_of_lookup_none found]
      exact tallies
  | some order =>
      intro side
      have share : tracker.working id side = order.side.share side order.qty.toNat := by
        simp [working, found]
      rw [outstanding_onOrderRemoved, share, pendingQty, pendingOrders_onOrderRemoved,
        tallies.outstanding_of_lookup found, otherQty]
      grind

/-- A fill takes its quantity off the order and off the total, wrapping or not. -/
theorem tallies_onFill {tracker : ExposureTracker} (tallies : tracker.Tallies) (id : UInt64)
    (qty : UInt32) : (tracker.onFill id qty).Tallies := by
  cases found : tracker.pendingOrders.lookup id with
  | none =>
      rw [onFill_of_lookup_none found]
      exact tallies
  | some order =>
      intro side
      have total : (tracker.onFill id qty).outstanding side =
          tracker.outstanding side - UInt32.ofNat (order.side.share side qty.toNat) := by
        rw [← outstanding_setOutstanding_sub, onFill, found]
        exact outstanding_congr rfl rfl side
      have pending : (tracker.onFill id qty).pendingQty side =
          order.side.share side (order.qty - qty).toNat + tracker.otherQty id side := by
        rw [pendingQty, onFill, found]
        by_cases finished : order.qty - qty = 0
        · simp only [finished, if_true, Side.share, UInt32.toNat_zero, ite_self, Nat.zero_add,
            otherQty]
        · simp only [finished, if_false, sumBy_insert, otherQty]
      rw [total, pending, tallies.outstanding_of_lookup found, UInt32.ofNat_add, Side.share,
        Side.share, Side.share]
      split
      · rw [UInt32.ofNat_toNat, UInt32.ofNat_toNat, UInt32.ofNat_toNat]
        grind
      · grind

end ExposureTracker

namespace RiskManager

/-! ### What is claimed of every state -/

/-- What the open orders contribute to the working quantity of one side. -/
def openQty (manager : RiskManager) (side : BookSide) : Nat :=
  sumBy
    (fun id order =>
      if (manager.openOrders.lookup id).isSome then order.side.share side order.qty.toNat else 0)
    manager.exposureTracker.pendingOrders

/-- What works is open: an order with something left in the tracker is open on the same side,
and nothing but the open orders is in the totals. -/
structure OnlyOpenOrdersWork (manager : RiskManager) : Prop where
  registered : ∀ id order, manager.exposureTracker.pendingOrders.lookup id = some order →
    0 < order.qty → ∃ info, manager.openOrders.lookup id = some info ∧ info.side = order.side
  outstanding : ∀ side,
    manager.exposureTracker.outstanding side = UInt32.ofNat (manager.openQty side)

/-- A closing fill of an open order takes everything the tracker still holds of it. -/
def ClosingFillTakesAll (manager : RiskManager) (call : RiskCall) : Prop :=
  ∀ id qty price order, call.op = .onFill id qty price true →
    (manager.openOrders.lookup id).isSome →
    manager.exposureTracker.pendingOrders.lookup id = some order → qty = order.qty

/-- The closed flag is set on every fill that takes the rest of an open order. -/
def FullFillsClosed (manager : RiskManager) (call : RiskCall) : Prop :=
  ∀ id qty price closed info, call.op = .onFill id qty price closed →
    manager.openOrders.lookup id = some info →
    qty.toNat = manager.exposureTracker.remaining id → closed = true

/-! ### The invariant -/

/-- Whatever the tracker holds is open on the same side, and the totals are the sums of it. -/
structure Registered (manager : RiskManager) : Prop where
  tallies : manager.exposureTracker.Tallies
  isOpen : ∀ id order, manager.exposureTracker.pendingOrders.lookup id = some order →
    ∃ info, manager.openOrders.lookup id = some info ∧ info.side = order.side

theorem registered_new (limits : RiskLimits) (now : Int) : Registered (new limits now) := by
  refine ⟨ExposureTracker.tallies_new _, ?_⟩
  intro id order pending
  cases pending

theorem Registered.onlyOpenOrdersWork {manager : RiskManager} (registered : manager.Registered) :
    manager.OnlyOpenOrdersWork := by
  refine ⟨fun id order pending _ => registered.isOpen id order pending, ?_⟩
  intro side
  rw [registered.tallies side, ExposureTracker.pendingQty, openQty]
  congr 1
  apply sumBy_congr
  intro id order pending
  obtain ⟨info, found, -⟩ := registered.isOpen id order pending
  rw [found]
  rfl

/-! ### Steps -/

theorem Registered.forget {manager : RiskManager} (registered : manager.Registered)
    (id : UInt64) : (manager.forget id).Registered := by
  refine ⟨ExposureTracker.tallies_onOrderRemoved registered.tallies id, ?_⟩
  intro other order pending
  simp only [RiskManager.forget, unregister, ExposureTracker.pendingOrders_onOrderRemoved,
    lookup_erase_eq] at pending ⊢
  split at pending
  · cases pending
  · rename_i different
    rw [if_neg different]
    exact registered.isOpen other order pending

theorem keeps_registered : Keeps Registered where
  counters _ _ _ _ _ _ _ _ registered := ⟨registered.tallies, registered.isOpen⟩
  forget _ id registered := registered.forget id
  mark _ _ registered := ⟨registered.tallies, registered.isOpen⟩

/-- A registration of an order that the tracker does not hold. -/
theorem Registered.register {manager : RiskManager} (tallies : manager.exposureTracker.Tallies)
    {id : UInt64} (absent : manager.exposureTracker.pendingOrders.lookup id = none)
    (others : ∀ other order, other ≠ id →
      manager.exposureTracker.pendingOrders.lookup other = some order →
      ∃ info, manager.openOrders.lookup other = some info ∧ info.side = order.side)
    (info : OpenOrderInfo) : (manager.register id info).Registered := by
  refine ⟨ExposureTracker.tallies_onOrderSent tallies absent _ _ _, ?_⟩
  intro other order pending
  simp only [RiskManager.register, ExposureTracker.onOrderSent, lookup_insert_eq] at pending ⊢
  split at pending
  · cases pending
    rename_i same
    rw [if_pos same]
    exact ⟨info, rfl, rfl⟩
  · rename_i different
    rw [if_neg different]
    exact others other order different pending

/-- An order that is not open is not in the tracker. -/
theorem Registered.lookup_none {manager : RiskManager} (registered : manager.Registered)
    {id : UInt64} (unopened : manager.openOrders.lookup id = none) :
    manager.exposureTracker.pendingOrders.lookup id = none := by
  cases pending : manager.exposureTracker.pendingOrders.lookup id with
  | none => rfl
  | some order =>
      obtain ⟨info, found, -⟩ := registered.isOpen id order pending
      rw [unopened] at found
      cases found

theorem Registered.replace {manager : RiskManager} (registered : manager.Registered)
    (id : UInt64) (info : OpenOrderInfo) : (manager.replace id info).Registered := by
  apply Registered.register (ExposureTracker.tallies_onOrderRemoved registered.tallies id)
  · simp only [unregister, ExposureTracker.pendingOrders_onOrderRemoved, lookup_erase_eq, if_true]
  · intro other order _ pending
    simp only [unregister, ExposureTracker.pendingOrders_onOrderRemoved] at pending
    exact registered.isOpen other order (lookup_of_lookup_erase pending)

/-- A fill keeps the agreement when a closing one leaves nothing. -/
theorem Registered.afterFill {manager : RiskManager} (registered : manager.Registered)
    {id : UInt64} {qty : UInt32} {closed : Bool}
    (takesAll : closed = true → ∀ order,
      manager.exposureTracker.pendingOrders.lookup id = some order → qty = order.qty)
    (side : Side) (price : Int32) :
    (manager.afterFill id side qty price closed).Registered := by
  refine ⟨ExposureTracker.tallies_onFill registered.tallies id qty, ?_⟩
  intro other order pending
  simp only [RiskManager.afterFill] at pending ⊢
  have survives : ∃ before, manager.exposureTracker.pendingOrders.lookup other = some before ∧
      before.side = order.side ∧ (other = id → before.qty - qty ≠ 0) := by
    cases held : manager.exposureTracker.pendingOrders.lookup id with
    | none =>
        rw [ExposureTracker.onFill_of_lookup_none held] at pending
        refine ⟨order, pending, rfl, ?_⟩
        intro same
        rw [same, held] at pending
        cases pending
    | some before =>
        rw [ExposureTracker.lookup_onFill held] at pending
        split at pending
        · rename_i same
          split at pending
          · cases pending
          · rename_i rest
            cases pending
            exact ⟨before, same ▸ held, rfl, fun _ => rest⟩
        · rename_i different
          exact ⟨order, pending, rfl, fun same => absurd same different⟩
  obtain ⟨before, held, side, rest⟩ := survives
  obtain ⟨info, found, sameSide⟩ := registered.isOpen other before held
  refine ⟨info, ?_, sameSide.trans side⟩
  cases closed with
  | false => exact found
  | true =>
      rw [if_pos rfl, lookup_erase_eq]
      split
      · -- the closing fill took all, so the tracker would not hold the order any more
        rename_i same
        subst other
        have all := takesAll rfl before held
        rw [all, UInt32.sub_self] at rest
        exact absurd rfl (rest rfl)
      · exact found

theorem registered_next {manager : RiskManager} {call : RiskCall}
    (registered : manager.Registered) (takesAll : manager.ClosingFillTakesAll call) :
    (manager.next call).Registered := by
  apply keeps_registered.next _ _ _ registered
  · intro id info registers
    obtain ⟨-, -, -, -, unopened⟩ := checkNewOrder_OK registers.check
    apply Registered.register registered.tallies (registered.lookup_none unopened)
    intro other order _ pending
    exact registered.isOpen other order pending
  · intro id existing replacement _
    exact registered.replace id replacement
  · intro id qty price closed info op found
    apply registered.afterFill
    intro closes order pending
    subst closed
    exact takesAll id qty price order op (by rw [found]; rfl) pending

/-! ### What a closing fill leaves behind -/

/-- What the deletes of a loop leave in a map that each acknowledged one erases its id from. -/
theorem lookup_foldl_cancelOne {ν : Type*} {read : RiskManager → FiniteMap UInt64 ν}
    (erases : ∀ manager id, read (manager.forget id) = (read manager).erase id) (env : CallEnv)
    (manager : RiskManager) (ids : List UInt64) (id : UInt64) :
    (read (ids.foldl (cancelOne env) manager)).lookup id =
      if id ∈ ids ∧ env.answer (.deleteOrder id) then none else (read manager).lookup id := by
  induction ids generalizing manager with
  | nil => simp
  | cons first ids inductionHypothesis =>
      rw [List.foldl_cons, inductionHypothesis, cancelOne]
      by_cases same : id = first
      · subst same
        by_cases acknowledged : env.answer (.deleteOrder id) = true
        · simp [acknowledged, erases]
        · simp [acknowledged]
      · by_cases acknowledged : env.answer (.deleteOrder first) = true
        · simp [acknowledged, erases, same]
        · simp [acknowledged, same]

theorem lookup_pendingOrders_foldl (env : CallEnv) (manager : RiskManager) (ids : List UInt64)
    (id : UInt64) :
    (ids.foldl (cancelOne env) manager).exposureTracker.pendingOrders.lookup id =
      if id ∈ ids ∧ env.answer (.deleteOrder id) then none
      else manager.exposureTracker.pendingOrders.lookup id :=
  @lookup_foldl_cancelOne _ (fun manager => manager.exposureTracker.pendingOrders)
    (fun _ id => ExposureTracker.pendingOrders_onOrderRemoved _ id) env manager ids id

theorem lookup_openOrders_foldl (env : CallEnv) (manager : RiskManager) (ids : List UInt64)
    (id : UInt64) :
    (ids.foldl (cancelOne env) manager).openOrders.lookup id =
      if id ∈ ids ∧ env.answer (.deleteOrder id) then none else manager.openOrders.lookup id :=
  @lookup_foldl_cancelOne _ RiskManager.openOrders (fun _ _ => rfl) env manager ids id

/-- The shutdown deletes open orders only. -/
theorem lookup_settle_of_unopened (manager : RiskManager) (env : CallEnv)
    (sent : List SenderRequest) {id : UInt64} (unopened : manager.openOrders.lookup id = none) :
    (manager.settle env sent).manager.exposureTracker.pendingOrders.lookup id =
        manager.exposureTracker.pendingOrders.lookup id ∧
      (manager.settle env sent).manager.openOrders.lookup id = none := by
  rw [settle, checkAndShutdownIfNeeded]
  split
  · exact ⟨rfl, unopened⟩
  split
  · exact ⟨rfl, unopened⟩
  have other : id ∉ env.keyOrder.keys manager.openOrders := by
    rw [env.keyOrder.mem_keys, unopened]
    exact Bool.false_ne_true
  constructor
  · apply (lookup_pendingOrders_foldl env _ _ id).trans
    simp [other]
  · apply (lookup_openOrders_foldl env _ _ id).trans
    simp [other, unopened]

/-- A closing fill that leaves a rest in the tracker breaks the agreement at once. -/
theorem closingFillTakesAll_of_next {manager : RiskManager} {call : RiskCall}
    (agree : (manager.next call).OnlyOpenOrdersWork) : manager.ClosingFillTakesAll call := by
  intro id qty price order op opened held
  obtain ⟨info, found⟩ := Option.isSome_iff_exists.mp opened
  obtain ⟨_, env⟩ := call
  subst op
  by_contra less
  have rest : order.qty - qty ≠ 0 := by grind
  have unopened : (manager.afterFill id info.side qty price true).openOrders.lookup id = none := by
    simp [afterFill]
  obtain ⟨pending, gone⟩ := lookup_settle_of_unopened _ env [] unopened
  have step : manager.next ⟨.onFill id qty price true, env⟩ =
      ((manager.afterFill id info.side qty price true).settle env []).manager := by
    simp only [next, perform, onFill, found]
  have left : (manager.next ⟨.onFill id qty price true, env⟩).exposureTracker.pendingOrders.lookup
      id = some { order with qty := order.qty - qty } := by
    rw [step, pending]
    simp only [afterFill, ExposureTracker.lookup_onFill held, if_true, if_neg rest]
  obtain ⟨stored, stillOpen, -⟩ :=
    agree.registered id _ left (UInt32.pos_iff_ne_zero.mpr rest)
  rw [step, gone] at stillOpen
  cases stillOpen

/-- In every state of a run the open orders are exactly what works, if and only if every closing
fill of an open order takes everything the tracker still holds of it. -/
theorem only_open_orders_work_iff (limits : RiskLimits) (now : Int) (calls : List RiskCall) :
    (∀ earlier, earlier <+: calls →
        OnlyOpenOrdersWork (earlier.foldl next (new limits now))) ↔
      Along next ClosingFillTakesAll (new limits now) calls :=
  everywhere_iff_along (fun _ registered => registered.onlyOpenOrdersWork)
    (fun _ _ registered takesAll => registered_next registered takesAll)
    (fun _ _ _ agree => closingFillTakesAll_of_next agree) (registered_new limits now) calls

/-- A buy of 100 is closed by a fill of 40: the exchange cancels the rest. -/
def closedWithRest : List RiskCall :=
  [acknowledged (.sendNewOrder 1 3 .BUY 100 50), acknowledged (.onFill 1 40 50 true)]

/-- The order is not open any more, and 60 of it still work, until an `on_close`, `on_reject` or
`delete_order` for its id takes them out. -/
theorem closedWithRest_keeps_working :
    Along next FillsWithinRemaining (new .default 0) closedWithRest ∧
      Along next FullFillsClosed (new .default 0) closedWithRest ∧
      ¬ OnlyOpenOrdersWork (closedWithRest.foldl next (new .default 0)) := by
  refine ⟨⟨?_, ?_, trivial⟩, ⟨?_, ?_, trivial⟩, ?_⟩
  · rintro id qty price closed info ⟨⟩
  · rintro id qty price closed info ⟨⟩ found
    decide +kernel
  · rintro id qty price closed info ⟨⟩
  · rintro id qty price closed info ⟨⟩ found
    decide +kernel
  · intro agree
    exact absurd (agree.outstanding .bid) (by decide +kernel)

end RiskManager

end HftAlgorithms
