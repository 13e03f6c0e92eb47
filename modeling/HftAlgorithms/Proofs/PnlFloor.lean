/-
Module: HftAlgorithms.Proofs.PnlFloor
Purpose: When an order goes out although the PnL is below its floor or the
  position beyond its limit.  A mark update does not evaluate the shutdown
  condition and the pure checks do not read the PnL, so what decides is whether
  anything has evaluated it since the last mark.
Trusted boundary: none
Main exports: RiskManager.ForwardsWithinFloor, RiskManager.MarkedManager,
  RiskManager.forwards_within_floor_iff
-/
import HftAlgorithms.Proofs.ShutdownLatch

namespace HftAlgorithms

open StateMachine

namespace RiskManager

/-- The call hands the sender no order entry while a limit is breached. -/
def ForwardsWithinFloor (limits : RiskLimits) (manager : RiskManager) (call : RiskCall) : Prop :=
  (∃ request ∈ manager.requests call, request.IsOrderEntry) → ¬ Breached limits manager

/-- A manager with a note beside it: the start, or the last mark update, left the shutdown
condition true, and no call has evaluated the condition since. -/
structure MarkedManager where
  manager : RiskManager
  unevaluated : Bool

/-- The note follows the calls: evaluation clears it, a mark update sets it anew. -/
def MarkedManager.next (marked : MarkedManager) (call : RiskCall) : MarkedManager :=
  { manager := marked.manager.next call
    unevaluated :=
      if marked.manager.Settles call then false
      else
        match call.op with
        | .updateMarkPrice price => (marked.manager.updateMarkPrice price).breach
        | _ => marked.unevaluated }

def MarkedManager.new (limits : RiskLimits) (now : Int) : MarkedManager :=
  { manager := .new limits now, unevaluated := (RiskManager.new limits now).breach }

/-- A new order or modify gets past its checks only with the condition evaluated since the last
mark update that made it true, and not at the least signed position. -/
def EntersEvaluated (marked : MarkedManager) (call : RiskCall) : Prop :=
  marked.manager.forwarded call ≠ [] →
    marked.unevaluated = false ∧ marked.manager.getPosition ≠ Int32.minValue

/-! ### Which calls forward an order -/

theorem isOrderEntry_of_mem_forwarded {manager : RiskManager} {call : RiskCall}
    {request : SenderRequest} (member : request ∈ manager.forwarded call) :
    request.IsOrderEntry := by
  rw [forwarded] at member
  split at member
  · split at member
    · rw [List.mem_singleton.mp member]
      trivial
    · cases member
  · split at member
    · rw [List.mem_singleton.mp member]
      trivial
    · cases member
  · cases member

theorem forwarded_of_not_settles {manager : RiskManager} {call : RiskCall}
    (unsettled : ¬ manager.Settles call) : manager.forwarded call = [] := by
  obtain ⟨op, env⟩ := call
  cases op with
  | sendNewOrder id symbol side qty price =>
      simp only [forwarded]
      exact if_neg fun admitted => unsettled (Or.inl admitted)
  | modifyOrder id side qty price =>
      simp only [forwarded]
      exact if_neg fun admitted => unsettled (Or.inl admitted)
  | _ => rfl

/-- A call that settles sends what it forwards, followed by what the shutdown cancels. -/
theorem forwarded_subset_requests {manager : RiskManager} {call : RiskCall}
    (settles : manager.Settles call) : manager.forwarded call ⊆ manager.requests call := by
  rw [requests, perform_of_settles settles, settle]
  exact List.subset_append_left _ _

/-- The cancellation that may follow sends only deletes. -/
theorem mem_requests_settle {manager : RiskManager} {env : CallEnv} {sent : List SenderRequest}
    {request : SenderRequest} (member : request ∈ (manager.settle env sent).requests) :
    request ∈ sent ∨ ¬ request.IsOrderEntry := by
  rcases List.mem_append.mp member with early | late
  · exact Or.inl early
  · right
    rw [checkAndShutdownIfNeeded] at late
    split at late
    · cases late
    split at late
    · cases late
    · obtain ⟨id, -, rfl⟩ := List.mem_map.mp late
      exact fun entry => entry

/-- Order entry reaches the sender exactly when the call forwards some. -/
theorem exists_orderEntry_iff (manager : RiskManager) (call : RiskCall) :
    (∃ request ∈ manager.requests call, request.IsOrderEntry) ↔ manager.forwarded call ≠ [] := by
  by_cases settles : manager.Settles call
  · constructor
    · rintro ⟨request, member, entry⟩ nothing
      rw [requests, perform_of_settles settles] at member
      rcases mem_requests_settle member with early | delete
      · rw [nothing] at early
        cases early
      · exact delete entry
    · intro some_forwarded
      obtain ⟨request, member⟩ := List.exists_mem_of_ne_nil _ some_forwarded
      exact ⟨request, forwarded_subset_requests settles member,
        isOrderEntry_of_mem_forwarded member⟩
  · rw [forwarded_of_not_settles settles]
    constructor
    · rintro ⟨request, member, entry⟩
      exact absurd entry ((leavesUnchecked_of_not_settles settles).deletes request member)
    · intro impossible
      exact absurd rfl impossible

/-! ### The note is right -/

/-- Between calls the note of a running manager says whether the condition is true now. -/
structure Noted (limits : RiskLimits) (marked : MarkedManager) : Prop where
  configured : Configured limits marked.manager
  idle : marked.manager.inShutdown = false
  note : marked.manager.isShutdown = false → marked.unevaluated = marked.manager.breach

theorem noted_new (limits : RiskLimits) (now : Int) : Noted limits (.new limits now) :=
  ⟨configured_new limits now, rfl, fun _ => rfl⟩

theorem noted_next {limits : RiskLimits} {marked : MarkedManager} (noted : Noted limits marked)
    (call : RiskCall) : Noted limits (marked.next call) := by
  refine ⟨configured_next noted.configured call, inShutdown_next noted.idle call, ?_⟩
  intro running
  have before : marked.manager.isShutdown = false := running_of_next running
  by_cases settles : marked.manager.Settles call
  · -- the check has just run, and a manager with a breach would be down
    simp only [MarkedManager.next, if_pos settles]
    rw [breach_congr (evaluated_next_of_settles settles)]
    cases breach : (marked.manager.checkedState call).breach with
    | false => rfl
    | true =>
        have down := isShutdown_of_breach noted.idle settles breach
        rw [MarkedManager.next] at running
        rw [down] at running
        cases running
  · have unchecked := leavesUnchecked_of_not_settles settles
    simp only [MarkedManager.next, if_neg settles]
    split
    · rename_i price op
      have after : marked.manager.next call = marked.manager.updateMarkPrice price := by
        rw [RiskManager.next, perform, op]
      rw [after]
    · rename_i notMark
      rw [breach_congr (unchecked.evaluated notMark)]
      exact noted.note before

/-- Where the note is right, a call respects the floor exactly when it enters evaluated. -/
theorem forwardsWithinFloor_iff {limits : RiskLimits} {marked : MarkedManager}
    (noted : Noted limits marked) (call : RiskCall) :
    ForwardsWithinFloor limits marked.manager call ↔ EntersEvaluated marked call := by
  rw [ForwardsWithinFloor, exists_orderEntry_iff, EntersEvaluated]
  apply imp_congr_right
  intro forwards
  have running : marked.manager.isShutdown = false := by
    cases down : marked.manager.isShutdown with
    | false => rfl
    | true => exact absurd (forwarded_of_shutdown down call) forwards
  rw [noted.note running]
  by_cases least : marked.manager.getPosition = Int32.minValue
  · have breached := (breach_least noted.configured least).1
    constructor
    · intro within
      exact absurd breached within
    · rintro ⟨-, notLeast⟩
      exact absurd least notLeast
  · rw [← breach_iff noted.configured least, Bool.not_eq_true]
    exact ⟨fun calm => ⟨calm, least⟩, fun both => both.1⟩

/-! ### Runs -/

/-- A run respects the PnL floor and the position limit exactly when no new order or modify gets
past its checks between a mark update, or a start, that leaves the shutdown condition true and
the next evaluation of the condition, and none at the least signed position. -/
theorem forwards_within_floor_iff (limits : RiskLimits) (now : Int) (calls : List RiskCall) :
    Along next (ForwardsWithinFloor limits) (new limits now) calls ↔
      Along MarkedManager.next EntersEvaluated (.new limits now) calls := by
  have projects : Along MarkedManager.next
      (fun marked call => ForwardsWithinFloor limits marked.manager call) (.new limits now) calls ↔
      Along next (ForwardsWithinFloor limits) (new limits now) calls :=
    along_project (fun _ _ => rfl) _ calls
  have step : ∀ (marked : MarkedManager) (call : RiskCall), Noted limits marked →
      Noted limits (marked.next call) := fun _ call noted => noted_next noted call
  rw [← projects]
  apply along_congr_of_invariant (fun marked call noted _ => step marked call noted) _
    (noted_new limits now) calls
  intro marked call noted
  exact forwardsWithinFloor_iff noted call

/-- A position bought at 200 is marked down to 1, and another order is sent. -/
def sendBelowFloor : List RiskCall :=
  [acknowledged (.updateMarkPrice 200), acknowledged (.sendNewOrder 1 3 .BUY 100 200),
   acknowledged (.onFill 1 100 200 true), acknowledged (.updateMarkPrice 1),
   acknowledged (.sendNewOrder 2 3 .BUY 10 1)]

/-- The last order goes out at a total PnL of -19900 with a floor of -10000. -/
theorem sendBelowFloor_forwards :
    ¬ Along next (ForwardsWithinFloor RiskLimits.default) (new RiskLimits.default 0)
      sendBelowFloor := by
  intro within
  have below : Breached RiskLimits.default
      ((sendBelowFloor.take 4).foldl next (new RiskLimits.default 0)) := by
    left
    decide +kernel
  have sent : SenderRequest.newOrder 2 3 .BUY 10 1 ∈ requests
      ((sendBelowFloor.take 4).foldl next (new RiskLimits.default 0))
      (acknowledged (.sendNewOrder 2 3 .BUY 10 1)) := by
    decide +kernel
  exact within.2.2.2.2.1 ⟨_, sent, trivial⟩ below

end RiskManager

end HftAlgorithms
