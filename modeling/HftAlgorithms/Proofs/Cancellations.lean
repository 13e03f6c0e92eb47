/-
Module: HftAlgorithms.Proofs.Cancellations
Purpose: Cancelling every open order while the sender acknowledges some deletes
  and refuses others.  What is left depends on which deletes are acknowledged,
  not on the order in which the hash map lists its keys.
Trusted boundary: none
Main exports: RiskManager.cancelled, RiskManager.Cancellation,
  RiskManager.cancelAllOpenOrders_cancellation
-/
import Mathlib.Algebra.BigOperators.Group.Finset.Basic
import HftAlgorithms.Proofs.OrderRegistrations
import HftAlgorithms.Proofs.ShutdownLatch

namespace HftAlgorithms

open FiniteMap

namespace ExposureTracker

/-- A removal leaves the other orders working. -/
theorem working_onOrderRemoved {tracker : ExposureTracker} {id other : UInt64}
    (different : other ≠ id) (side : BookSide) :
    (tracker.onOrderRemoved id).working other side = tracker.working other side := by
  simp [working, pendingOrders_onOrderRemoved, different]

/-- Under covering totals a removal takes off what the order has working. -/
theorem toNat_outstanding_add_working {tracker : ExposureTracker} (covers : tracker.Covers)
    (id : UInt64) (side : BookSide) :
    ((tracker.onOrderRemoved id).outstanding side).toNat + tracker.working id side =
      (tracker.outstanding side).toNat := by
  cases found : tracker.pendingOrders.lookup id with
  | none => simp [onOrderRemoved_of_lookup_none found, working, found]
  | some order =>
      have enough := covers.share_le found side
      simp [toNat_outstanding_onOrderRemoved covers found, working, found]
      omega

end ExposureTracker

namespace RiskManager

/-! ### What a cancellation is -/

/-- The open orders whose delete the sender acknowledges. -/
def cancelled (env : CallEnv) (manager : RiskManager) : Finset UInt64 :=
  manager.openOrders.keys.filter fun id => env.answer (.deleteOrder id)

/-- The working quantity of the acknowledged deletes. -/
def cancelledQty (env : CallEnv) (manager : RiskManager) (side : BookSide) : Nat :=
  ∑ id ∈ manager.cancelled env, manager.exposureTracker.working id side

/-- One delete for each open order; the acknowledged ones are gone from both ledgers, with what
they had working, and the rest of the state stands. -/
structure Cancellation (env : CallEnv) (before : RiskManager) (outcome : Outcome) : Prop where
  requests : (outcome.requests : Multiset SenderRequest) =
    before.openOrders.keys.val.map .deleteOrder
  openOrders : ∀ id, outcome.manager.openOrders.lookup id =
    if id ∈ before.cancelled env then none else before.openOrders.lookup id
  pendingOrders : ∀ id, outcome.manager.exposureTracker.pendingOrders.lookup id =
    if id ∈ before.cancelled env then none else before.exposureTracker.pendingOrders.lookup id
  outstanding : ∀ side, outcome.manager.exposureTracker.outstanding side =
    before.exposureTracker.outstanding side - UInt32.ofNat (before.cancelledQty env side)
  /-- Totals that cover what is pending do not underflow. -/
  covered : before.exposureTracker.Covers → ∀ side,
    (outcome.manager.exposureTracker.outstanding side).toNat + before.cancelledQty env side =
      (before.exposureTracker.outstanding side).toNat
  maxExposure : outcome.manager.exposureTracker.maxExposure = before.exposureTracker.maxExposure
  rest : outcome.manager =
    { before with
      openOrders := outcome.manager.openOrders
      exposureTracker := outcome.manager.exposureTracker }

/-! ### The loop -/

section Loop

variable (env : CallEnv) (manager : RiskManager)

/-- What the acknowledged deletes of a list of ids have working. -/
def qtyOf (ids : List UInt64) (side : BookSide) : Nat :=
  ((ids.filter fun id => env.answer (.deleteOrder id)).map
    fun id => manager.exposureTracker.working id side).sum

/-- A delete does not touch what later ids have working. -/
theorem qtyOf_forget {first : UInt64} {ids : List UInt64} (fresh : first ∉ ids)
    (side : BookSide) :
    qtyOf env (manager.forget first) ids side = qtyOf env manager ids side := by
  rw [qtyOf, qtyOf]
  congr 1
  apply List.map_congr_left
  intro id listed
  have different : id ≠ first := by
    rintro rfl
    exact fresh (List.mem_of_mem_filter listed)
  exact ExposureTracker.working_onOrderRemoved different side

theorem outstanding_foldl {ids : List UInt64} (nodup : ids.Nodup) (side : BookSide) :
    (ids.foldl (cancelOne env) manager).exposureTracker.outstanding side =
      manager.exposureTracker.outstanding side - UInt32.ofNat (qtyOf env manager ids side) := by
  induction ids generalizing manager with
  | nil => simp [qtyOf]
  | cons first ids inductionHypothesis =>
      obtain ⟨fresh, nodup⟩ := List.nodup_cons.mp nodup
      rw [List.foldl_cons, inductionHypothesis _ nodup, cancelOne]
      by_cases acknowledged : env.answer (.deleteOrder first)
      · have removed : (manager.forget first).exposureTracker.outstanding side =
            manager.exposureTracker.outstanding side -
              UInt32.ofNat (manager.exposureTracker.working first side) :=
          ExposureTracker.outstanding_onOrderRemoved _ first side
        rw [if_pos acknowledged, qtyOf_forget env manager fresh, removed]
        simp only [qtyOf, List.filter_cons, acknowledged, if_true, List.map_cons, List.sum_cons,
          UInt32.ofNat_add]
        grind
      · rw [if_neg acknowledged]
        simp [qtyOf, acknowledged]

theorem toNat_outstanding_foldl {ids : List UInt64} (nodup : ids.Nodup)
    (covers : manager.exposureTracker.Covers) (side : BookSide) :
    ((ids.foldl (cancelOne env) manager).exposureTracker.outstanding side).toNat +
        qtyOf env manager ids side = (manager.exposureTracker.outstanding side).toNat := by
  induction ids generalizing manager with
  | nil => simp [qtyOf]
  | cons first ids inductionHypothesis =>
      obtain ⟨fresh, nodup⟩ := List.nodup_cons.mp nodup
      rw [List.foldl_cons, cancelOne]
      by_cases acknowledged : env.answer (.deleteOrder first)
      · have later := inductionHypothesis (manager.forget first) nodup
          (ExposureTracker.covers_onOrderRemoved covers first)
        have now : ((manager.forget first).exposureTracker.outstanding side).toNat +
            manager.exposureTracker.working first side =
              (manager.exposureTracker.outstanding side).toNat :=
          ExposureTracker.toNat_outstanding_add_working covers first side
        rw [qtyOf_forget env manager fresh] at later
        rw [if_pos acknowledged]
        simp only [qtyOf, List.filter_cons, acknowledged, if_true, List.map_cons,
          List.sum_cons] at later ⊢
        omega
      · rw [if_neg acknowledged]
        simpa [qtyOf, acknowledged] using inductionHypothesis manager nodup covers

end Loop

/-! ### The copied keys -/

section Keys

variable (env : CallEnv) (manager : RiskManager)

/-- The iteration order lists the open orders. -/
theorem coe_keys : (env.keyOrder.keys manager.openOrders : Multiset UInt64) =
    manager.openOrders.keys.val := by
  apply (Multiset.Nodup.ext (Multiset.coe_nodup.mpr (env.keyOrder.nodup _))
    manager.openOrders.keys.nodup).mpr
  intro id
  simp [env.keyOrder.mem_keys, Finmap.mem_keys, Finmap.lookup_isSome]

theorem mem_cancelled_iff (id : UInt64) :
    id ∈ manager.cancelled env ↔
      id ∈ env.keyOrder.keys manager.openOrders ∧ env.answer (.deleteOrder id) := by
  rw [cancelled, Finset.mem_filter, ← Finset.mem_val, ← coe_keys env, Multiset.mem_coe]

theorem qtyOf_keys (side : BookSide) :
    qtyOf env manager (env.keyOrder.keys manager.openOrders) side =
      manager.cancelledQty env side := by
  have listed : (env.keyOrder.keys manager.openOrders).toFinset.filter
      (fun id => env.answer (.deleteOrder id) = true) = manager.cancelled env := by
    ext id
    simp [mem_cancelled_iff]
  rw [cancelledQty, ← listed, ← List.toFinset_filter, qtyOf,
    List.sum_toFinset _ ((env.keyOrder.nodup _).filter _)]

end Keys

/-- `cancel_all_open_orders`, in any state, under any answers and any iteration order. -/
theorem cancelAllOpenOrders_cancellation (env : CallEnv) (manager : RiskManager) :
    manager.Cancellation env (manager.cancelAllOpenOrders env) where
  requests := by
    rw [← coe_keys env]
    rfl
  openOrders id := by
    simp only [mem_cancelled_iff]
    exact lookup_openOrders_foldl env manager _ id
  pendingOrders id := by
    simp only [mem_cancelled_iff]
    exact lookup_pendingOrders_foldl env manager _ id
  outstanding side := by
    rw [← qtyOf_keys]
    exact outstanding_foldl env manager (env.keyOrder.nodup _) side
  covered covers side := by
    rw [← qtyOf_keys]
    exact toNat_outstanding_foldl env manager (env.keyOrder.nodup _) covers side
  maxExposure :=
    @foldl_cancelOne_eq _ (fun manager => manager.exposureTracker.maxExposure)
      (fun _ id => maxExposure_onOrderRemoved _ id) env manager _
  rest := by
    have others := @foldl_cancelOne_eq _
      (fun manager => { manager with openOrders := ∅, exposureTracker := .new 0 })
      (fun _ _ => rfl) env manager (env.keyOrder.keys manager.openOrders)
    exact congrArg
      (fun blank : RiskManager =>
        { blank with
          openOrders := (manager.cancelAllOpenOrders env).manager.openOrders
          exposureTracker := (manager.cancelAllOpenOrders env).manager.exposureTracker })
      others

end RiskManager

end HftAlgorithms
