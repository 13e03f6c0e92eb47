/-
Module: HftAlgorithms.Proofs.RunLogic
Purpose: The logic in which the helpers of the source are run under an assumption
  on what the exchange does: what is recorded of a run is safe on the way and
  satisfies the postcondition at its end.
Trusted boundary: none
Main exports: Run.Stands, Run.Stands.act, Run.Stands.of_absurd,
  Run.Stands.waitForResponse, Run.Stands.collect, Run.Stands.waitForFill,
  Run.Stands.waitForFill_true, Run.Stands.startArb, Run.Stands.fireEach,
  Run.Stands.bookEach
-/
import HftAlgorithms.Arb.Redemption
import HftAlgorithms.Lib.Assured
import HftAlgorithms.Proofs.BotRuns

namespace HftAlgorithms

open StateMachine

/-!
What the source does is a run; what the exchange may do is an assumption on the
log of that run.  The log is read by a machine of the proof's own choice, which
keeps the bot and whatever the proof wants to know beside it.
-/

namespace Run

theorem redemptionQty_pos_of_starts {run : Run} {snap : ArbSnapshot}
    (starts : run.startsRedemption snap = true) : redemptionQty snap > 0 := by
  rw [startsRedemption, decide_eq_true_iff] at starts
  exact starts.2.2.2

/-- The machine follows the bot, the run keeps its state as the log says, and if the log meets the
assumption, every record on the way is safe and the last one satisfies `post`. -/
structure Stands {σ : Type*} (next : σ → BotAction → σ) (bot : σ → BotState) (start : σ)
    (assumed : σ → BotAction → Prop) (safe post : σ → Prop) (run : Run) : Prop where
  follows : ∀ state action, bot (next state action) = (bot state).act action
  state : bot (run.log.foldl next start) = run.state
  assured : Assured next assumed safe start run.log post

namespace Stands

variable {σ : Type*} {next : σ → BotAction → σ} {bot : σ → BotState} {start : σ}
  {assumed : σ → BotAction → Prop} {safe pre post keep : σ → Prop} {run : Run}

theorem new {inbox : List OeResponse}
    (follows : ∀ state action, bot (next state action) = (bot state).act action)
    (isSafe : safe start) (holds : post start) :
    Stands next bot start assumed safe post (new (bot start) inbox) where
  follows := follows
  state := rfl
  assured := assured_nil isSafe holds

theorem of_eq {later : Run} (stands : Stands next bot start assumed safe post run)
    (state : later.state = run.state) (log : later.log = run.log) :
    Stands next bot start assumed safe post later where
  follows := stands.follows
  state := by rw [log, state, stands.state]
  assured := by
    rw [log]
    exact stands.assured

theorem weaken (stands : Stands next bot start assumed safe pre run)
    (implies : ∀ state, bot state = run.state → pre state → safe state → post state) :
    Stands next bot start assumed safe post run where
  follows := stands.follows
  state := stands.state
  assured := stands.assured.weaken (implies _ stands.state)

theorem act {action : BotAction} (stands : Stands next bot start assumed safe pre run)
    (step : ∀ state, bot state = run.state → pre state → safe state → assumed state action →
      safe (next state action) ∧ post (next state action)) :
    Stands next bot start assumed safe post (run.act action) where
  follows := stands.follows
  state := by
    change bot ((run.log ++ [action]).foldl next start) = run.state.act action
    rw [List.foldl_concat, stands.follows, stands.state]
  assured := stands.assured.snoc (step _ stands.state)

/-- Where the assumption has failed, it has failed for whatever follows. -/
theorem of_absurd {later : Run} {allowed : BotState → BotAction → Prop}
    (stands : Stands next bot start assumed safe (fun _ => False) run)
    (reached : Extends allowed run later) :
    Stands next bot start assumed safe post later := by
  obtain ⟨added, grown, final, -⟩ := reached
  have bots : ∀ (actions : List BotAction) (state : σ),
      bot (actions.foldl next state) = actions.foldl BotState.act (bot state) := by
    intro actions
    induction actions with
    | nil => exact fun _ => rfl
    | cons action actions inductionHypothesis =>
        intro state
        rw [List.foldl_cons, List.foldl_cons, inductionHypothesis, stands.follows]
  refine ⟨stands.follows, ?_, ?_⟩
  · rw [grown, List.foldl_append, bots, stands.state, final]
  · intro holds
    rw [grown] at holds
    exact absurd (stands.assured ((along_append _ _ _).mp holds).1).2 id

/-! ### Waits -/

/-- What every response keeps, every wait keeps. -/
def KeptByReceive (next : σ → BotAction → σ) (assumed : σ → BotAction → Prop)
    (safe keep : σ → Prop) : Prop :=
  ∀ (state : σ) (response : OeResponse), keep state → safe state →
    assumed state (.receive response) →
    safe (next state (.receive response)) ∧ keep (next state (.receive response))

section Waits

variable (world : World) (kept : KeptByReceive next assumed safe keep)

include kept

theorem foldl_receive (responses : List OeResponse) {run : Run}
    (stands : Stands next bot start assumed safe keep run) :
    Stands next bot start assumed safe keep
      (responses.foldl (fun run response => run.act (.receive response)) run) := by
  induction responses generalizing run with
  | nil => exact stands
  | cons response responses inductionHypothesis =>
      exact inductionHypothesis (stands.act fun state _ => kept state response)

theorem waitForResponse (id : UInt64) (stands : Stands next bot start assumed safe keep run) :
    Stands next bot start assumed safe keep (run.waitForResponse world id).1 :=
  foldl_receive kept _ (stands.of_eq rfl rfl)

theorem collect (ids : List UInt64) {run : Run}
    (stands : Stands next bot start assumed safe keep run) :
    Stands next bot start assumed safe keep (run.collect world ids).1 := by
  induction ids generalizing run with
  | nil => exact stands
  | cons id ids inductionHypothesis =>
      exact inductionHypothesis (waitForResponse world kept id stands)

theorem waitForFill (id : UInt64) (stands : Stands next bot start assumed safe keep run) :
    Stands next bot start assumed safe keep (run.waitForFill world id).1 :=
  foldl_receive kept _ (stands.of_eq rfl rfl)

/-- A `wait_for_fill` that returns true has read the closing fill last. -/
theorem waitForFill_true {id : UInt64}
    (closes : ∀ state filled price, keep state → safe state →
      assumed state (.receive (.fill id filled price .CLOSED)) →
      safe (next state (.receive (.fill id filled price .CLOSED))) ∧
        post (next state (.receive (.fill id filled price .CLOSED))))
    (stands : Stands next bot start assumed safe keep run)
    (returned : (run.waitForFill world id).2 = true) :
    Stands next bot start assumed safe post (run.waitForFill world id).1 := by
  have ended : (run.fillScan world id).verdict = some true := by
    rw [Run.waitForFill] at returned
    cases found : (run.fillScan world id).verdict with
    | none =>
        rw [found] at returned
        cases returned
    | some value =>
        rw [found] at returned
        exact congrArg some returned
  obtain ⟨earlier, last, read, stops⟩ := StreamScan.exists_last_of_verdict ended
  change (run.fillScan world id).read = earlier ++ [last] at read
  have isFill : ∃ filled price, last = .fill id filled price .CLOSED := by
    cases last with
    | ack orderId => cases stops
    | other => cases stops
    | reject orderId rejectReason =>
        rw [OEClient.fillVerdict] at stops
        split at stops <;> cases stops
    | closed orderId =>
        rw [OEClient.fillVerdict] at stops
        split at stops <;> cases stops
    | fill orderId filled price flags =>
        rw [OEClient.fillVerdict] at stops
        split at stops
        · rename_i own
          exact ⟨filled, price, by rw [own.1, own.2]⟩
        · cases stops
  obtain ⟨filled, price, rfl⟩ := isFill
  rw [Run.waitForFill, read, List.foldl_append]
  have before := foldl_receive kept earlier
    (stands.of_eq rfl rfl : Stands next bot start assumed safe keep
      { run.tick (1 + ((earlier ++ [OeResponse.fill id filled price .CLOSED]).length +
        if (run.fillScan world id).verdict.isSome then 0 else 1)) with
        inbox := (run.fillScan world id).unread })
  exact before.act fun state _ kept isSafe => closes state filled price kept isSafe

end Waits

/-! ### The loops over the dorms -/

/-- What the arb's own flags keep. -/
def KeptByFlags (next : σ → BotAction → σ) (assumed : σ → BotAction → Prop)
    (safe keep : σ → Prop) : Prop :=
  ∀ (state : σ) (action : BotAction),
    (∃ inProgress, action = .setArbInProgress inProgress) ∨
      (∃ time, action = .setArbStartTime time) →
    keep state → safe state → assumed state action →
    safe (next state action) ∧ keep (next state action)

/-- An arb begins. -/
theorem startArb (kept : KeptByFlags next assumed safe keep) (time : Int)
    (stands : Stands next bot start assumed safe keep run) :
    Stands next bot start assumed safe keep
      (((run.act (.setArbInProgress true)).tick 1).act (.setArbStartTime time)) := by
  have flagged : Stands next bot start assumed safe keep (run.act (.setArbInProgress true)) :=
    stands.act fun state _ => kept state _ (Or.inl ⟨true, rfl⟩)
  have ticked : Stands next bot start assumed safe keep
      ((run.act (.setArbInProgress true)).tick 1) := flagged.of_eq rfl rfl
  exact ticked.act fun state _ => kept state _ (Or.inr ⟨time, rfl⟩)

/-- The loop that sends an order for each dorm, by what holds while some are still to be sent. -/
theorem fireEach {pending : List UInt32 → σ → Prop} {side : Side} {qty : UInt32}
    (price : DormData → Int32) (snap : ArbSnapshot)
    (sends : ∀ state symbol symbols price, symbol ∈ DORM_IDS → symbol ∉ symbols →
      pending (symbol :: symbols) state → safe state →
      assumed state (.sendOrder symbol side qty price) →
      safe (next state (.sendOrder symbol side qty price)) ∧
        pending symbols (next state (.sendOrder symbol side qty price)))
    (stands : Stands next bot start assumed safe (pending DORM_IDS) run) :
    Stands next bot start assumed safe (pending [])
      ((DORM_IDS.zip snap.dorms.toList).foldl
        (fun fired leg =>
          (fired.1.sendOrderNoWait leg.1 side qty (price leg.2),
            fired.2 ++ [fired.1.state.nextOrderId]))
        (run, [])).1 := by
  have legs : ∀ legs : List (UInt32 × DormData), (∀ leg ∈ legs, leg.1 ∈ DORM_IDS) →
      (legs.map Prod.fst).Nodup → ∀ fired : Run × List UInt64,
        Stands next bot start assumed safe (pending (legs.map Prod.fst)) fired.1 →
        Stands next bot start assumed safe (pending [])
          (legs.foldl
            (fun fired leg =>
              (fired.1.sendOrderNoWait leg.1 side qty (price leg.2),
                fired.2 ++ [fired.1.state.nextOrderId]))
            fired).1 := by
    intro legs
    induction legs with
    | nil => exact fun _ _ _ stands => stands
    | cons leg legs inductionHypothesis =>
        intro dorms nodup fired stands
        obtain ⟨notAgain, rest⟩ := List.nodup_cons.mp nodup
        refine inductionHypothesis
          (fun other member => dorms other (List.mem_cons_of_mem _ member)) rest _ ?_
        exact stands.act fun state _ =>
          sends state leg.1 (legs.map Prod.fst) _ (dorms leg List.mem_cons_self) notAgain
  refine legs _ (fun leg member => (List.of_mem_zip member).1) ?_ (run, []) ?_
  · rw [map_fst_legs]
    decide
  · rw [map_fst_legs]
    exact stands

/-- The loop that books each dorm at the next quote, by what holds while some are still to be
booked. -/
theorem bookEach {pending : Nat → List UInt32 → σ → Prop} {side : Side} {qty : UInt32}
    {quote : Nat → UInt32 → Int32}
    (books : ∀ state reads symbol symbols, symbol ∈ DORM_IDS → symbol ∉ symbols →
      pending reads (symbol :: symbols) state → safe state →
      assumed state (.book symbol side qty (quote reads symbol)) →
      safe (next state (.book symbol side qty (quote reads symbol))) ∧
        pending (reads + 1) symbols (next state (.book symbol side qty (quote reads symbol))))
    (stands : Stands next bot start assumed safe (pending run.quoteReads DORM_IDS) run) :
    Stands next bot start assumed safe (pending (run.quoteReads + 10) [])
      (DORM_IDS.foldl
        (fun run symbol => run.quoted.act (.book symbol side qty (quote run.quoteReads symbol)))
        run) := by
  have dorms : ∀ symbols : List UInt32, (∀ symbol ∈ symbols, symbol ∈ DORM_IDS) →
      symbols.Nodup → ∀ run : Run,
        Stands next bot start assumed safe (pending run.quoteReads symbols) run →
        Stands next bot start assumed safe (pending (run.quoteReads + symbols.length) [])
          (symbols.foldl
            (fun run symbol =>
              run.quoted.act (.book symbol side qty (quote run.quoteReads symbol)))
            run) := by
    intro symbols
    induction symbols with
    | nil => exact fun _ _ _ stands => stands
    | cons symbol symbols inductionHypothesis =>
        intro dorms nodup run stands
        obtain ⟨notAgain, rest⟩ := List.nodup_cons.mp nodup
        have quoted : Stands next bot start assumed safe
            (pending run.quoteReads (symbol :: symbols)) run.quoted := stands.of_eq rfl rfl
        have booked := inductionHypothesis
          (fun other member => dorms other (List.mem_cons_of_mem _ member)) rest
          (run.quoted.act (.book symbol side qty (quote run.quoteReads symbol)))
          (quoted.act fun state _ =>
            books state run.quoteReads symbol symbols (dorms symbol List.mem_cons_self) notAgain)
        rw [List.length_cons, Nat.add_comm symbols.length 1, ← Nat.add_assoc]
        exact booked
  exact dorms DORM_IDS (fun _ member => member) (by decide) run stands

end Stands

end Run

end HftAlgorithms
