/-
Module: HftAlgorithms.Proofs.RedemptionFill
Purpose: Which of the two waits of a redemption reads the closing fill of its UNDY
  buy, and with that whether `/redeem` is called.
Trusted boundary: none
Main exports: OeResponse.About, FillsBuy, BuyInTime, OeResponse.Releases,
  Run.redeems_iff_released
-/
import HftAlgorithms.Proofs.AbandonedLegs

namespace HftAlgorithms

open StateMachine StreamScan

/-! ### The exchange fills the buy -/

namespace OeResponse

/-- The response is about the order with this id. -/
def About (id : UInt64) : OeResponse → Prop
  | .ack orderId => orderId = id
  | .reject orderId _ => orderId = id
  | .fill orderId _ _ _ => orderId = id
  | .closed orderId => orderId = id
  | .other => False

instance decidableAbout (id : UInt64) : ∀ response : OeResponse, Decidable (response.About id)
  | .ack _ | .reject _ _ | .fill _ _ _ _ | .closed _ => inferInstanceAs (Decidable (_ = _))
  | .other => isFalse fun impossible => impossible

/-- A FILL of the order that leaves it open. -/
def FillsPart (id : UInt64) : OeResponse → Prop
  | .fill orderId _ _ flags => orderId = id ∧ flags ≠ .CLOSED
  | _ => False

/-- An ACK of the order, or a closing FILL or a CLOSE of any other. -/
def Releases (id : UInt64) : OeResponse → Prop
  | .ack orderId => orderId = id
  | .fill orderId _ _ flags => orderId ≠ id ∧ flags = .CLOSED
  | .closed orderId => orderId ≠ id
  | .reject _ _ | .other => False

end OeResponse

/-- The exchange fills the order to the end: there may be an ACK, then come partial FILLs, then a
closing one, and the quantities add up.  Responses about other orders, or about none, stand
anywhere. -/
structure FillsBuy (id : UInt64) (qty : UInt32) (before : List OeResponse) (closing : UInt32)
    (after : List OeResponse) : Prop where
  course : ∃ acks parts, before.filter (fun response => response.About id) = acks ++ parts ∧
    (acks = [] ∨ acks = [.ack id]) ∧ ∀ response ∈ parts, response.FillsPart id
  total : (before.map (OeResponse.filledQty id)).sum + closing.toNat = qty.toNat
  last : ∀ response ∈ after, ¬ response.About id

namespace FillsBuy

variable {id : UInt64} {qty closing : UInt32} {before after : List OeResponse}

/-- Before the closing FILL, the order is only acknowledged and filled in parts. -/
theorem ack_or_part (filled : FillsBuy id qty before closing after) {response : OeResponse}
    (member : response ∈ before) (about : response.About id) :
    response = .ack id ∨ response.FillsPart id := by
  obtain ⟨acks, parts, course, acked, partly⟩ := filled.course
  have own : response ∈ acks ++ parts := by
    rw [← course]
    exact List.mem_filter.mpr ⟨member, decide_eq_true about⟩
  rcases List.mem_append.mp own with first | later
  · rcases acked with none | one
    · rw [none] at first
      exact absurd first List.not_mem_nil
    · rw [one] at first
      exact Or.inl (List.mem_singleton.mp first)
  · exact Or.inr (partly response later)

/-- What ends the wait for the answer before the closing FILL ends it with true. -/
theorem verdict_of_releases (response : OeResponse) (releases : response.Releases id) :
    OEClient.verdict id response = some true := by
  cases response with
  | ack orderId => exact if_pos releases
  | fill orderId quantity price flags => exact if_pos releases.2
  | closed orderId => rfl
  | reject orderId reason => exact releases.elim
  | other => exact releases.elim

/-- Nothing else before the closing FILL ends that wait. -/
theorem verdict_of_not_releases (filled : FillsBuy id qty before closing after)
    {response : OeResponse} (member : response ∈ before) (keeps : ¬ response.Releases id) :
    OEClient.verdict id response = none := by
  cases response with
  | ack orderId => exact if_neg keeps
  | reject orderId reason =>
      apply if_neg
      intro own
      rcases filled.ack_or_part member own with acked | part
      · cases acked
      · exact part
  | fill orderId quantity price flags =>
      apply if_neg
      intro closes
      by_cases own : orderId = id
      · rcases filled.ack_or_part member own with acked | part
        · cases acked
        · exact part.2 closes
      · exact keeps ⟨own, closes⟩
  | closed orderId =>
      have own : orderId = id := not_not.mp keeps
      rcases filled.ack_or_part member own with acked | part
      · cases acked
      · exact part.elim
  | other => rfl

/-- Nothing before the closing FILL ends a `wait_for_fill`. -/
theorem fillVerdict_before (filled : FillsBuy id qty before closing after)
    {response : OeResponse} (member : response ∈ before) :
    OEClient.fillVerdict id response = none := by
  have either := filled.ack_or_part member
  cases response with
  | ack orderId => rfl
  | reject orderId reason =>
      apply if_neg
      intro own
      rcases either own with acked | part
      · cases acked
      · exact part
  | fill orderId quantity price flags =>
      apply if_neg
      rintro ⟨own, closes⟩
      rcases either own with acked | part
      · cases acked
      · exact part.2 closes
  | closed orderId =>
      apply if_neg
      intro own
      rcases either own with acked | part
      · cases acked
      · exact part
  | other => rfl

/-- Nothing after it does either. -/
theorem fillVerdict_after (filled : FillsBuy id qty before closing after)
    {response : OeResponse} (member : response ∈ after) :
    OEClient.fillVerdict id response = none := by
  have foreign := filled.last response member
  cases response with
  | ack orderId => rfl
  | reject orderId reason => exact if_neg foreign
  | fill orderId quantity price flags => exact if_neg fun both => foreign both.1
  | closed orderId => exact if_neg foreign
  | other => rfl

end FillsBuy

/-! ### The two waits -/

/-- The clock readings that the two waits make up to the closing FILL, which stands behind `count`
other responses, are within the two deadlines.  The reading before them is the start of the arb. -/
def BuyInTime (clock : Nat → Int) (count : Nat) : Prop :=
  clock 2 ≤ clock 1 + OEClient.milliseconds 3000 ∧
    ∀ turn < count, clock (4 + turn) ≤ clock 3 + OEClient.milliseconds 5000

namespace FillsBuy

variable {id : UInt64} {qty closing : UInt32} {before after : List OeResponse} {clock : Nat → Int}

/-- What the wait for the answer to the buy reads. -/
theorem waitScan_eq (inTime : BuyInTime clock before.length) (stream : List OeResponse) :
    OEClient.waitScan (clock 1) (clock 2) id stream = scan (OEClient.verdict id) stream :=
  if_neg (not_lt.mpr inTime.1)

/-- When a response releases the wait for the answer, `wait_for_fill` reads the closing FILL. -/
theorem fills_of_released (filled : FillsBuy id qty before closing after)
    (inTime : BuyInTime clock before.length) (price : Int32)
    (released : ∃ response ∈ before, response.Releases id) :
    let answer := OEClient.waitScan (clock 1) (clock 2) id
      (before ++ .fill id closing price .CLOSED :: after)
    answer.verdict = some true ∧
      (OEClient.fillScan (clock 3) (fun count => clock (4 + count)) id answer.unread).verdict =
        some true := by
  rcases silent_or_split (OEClient.verdict id) before with silent | split
  · obtain ⟨response, member, releases⟩ := released
    have ends := verdict_of_releases response releases
    rw [silent response member] at ends
    cases ends
  · obtain ⟨earlier, response, value, later, shape, silent, ends⟩ := split
    subst shape
    have member : response ∈ earlier ++ response :: later :=
      List.mem_append_right _ List.mem_cons_self
    have accepted : OEClient.verdict id response = some true := by
      by_cases releases : response.Releases id
      · exact verdict_of_releases response releases
      · rw [filled.verdict_of_not_releases member releases] at ends
        cases ends
    have first : OEClient.waitScan (clock 1) (clock 2) id
        ((earlier ++ response :: later) ++ .fill id closing price .CLOSED :: after) =
          ⟨earlier ++ [response], later ++ .fill id closing price .CLOSED :: after, some true⟩ := by
      rw [waitScan_eq inTime, List.append_assoc, List.cons_append]
      exact scan_append_cons silent accepted _
    have second : OEClient.fillScan (clock 3) (fun count => clock (4 + count)) id
        (later ++ .fill id closing price .CLOSED :: after) =
          ⟨later ++ [.fill id closing price .CLOSED], after, some true⟩ := by
      apply scanUntil_append_cons
      · intro silentToo within
        apply filled.fillVerdict_before
        exact List.mem_append_right _ (List.mem_cons_of_mem _ within)
      · intro turn within
        have early : turn < (earlier ++ response :: later).length := by
          rw [List.length_append, List.length_cons]
          omega
        rw [Nat.zero_add]
        exact decide_eq_false (not_lt.mpr (inTime.2 turn early))
      · exact if_pos ⟨rfl, rfl⟩
    rw [first]
    dsimp only
    rw [second]
    exact ⟨rfl, rfl⟩

/-- When none does, the wait for the answer reads the closing FILL itself, and `wait_for_fill`
waits for another. -/
theorem misses_of_not_released (filled : FillsBuy id qty before closing after)
    (inTime : BuyInTime clock before.length) (price : Int32)
    (kept : ¬ ∃ response ∈ before, response.Releases id) :
    let answer := OEClient.waitScan (clock 1) (clock 2) id
      (before ++ .fill id closing price .CLOSED :: after)
    answer.verdict = some true ∧
      (OEClient.fillScan (clock 3) (fun count => clock (4 + count)) id answer.unread).verdict =
        none := by
  have silent : ∀ response ∈ before, OEClient.verdict id response = none := by
    intro response member
    exact filled.verdict_of_not_releases member fun releases => kept ⟨response, member, releases⟩
  have closes : OEClient.verdict id (.fill id closing price .CLOSED) = some true := by
    rw [OEClient.verdict, if_pos rfl]
  have first : OEClient.waitScan (clock 1) (clock 2) id
      (before ++ .fill id closing price .CLOSED :: after) =
        ⟨before ++ [.fill id closing price .CLOSED], after, some true⟩ := by
    rw [waitScan_eq inTime]
    exact scan_append_cons silent closes after
  rw [first]
  exact ⟨rfl, verdict_scanUntil_of_silent fun response member => filled.fillVerdict_after member⟩

end FillsBuy

/-! ### Calling `/redeem` -/

namespace Run

theorem etfCalls_foldl_receive (responses : List OeResponse) (run : Run) :
    (responses.foldl (fun run response => run.act (.receive response)) run).etfCalls =
      run.etfCalls := by
  refine @invariant_foldl_always Run _ _ (fun later => later.etfCalls = run.etfCalls) ?_ run rfl
    responses
  intro later response same
  exact same

theorem etfCalls_waitForResponse (world : World) (run : Run) (id : UInt64) :
    (run.waitForResponse world id).1.etfCalls = run.etfCalls :=
  etfCalls_foldl_receive _ _

theorem etfCalls_waitForFill (world : World) (run : Run) (id : UInt64) :
    (run.waitForFill world id).1.etfCalls = run.etfCalls :=
  etfCalls_foldl_receive _ _

theorem etfCalls_collect (world : World) (ids : List UInt64) (run : Run) :
    (run.collect world ids).1.etfCalls = run.etfCalls := by
  induction ids generalizing run with
  | nil => rfl
  | cons id ids inductionHypothesis =>
      exact (inductionHypothesis _).trans (etfCalls_waitForResponse world run id)

/-- The one call of the ETF service that a redemption makes. -/
theorem etfCalls_redeemAndSell (world : EtfWorld) (qty : Int32) (run : Run) (snap : ArbSnapshot) :
    (redeemAndSell world qty run snap).1.etfCalls = run.etfCalls + 1 := by
  rw [redeemAndSell]
  dsimp only
  split
  · rfl
  · have booked : (bookRedemption world.toWorld qty { run with etfCalls := run.etfCalls + 1 }
        snap).etfCalls = run.etfCalls + 1 := by
      rw [bookRedemption]
      refine @invariant_foldl_always Run UInt32 _
        (fun later => later.etfCalls = run.etfCalls + 1) ?_ _ rfl DORM_IDS
      intro later symbol same
      exact same
    have fired : (fireSells qty (bookRedemption world.toWorld qty
        { run with etfCalls := run.etfCalls + 1 } snap) snap).1.etfCalls = run.etfCalls + 1 := by
      rw [fireSells]
      refine @invariant_foldl_always (Run × List UInt64) (UInt32 × DormData) _
        (fun carried => carried.1.etfCalls = run.etfCalls + 1) ?_ _ booked _
      intro carried leg same
      exact same
    exact (etfCalls_collect world.toWorld _ _).trans fired

/-- `/redeem` is called when both waits return true. -/
theorem redeems_iff_waits (world : EtfWorld) (bot : BotState) (snap : ArbSnapshot)
    (stream : List OeResponse) (starts : (new bot stream).startsRedemption snap = true) :
    let answer := OEClient.waitScan (world.clock 1) (world.clock 2) bot.nextOrderId stream
    ((new bot stream).tryRedemptionArb world snap).1.etfCalls = 1 ↔
      answer.verdict = some true ∧
        (OEClient.fillScan (world.clock 3) (fun count => world.clock (4 + count)) bot.nextOrderId
          answer.unread).verdict = some true := by
  have toTrue : ∀ verdict : Option Bool, verdict.getD false = true ↔ verdict = some true := by
    intro verdict
    cases verdict <;> simp
  obtain ⟨-, inbox, reads, returned⟩ := @received_buyUndy bot snap world.toWorld stream
  have calls : ((new bot stream).buyUndy world.toWorld snap).1.etfCalls = 0 :=
    etfCalls_waitForResponse world.toWorld _ _
  dsimp only at inbox reads returned ⊢
  rw [tryRedemptionArb, if_neg (not_not.mpr starts), ← toTrue, ← returned]
  dsimp only
  by_cases bought : ((new bot stream).buyUndy world.toWorld snap).2 = true
  · have scans : ((new bot stream).buyUndy world.toWorld snap).1.fillScan world.toWorld
        bot.nextOrderId = OEClient.fillScan (world.clock 3) (fun count => world.clock (4 + count))
          bot.nextOrderId (OEClient.waitScan (world.clock 1) (world.clock 2) bot.nextOrderId
            stream).unread := by
      rw [fillScan, now, inbox, reads]
    have waited : (((new bot stream).buyUndy world.toWorld snap).1.waitForFill world.toWorld
        (new bot stream).state.nextOrderId).2 =
          (((new bot stream).buyUndy world.toWorld snap).1.fillScan world.toWorld
            bot.nextOrderId).verdict.getD false := rfl
    rw [if_neg (not_not.mpr bought), ← toTrue, ← scans, ← waited]
    by_cases filled : (((new bot stream).buyUndy world.toWorld snap).1.waitForFill world.toWorld
        (new bot stream).state.nextOrderId).2 = true
    · rw [if_neg (not_not.mpr filled), etfCalls_redeemAndSell, etfCalls_waitForFill, calls]
      exact ⟨fun _ => ⟨bought, filled⟩, fun _ => rfl⟩
    · rw [if_pos filled]
      change (((new bot stream).buyUndy world.toWorld snap).1.waitForFill world.toWorld
        (new bot stream).state.nextOrderId).1.etfCalls = 1 ↔ _
      rw [etfCalls_waitForFill, calls]
      exact ⟨fun impossible => absurd impossible (by decide), fun both => absurd both.2 filled⟩
  · rw [if_pos bought]
    change ((new bot stream).buyUndy world.toWorld snap).1.etfCalls = 1 ↔ _
    rw [calls]
    exact ⟨fun impossible => absurd impossible (by decide), fun both => absurd both.1 bought⟩

/-- A redemption whose UNDY buy is filled to the end in time calls `/redeem` exactly when an ACK of
the buy, or a closing FILL or a CLOSE of another order, stands before the closing FILL. -/
theorem redeems_iff_released (world : EtfWorld) (bot : BotState) (snap : ArbSnapshot)
    (before after : List OeResponse) (closing : UInt32) (price : Int32)
    (starts : (new bot (before ++ .fill bot.nextOrderId closing price .CLOSED ::
      after)).startsRedemption snap = true)
    (filled : FillsBuy bot.nextOrderId (redemptionQty snap).toUInt32 before closing after)
    (inTime : BuyInTime world.clock before.length) :
    ((new bot (before ++ .fill bot.nextOrderId closing price .CLOSED ::
        after)).tryRedemptionArb world snap).1.etfCalls = 1 ↔
      ∃ response ∈ before, response.Releases bot.nextOrderId := by
  refine (redeems_iff_waits world bot snap _ starts).trans ?_
  by_cases released : ∃ response ∈ before, response.Releases bot.nextOrderId
  · exact ⟨fun _ => released, fun _ => filled.fills_of_released inTime price released⟩
  · obtain ⟨-, missed⟩ := filled.misses_of_not_released inTime price released
    refine ⟨fun both => ?_, fun found => absurd found released⟩
    rw [missed] at both
    cases both.2

/-- The buy of the first redemption is acknowledged, filled in part and then to the end, and
`/redeem` is called. -/
theorem redeems_acknowledged :
    let dearDorms := { cheapDorms with navBid := 1100 }
    let world : EtfWorld := { secondsWorld with redeem := fun _ amount => ⟨true, "", amount⟩ }
    let before : List OeResponse :=
      [.ack 1001, .fill 1001 2 1010 .PARTIAL_FILL, .fill 90001 1 50 .CLOSED]
    ((new loggedInBot (before ++ .fill loggedInBot.nextOrderId 3 1010 .CLOSED ::
      [])).tryRedemptionArb world dearDorms).1.etfCalls = 1 := by
  intro dearDorms world before
  refine (redeems_iff_released world loggedInBot dearDorms before [] 3 1010 (by decide +kernel)
    ⟨⟨[.ack 1001], [.fill 1001 2 1010 .PARTIAL_FILL], by decide +kernel, Or.inr rfl, ?_⟩,
      by decide +kernel, ?_⟩ ⟨by decide +kernel, by decide +kernel⟩).mpr ?_
  · intro response member
    rw [List.mem_singleton.mp member]
    exact ⟨rfl, by decide⟩
  · intro response member
    exact absurd member List.not_mem_nil
  · exact ⟨.ack 1001, List.mem_cons_self, rfl⟩

/-- The same buy without an ACK, as the recorded session has it: the wait for the answer takes the
closing FILL, and `wait_for_fill` finds nothing.  The five lots are held, and the arb is given
up. -/
theorem fill_taken_by_first_wait :
    let dearDorms := { cheapDorms with navBid := 1100 }
    let world : EtfWorld := { secondsWorld with redeem := fun _ amount => ⟨true, "", amount⟩ }
    let before : List OeResponse := [.fill 1001 2 1010 .PARTIAL_FILL]
    let run := new loggedInBot (before ++ .fill 1001 3 1010 .CLOSED :: [])
    let tried := run.tryRedemptionArb world dearDorms
    run.startsRedemption dearDorms = true ∧
      FillsBuy loggedInBot.nextOrderId (redemptionQty dearDorms).toUInt32 before 3 [] ∧
      BuyInTime world.clock before.length ∧ tried.1.etfCalls ≠ 1 ∧ tried.2 = true ∧
      tried.1.getPosition SYM_UNDY = 5 ∧ tried.1.state.arbInProgress = false := by
  intro dearDorms world before run tried
  refine ⟨by decide +kernel, ⟨⟨[], [.fill 1001 2 1010 .PARTIAL_FILL], by decide +kernel, Or.inl rfl,
    ?_⟩, by decide +kernel, ?_⟩, ⟨by decide +kernel, by decide +kernel⟩, by decide +kernel,
    by decide +kernel, by decide +kernel, by decide +kernel⟩
  · intro response member
    rw [List.mem_singleton.mp member]
    exact ⟨rfl, by decide⟩
  · intro response member
    exact absurd member List.not_mem_nil

end Run

end HftAlgorithms
