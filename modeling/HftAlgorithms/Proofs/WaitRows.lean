/-
Module: HftAlgorithms.Proofs.WaitRows
Purpose: A row of waits, one for each order sent, and the closing fills it gets
  through: a wait reads at most one, so a row reads one for every order exactly if
  no wait of it ends on anything else.
Trusted boundary: none
Main exports: OeResponse.Fills, ClosesLast, Run.FillsFirst,
  Run.mem_closings_iff_fillsFirst, filled_iff_closed
-/
import HftAlgorithms.Proofs.AbandonedLegs

namespace HftAlgorithms

open StreamScan

open OEClient (closedByFill verdict)

/-! ### Closing fills -/

/-- The response is a fill of the order with this id. -/
def OeResponse.Fills (id : UInt64) : OeResponse → Prop
  | .fill orderId _ _ _ => orderId = id
  | _ => False

/-- The orders that fills among the responses close. -/
def closings (responses : List OeResponse) : List UInt64 := responses.filterMap closedByFill

/-- What the responses fill of the order with this id. -/
def filled (id : UInt64) (responses : List OeResponse) : Nat :=
  (responses.map (OeResponse.filledQty id)).sum

/-- No order is filled after a fill has closed it. -/
def ClosesLast (stream : List OeResponse) : Prop :=
  stream.Pairwise fun earlier later => ∀ id, closedByFill earlier = some id → ¬ later.Fills id

@[simp] theorem closings_append (first second : List OeResponse) :
    closings (first ++ second) = closings first ++ closings second :=
  List.filterMap_append

@[simp] theorem filled_append (id : UInt64) (first second : List OeResponse) :
    filled id (first ++ second) = filled id first + filled id second := by
  simp [filled]

theorem filled_cons (id : UInt64) (response : OeResponse) (rest : List OeResponse) :
    filled id (response :: rest) = response.filledQty id + filled id rest := by
  simp [filled]

theorem exists_of_closedByFill {id : UInt64} {response : OeResponse}
    (closes : closedByFill response = some id) :
    ∃ qty price, response = .fill id qty price .CLOSED := by
  cases response with
  | fill orderId qty price flags =>
      cases flags with
      | CLOSED =>
          cases closes
          exact ⟨qty, price, rfl⟩
      | NONE => cases closes
      | PARTIAL_FILL => cases closes
      | unknown byte => cases closes
  | ack orderId => cases closes
  | reject orderId reason => cases closes
  | closed orderId => cases closes
  | other => cases closes

theorem fills_of_closedByFill {id : UInt64} {response : OeResponse}
    (closes : closedByFill response = some id) : response.Fills id := by
  obtain ⟨qty, price, rfl⟩ := exists_of_closedByFill closes
  exact rfl

theorem filledQty_of_not_fills {id : UInt64} {response : OeResponse} (other : ¬ response.Fills id) :
    response.filledQty id = 0 := by
  cases response with
  | fill orderId qty price flags => exact if_neg other
  | ack orderId => rfl
  | reject orderId reason => rfl
  | closed orderId => rfl
  | other => rfl

theorem filled_eq_zero {id : UInt64} {responses : List OeResponse}
    (others : ∀ response ∈ responses, ¬ response.Fills id) : filled id responses = 0 := by
  apply List.sum_eq_zero
  intro qty member
  obtain ⟨response, within, rfl⟩ := List.mem_map.mp member
  exact filledQty_of_not_fills (others response within)

/-- A fill of some of the order among the responses is part of what they fill. -/
theorem le_filled {id : UInt64} {qty : UInt32} {price : Int32} {flags : FillFlags}
    {responses : List OeResponse} (member : .fill id qty price flags ∈ responses) :
    qty.toNat ≤ filled id responses := by
  have part : qty.toNat ∈ responses.map (OeResponse.filledQty id) :=
    List.mem_map.mpr ⟨_, member, if_pos rfl⟩
  exact List.single_le_sum (fun _ _ => Nat.zero_le _) _ part

theorem mem_closings_iff {id : UInt64} {responses : List OeResponse} :
    id ∈ closings responses ↔ ∃ qty price, .fill id qty price .CLOSED ∈ responses := by
  constructor
  · intro member
    obtain ⟨response, within, closes⟩ := List.mem_filterMap.mp member
    obtain ⟨qty, price, rfl⟩ := exists_of_closedByFill closes
    exact ⟨qty, price, within⟩
  · rintro ⟨qty, price, member⟩
    exact List.mem_filterMap.mpr ⟨_, member, rfl⟩

theorem ClosesLast.read {read unread : List OeResponse} (last : ClosesLast (read ++ unread)) :
    ClosesLast read :=
  (List.pairwise_append.mp last).1

/-- An order is closed once. -/
theorem ClosesLast.nodup_closings {stream : List OeResponse} (last : ClosesLast stream) :
    (closings stream).Nodup := by
  apply List.Pairwise.filterMap closedByFill ?_ last
  rintro earlier later notFilled id closes other closesToo rfl
  exact notFilled id closes (fills_of_closedByFill closesToo)

/-- The fills that a reader has got are all of the order exactly if the closing one is among
them. -/
theorem filled_iff_closed {id : UInt64} {total : Nat} {read unread : List OeResponse}
    (last : ClosesLast (read ++ unread)) (whole : filled id (read ++ unread) = total)
    (closes : ∃ qty price, 0 < qty ∧ .fill id qty price .CLOSED ∈ read ++ unread) :
    filled id read = total ↔ id ∈ closings read := by
  rw [filled_append] at whole
  obtain ⟨qty, price, positive, member⟩ := closes
  constructor
  · intro all
    rcases List.mem_append.mp member with here | later
    · exact mem_closings_iff.mpr ⟨qty, price, here⟩
    · have some_left := le_filled later
      have positive := UInt32.lt_iff_toNat_lt.mp positive
      rw [UInt32.toNat_zero] at positive
      omega
  · intro closed
    obtain ⟨qty, price, here⟩ := mem_closings_iff.mp closed
    have nothing_left : filled id unread = 0 := by
      apply filled_eq_zero
      intro response left
      exact (List.pairwise_append.mp last).2.2 _ here response left id rfl
    omega

/-! ### Rows of waits -/

namespace Run

theorem waitScan_read_append_unread (start check : Int) (id : UInt64) (stream : List OeResponse) :
    (OEClient.waitScan start check id stream).read ++
        (OEClient.waitScan start check id stream).unread = stream := by
  rw [OEClient.waitScan]
  split
  · rfl
  · exact scan_read_append_unread (verdict id) stream

theorem waits_read_append_unread (clock : Nat → Int) (reads : Nat) (ids : List UInt64)
    (stream : List OeResponse) :
    (waits clock reads ids stream).read ++ (waits clock reads ids stream).unread = stream := by
  induction ids generalizing reads stream with
  | nil => rfl
  | cons id ids inductionHypothesis =>
      rw [waits, List.append_assoc, inductionHypothesis, waitScan_read_append_unread]

/-- A closing fill ends the wait that reads it. -/
theorem length_closings_waitScan (start check : Int) (id : UInt64) (stream : List OeResponse) :
    (closings (OEClient.waitScan start check id stream).read).length ≤ 1 := by
  rw [OEClient.waitScan]
  split
  · exact Nat.zero_le 1
  · rcases silent_or_split (verdict id) stream with
      silent | ⟨earlier, message, value, later, rfl, silent, ends⟩
    · have all := scan_read_append_unread (verdict id) stream
      have silentRead : ∀ response ∈ (scan (verdict id) stream).read, verdict id response = none :=
        fun response member => silent response (all ▸ List.mem_append_left _ member)
      rw [closings, OEClient.closedByFill_of_silent silentRead]
      exact Nat.zero_le 1
    · rw [scan_append_cons silent ends later, closings_append, closings,
        OEClient.closedByFill_of_silent silent, List.nil_append]
      exact List.length_filterMap_le closedByFill [message]

/-- Every wait of the row reads a fill that closes one of these orders, before anything else has
ended it. -/
def FillsFirst (clock : Nat → Int) (ours : List UInt64) :
    Nat → List UInt64 → List OeResponse → Prop
  | _, [], _ => True
  | reads, id :: ids, stream =>
      let waited := OEClient.waitScan (clock reads) (clock (reads + 1)) id stream
      (∃ closed ∈ closings waited.read, closed ∈ ours) ∧
        FillsFirst clock ours (reads + 2) ids waited.unread

/-- The row reads at most one closing fill a wait, and as many only if every wait reads one. -/
theorem fillsFirst_iff_length (clock : Nat → Int) (ours : List UInt64) (reads : Nat)
    (ids : List UInt64) (stream : List OeResponse) :
    ((closings (waits clock reads ids stream).read).filter (· ∈ ours)).length ≤ ids.length ∧
      (FillsFirst clock ours reads ids stream ↔
        ((closings (waits clock reads ids stream).read).filter (· ∈ ours)).length =
          ids.length) := by
  induction ids generalizing reads stream with
  | nil => simp [FillsFirst, waits, closings]
  | cons id ids inductionHypothesis =>
      generalize waiting : OEClient.waitScan (clock reads) (clock (reads + 1)) id stream = waited
      obtain ⟨most, rest⟩ := inductionHypothesis (reads + 2) waited.unread
      have one : ((closings waited.read).filter (· ∈ ours)).length ≤ 1 := by
        rw [← waiting]
        exact (List.length_filter_le _ _).trans (length_closings_waitScan _ _ id stream)
      have first : (∃ closed ∈ closings waited.read, closed ∈ ours) ↔
          0 < ((closings waited.read).filter (· ∈ ours)).length := by
        simp [List.length_pos_iff_exists_mem]
      rw [FillsFirst, waits, waiting, closings_append, List.filter_append, List.length_append,
        List.length_cons, first, rest]
      omega

/-- Where the row waits once for each order, it gets through all their closing fills exactly if each
wait reads one. -/
theorem mem_closings_iff_fillsFirst (clock : Nat → Int) (reads : Nat) {ids : List UInt64}
    (distinct : ids.Nodup) {stream : List OeResponse} (last : ClosesLast stream) :
    (∀ id ∈ ids, id ∈ closings (waits clock reads ids stream).read) ↔
      FillsFirst clock ids reads ids stream := by
  have all := waits_read_append_unread clock reads ids stream
  generalize reading : waits clock reads ids stream = row at all
  rw [(fillsFirst_iff_length clock ids reads ids stream).2, reading]
  have once : ((closings row.read).filter (· ∈ ids)).Nodup := by
    rw [← all] at last
    exact last.read.nodup_closings.filter _
  have ours : (closings row.read).filter (· ∈ ids) ⊆ ids := by
    intro id member
    simpa using List.of_mem_filter member
  constructor
  · intro every
    apply Nat.le_antisymm (once.length_le_of_subset ours)
    apply distinct.length_le_of_subset
    intro id member
    exact List.mem_filter.mpr ⟨every id member, by simpa using member⟩
  · intro enough id member
    have same := (List.subperm_of_subset once ours).perm_of_length_le (Nat.le_of_eq enough.symm)
    exact List.mem_of_mem_filter (same.mem_iff.mpr member)

end Run

end HftAlgorithms
