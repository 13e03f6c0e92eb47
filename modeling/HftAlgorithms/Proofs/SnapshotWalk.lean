/-
Module: HftAlgorithms.Proofs.SnapshotWalk
Purpose: When the loops over a snapshot packet come to an end.  They advance by the
  length fields of the records, so a record of length zero is read again.
Trusted boundary: none
Main exports: Listener.readPacket_eq, RawPacket.nextRecord_advances,
  RawPacket.Progresses, Listener.readPacket_within_bytes_iff
-/
import HftAlgorithms.Lib.Walk
import HftAlgorithms.MarketData.SnapshotBytes

namespace HftAlgorithms

open LittleEndian Walk

/-- What the loops do to the listener, they do record by record, and which records they get to is a
matter of the packet alone. -/
theorem Listener.readPacket_eq (packet : RawPacket) (budget : Nat) (listener : Listener)
    (cursor : Cursor) :
    Listener.readPacket packet budget listener cursor =
      (run packet.nextRecord budget cursor).map fun records =>
        records.foldl Listener.take listener := by
  induction budget generalizing listener cursor with
  | zero =>
      rw [Listener.readPacket, run]
      cases packet.nextRecord cursor <;> rfl
  | succ budget inductionHypothesis =>
      rw [Listener.readPacket, run]
      cases packet.nextRecord cursor with
      | none => rfl
      | some taken =>
          obtain ⟨record, next⟩ := taken
          dsimp only
          rw [inductionHypothesis, Option.map_map]
          rfl

namespace RawPacket

variable {packet : RawPacket} {cursor next : Cursor} {record : SnapshotRecord} {budget : Nat}

/-! ### One turn -/

theorem not_takesOrder_of_opensBlock (opens : packet.OpensBlock cursor) :
    ¬ packet.TakesOrder cursor := by
  rintro ⟨-, -, -, isOrder⟩
  rw [opens.2] at isOrder
  cases isOrder

theorem nextRecord_of_takesOrder (takes : packet.TakesOrder cursor) :
    packet.nextRecord cursor =
      some (.order (readNewOrder packet.buf cursor.offset),
        ⟨cursor.offset + (readLength packet.buf cursor.offset).toNat, cursor.left - 1⟩) := by
  rw [nextRecord]
  exact if_pos takes

theorem nextRecord_of_opensBlock (opens : packet.OpensBlock cursor) :
    packet.nextRecord cursor =
      some (.info (readSnapshotInfo packet.buf cursor.offset),
        ⟨cursor.offset + (readLength packet.buf cursor.offset).toNat,
          ((readSnapshotInfo packet.buf cursor.offset).bidCount +
            (readSnapshotInfo packet.buf cursor.offset).askCount).toNat⟩) := by
  rw [nextRecord]
  exact (if_neg (not_takesOrder_of_opensBlock opens)).trans (if_pos opens)

theorem nextRecord_of_neither (noOrder : ¬ packet.TakesOrder cursor)
    (noBlock : ¬ packet.OpensBlock cursor) : packet.nextRecord cursor = none := by
  rw [nextRecord]
  exact (if_neg noOrder).trans (if_neg noBlock)

theorem takes_or_opens (took : packet.nextRecord cursor = some (record, next)) :
    packet.TakesOrder cursor ∨ packet.OpensBlock cursor := by
  by_cases takes : packet.TakesOrder cursor
  · exact Or.inl takes
  by_cases opens : packet.OpensBlock cursor
  · exact Or.inr opens
  rw [nextRecord_of_neither takes opens] at took
  cases took

/-- Whichever loop a record belongs to, it starts within the packet and is as long as it says. -/
theorem nextRecord_advances (took : packet.nextRecord cursor = some (record, next)) :
    cursor.offset < packet.bytes ∧
      next.offset = cursor.offset + (readLength packet.buf cursor.offset).toNat := by
  rcases takes_or_opens took with takes | opens
  · rw [nextRecord_of_takesOrder takes] at took
    cases took
    exact ⟨takes.2.1, rfl⟩
  · rw [nextRecord_of_opensBlock opens] at took
    cases took
    exact ⟨opens.1, rfl⟩

/-! ### Records of length zero -/

/-- A SNAPSHOT_INFO of length zero is opened again and again. -/
theorem run_eq_none_of_empty_block (opens : packet.OpensBlock cursor)
    (empty : readLength packet.buf cursor.offset = 0) :
    run packet.nextRecord budget cursor = none := by
  have repeats : ∀ again : Cursor,
      packet.OpensBlock again ∧ readLength packet.buf again.offset = 0 →
      ∃ record next, packet.nextRecord again = some (record, next) ∧
        packet.OpensBlock next ∧ readLength packet.buf next.offset = 0 := by
    rintro again ⟨opens, empty⟩
    refine ⟨_, _, nextRecord_of_opensBlock opens, ?_⟩
    rw [empty]
    exact ⟨opens, empty⟩
  exact run_eq_none repeats ⟨opens, empty⟩

/-- A NEW_ORDER of length zero is taken once for every order that is still announced. -/
theorem isSome_run_of_empty_order {offset left : Nat} (within : offset < packet.bytes)
    (whole : offset + sizeofNewOrder ≤ packet.bytes)
    (isOrder : readMsgType packet.buf offset = .NEW_ORDER)
    (empty : readLength packet.buf offset = 0) :
    (run packet.nextRecord budget ⟨offset, left⟩).isSome ↔ left ≤ budget := by
  induction left generalizing budget with
  | zero =>
      have noOrder : ¬ packet.TakesOrder ⟨offset, 0⟩ := fun takes => Nat.not_lt_zero 0 takes.1
      have noBlock : ¬ packet.OpensBlock ⟨offset, 0⟩ := by
        rintro ⟨-, isInfo⟩
        rw [isOrder] at isInfo
        cases isInfo
      rw [run_of_ended (nextRecord_of_neither noOrder noBlock)]
      simp
  | succ left inductionHypothesis =>
      have takes : packet.TakesOrder ⟨offset, left + 1⟩ :=
        ⟨Nat.succ_pos left, within, whole, isOrder⟩
      have took := nextRecord_of_takesOrder takes
      rw [empty] at took
      rw [isSome_run_of_took took]
      have rest := @inductionHypothesis (budget - 1)
      change 0 < budget ∧ (run packet.nextRecord (budget - 1) ⟨offset, left⟩).isSome ↔ _
      rw [rest]
      omega

/-! ### The whole packet -/

/-- No SNAPSHOT_INFO that the loops come to has length zero, and a NEW_ORDER of length zero only
where the records before it and the orders still announced are together no more than the bytes. -/
structure Progresses (packet : RawPacket) : Prop where
  blocks : ∀ turns cursor, after packet.nextRecord turns Cursor.start = some cursor →
    packet.OpensBlock cursor → readLength packet.buf cursor.offset ≠ 0
  orders : ∀ turns cursor, after packet.nextRecord turns Cursor.start = some cursor →
    packet.TakesOrder cursor → readLength packet.buf cursor.offset = 0 →
      turns + cursor.left ≤ packet.bytes

/-- Up to the first record of length zero, every record has moved the offset by a byte at least. -/
theorem Progresses.isSome_run {turns : Nat} (progresses : packet.Progresses)
    (reached : after packet.nextRecord turns Cursor.start = some cursor)
    (moved : turns ≤ cursor.offset) (rest : turns + budget = packet.bytes) :
    (run packet.nextRecord budget cursor).isSome := by
  induction budget generalizing turns cursor with
  | zero =>
      cases took : packet.nextRecord cursor with
      | none =>
          rw [run_of_ended took]
          rfl
      | some taken =>
          obtain ⟨within, -⟩ := nextRecord_advances took
          omega
  | succ budget inductionHypothesis =>
      cases took : packet.nextRecord cursor with
      | none =>
          rw [run_of_ended took]
          rfl
      | some taken =>
          obtain ⟨record, next⟩ := taken
          obtain ⟨within, advanced⟩ := nextRecord_advances took
          by_cases empty : readLength packet.buf cursor.offset = 0
          · -- only an order may be empty, and then the inner loop runs out at this record
            have takes : packet.TakesOrder cursor :=
              (takes_or_opens took).resolve_right fun opens =>
                progresses.blocks turns cursor reached opens empty
            have bound := progresses.orders turns cursor reached takes empty
            obtain ⟨-, -, whole, isOrder⟩ := takes
            exact (isSome_run_of_empty_order within whole isOrder empty).mpr (by omega)
          · have positive : 0 < (readLength packet.buf cursor.offset).toNat :=
              Nat.pos_of_ne_zero fun zero => empty (UInt16.toNat_inj.mp zero)
            have reachedNext : after packet.nextRecord (turns + 1) Cursor.start = some next := by
              rw [after_succ reached, took]
              rfl
            rw [run_of_took took, Option.isSome_map]
            exact inductionHypothesis reachedNext (by omega) (by omega)

end RawPacket

/-- For every content of the buffer, every number of bytes read, and every listener: the loops come
to an end within as many records as the packet has bytes, exactly if they come to no SNAPSHOT_INFO
of length zero, and to a NEW_ORDER of length zero only with few enough orders announced. -/
theorem Listener.readPacket_within_bytes_iff (packet : RawPacket) (listener : Listener) :
    (Listener.readPacket packet packet.bytes listener Cursor.start).isSome ↔
      packet.Progresses := by
  rw [Listener.readPacket_eq, Option.isSome_map]
  constructor
  · intro ends
    constructor
    · intro turns cursor reached opens empty
      have later := ((isSome_run_of_after reached).mp ends).2
      rw [RawPacket.run_eq_none_of_empty_block opens empty] at later
      cases later
    · intro turns cursor reached takes empty
      obtain ⟨enough, later⟩ := (isSome_run_of_after reached).mp ends
      obtain ⟨-, within, whole, isOrder⟩ := takes
      have room := (RawPacket.isSome_run_of_empty_order within whole isOrder empty).mp later
      omega
  · intro progresses
    have first : after packet.nextRecord 0 Cursor.start = some Cursor.start := rfl
    exact progresses.isSome_run first (Nat.zero_le _) (Nat.zero_add _)

/-- A datagram of 39 bytes: a SNAPSHOT_INFO for symbol 1, whose length field is zero. -/
def emptyInfo : RawPacket where
  buf := fun offset =>
    [83, 78, 65, 80, 83, 72, 79, 84, 0, 0, 1, 0, 0, 0, 0, 0, 0, 0, 0, 0, 0, 0, 6,
      1, 0, 0, 0, 0, 0, 0, 0, 0, 0, 0, 0, 0, 0, 0, 0].getD offset 0
  bytes := 39

/-- The listener never gets past it, however many turns it is given. -/
theorem Listener.readPacket_emptyInfo_never_ends :
    emptyInfo.IsSnapshot ∧
      (∀ budget listener, Listener.readPacket emptyInfo budget listener Cursor.start = none) ∧
      ¬ ∀ packet listener,
        (Listener.readPacket packet packet.bytes listener Cursor.start).isSome := by
  have opens : emptyInfo.OpensBlock Cursor.start := by decide
  have never : ∀ budget listener,
      Listener.readPacket emptyInfo budget listener Cursor.start = none := by
    intro budget listener
    rw [Listener.readPacket_eq, RawPacket.run_eq_none_of_empty_block opens (by decide)]
    rfl
  refine ⟨by decide, never, ?_⟩
  intro always
  have ends := always emptyInfo (.start .empty)
  rw [never] at ends
  cases ends

end HftAlgorithms
