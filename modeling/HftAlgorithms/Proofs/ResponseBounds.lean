/-
Module: HftAlgorithms.Proofs.ResponseBounds
Purpose: When a response stays within the buffer it is read into and its caller
  within the response.  The length of the header bounds both, and nothing checks
  it.
Trusted boundary: none
Main exports: readOeResponse_congr, readLoginResponse_congr,
  ResponseCaller.StaysWithin, ResponseCaller.needs, ResponseCaller.staysWithin_iff,
  readOeResponse_of_staysWithin, login_of_staysWithin
-/
import HftAlgorithms.OrderEntry.ResponseBuffer
import HftAlgorithms.Proofs.FieldReads
import HftAlgorithms.Proofs.ResponseFraming

namespace HftAlgorithms

open LittleEndian ResponseView

/-! ### The fields decide the view -/

section Views

variable {buf other : Memory}

theorem Extent.Agrees.byte {offset : Nat} (agrees : Extent.Agrees buf other ⟨offset, 1⟩) :
    buf offset = other offset :=
  agrees offset (Nat.le_refl _) (Nat.lt_succ_self _)

/-- The fields that are listed as read are all that decides what is read. -/
theorem readOeResponse_congr (agree : ∀ extent ∈ messageFields buf, extent.Agrees buf other) :
    readOeResponse buf = readOeResponse other := by
  have type := (agree responseTypeAt (by simp [messageFields])).byte
  rw [readOeResponse, readOeResponse, ← type]
  cases kind : ResponseType.ofByte (buf 2) with
  | ACK =>
      have orderId := word_congr (agree responseOrderIdAt (by simp [messageFields, kind]))
      simp only [responseOrderIdAt] at orderId
      simp only [orderId]
  | REJECT =>
      have orderId := word_congr (agree responseOrderIdAt (by simp [messageFields, kind]))
      have reason := (agree rejectReasonAt (by simp [messageFields, kind])).byte
      simp only [responseOrderIdAt] at orderId
      simp only [orderId, reason]
  | FILL =>
      have orderId := word_congr (agree responseOrderIdAt (by simp [messageFields, kind]))
      have quantity := word_congr (agree fillQuantityAt (by simp [messageFields, kind]))
      have price := word_congr (agree fillPriceAt (by simp [messageFields, kind]))
      have flags := (agree fillFlagsAt (by simp [messageFields, kind])).byte
      simp only [responseOrderIdAt] at orderId
      simp only [fillQuantityAt] at quantity
      simp only [fillPriceAt] at price
      simp only [orderId, quantity, price, flags]
  | CLOSE =>
      have orderId := word_congr (agree responseOrderIdAt (by simp [messageFields, kind]))
      simp only [responseOrderIdAt] at orderId
      simp only [orderId]
  | other => rfl

theorem readLoginResponse_congr (agree : ∀ extent ∈ loginFields buf, extent.Agrees buf other) :
    readLoginResponse buf = readLoginResponse other := by
  have status := (agree statusAt (by simp [loginFields])).byte
  rw [readLoginResponse, readLoginResponse, ← status]
  split
  · rfl
  · rename_i success
    have sessionId := word_congr (agree sessionIdAt (by simp [loginFields, success]))
    simp only [sessionIdAt] at sessionId
    rw [sessionId]

end Views

namespace OEClient

/-! ### One call -/

/-- A stream that ends within the header writes nothing. -/
theorem readResponse_of_short {socket : ChunkedStream UInt8}
    (short : socket.items.length < sizeofResponseHeader) :
    (readResponse socket).1 = none ∧ responseWrites socket = [] := by
  have header := ChunkedStream.readExactly_of_lt short
  exact ⟨by simp [readResponse, header], by simp [responseWrites, header]⟩

section OneCall

variable {socket : ChunkedStream UInt8} {rest : Nat}
  (headed : sizeofResponseHeader ≤ socket.items.length)
  (remaining : remainingLength (responseLength socket.items) = rest)

include headed remaining

/-- The writes after a header: they end where the stream or the body does. -/
theorem responseWrites_below_iff :
    (∀ write ∈ responseWrites socket, write.limit ≤ sizeofResponseBuf) ↔
      sizeofResponseHeader + min rest (socket.items.length - sizeofResponseHeader) ≤
        sizeofResponseBuf := by
  obtain ⟨read, left⟩ := ChunkedStream.readExactly_of_le headed
  have room : sizeofResponseHeader ≤ sizeofResponseBuf := by decide
  have first : MemoryWrite.limit ⟨0, socket.items.take sizeofResponseHeader⟩ ≤
      sizeofResponseBuf := by
    simp only [MemoryWrite.limit, List.length_take]
    omega
  simp only [responseWrites, read, List.forall_mem_cons, responseLength_take, remaining]
  rw [ChunkedStream.readInto_below_iff room, left, List.length_drop]
  exact and_iff_right first

/-- A stream that has the whole body gives it, and the buffer holds what has been read. -/
theorem readResponse_of_whole (whole : rest ≤ socket.items.length - sizeofResponseHeader)
    (buf : Memory) :
    ∃ response, (readResponse socket).1 = some response ∧
      response.buf = socket.items.take (sizeofResponseHeader + rest) ∧
      bufferAfter buf socket = MemoryWrite.apply buf ⟨0, response.buf⟩ := by
  obtain ⟨read, left⟩ := ChunkedStream.readExactly_of_le headed
  have enough : rest ≤ (socket.readExactly sizeofResponseHeader).2.items.length := by
    rw [left, List.length_drop]
    exact whole
  have body := (ChunkedStream.readExactly_of_le enough).1
  rw [left] at body
  have size : (socket.items.take sizeofResponseHeader).length = sizeofResponseHeader := by
    simp [headed]
  have bytes := @List.take_add _ socket.items sizeofResponseHeader rest
  rw [bytes]
  refine ⟨⟨_, responseLength socket.items⟩, ?_, rfl, ?_⟩
  · simp only [readResponse, read, responseLength_take, remaining, body, Option.map_some]
  · have end_to_end := MemoryWrite.apply_append buf 0 (socket.items.take sizeofResponseHeader)
      ((socket.items.drop sizeofResponseHeader).take rest)
    rw [size, Nat.zero_add] at end_to_end
    simp only [bufferAfter, responseWrites, read, responseLength_take, remaining,
      MemoryWrite.applyAll_cons, ChunkedStream.applyAll_readInto, left]
    exact end_to_end

/-- A stream that ends within the body fails the call. -/
theorem readResponse_of_missing
    (missing : socket.items.length - sizeofResponseHeader < rest) :
    (readResponse socket).1 = none := by
  obtain ⟨read, left⟩ := ChunkedStream.readExactly_of_le headed
  have short : (socket.readExactly sizeofResponseHeader).2.items.length < rest := by
    rw [left, List.length_drop]
    exact missing
  simp [readResponse, read, responseLength_take, remaining, ChunkedStream.readExactly_of_lt short]

end OneCall

/-- The body is what the length says is left, and beyond all buffers if the length is less than a
header's. -/
theorem remainingLength_cases {length : Nat} (word : length < 2 ^ 16) :
    (sizeofResponseHeader ≤ length ∧ remainingLength length = length - sizeofResponseHeader) ∨
      (length < sizeofResponseHeader ∧ 2 ^ 63 < remainingLength length) := by
  rw [remainingLength]
  simp only [sizeofResponseHeader]
  omega

end OEClient

theorem responseLength_lt (bytes : List UInt8) : responseLength bytes < 2 ^ 16 := by
  have low := (bytes.getD 0 0).toNat_lt
  have high := (bytes.getD (0 + 1) 0).toNat_lt
  simp only [responseLength, word]
  omega

namespace ResponseCaller

open OEClient

/-- One call of `read_response` writes nothing behind the buffer, and after it the caller reads
nothing but bytes of the message that has been read. -/
def StaysWithin (caller : ResponseCaller) (buf : Memory) (socket : ChunkedStream UInt8) : Prop :=
  (∀ write ∈ responseWrites socket, write.limit ≤ sizeofResponseBuf) ∧
    ∀ response, (readResponse socket).1 = some response →
      ∀ extent ∈ caller.reads (bufferAfter buf socket), extent.Within response.buf.length

/-- How long a message must be for its caller's fields.  `login` does not look at the type. -/
def needs (caller : ResponseCaller) (bytes : List UInt8) : Nat :=
  match caller with
  | .login => 25
  | .waitForResponse | .waitForFill =>
      match ResponseType.ofByte (bytes.getD 2 0) with
      | .ACK => 24
      | .REJECT => 25
      | .FILL => 33
      | .CLOSE => 24
      | .other => 3

/-- The fields are all within a message just if it is long enough. -/
theorem reads_within_iff (caller : ResponseCaller) {buf : Memory} {bytes : List UInt8}
    (type : buf 2 = bytes.getD 2 0) (length : Nat) :
    (∀ extent ∈ caller.reads buf, extent.Within length) ↔ caller.needs bytes ≤ length := by
  have message : (∀ extent ∈ messageFields buf, extent.Within length) ↔
      waitForFill.needs bytes ≤ length := by
    simp only [messageFields, needs, ← type]
    cases ResponseType.ofByte (buf 2) <;>
      simp [Extent.Within, responseTypeAt, responseOrderIdAt, rejectReasonAt, fillFlagsAt,
        fillQuantityAt, fillPriceAt] <;> omega
  cases caller with
  | login =>
      simp only [reads, loginFields, needs]
      split
      · simp [Extent.Within, statusAt]
      · simp [Extent.Within, statusAt, sessionIdAt]
        omega
  | waitForResponse => exact message
  | waitForFill => exact message

section OneCall

variable {caller : ResponseCaller} {buf : Memory} {socket : ChunkedStream UInt8} {rest : Nat}
  (headed : sizeofResponseHeader ≤ socket.items.length)
  (remaining : remainingLength (responseLength socket.items) = rest)

include headed remaining

/-- A stream that has no whole message is safe as long as it ends within the buffer. -/
theorem staysWithin_of_none (missing : socket.items.length - sizeofResponseHeader < rest) :
    caller.StaysWithin buf socket ↔ socket.items.length ≤ sizeofResponseBuf := by
  have nothing := readResponse_of_missing headed remaining missing
  rw [StaysWithin, responseWrites_below_iff headed remaining, nothing]
  simp only [sizeofResponseHeader, sizeofResponseBuf] at headed missing ⊢
  constructor
  · rintro ⟨below, -⟩
    omega
  · intro below
    exact ⟨by omega, fun response impossible => by cases impossible⟩

/-- A whole message is safe if it fits the buffer and its fields are within it. -/
theorem staysWithin_of_whole (whole : rest ≤ socket.items.length - sizeofResponseHeader) :
    caller.StaysWithin buf socket ↔
      sizeofResponseHeader + rest ≤ sizeofResponseBuf ∧
        caller.needs socket.items ≤ sizeofResponseHeader + rest := by
  obtain ⟨response, read, bytes, after⟩ := readResponse_of_whole headed remaining whole buf
  have size : response.buf.length = sizeofResponseHeader + rest := by
    rw [bytes, List.length_take]
    omega
  have type : bufferAfter buf socket 2 = socket.items.getD 2 0 := by
    have early : 2 < sizeofResponseHeader + rest := by
      simp only [sizeofResponseHeader]
      omega
    have present : 2 < socket.items.length := by
      simp only [sizeofResponseHeader] at headed
      omega
    rw [after, MemoryWrite.apply_zero, bytes]
    simp [List.getD_eq_getElem?_getD, early, List.getElem?_eq_getElem present]
  have fields : (∀ read, (readResponse socket).1 = some read →
      ∀ extent ∈ caller.reads (bufferAfter buf socket), extent.Within read.buf.length) ↔
        caller.needs socket.items ≤ response.buf.length := by
    rw [← reads_within_iff caller type]
    constructor
    · intro every
      exact every response read
    · intro every other same
      rw [read] at same
      cases same
      exact every
  rw [StaysWithin, responseWrites_below_iff headed remaining, fields, size, Nat.min_eq_left whole]

end OneCall

/-- A call is safe just in these two cases: a whole message of at least a header and at most the
buffer comes, long enough for what its caller reads; or none does, and the stream ends within the
buffer. -/
theorem staysWithin_iff (caller : ResponseCaller) (buf : Memory) (socket : ChunkedStream UInt8) :
    caller.StaysWithin buf socket ↔
      (sizeofResponseHeader ≤ responseLength socket.items ∧
          responseLength socket.items ≤ socket.items.length ∧
          responseLength socket.items ≤ sizeofResponseBuf ∧
          caller.needs socket.items ≤ responseLength socket.items) ∨
        (¬ (sizeofResponseHeader ≤ responseLength socket.items ∧
            responseLength socket.items ≤ socket.items.length) ∧
          socket.items.length ≤ sizeofResponseBuf) := by
  by_cases headed : sizeofResponseHeader ≤ socket.items.length
  · rcases remainingLength_cases (responseLength_lt socket.items) with
      ⟨long, remaining⟩ | ⟨short, remaining⟩
    · by_cases whole : responseLength socket.items ≤ socket.items.length
      · rw [staysWithin_of_whole headed remaining (by omega), Nat.add_sub_cancel' long]
        simp [long, whole]
      · rw [staysWithin_of_none headed remaining (by omega)]
        simp [whole]
    · -- the unsigned difference has wrapped, and no buffer has room for what is asked
      obtain ⟨rest, wrapped⟩ : ∃ rest, remainingLength (responseLength socket.items) = rest :=
        ⟨_, rfl⟩
      rw [wrapped] at remaining
      have refused : ¬ sizeofResponseHeader ≤ responseLength socket.items := not_le.mpr short
      by_cases whole : rest ≤ socket.items.length - sizeofResponseHeader
      · rw [staysWithin_of_whole headed wrapped whole]
        have tooMany : ¬ sizeofResponseHeader + rest ≤ sizeofResponseBuf := by
          simp only [sizeofResponseBuf]
          omega
        have tooLong : ¬ socket.items.length ≤ sizeofResponseBuf := by
          simp only [sizeofResponseBuf]
          omega
        simp [refused, tooMany, tooLong]
      · rw [staysWithin_of_none headed wrapped (not_le.mp whole)]
        simp [refused]
  · obtain ⟨nothing, unwritten⟩ := readResponse_of_short (not_le.mp headed)
    have safe : caller.StaysWithin buf socket := by
      rw [StaysWithin, nothing, unwritten]
      exact ⟨fun write member => absurd member List.not_mem_nil,
        fun response impossible => by cases impossible⟩
    refine iff_of_true safe (Or.inr ⟨?_, ?_⟩)
    · rintro ⟨long, whole⟩
      exact headed (long.trans whole)
    · simp only [sizeofResponseHeader, sizeofResponseBuf] at headed ⊢
      omega

/-- A peer's header says 300 bytes, and they come. -/
def longAck : ChunkedStream UInt8 where
  chunks := [[44, 1, 101, 1], List.replicate 296 0]
  nonempty := by decide

/-- A peer's header says 15 bytes, one less than its own. -/
def headlessClose : ChunkedStream UInt8 where
  chunks := [[15, 0, 104, 1], List.replicate 253 0]
  nonempty := by decide

/-- An ACK that is nothing but its header. -/
def emptyAck : ChunkedStream UInt8 where
  chunks := [[16, 0, 101, 1, 0, 0, 0, 0, 0, 0, 0, 0, 0, 0, 0, 0]]
  nonempty := by decide

/-- The first two go beyond the buffer, and the order id of the third is not in the message. -/
theorem not_staysWithin_of_peer :
    ¬ waitForResponse.StaysWithin (fun _ => 0) longAck ∧
      ¬ login.StaysWithin (fun _ => 0) headlessClose ∧
      ¬ waitForFill.StaysWithin (fun _ => 0) emptyAck := by
  refine ⟨?_, ?_, ?_⟩
  · have remaining : remainingLength (responseLength longAck.items) = 284 := by decide
    have size : longAck.items.length = 300 := by
      simp [longAck, ChunkedStream.items, -List.reduceReplicate]
    rw [staysWithin_of_whole (by simp [size, sizeofResponseHeader]) remaining
      (by simp [size, sizeofResponseHeader])]
    simp [sizeofResponseHeader, sizeofResponseBuf]
  · have remaining : remainingLength (responseLength headlessClose.items) = 2 ^ 64 - 1 := by decide
    have size : headlessClose.items.length = 257 := by
      simp [headlessClose, ChunkedStream.items, -List.reduceReplicate]
    rw [staysWithin_of_none (by simp [size, sizeofResponseHeader]) remaining
      (by simp [size, sizeofResponseHeader])]
    simp [size, sizeofResponseBuf]
  · have remaining : remainingLength (responseLength emptyAck.items) = 0 := by decide
    rw [staysWithin_of_whole (by decide) remaining (by decide)]
    decide

end ResponseCaller

/-! ### Safe calls read nothing that was there before -/

section Safe

variable {buf other : Memory} {socket : ChunkedStream UInt8} {response : ReadResponse}

/-- Whatever a call returns is what it has put over the start of the buffer. -/
theorem OEClient.bufferAfter_of_read (read : (OEClient.readResponse socket).1 = some response)
    (buf : Memory) :
    OEClient.bufferAfter buf socket = MemoryWrite.apply buf ⟨0, response.buf⟩ := by
  by_cases headed : sizeofResponseHeader ≤ socket.items.length
  · obtain ⟨rest, remaining⟩ :
        ∃ rest, OEClient.remainingLength (responseLength socket.items) = rest := ⟨_, rfl⟩
    by_cases whole : rest ≤ socket.items.length - sizeofResponseHeader
    · obtain ⟨same, reads, -, after⟩ := OEClient.readResponse_of_whole headed remaining whole buf
      rw [read] at reads
      cases reads
      exact after
    · rw [OEClient.readResponse_of_missing headed remaining (not_le.mp whole)] at read
      cases read
  · rw [(OEClient.readResponse_of_short (not_le.mp headed)).1] at read
    cases read

/-- Fields within the message are the message's, whatever the buffer held before. -/
theorem agrees_bufferAfter (read : (OEClient.readResponse socket).1 = some response)
    {extent : Extent} (within : extent.Within response.buf.length) :
    extent.Agrees (OEClient.bufferAfter buf socket) (OEClient.bufferAfter other socket) := by
  intro index _ below
  rw [Extent.Within] at within
  have present : index < response.buf.length := by omega
  rw [OEClient.bufferAfter_of_read read, OEClient.bufferAfter_of_read read,
    MemoryWrite.apply_zero, MemoryWrite.apply_zero]
  simp [List.getD_eq_getElem?_getD, List.getElem?_eq_getElem present]

/-- After a safe call the two reading loops see the message alone. -/
theorem readOeResponse_of_staysWithin (read : (OEClient.readResponse socket).1 = some response)
    (safe : ResponseCaller.waitForFill.StaysWithin buf socket) :
    readOeResponse (OEClient.bufferAfter buf socket) =
      readOeResponse (OEClient.bufferAfter other socket) := by
  apply readOeResponse_congr
  intro extent member
  exact agrees_bufferAfter read (safe.2 response read extent member)

/-- After a safe call a login goes by the message alone. -/
theorem login_of_staysWithin (safe : ResponseCaller.login.StaysWithin buf socket)
    (client : OEClient) (clientId : UInt32) :
    client.login clientId buf socket = client.login clientId other socket := by
  rw [OEClient.login, OEClient.login]
  cases read : (OEClient.readResponse socket).1 with
  | none => rfl
  | some response =>
      have view : readLoginResponse (OEClient.bufferAfter buf socket) =
          readLoginResponse (OEClient.bufferAfter other socket) := by
        apply readLoginResponse_congr
        intro extent member
        exact agrees_bufferAfter read (safe.2 response read extent member)
      simp only [view]

end Safe

end HftAlgorithms
