/-
Module: HftAlgorithms.Proofs.ResponseFraming
Purpose: However the TCP stream cuts the responses, `read_response` gives them back
  one by one, and it takes no byte of the next.
Trusted boundary: none
Main exports: ResponseFrame, OEClient.readResponse_of_frame,
  OEClient.readResponse_of_cut, OEClient.readResponse_of_frames
-/
import HftAlgorithms.OrderEntry.ReadResponse

namespace HftAlgorithms

/-- A response as it is sent: its length field is its size, which fits the callers' buffer. -/
structure ResponseFrame where
  bytes : List UInt8
  headed : sizeofResponseHeader ≤ bytes.length
  fits : bytes.length ≤ 256
  length_eq : responseLength bytes = bytes.length

/-- The length field lies within the header. -/
theorem responseLength_take (bytes : List UInt8) :
    responseLength (bytes.take sizeofResponseHeader) = responseLength bytes := by
  simp [responseLength, LittleEndian.word, sizeofResponseHeader, List.getD_eq_getElem?_getD]

namespace OEClient

theorem remainingLength_of_ge {length : Nat} (headed : sizeofResponseHeader ≤ length)
    (fits : length ≤ 256) : remainingLength length = length - sizeofResponseHeader := by
  rw [remainingLength]
  simp only [sizeofResponseHeader] at headed ⊢
  omega

/-! ### One call -/

section OneCall

variable {socket : ChunkedStream UInt8} (frame : ResponseFrame)

/-- The header is read off the start of a frame, whole or cut, and the rest stays. -/
theorem readHeader_of_prefix {sent later : List UInt8} (begins : sent <+: frame.bytes)
    (enough : sizeofResponseHeader ≤ sent.length) (toCome : socket.items = sent ++ later) :
    (socket.readExactly sizeofResponseHeader).1 = some (frame.bytes.take sizeofResponseHeader) ∧
      (socket.readExactly sizeofResponseHeader).2.items =
        sent.drop sizeofResponseHeader ++ later := by
  have long : sizeofResponseHeader ≤ socket.items.length := by
    simp only [toCome, List.length_append]
    omega
  obtain ⟨read, left⟩ := ChunkedStream.readExactly_of_le long
  rw [toCome, List.take_append_of_le_length enough] at read
  rw [toCome, List.drop_append_of_le_length enough] at left
  obtain ⟨missing, whole⟩ := begins
  refine ⟨?_, left⟩
  rw [read, ← whole, List.take_append_of_le_length enough]

/-- A call at the start of a whole frame returns it and leaves what comes after it. -/
theorem readResponse_of_frame {later : List UInt8} (toCome : socket.items = frame.bytes ++ later) :
    (readResponse socket).1 = some ⟨frame.bytes, frame.bytes.length⟩ ∧
      (readResponse socket).2.items = later := by
  obtain ⟨header, rest⟩ :=
    readHeader_of_prefix frame List.prefix_rfl frame.headed toCome
  have length : responseLength (frame.bytes.take sizeofResponseHeader) = frame.bytes.length := by
    rw [responseLength_take, frame.length_eq]
  have enough : frame.bytes.length - sizeofResponseHeader ≤
      (socket.readExactly sizeofResponseHeader).2.items.length := by
    simp [rest]
  obtain ⟨body, left⟩ := ChunkedStream.readExactly_of_le enough
  have size : (frame.bytes.drop sizeofResponseHeader).length =
      frame.bytes.length - sizeofResponseHeader := List.length_drop
  rw [rest, ← size, List.take_left] at body
  rw [rest, ← size, List.drop_left] at left
  simp only [readResponse, header, length, remainingLength_of_ge frame.headed frame.fits, ← size,
    body, left]
  simp

/-- A call on a stream that ends inside a frame returns false. -/
theorem readResponse_of_cut {cut : List UInt8} (begins : cut <+: frame.bytes)
    (inside : cut ≠ frame.bytes) (toCome : socket.items = cut) :
    (readResponse socket).1 = none := by
  have shorter : cut.length < frame.bytes.length := by
    rcases Nat.lt_or_ge cut.length frame.bytes.length with shorter | whole
    · exact shorter
    · exact absurd (begins.eq_of_length_le whole) inside
  by_cases enough : sizeofResponseHeader ≤ cut.length
  · have ends : socket.items = cut ++ [] := by rw [toCome, List.append_nil]
    obtain ⟨header, rest⟩ := readHeader_of_prefix frame begins enough ends
    have length : responseLength (frame.bytes.take sizeofResponseHeader) = frame.bytes.length := by
      rw [responseLength_take, frame.length_eq]
    have short : (socket.readExactly sizeofResponseHeader).2.items.length <
        frame.bytes.length - sizeofResponseHeader := by
      simp only [rest, List.append_nil, List.length_drop]
      omega
    simp only [readResponse, header, length, remainingLength_of_ge frame.headed frame.fits,
      ChunkedStream.readExactly_of_lt short]
    rfl
  · have short : socket.items.length < sizeofResponseHeader := by
      rw [toCome]
      exact Nat.lt_of_not_le enough
    simp [readResponse, ChunkedStream.readExactly_of_lt short]

end OneCall

/-! ### Successive calls -/

/-- After as many calls as whole frames have been sent, what is still to come is the rest. -/
theorem items_afterCalls {frames : List ResponseFrame} {later : List UInt8}
    {socket : ChunkedStream UInt8}
    (toCome : socket.items = frames.flatMap ResponseFrame.bytes ++ later) :
    (afterCalls frames.length socket).items = later := by
  induction frames generalizing socket with
  | nil => simpa [afterCalls] using toCome
  | cons frame frames inductionHypothesis =>
      rw [List.flatMap_cons, List.append_assoc] at toCome
      exact inductionHypothesis (readResponse_of_frame frame toCome).2

theorem afterCalls_succ (calls : Nat) (socket : ChunkedStream UInt8) :
    afterCalls (calls + 1) socket = (readResponse (afterCalls calls socket)).2 := by
  induction calls generalizing socket with
  | zero => rfl
  | succ calls inductionHypothesis => exact inductionHypothesis (readResponse socket).2

/-- The frames come over the stream in any pieces, and the stream may end inside a further one.
Each call returns the next frame, byte for byte, and takes just its bytes off the stream; the call
that meets the end returns false. -/
theorem readResponse_of_frames (frames : List ResponseFrame) (cut : List UInt8)
    (socket : ChunkedStream UInt8)
    (delivered : socket.items = frames.flatMap ResponseFrame.bytes ++ cut) :
    (∀ earlier frame later, frames = earlier ++ frame :: later →
      (readResponse (afterCalls earlier.length socket)).1 =
          some ⟨frame.bytes, frame.bytes.length⟩ ∧
        (afterCalls earlier.length socket).items =
          frame.bytes ++ (afterCalls (earlier.length + 1) socket).items) ∧
      ∀ frame : ResponseFrame, cut <+: frame.bytes → cut ≠ frame.bytes →
        (readResponse (afterCalls frames.length socket)).1 = none := by
  constructor
  · intro earlier frame later split
    have toCome : socket.items = earlier.flatMap ResponseFrame.bytes ++
        (frame.bytes ++ (later.flatMap ResponseFrame.bytes ++ cut)) := by
      simp [delivered, split]
    have here := items_afterCalls toCome
    obtain ⟨read, left⟩ := readResponse_of_frame frame here
    refine ⟨read, ?_⟩
    rw [here, afterCalls_succ, left]
  · intro frame begins inside
    exact readResponse_of_cut frame begins inside (items_afterCalls delivered)

/-- A CLOSE of order 7. -/
def closeFrame : ResponseFrame where
  bytes := [24, 0, 104, 1, 0, 0, 0, 0, 0, 0, 0, 0, 0, 0, 0, 0, 7, 0, 0, 0, 0, 0, 0, 0]
  headed := by decide
  fits := by decide
  length_eq := by decide

/-- The CLOSE twice, and then 20 bytes of a third; one piece has the first byte, one runs over both
borders between the frames. -/
def choppedCloses : ChunkedStream UInt8 where
  chunks := [closeFrame.bytes.take 1, closeFrame.bytes.drop 1 ++ closeFrame.bytes ++ [24],
    (closeFrame.bytes.take 20).drop 1]
  nonempty := by decide

theorem readResponse_of_frames_choppedCloses :
    (readResponse (afterCalls 1 choppedCloses)).1 = some ⟨closeFrame.bytes, 24⟩ ∧
      (readResponse (afterCalls 2 choppedCloses)).1 = none := by
  obtain ⟨frames, ended⟩ := readResponse_of_frames [closeFrame, closeFrame]
    (closeFrame.bytes.take 20) choppedCloses (by decide)
  exact ⟨(frames [closeFrame] closeFrame [] rfl).1,
    ended closeFrame (List.take_prefix 20 _) (by decide)⟩

end OEClient

end HftAlgorithms
