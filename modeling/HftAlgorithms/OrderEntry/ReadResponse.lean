/-
Module: HftAlgorithms.OrderEntry.ReadResponse
Purpose: `read_response` of `oe_client.cpp`: a response is read off the TCP stream as
  its header, and then as many bytes more as the header's length field says.
Trusted boundary: none
Main exports: sizeofResponseHeader, responseLength, ReadResponse, OEClient.readResponse,
  OEClient.afterCalls
-/
import HftAlgorithms.Lib.ChunkedStream
import HftAlgorithms.Lib.LittleEndian

namespace HftAlgorithms

open LittleEndian

/-- `sizeof(oe_response_header)`: length, type, version, two sequence numbers, client id. -/
def sizeofResponseHeader : Nat := 16

/-- `header.length` -/
def responseLength (buf : List UInt8) : Nat := word (fun offset => buf.getD offset 0) 0 2

/-- What `read_response` leaves to its caller: the bytes it has written to the start of `buf`, and
`out_len`. -/
structure ReadResponse where
  buf : List UInt8
  outLen : Nat
deriving DecidableEq, Repr

namespace OEClient

/-- `hdr.length - sizeof(hdr)`, a `size_t`. -/
def remainingLength (length : Nat) : Nat := (length + 2 ^ 64 - sizeofResponseHeader) % 2 ^ 64

/-- `read_response`, which is `none` where the source returns false.  Nothing bounds the length by
the 256 bytes that the callers provide. -/
def readResponse (socket : ChunkedStream UInt8) : Option ReadResponse × ChunkedStream UInt8 :=
  let header := socket.readExactly sizeofResponseHeader
  match header.1 with
  | none => (none, header.2)
  | some hdr =>
      let body := header.2.readExactly (remainingLength (responseLength hdr))
      (body.1.map fun rest => ⟨hdr ++ rest, responseLength hdr⟩, body.2)

/-- The socket after some calls. -/
def afterCalls : Nat → ChunkedStream UInt8 → ChunkedStream UInt8
  | 0, socket => socket
  | calls + 1, socket => afterCalls calls (readResponse socket).2

end OEClient

end HftAlgorithms
