/-
Module: HftAlgorithms.Etf.ETFClient
Purpose: The HTTP client of the ETF service, `etf_client.cpp`: the requests it
  writes, and what it reads out of the responses by searching their text.
Trusted boundary: none
Main exports: base64Encode, ETFClient, ETFClient.new, extractBody, httpOk,
  parseResponse, ETFClient.postAmount, ETFClient.healthCheck, parseEntries,
  ETFClient.getPositions
-/
import HftAlgorithms.Arb.ETFArb
import HftAlgorithms.Lib.ChunkedStream
import HftAlgorithms.Lib.DecimalText
import HftAlgorithms.Lib.TextSearch

namespace HftAlgorithms

open DecimalText TextSearch

/-! ### Base64 -/

/-- `table` -/
def base64Table : List Char :=
  "ABCDEFGHIJKLMNOPQRSTUVWXYZabcdefghijklmnopqrstuvwxyz0123456789+/".toList

/-- `table[(val >> valb) & 0x3F]` -/
def base64Char (val : Int32) (valb : Int) : Char :=
  base64Table.getD ((val >>> Int32.ofInt valb) &&& 0x3F).toUInt32.toNat '='

/-- The variables of `base64_encode`. -/
structure Base64State where
  val : Int32
  valb : Int
  out : List Char
deriving DecidableEq, Repr

namespace Base64State

/-- The loop that writes the characters that are complete. -/
def emit (state : Base64State) : Base64State :=
  if 0 ≤ state.valb then
    emit { state with
      out := state.out ++ [base64Char state.val state.valb], valb := state.valb - 6 }
  else state
termination_by (state.valb + 6).toNat
decreasing_by omega

/-- One byte.  The accumulator is never masked: what has been written stays in it until it is
shifted out. -/
def step (state : Base64State) (byte : UInt8) : Base64State :=
  emit { state with
    val := (state.val <<< 8) + Int32.ofNat byte.toNat, valb := state.valb + 8 }

/-- The characters, with the bits that are left over as one more. -/
def finish (state : Base64State) : List Char :=
  if state.valb > -6 then state.out ++ [base64Char (state.val <<< 8) (state.valb + 8)]
  else state.out

end Base64State

/-- `while (out.size() % 4) out.push_back('=')` -/
def base64Pad (out : List Char) : List Char :=
  if out.length % 4 = 0 then out else base64Pad (out ++ ['='])
termination_by 3 - (out.length + 3) % 4
decreasing_by
  rw [List.length_append, List.length_singleton]
  omega

def base64Encode (input : List UInt8) : List Char :=
  base64Pad (input.foldl Base64State.step ⟨0, -6, []⟩).finish

/-! ### Requests

A `std::string` is the list of its characters, each of which stands for a byte. -/

structure ETFClient where
  host : List Char
  port : List Char
  teamName : List Char
  password : List Char
deriving DecidableEq, Repr

/-- The bytes of a string. -/
def stringBytes (text : List Char) : List UInt8 := text.map fun char => UInt8.ofNat char.toNat

/-- `parse_base_url`: host and port. -/
def parseBaseUrl (baseUrl : List Char) : List Char × List Char :=
  let scheme := "http://".toList
  let url := if scheme <+: baseUrl then baseUrl.drop scheme.length else baseUrl
  match find [':'] url 0 with
  | some colon => (substr url 0 colon, url.drop (colon + 1))
  | none => (url, "80".toList)

/-- `send_http_request`, given the connection: everything that comes until it is closed, nothing if
it failed. -/
def sendHttpRequest (connection : Option (ChunkedStream Char)) : List Char :=
  match connection with
  | none => []
  | some stream => stream.readAll 4096

namespace ETFClient

def new (baseUrl teamName password : List Char) : ETFClient :=
  { host := (parseBaseUrl baseUrl).1, port := (parseBaseUrl baseUrl).2, teamName := teamName
    password := password }

/-- The header lines that all requests end with, from `Host` on. -/
def hostLine (client : ETFClient) : List Char :=
  "Host: ".toList ++ client.host ++ ':' :: client.port ++ "\r\n".toList

def healthRequest (client : ETFClient) : List Char :=
  "GET /health HTTP/1.0\r\n".toList ++ client.hostLine ++ "Connection: close\r\n\r\n".toList

def postRequest (client : ETFClient) (endpoint : List Char) (amount : Int32) : List Char :=
  let body := "\x7b\"amount\":".toList ++ toText amount.toInt ++ ['\x7d']
  let auth := base64Encode (stringBytes (client.teamName ++ ':' :: client.password))
  "POST ".toList ++ endpoint ++ " HTTP/1.0\r\n".toList ++ client.hostLine ++
    "Authorization: Basic ".toList ++ auth ++ "\r\n".toList ++
    "Content-Type: application/json\r\n".toList ++
    "Content-Length: ".toList ++ toText body.length ++ "\r\n".toList ++
    "Connection: close\r\n\r\n".toList ++ body

def positionsRequest (client : ETFClient) (clientId : Int32) : List Char :=
  "GET /positions/".toList ++ toText clientId.toInt ++ " HTTP/1.0\r\n".toList ++
    client.hostLine ++ "Connection: close\r\n\r\n".toList

end ETFClient

/-! ### Responses -/

/-- `extract_body` -/
def extractBody (response : List Char) : List Char :=
  let sep := "\r\n\r\n".toList
  match find sep response 0 with
  | none => response
  | some pos => response.drop (pos + sep.length)

/-- `http_ok`: the search goes through the whole response. -/
def httpOk (response : List Char) : Bool :=
  (find "HTTP/1.0 200".toList response 0).isSome ||
    (find "HTTP/1.1 200".toList response 0).isSome

/-- Whether `"success"` is there, and what it is. -/
def parseSuccess (body : List Char) : Option Bool :=
  if (find "\"success\":true".toList body 0).isSome then some true
  else if (find "\"success\":false".toList body 0).isSome then some false
  else none

/-- `message`: to the next quote, which may be an escaped one. -/
def parseMessage (body : List Char) : List Char :=
  let key := "\"message\":\"".toList
  match find key body 0 with
  | none => body
  | some pos =>
      let start := pos + key.length
      match find ['"'] body start with
      | none => body
      | some stop => substr body start (stop - start)

/-- `undy_balance`, or -1. -/
def parseBalance (body : List Char) : Int32 :=
  let key := "\"undy_balance\":".toList
  match find key body 0 with
  | none => -1
  | some pos =>
      match stoi ((body.drop (pos + key.length)).dropWhile (· = ' ')) with
      | .ok balance => balance
      | .error _ => -1

def parseResponse (body : List Char) (httpOk : Bool) : ETFResult :=
  if httpOk then
    match parseSuccess body with
    | none =>
        { success := false
          message := String.ofList ("Unparseable response: ".toList ++ body), undyBalance := -1 }
    | some success =>
        { success := success, message := String.ofList (parseMessage body)
          undyBalance := parseBalance body }
  else
    { success := false, message := String.ofList ("HTTP error: ".toList ++ body)
      undyBalance := -1 }

/-- `post_amount`, once the response is there. -/
def answerOf (response : List Char) : ETFResult :=
  if response = [] then
    { success := false, message := "No response from ETF service", undyBalance := -1 }
  else if extractBody response = [] then
    { success := false, message := "Empty response body", undyBalance := -1 }
  else parseResponse (extractBody response) (httpOk response)

/-- `health_check`, once the response is there. -/
def isHealthy (response : List Char) : Bool :=
  if response = [] then false
  else (find "200".toList response 0).isSome && (find "\"ok\"".toList response 0).isSome

/-- The loop of `get_positions`, from the index `i` on.  An exception of `stoi` leaves the
function. -/
def parseEntries (block : List Char) (i : Nat) (positions : FiniteMap (List Char) Int32) :
    Except StoiError (FiniteMap (List Char) Int32) :=
  if i < block.length then
    match _tickerStart : find ['"'] block i with
    | none => .ok positions
    | some q1 =>
        match _tickerEnd : find ['"'] block (q1 + 1) with
        | none => .ok positions
        | some q2 =>
            let ticker := substr block (q1 + 1) (q2 - q1 - 1)
            match _valueStart : find [':'] block q2 with
            | none => .ok positions
            | some colon =>
                match stoi (block.drop (colon + 1)) with
                | .error error => .error error
                | .ok value =>
                    match _nextEntry : find [','] block colon with
                    | none => .ok (positions.insert ticker value)
                    | some comma =>
                        parseEntries block (comma + 1) (positions.insert ticker value)
  else .ok positions
termination_by block.length - i
decreasing_by
  have first := start_le_of_find _tickerStart
  have second := start_le_of_find _tickerEnd
  have third := start_le_of_find _valueStart
  have fourth := start_le_of_find _nextEntry
  omega

/-- `get_positions`, once the response is there. -/
def positionsOf (response : List Char) : Except StoiError (FiniteMap (List Char) Int32) :=
  let body := extractBody response
  match find "\"positions\":".toList body 0 with
  | none => .ok ∅
  | some pos =>
      match find ['\x7b'] body (pos + 12) with
      | none => .ok ∅
      | some start =>
          match find ['\x7d'] body start with
          | none => .ok ∅
          | some stop => parseEntries (substr body (start + 1) (stop - start - 1)) 0 ∅

namespace ETFClient

/-! The calls, over what becomes of their requests. -/

variable (client : ETFClient) (service : List Char → Option (ChunkedStream Char))

def postAmount (endpoint : List Char) (amount : Int32) : ETFResult :=
  answerOf (sendHttpRequest (service (client.postRequest endpoint amount)))

def create (amount : Int32) : ETFResult := client.postAmount service "/create".toList amount

def redeem (amount : Int32) : ETFResult := client.postAmount service "/redeem".toList amount

def healthCheck : Bool := isHealthy (sendHttpRequest (service client.healthRequest))

def getPositions (clientId : Int32) : Except StoiError (FiniteMap (List Char) Int32) :=
  positionsOf (sendHttpRequest (service (client.positionsRequest clientId)))

end ETFClient

end HftAlgorithms
