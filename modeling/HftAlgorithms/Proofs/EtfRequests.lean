/-
Module: HftAlgorithms.Proofs.EtfRequests
Purpose: The requests of the ETF client as the service reads them.  A reader that knows
  HTTP and Basic authorization only finds endpoint, host, user, password and amount,
  so that a create or redeem is a call of whatever the service does.
Trusted boundary: none
Main exports: readAmount, ETFClient.postMessage, ETFClient.getMessage, ETFClient.Sendable,
  ETFClient.Asks, ETFClient.requests_read_back, EtfCall, Tells, Serves, call_answered,
  calls_answered
-/
import HftAlgorithms.Lib.HttpRequest
import HftAlgorithms.Lib.NumberStream
import HftAlgorithms.Lib.StateMachine
import HftAlgorithms.Proofs.Base64Encoding
import HftAlgorithms.Proofs.EtfResponses
import HftAlgorithms.Proofs.HttpStatus

namespace HftAlgorithms

open DecimalText NumberStream TextSearch

/-! ### What the requests say -/

/-- What stands before the amount of a create or redeem. -/
def amountKey : List Char := "\x7b\"amount\":".toList

/-- The body of a create or redeem. -/
def amountText (amount : Int32) : List Char := amountKey ++ (toText amount.toInt ++ ['\x7d'])

/-- The amount that a body asks for. -/
def readAmount (body : List Char) : Option Int32 :=
  if amountKey <+: body then
    (extract fitInt32 (body.drop amountKey.length)).bind fun (amount, behind) =>
      if behind = ['\x7d'] then some amount else none
  else none

theorem readAmount_amountText (amount : Int32) : readAmount (amountText amount) = some amount := by
  have ends : NoDigit ['\x7d'] := by simp [NoDigit]
  have read := extract_toText (fitInt32_toInt amount) ends
  have begins : amountKey <+: amountText amount := List.prefix_append _ _
  have behind : (amountText amount).drop amountKey.length = toText amount.toInt ++ ['\x7d'] :=
    List.drop_left
  simp only [readAmount, if_pos begins, behind, read, Option.bind_some, if_true]

namespace ETFClient

variable (client : ETFClient)

def hostField : List Char × List Char := ("Host".toList, client.host ++ ':' :: client.port)

def authField : List Char × List Char :=
  ("Authorization".toList, "Basic ".toList ++
    base64Encode (stringBytes (client.teamName ++ ':' :: client.password)))

def closeField : List Char × List Char := ("Connection".toList, "close".toList)

/-- What `post_amount` asks for. -/
def postMessage (endpoint : List Char) (amount : Int32) : HttpRequest :=
  { method := "POST".toList
    target := endpoint
    version := "HTTP/1.0".toList
    fields := [client.hostField, client.authField,
      ("Content-Type".toList, "application/json".toList),
      ("Content-Length".toList, toText (amountText amount).length), closeField]
    body := amountText amount }

/-- What a request without a body asks for. -/
def getMessage (target : List Char) : HttpRequest :=
  { method := "GET".toList
    target := target
    version := "HTTP/1.0".toList
    fields := [client.hostField, closeField]
    body := [] }

/-! ### The requests are what they ask for -/

theorem hostLine_eq :
    client.hostLine = HttpRequest.fieldLine client.hostField ++ HttpRequest.lineEnd := by
  unfold hostLine hostField HttpRequest.fieldLine HttpRequest.lineEnd
  simp

/-- The line that closes the head. -/
theorem closeLine_eq :
    "Connection: close\r\n\r\n".toList =
      HttpRequest.fieldLine closeField ++ (HttpRequest.lineEnd ++ HttpRequest.lineEnd) := by
  unfold closeField HttpRequest.fieldLine HttpRequest.lineEnd
  simp

theorem postRequest_eq (endpoint : List Char) (amount : Int32) :
    client.postRequest endpoint amount = (client.postMessage endpoint amount).text := by
  have authKey : "Authorization: Basic ".toList =
      "Authorization".toList ++ ':' :: ' ' :: "Basic ".toList := by simp
  have typeLine : "Content-Type: application/json\r\n".toList =
      "Content-Type".toList ++ ':' :: ' ' :: ("application/json".toList ++ ['\r', '\n']) := by simp
  have lengthKey : "Content-Length: ".toList = "Content-Length".toList ++ [':', ' '] := by simp
  have lineEnd : "\r\n".toList = ['\r', '\n'] := by simp
  have method : "POST ".toList = "POST".toList ++ [' '] := by simp
  have version : " HTTP/1.0\r\n".toList = ' ' :: ("HTTP/1.0".toList ++ ['\r', '\n']) := by simp
  unfold postRequest postMessage HttpRequest.text HttpRequest.requestLine authField amountText
    amountKey
  simp only [hostLine_eq, closeLine_eq, HttpRequest.fieldLine, HttpRequest.lineEnd, authKey,
    typeLine, lengthKey, lineEnd, method, version, List.flatMap_cons, List.flatMap_nil,
    List.append_assoc, List.cons_append, List.nil_append]

theorem getRequest_eq (target : List Char) :
    "GET ".toList ++ target ++ " HTTP/1.0\r\n".toList ++ client.hostLine ++
        "Connection: close\r\n\r\n".toList = (client.getMessage target).text := by
  have method : "GET ".toList = "GET".toList ++ [' '] := by simp
  have version : " HTTP/1.0\r\n".toList = ' ' :: ("HTTP/1.0".toList ++ ['\r', '\n']) := by simp
  unfold getMessage HttpRequest.text HttpRequest.requestLine
  simp only [hostLine_eq, closeLine_eq, HttpRequest.fieldLine, HttpRequest.lineEnd, method,
    version, List.flatMap_cons, List.flatMap_nil, List.append_assoc, List.cons_append,
    List.nil_append, List.append_nil]

theorem healthRequest_eq : client.healthRequest = (client.getMessage "/health".toList).text := by
  have start : "GET /health HTTP/1.0\r\n".toList =
      "GET ".toList ++ "/health".toList ++ " HTTP/1.0\r\n".toList := by simp
  unfold healthRequest
  rw [start, getRequest_eq]

theorem positionsRequest_eq (clientId : Int32) :
    client.positionsRequest clientId =
      (client.getMessage ("/positions/".toList ++ toText clientId.toInt)).text := by
  have start : "GET /positions/".toList = "GET ".toList ++ "/positions/".toList := by simp
  unfold positionsRequest
  rw [start, ← getRequest_eq, List.append_assoc "GET ".toList]

/-! ### They are read as what they ask for -/

/-- Host, port and team name keep to their places in a request. -/
structure Sendable (client : ETFClient) : Prop where
  host : InLine client.host
  port : InLine client.port
  noSpace : ' ' ∉ client.host
  teamName : 58 ∉ stringBytes client.teamName

theorem inLine_append {text more : List Char} :
    InLine (text ++ more) ↔ InLine text ∧ InLine more := by
  simp only [InLine, List.mem_append, not_or]
  tauto

theorem inLine_toText (value : Int) : InLine (toText value) :=
  ⟨notMem_toText (by decide) (by decide), notMem_toText (by decide) (by decide)⟩

theorem inLine_base64Encode (input : List UInt8) : InLine (base64Encode input) := by
  rw [base64Encode_eq_encode]
  constructor
  · intro member
    exact absurd (Base64.mem_encode member) (by decide)
  · intro member
    exact absurd (Base64.mem_encode member) (by decide)

variable {client}

theorem Sendable.inLine_hostField (sendable : client.Sendable) :
    InLine (HttpRequest.fieldLine client.hostField) := by
  have name : InLine "Host: ".toList := by decide
  have colon : InLine [':'] := by decide
  have whole : HttpRequest.fieldLine client.hostField =
      "Host: ".toList ++ (client.host ++ ([':'] ++ client.port)) := by
    unfold hostField HttpRequest.fieldLine
    simp
  simp only [whole, inLine_append, name, colon, sendable.host, sendable.port, and_self]

theorem inLine_authField : InLine (HttpRequest.fieldLine client.authField) := by
  have name : InLine "Authorization: Basic ".toList := by decide
  have whole : HttpRequest.fieldLine client.authField = "Authorization: Basic ".toList ++
      base64Encode (stringBytes (client.teamName ++ ':' :: client.password)) := by
    unfold authField HttpRequest.fieldLine
    simp
  simp only [whole, inLine_append, name, inLine_base64Encode, and_self]

theorem dropWhile_hostField (sendable : client.Sendable) :
    client.hostField.2.dropWhile (· = ' ') = client.hostField.2 := by
  have spaceless := sendable.noSpace
  unfold hostField
  cases host : client.host with
  | nil => simp
  | cons first others =>
      rw [host, List.mem_cons, not_or] at spaceless
      have visible : first ≠ ' ' := fun same => spaceless.1 same.symm
      simp [visible]

theorem dropWhile_toText (value : Int) : (toText value).dropWhile (· = ' ') = toText value := by
  obtain ⟨char, later, written, kind⟩ := head_toText value
  have visible : char ≠ ' ' := by
    rintro rfl
    rcases kind with digit | minus
    · exact absurd digit (by decide)
    · exact absurd minus (by decide)
  simp [written, visible]

theorem leadingDigits_toText (count : Nat) : leadingDigits (toText count) = some count := by
  have read := @leadingDigits_toDigits count [] (by simp [NoDigit])
  have written : toText count = Nat.toDigits 10 count := by
    have positive : ¬ (count : Int) < 0 := by omega
    rw [toText, if_neg positive, Int.natAbs_natCast]
  rw [written]
  rwa [List.append_nil] at read

theorem inLine_requestLine {method endpoint : List Char} (ofMethod : InLine method)
    (inLine : InLine endpoint) :
    InLine (method ++ ' ' :: (endpoint ++ ' ' :: "HTTP/1.0".toList)) := by
  have space : InLine [' '] := by decide
  have version : InLine (' ' :: "HTTP/1.0".toList) := by decide
  rw [inLine_append, ← List.singleton_append, inLine_append, inLine_append]
  exact ⟨ofMethod, space, inLine, version⟩

theorem inLine_closeField : InLine (HttpRequest.fieldLine closeField) := by decide

theorem inLine_lengthField (count : Nat) :
    InLine (HttpRequest.fieldLine ("Content-Length".toList, toText count)) := by
  have name : InLine "Content-Length: ".toList := by decide
  have whole : HttpRequest.fieldLine ("Content-Length".toList, toText count) =
      "Content-Length: ".toList ++ toText count := by
    unfold HttpRequest.fieldLine
    simp
  simp only [whole, inLine_append, name, inLine_toText, and_self]

/-- What is posted can be read back. -/
theorem wellFormed_postMessage (sendable : client.Sendable) {endpoint : List Char}
    (inLine : InLine endpoint) (spaceless : ' ' ∉ endpoint) (amount : Int32) :
    (client.postMessage endpoint amount).WellFormed := by
  have method : ' ' ∉ "POST".toList ∧ InLine "POST".toList := by decide
  have length : HttpRequest.contentLength (client.postMessage endpoint amount).fields =
      leadingDigits (toText (amountText amount).length) := by
    unfold HttpRequest.contentLength postMessage hostField authField
    simp [List.lookup_cons]
  constructor
  · exact method.1
  · exact spaceless
  · exact inLine_requestLine method.2 inLine
  · unfold postMessage hostField authField closeField
    simp only [List.forall_mem_cons]
    simp
  · have basic : client.authField.2.dropWhile (· = ' ') = client.authField.2 := by
      unfold authField
      simp
    unfold postMessage
    simp only [List.forall_mem_cons]
    exact ⟨dropWhile_hostField sendable, basic, by simp, dropWhile_toText _, by decide, by simp⟩
  · unfold postMessage
    simp only [List.forall_mem_cons]
    exact ⟨sendable.inLine_hostField, inLine_authField, by decide, inLine_lengthField _,
      inLine_closeField, by simp⟩
  · rw [length, leadingDigits_toText]
    rfl

theorem wellFormed_getMessage (sendable : client.Sendable) {target : List Char}
    (inLine : InLine target) (spaceless : ' ' ∉ target) :
    (client.getMessage target).WellFormed := by
  have method : ' ' ∉ "GET".toList ∧ InLine "GET".toList := by decide
  constructor
  · exact method.1
  · exact spaceless
  · exact inLine_requestLine method.2 inLine
  · unfold getMessage hostField closeField
    simp only [List.forall_mem_cons]
    simp
  · unfold getMessage
    simp only [List.forall_mem_cons]
    exact ⟨dropWhile_hostField sendable, by decide, by simp⟩
  · unfold getMessage
    simp only [List.forall_mem_cons]
    exact ⟨sendable.inLine_hostField, inLine_closeField, by simp⟩
  · unfold HttpRequest.contentLength getMessage hostField closeField
    simp [List.lookup_cons]

/-- The service finds the credentials of the team. -/
theorem credentials_postMessage (sendable : client.Sendable) (endpoint : List Char)
    (amount : Int32) :
    (client.postMessage endpoint amount).credentials =
      some (stringBytes client.teamName, stringBytes client.password) := by
  have value : (client.postMessage endpoint amount).fields.lookup "Authorization".toList =
      some client.authField.2 := by
    unfold postMessage hostField authField
    simp [List.lookup_cons]
  have begins : "Basic ".toList <+: client.authField.2 := List.prefix_append _ _
  have encoded : client.authField.2.drop "Basic ".toList.length =
      base64Encode (stringBytes (client.teamName ++ ':' :: client.password)) := List.drop_left
  have bytes : stringBytes (client.teamName ++ ':' :: client.password) =
      stringBytes client.teamName ++ 58 :: stringBytes client.password := by
    simp [stringBytes]
  have decoded := Base64.decode_encode (stringBytes (client.teamName ++ ':' :: client.password))
  rw [← base64Encode_eq_encode] at decoded
  have cut := HttpRequest.cutAt_append sendable.teamName (stringBytes client.password)
  unfold HttpRequest.credentials
  simp only [value, Option.bind_eq_bind, Option.bind_some, if_pos begins, encoded, decoded]
  rw [bytes, cut]

theorem new_eq {host : List Char} (noColon : ':' ∉ host) (port teamName password : List Char) :
    new ("http://".toList ++ (host ++ ':' :: port)) teamName password =
      ⟨host, port, teamName, password⟩ := by
  have stripped : ("http://".toList ++ (host ++ ':' :: port)).drop "http://".toList.length =
      host ++ ':' :: port := List.drop_left
  have scheme : "http://".toList <+: "http://".toList ++ (host ++ ':' :: port) :=
    List.prefix_append _ _
  have colon : find [':'] (host ++ ':' :: port) 0 = some host.length :=
    find_zero_of_skips (skips_of_notMem noColon _) (List.prefix_append [':'] port)
  have before : substr (host ++ ':' :: port) 0 host.length = host :=
    substr_append [] host (':' :: port)
  have behind : (host ++ ':' :: port).drop (host.length + 1) = port := by simp
  unfold new parseBaseUrl
  simp only [if_pos scheme, stripped, colon, before, behind]

/-- The text is read as a request of the method for the target, at the host. -/
structure Asks (text method target host : List Char) (request : HttpRequest) : Prop where
  read : HttpRequest.read text = some request
  method : request.method = method
  target : request.target = target
  version : request.version = "HTTP/1.0".toList
  host : request.fields.lookup "Host".toList = some host

theorem asks_postRequest (sendable : client.Sendable) {endpoint : List Char}
    (inLine : InLine endpoint) (spaceless : ' ' ∉ endpoint) (amount : Int32) :
    Asks (client.postRequest endpoint amount) "POST".toList endpoint
      (client.host ++ ':' :: client.port) (client.postMessage endpoint amount) := by
  have read := HttpRequest.read_text (wellFormed_postMessage sendable inLine spaceless amount)
  rw [← postRequest_eq] at read
  constructor
  · exact read
  · rfl
  · rfl
  · rfl
  · unfold postMessage hostField
    simp

theorem asks_getMessage (sendable : client.Sendable) {target : List Char} (inLine : InLine target)
    (spaceless : ' ' ∉ target) :
    Asks (client.getMessage target).text "GET".toList target (client.host ++ ':' :: client.port)
      (client.getMessage target) := by
  constructor
  · exact HttpRequest.read_text (wellFormed_getMessage sendable inLine spaceless)
  · rfl
  · rfl
  · rfl
  · unfold getMessage hostField
    simp

/-- Whoever knows the format finds in each request what the client was asked to ask for. -/
theorem requests_read_back {host port teamName : List Char} (hostInLine : InLine host)
    (noColon : ':' ∉ host) (noSpace : ' ' ∉ host) (portInLine : InLine port)
    (user : 58 ∉ stringBytes teamName) (password : List Char) :
    let client := new ("http://".toList ++ (host ++ ':' :: port)) teamName password
    (∀ endpoint amount, InLine endpoint → ' ' ∉ endpoint → ∃ request,
      Asks (client.postRequest endpoint amount) "POST".toList endpoint (host ++ ':' :: port)
          request ∧
        request.credentials = some (stringBytes teamName, stringBytes password) ∧
        readAmount request.body = some amount) ∧
      (∃ request, Asks client.healthRequest "GET".toList "/health".toList (host ++ ':' :: port)
        request ∧ request.body = []) ∧
      ∀ clientId, ∃ request,
        Asks (client.positionsRequest clientId) "GET".toList
          ("/positions/".toList ++ toText clientId.toInt) (host ++ ':' :: port) request ∧
          request.body = [] := by
  rw [new_eq noColon]
  have sendable : Sendable ⟨host, port, teamName, password⟩ :=
    ⟨hostInLine, portInLine, noSpace, user⟩
  refine ⟨?_, ?_, ?_⟩
  · intro endpoint amount inLine spaceless
    exact ⟨_, asks_postRequest sendable inLine spaceless amount,
      credentials_postMessage sendable endpoint amount, readAmount_amountText amount⟩
  · rw [healthRequest_eq]
    exact ⟨_, asks_getMessage sendable (by decide) (by decide), rfl⟩
  · intro clientId
    have path : InLine "/positions/".toList ∧ ' ' ∉ "/positions/".toList := by decide
    have inLine : InLine ("/positions/".toList ++ toText clientId.toInt) :=
      inLine_append.mpr ⟨path.1, inLine_toText _⟩
    have spaceless : ' ' ∉ "/positions/".toList ++ toText clientId.toInt := by
      simp only [List.mem_append, path.2, false_or]
      exact notMem_toText (by decide) (by decide)
    rw [positionsRequest_eq]
    exact ⟨_, asks_getMessage sendable inLine spaceless, rfl⟩

theorem requests_read_back_group8 :
    let client := new "http://129.74.160.245:5000".toList "group8".toList "pass:word".toList
    ∃ request, Asks (client.postRequest "/redeem".toList (-7)) "POST".toList "/redeem".toList
        "129.74.160.245:5000".toList request ∧
      request.credentials = some (stringBytes "group8".toList, stringBytes "pass:word".toList) ∧
      readAmount request.body = some (-7) := by
  have back := (@requests_read_back "129.74.160.245".toList "5000".toList "group8".toList
    (by decide) (by decide) (by decide) (by decide) (by decide) "pass:word".toList).1
    "/redeem".toList (-7) (by decide) (by decide)
  exact back

end ETFClient

/-! ### Calls of the service

What the service is and does is not part of the program.  Here it is a server with a state, and
what it does to that state is a function of its own. -/

/-- What the service answers. -/
structure EtfAnswer where
  success : Bool
  message : List Char
  undyBalance : Int32
deriving DecidableEq, Repr

inductive EtfCall where
  | create (amount : Int32)
  | redeem (amount : Int32)
deriving DecidableEq, Repr

namespace EtfCall

def endpoint : EtfCall → List Char
  | create _ => "/create".toList
  | redeem _ => "/redeem".toList

def amount : EtfCall → Int32
  | create amount => amount
  | redeem amount => amount

/-- The client's call, and what it returns. -/
def result (client : ETFClient) (service : List Char → Option (ChunkedStream Char)) :
    EtfCall → ETFResult
  | create amount => client.create service amount
  | redeem amount => client.redeem service amount

theorem result_eq (client : ETFClient) (service : List Char → Option (ChunkedStream Char))
    (call : EtfCall) :
    call.result client service = client.postAmount service call.endpoint call.amount := by
  cases call <;> rfl

theorem inLine_endpoint (call : EtfCall) : InLine call.endpoint ∧ ' ' ∉ call.endpoint := by
  have create : InLine "/create".toList ∧ ' ' ∉ "/create".toList := by decide
  have redeem : InLine "/redeem".toList ∧ ' ' ∉ "/redeem".toList := by decide
  cases call
  · exact create
  · exact redeem

end EtfCall

/-- The client has understood the answer. -/
structure Tells (result : ETFResult) (answer : EtfAnswer) : Prop where
  success : result.success = answer.success
  undyBalance : result.undyBalance = answer.undyBalance
  message : (∀ char ∈ answer.message, ¬ JsonText.MustEscape char) →
    result.message = String.ofList answer.message

/-- A response that is understood: code 200, and the answer in its body. -/
structure CarriesAnswer (stream : ChunkedStream Char) (answer : EtfAnswer) (response : HttpResponse)
    (written : List Char) : Prop where
  arrives : stream.items = response.text
  code : response.status.code = 200
  version : response.FirstVersion
  escapes : JsonText.Escapes answer.message written
  body : ∃ afterSuccess afterMessage beforeBalance, response.body =
    answerBody answer.success written answer.undyBalance afterSuccess afterMessage beforeBalance

section Calls

variable {σ : Type*} {server : σ → List Char → Option (ChunkedStream Char) × σ}
  {act : σ → EtfCall → EtfAnswer × σ}

/-- The server answers each post under the right credentials with what the service does. -/
def Serves (server : σ → List Char → Option (ChunkedStream Char) × σ)
    (act : σ → EtfCall → EtfAnswer × σ) (user password : List UInt8) : Prop :=
  ∀ state text request (call : EtfCall), HttpRequest.read text = some request →
    request.method = "POST".toList → request.target = call.endpoint →
    request.credentials = some (user, password) → readAmount request.body = some call.amount →
    (server state text).2 = (act state call).2 ∧ ∃ stream response written,
      (server state text).1 = some stream ∧ CarriesAnswer stream (act state call).1 response written

/-- What a call makes of the server. -/
def ETFClient.served (client : ETFClient)
    (server : σ → List Char → Option (ChunkedStream Char) × σ) (state : σ) (call : EtfCall) : σ :=
  (server state (client.postRequest call.endpoint call.amount)).2

theorem tells_of_carriesAnswer {client : ETFClient}
    {service : List Char → Option (ChunkedStream Char)} {endpoint : List Char} {amount : Int32}
    {stream : ChunkedStream Char} {answer : EtfAnswer} {response : HttpResponse}
    {written : List Char}
    (answers : service (client.postRequest endpoint amount) = some stream)
    (carries : CarriesAnswer stream answer response written) :
    Tells (client.postAmount service endpoint amount) answer := by
  obtain ⟨afterSuccess, afterMessage, beforeBalance, body⟩ := carries.body
  have stringBody := carries.escapes.stringBody
  have ok : httpOk response.text = true :=
    (httpOk_text_iff response).mpr (Or.inl ⟨carries.code, carries.version⟩)
  have some_body : response.body ≠ [] := by
    rw [body]
    unfold answerBody answerHead
    simp
  have passed : passedOk response.text = some true := by
    rw [passedOk, extractBody_text, if_neg (by simp [text_ne_nil, some_body]), ok]
  have read := @parseSuccess_answerBody answer.success written answer.undyBalance afterSuccess
    afterMessage beforeBalance stringBody
  rw [client.postAmount_eq carries.arrives answers, answerOf_eq_passedOk passed, extractBody_text,
    body]
  constructor
  · simp only [parseResponse, if_true, read]
  · simp only [parseResponse, if_true, read, parseBalance_answerBody stringBody]
  · intro plain
    have same := carries.escapes.eq_of_plain plain
    have quoteless : '"' ∉ written := by
      rw [same]
      intro member
      exact plain _ member (by decide)
    simp only [parseResponse, if_true, read, parseMessage_answerBody quoteless]
    rw [same]

/-- One call. -/
theorem call_answered {client : ETFClient} (sendable : client.Sendable)
    (serves : Serves server act (stringBytes client.teamName) (stringBytes client.password))
    (state : σ) (call : EtfCall) :
    client.served server state call = (act state call).2 ∧
      Tells (call.result client fun request => (server state request).1) (act state call).1 := by
  obtain ⟨inLine, spaceless⟩ := call.inLine_endpoint
  have asks := client.asks_postRequest sendable inLine spaceless call.amount
  obtain ⟨state_eq, stream, response, written, answers, carries⟩ := serves state _ _ call asks.read
    asks.method asks.target (client.credentials_postMessage sendable _ _) (readAmount_amountText _)
  rw [EtfCall.result_eq]
  exact ⟨state_eq, tells_of_carriesAnswer answers carries⟩

/-- Any number of calls: the client returns what the service answers, call by call, and the service
does what it was asked to, once for each call and in their order. -/
theorem calls_answered {host port teamName password : List Char} (hostInLine : InLine host)
    (noColon : ':' ∉ host) (noSpace : ' ' ∉ host) (portInLine : InLine port)
    (user : 58 ∉ stringBytes teamName)
    (serves : Serves server act (stringBytes teamName) (stringBytes password)) (state : σ)
    (calls : List EtfCall) :
    let client := ETFClient.new ("http://".toList ++ (host ++ ':' :: port)) teamName password
    calls.foldl (client.served server) state =
        calls.foldl (fun before call => (act before call).2) state ∧
      List.Forall₂ Tells
        (StateMachine.emitted (client.served server)
          (fun before call => [call.result client fun request => (server before request).1])
          state calls)
        (StateMachine.emitted (fun before call => (act before call).2)
          (fun before call => [(act before call).1]) state calls) := by
  rw [ETFClient.new_eq noColon]
  have sendable : ETFClient.Sendable ⟨host, port, teamName, password⟩ :=
    ⟨hostInLine, portInLine, noSpace, user⟩
  have one := call_answered sendable serves
  constructor
  · exact congrArg (fun step => calls.foldl step state)
      (funext fun before => funext fun call => (one before call).1)
  · apply StateMachine.emitted_forall₂ fun before call => (one before call).1
    intro before call
    exact List.Forall₂.cons (one before call).2 List.Forall₂.nil

end Calls

/-! A service with one balance. -/

namespace BalanceService

def act (balance : Int32) : EtfCall → EtfAnswer × Int32
  | .create amount => (⟨true, "Created".toList, balance + amount⟩, balance + amount)
  | .redeem amount =>
      if amount ≤ balance then (⟨true, "Redeemed".toList, balance - amount⟩, balance - amount)
      else (⟨false, "Insufficient UNDY".toList, balance⟩, balance)

def response (status : StatusLine) (answer : EtfAnswer) : HttpResponse where
  status := status
  headers := ["Server: undy".toList]
  body := answerBody answer.success answer.message answer.undyBalance 1 1 1
  headerLines := by decide

/-- The response in one piece. -/
def stream (status : StatusLine) (answer : EtfAnswer) : ChunkedStream Char :=
  ⟨[(response status answer).text], List.forall_mem_singleton.mpr (text_ne_nil _)⟩

def callOf (request : HttpRequest) (amount : Int32) : EtfCall :=
  if request.target = "/create".toList then .create amount else .redeem amount

def server (status : StatusLine) (user password : List UInt8) (balance : Int32)
    (text : List Char) : Option (ChunkedStream Char) × Int32 :=
  match HttpRequest.read text with
  | none => (none, balance)
  | some request =>
      match readAmount request.body with
      | none => (none, balance)
      | some amount =>
          if request.credentials = some (user, password) then
            let answer := act balance (callOf request amount)
            (some (stream status answer.1), answer.2)
          else (none, balance)

theorem escapes_message (balance : Int32) (call : EtfCall) :
    JsonText.Escapes (act balance call).1.message (act balance call).1.message := by
  have created : JsonText.Escapes "Created".toList "Created".toList :=
    JsonText.escapes_self (by simp [JsonText.MustEscape])
  have redeemed : JsonText.Escapes "Redeemed".toList "Redeemed".toList :=
    JsonText.escapes_self (by simp [JsonText.MustEscape])
  have refused : JsonText.Escapes "Insufficient UNDY".toList "Insufficient UNDY".toList :=
    JsonText.escapes_self (by simp [JsonText.MustEscape])
  cases call with
  | create amount => exact created
  | redeem amount =>
      by_cases enough : amount ≤ balance
      · simpa only [act, if_pos enough] using redeemed
      · simpa only [act, if_neg enough] using refused

theorem serves {status : StatusLine} (code : status.code = 200)
    (version : status.major = 1 ∧ status.minor = 0) (user password : List UInt8) :
    Serves (server status user password) act user password := by
  intro balance text request call read method target credentials body
  have asked : callOf request call.amount = call := by
    have other : "/redeem".toList ≠ "/create".toList := by decide
    rw [callOf, target]
    cases call with
    | create amount => rfl
    | redeem amount => exact if_neg other
  have answered : server status user password balance text =
      (some (stream status (act balance call).1), (act balance call).2) := by
    rw [server, read]
    simp only [body, if_pos credentials, asked]
  rw [answered]
  refine ⟨rfl, _, response status (act balance call).1, (act balance call).1.message, rfl, ?_⟩
  constructor
  · simp [stream, ChunkedStream.items]
  · exact code
  · exact ⟨version.1, Or.inl version.2⟩
  · exact escapes_message balance call
  · exact ⟨1, 1, 1, rfl⟩

end BalanceService

/-- Five created and seven redeemed, of which there are only five. -/
theorem calls_answered_notEnough :
    let client := ETFClient.new "http://129.74.160.245:5000".toList "group8".toList
      "pass:word".toList
    let server := BalanceService.server ⟨1, 0, 2, 0, 0, "OK".toList, by decide⟩
      (stringBytes "group8".toList) (stringBytes "pass:word".toList)
    [EtfCall.create 5, .redeem 7].foldl (client.served server) 0 = 5 ∧
      List.Forall₂ Tells
        (StateMachine.emitted (client.served server)
          (fun before call => [call.result client fun request => (server before request).1])
          0 [.create 5, .redeem 7])
        [⟨true, "Created".toList, 5⟩, ⟨false, "Insufficient UNDY".toList, 5⟩] := by
  have answered := @calls_answered _ _ _ "129.74.160.245".toList "5000".toList "group8".toList
    "pass:word".toList (by decide) (by decide) (by decide) (by decide) (by decide)
    (@BalanceService.serves ⟨1, 0, 2, 0, 0, "OK".toList, by decide⟩ rfl ⟨rfl, rfl⟩ _ _)
    0 [.create 5, .redeem 7]
  exact answered

end HftAlgorithms
