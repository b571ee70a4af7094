import AfsimNs3.Bridge.Response
import AfsimNs3.Bridge.Digest
import AfsimNs3.Lib.Loads

/-!
# The handler of a client (`JsonlTcpServer._handle_client`)

A line is decoded, read as JSON and given to `process`; what any of these raise is matched against the `except` clauses,
and the response is sent outside them. An exception none of them takes ends the handler, and with it the connection.

What the interpreter puts into texts of its own (`str` of a value that is no string, the texts of its exceptions) is
a parameter, `Interpreter`; such texts are printable.
-/

namespace AfsimNs3.Bridge

def maxJsonlBytes : ℕ := 5 * 1024 * 1024

/-- The interpreter the service runs on. -/
structure Interpreter where
  /-- The most digits of an integer `int` converts, if there is a limit. -/
  maxDigits : Option ℕ
  /-- `str(value)` of a value that is no string. -/
  repr : Json → Str
  decodeError : Bytes → Str
  /-- The `JSONDecodeError` of a text, or the `ValueError` of a constant or of a long integer in it. -/
  jsonError : Str → Str
  encodeError : Json → Str
  /-- The `ValueError` of `readline`. -/
  overrunError : Str
  repr_encodable : ∀ v, encodable (repr v) = true
  decodeError_encodable : ∀ line, encodable (decodeError line) = true
  jsonError_encodable : ∀ text, encodable (jsonError text) = true
  encodeError_encodable : ∀ payload, encodable (encodeError payload) = true
  overrunError_encodable : encodable overrunError = true

/-- The value of a number literal: no integer of too many digits. -/
def Interpreter.parseNumber (py : Interpreter) (n : Loads.Numeral) : Option Json :=
  if n.isInteger ∧ py.maxDigits.any (fun most => most < n.whole.length) then none else some n.value

/-! ## Responses -/

/-- The `ns3_ack` response. -/
def Ack.fields (ack : Ack) : Fields := [
  (str "protocol_version", .str protocolVersion),
  (str "message_type", .str (str "ns3_ack")),
  (str "request_id", .str ack.requestId),
  (str "timestamp_ms", .int ack.timestampMs),
  (str "revision", .int ack.revision),
  (str "status", .obj (statusFields (str "accepted"))),
  (str "queued", .bool true),
  (str "coalesced_revision", ack.coalescedRevision.elim .null (fun revision => .int revision)),
  (str "duplicate", .bool ack.duplicate)]

/-- `error_response` to a line. A `timestamp_ms` that is a boolean is an `int` to `isinstance` and stays one. -/
def errorResponse (message requestId : Str) (timestampMs : Json) (code : ℕ) : Fields := [
  (str "protocol_version", .str protocolVersion),
  (str "message_type", .str (str "ns3_error")),
  (str "request_id", .str requestId),
  (str "timestamp_ms", timestampMs),
  (str "revision", .int 0),
  (str "status", .obj [(str "code", .int code), (str "message", .str message)])]

/-- `str(payload.get("request_id", ""))`. -/
def echoedId (py : Interpreter) (payload : Json) : Str :=
  match payload with
  | .obj payload =>
    match Fields.getD payload (str "request_id") (.str []) with
    | .str requestId => requestId
    | v => py.repr v
  | _ => []

def echoedTimestamp (payload : Json) : Json :=
  match payload with
  | .obj payload =>
    match Fields.getD payload (str "timestamp_ms") (.int 0) with
    | .int n => .int n
    | .bool b => .bool b
    | _ => .int 0
  | _ => .int 0

/-- What the `try` of a line ends in. -/
inductive Responded where
  | response (fields : Fields)
  | escaped (error : PyError)
  | suspended

/-- The `except` clauses after `process`. The `UnicodeEncodeError` of a digest is a `ValueError`; an `OverflowError` is
none of the exceptions listed. -/
def responded (py : Interpreter) (payload : Json) : Answer → Responded
  | .ack ack => .response ack.fields
  | .latest requestId latest => .response (MetricsMessage.answer requestId latest).fields
  | .raised (.protocol code message) =>
    .response (errorResponse message (echoedId py payload) (echoedTimestamp payload) code)
  | .raised .unicode => .response (errorResponse (py.encodeError payload) [] (.int 0) 1001)
  | .raised .overflow => .escaped .overflow
  | .suspended => .suspended

/-! ## A line -/

/-- The outcome of a line: a reply, after which the next line is read, or an exception that ends the handler. -/
inductive Handled where
  | replied (reply : Bytes)
  | escaped (error : PyError)
  | suspended

/-- What `send` encodes. -/
def encodeReply (floatText : ℚ → Bytes) (response : Fields) : Except PyError Bytes :=
  if (Json.obj response).strings.all encodable then .ok (dumps floatText (.obj response) ++ [10]) else .error .unicode

def sent (floatText : ℚ → Bytes) : Responded → Handled
  | .response fields =>
    match encodeReply floatText fields with
    | .ok reply => .replied reply
    | .error e => .escaped e
  | .escaped e => .escaped e
  | .suspended => .suspended

namespace Server

section
variable {δ : Type} [DecidableEq δ] (py : Interpreter) (floatText : ℚ → Bytes) (digestOf : Json → Except PyError δ)

/-- The `try` of a line. -/
def respond (s : Server δ) (line : Bytes) : Server δ × Responded :=
  match decode line with
  | none => (s, .response (errorResponse (py.decodeError line) [] (.int 0) 1001))
  | some text =>
    match Loads.loads py.parseNumber text with
    | none => (s, .response (errorResponse (py.jsonError text) [] (.int 0) 1001))
    | some payload => ((s.process digestOf payload).1, responded py payload (s.process digestOf payload).2)

def handle (s : Server δ) (line : Bytes) : Server δ × Handled :=
  ((s.respond py digestOf line).1, sent floatText (s.respond py digestOf line).2)

end

end Server

/-! ## A connection -/

/-- A handler and the service. `replies` are what the handler itself has sent. -/
structure Connection (δ : Type) where
  server : Server δ
  client : Client
  isOpen : Bool
  replies : List Bytes

namespace Connection

section
variable {δ : Type}

inductive Action where
  /-- `readline` returns a line; an empty one is the end of the input. -/
  | line (line : Bytes)
  /-- `readline` raises. -/
  | overrun
  /-- Something else happens in the service. -/
  | other (action : Server.Action)

/-- `add_client`. -/
def opened (server : Server δ) (client : Client) : Connection δ :=
  ⟨{ server with clients := if client ∈ server.clients then server.clients else server.clients ++ [client] }, client,
    true, []⟩

/-- The handler ends, and `finally` removes the client. -/
def close (c : Connection δ) : Connection δ :=
  { c with server := { c.server with clients := c.server.clients.filter (fun client => client ≠ c.client) },
           isOpen := false }

def reply (c : Connection δ) (reply : Bytes) : Connection δ := { c with replies := c.replies ++ [reply] }

/-- A last reply before the handler ends by itself. -/
def refuse (floatText : ℚ → Bytes) (c : Connection δ) (message : Str) : Connection δ :=
  match encodeReply floatText (errorResponse message [] (.int 0) 1005) with
  | .ok reply => (c.reply reply).close
  | .error _ => c.close

variable [DecidableEq δ] (py : Interpreter) (floatText : ℚ → Bytes) (digestOf : Json → Except PyError δ)

/-- The body of the loop. -/
def handleLine (c : Connection δ) (line : Bytes) : Option (Connection δ) :=
  if line = [] then some c.close
  else if maxJsonlBytes < line.length then some (c.refuse floatText (str "message exceeds 5 MiB"))
  else
    match c.server.handle py floatText digestOf line with
    | (server, .replied reply) => some ({ c with server := server }.reply reply)
    | (server, .escaped _) => some { c with server := server }.close
    | (_, .suspended) => none

def step (c : Connection δ) : Action → Option (Connection δ)
  | .line line => if c.isOpen then c.handleLine py floatText digestOf line else none
  | .overrun => if c.isOpen then some (c.refuse floatText py.overrunError) else none
  | .other action => (c.server.step digestOf action).map (fun server => { c with server := server })

end

end Connection

end AfsimNs3.Bridge
