import AfsimNs3.Bridge.Export
import AfsimNs3.Bridge.StreamReader
import AfsimNs3.Lib.Http
import AfsimNs3.Lib.Printed

/-!
# The pages of the service (`MetricsHttpServer`)

A client of the HTTP port sends a request line and header fields; the service answers with one page and closes the
connection. The reader raises on a line beyond its limit, and what is raised ends the handler without an answer.

`HttpClient` is the service with such a client: `unread` are the octets of its request, to their end. `urlPath` is
`urlsplit(target).path`, which raises a `ValueError` on some targets.
-/

namespace AfsimNs3.Bridge

def maxHttpHeaderBytes : ℕ := 16 * 1024

/-! ## `_write_http` -/

inductive HttpStatus where
  | ok
  | notFound
  | methodNotAllowed
  | headersTooLarge
  deriving DecidableEq

namespace HttpStatus

def code : HttpStatus → ℕ
  | ok => 200
  | notFound => 404
  | methodNotAllowed => 405
  | headersTooLarge => 431

/-- The texts in `reasons`. -/
def reason : HttpStatus → Bytes
  | ok => ascii "OK"
  | notFound => ascii "Not Found"
  | methodNotAllowed => ascii "Method Not Allowed"
  | headersTooLarge => ascii "Request Header Fields Too Large"

def line (status : HttpStatus) : Bytes := ascii "HTTP/1.1 " ++ natBytes status.code ++ 32 :: status.reason

end HttpStatus

/-- What `_write_http` is given. -/
structure Page where
  status : HttpStatus
  body : Bytes
  contentType : Bytes
  extraHeaders : List (Bytes × Bytes)

def Page.headers (page : Page) : List (Bytes × Bytes) := Assoc.merge [
  (ascii "Content-Type", page.contentType),
  (ascii "Content-Length", natBytes page.body.length),
  (ascii "Connection", ascii "close"),
  (ascii "Access-Control-Allow-Origin", ascii "*")] page.extraHeaders

def writeHttp (page : Page) : Bytes :=
  let head := page.status.line :: page.headers.map fun header => header.1 ++ ascii ": " ++ header.2
  (ascii "\r\n").intercalate head ++ ascii "\r\n\r\n" ++ page.body

/-! ## What the pages show -/

/-- `health`. -/
def Server.health {δ : Type} (s : Server δ) : Fields := [
  (str "status", .str (if s.lastError = none then str "ok" else str "degraded")),
  (str "protocol_version", .str protocolVersion),
  (str "initialized", .bool s.state.initialized),
  (str "state_revision", .int s.state.revision),
  (str "computed_revision", .int s.computedRevision),
  (str "latest_metrics_revision", .int (s.latest.elim 0 fun response => response.measured.revision)),
  (str "pending", .bool s.pending.isSome),
  (str "last_error", s.lastError.elim .null .str)]

/-- `MetricsStore.latest`. -/
def Server.latestFields {δ : Type} (s : Server δ) : Fields :=
  s.latest.elim (noMetricsFields []) fun response => response.fields response.measured.requestId []

/-- `request_line.decode("ascii", errors="replace")`. -/
def asciiText (octets : Bytes) : Str := octets.map fun c => if c < 128 then Fin.ofNat 0x110000 c.toNat else 0xfffd

/-- `text.split()`. -/
def splitWords (text : Str) : List Str := (text.splitOnP Str.isSpace).filter fun word => word ≠ []

section
variable {δ : Type} (floatText : ℚ → Bytes) (urlPath : Str → Option Str)

/-- `_json_bytes`. None is the `UnicodeEncodeError`. -/
def jsonBytes (fields : Fields) : Option Bytes :=
  if (Json.obj fields).strings.all encodable then some (dumps floatText (.obj fields)) else none

def disposition : Bytes × Bytes :=
  (ascii "Content-Disposition", ascii "attachment; filename=\"afsim-ns3-metrics.csv\"")

/-- The page at a path. None is an exception. -/
def pageAt (e : Exporting δ) (path : Str) : Option Page :=
  if path = str "/health" then
    (jsonBytes floatText e.server.health).map fun body => ⟨.ok, body, ascii "application/json", []⟩
  else if path = str "/metrics/latest" then
    (jsonBytes floatText e.server.latestFields).map fun body => ⟨.ok, body, ascii "application/json", []⟩
  else if path = str "/metrics/export.csv" then
    some ⟨.ok, historyCsv e.file, ascii "text/csv; charset=utf-8", [disposition]⟩
  else some ⟨.notFound, ascii "not found", ascii "text/plain", []⟩

def notGet : Page := ⟨.methodNotAllowed, ascii "only GET is supported", ascii "text/plain; charset=utf-8", []⟩

def tooLarge : Page := ⟨.headersTooLarge, ascii "headers too large", ascii "text/plain", []⟩

/-- The answer to a request line. -/
def pageFor (e : Exporting δ) (requestLine : Bytes) : Option Page :=
  match splitWords (asciiText requestLine) with
  | [method, target, _] =>
    if method ≠ str "GET" then some notGet else (urlPath target).bind fun path => pageAt floatText e path
  | _ => some notGet

end

/-! ## The handler -/

/-- `readline` of a reader with this limit. -/
def readlineWithin (limit : ℕ) (unread : Bytes) : Option (Bytes × Bytes) :=
  match unread.findIdx? (fun c => c = 10) with
  | some i => if limit < i then none else some (unread.take (i + 1), unread.drop (i + 1))
  | none => if limit < unread.length then none else some (unread, [])

/-- How the handler ended. -/
inductive Ending where
  /-- The client sent nothing. -/
  | empty
  /-- A `ValueError` of the reader, of `urlsplit` or of an encoding. -/
  | raised
  | reset
  | answered
  deriving DecidableEq

/-- Where the handler is suspended. -/
inductive HttpStage where
  | requestLine
  | headers (requestLine : Bytes)
  | closed (ending : Ending)

structure HttpClient (δ : Type) where
  exporting : Exporting δ
  unread : Bytes
  stage : HttpStage
  /-- What is written to the client. -/
  written : Bytes

namespace HttpClient

variable {δ : Type}

def close (c : HttpClient δ) (ending : Ending) : HttpClient δ := { c with stage := .closed ending }

def answer (c : HttpClient δ) : Option Page → HttpClient δ
  | some page => { c with stage := .closed .answered, written := c.written ++ writeHttp page }
  | none => c.close .raised

inductive Action where
  /-- `readline` returns or raises. -/
  | read
  | reset
  /-- Something else happens in the service. -/
  | other (action : Server.Action)

section
variable (floatText : ℚ → Bytes) (urlPath : Str → Option Str)

/-- A line is read. -/
def readLine (c : HttpClient δ) (line rest : Bytes) : HttpClient δ :=
  match c.stage with
  | .requestLine =>
    if line = [] then c.close .empty
    else if maxHttpHeaderBytes ≤ line.length then { c with unread := rest }.answer (some tooLarge)
    else { c with unread := rest, stage := .headers line }
  | .headers requestLine =>
    if line = ascii "\r\n" ∨ line = ascii "\n" ∨ line = [] then
      { c with unread := rest }.answer (pageFor floatText urlPath c.exporting requestLine)
    else { c with unread := rest }
  | .closed _ => c

variable [DecidableEq δ] (digestOf : Json → Except PyError δ)

def step (c : HttpClient δ) : Action → Option (HttpClient δ)
  | .read =>
    match c.stage with
    | .closed _ => none
    | _ =>
      match readlineWithin maxHttpHeaderBytes c.unread with
      | none => some (c.close .raised)
      | some (line, rest) => some (c.readLine floatText urlPath line rest)
  | .reset =>
    match c.stage with
    | .closed _ => none
    | _ => some (c.close .reset)
  | .other action => (c.exporting.step floatText digestOf action).map fun exporting => { c with exporting := exporting }

end

end HttpClient

end AfsimNs3.Bridge
