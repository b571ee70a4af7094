import AfsimNs3.Bridge.Http
import AfsimNs3.System.History

/-!
# The pages over whole runs (`server.py`)

A client of the HTTP port, while the service goes on: calls, computations and the client's lines come in any order. When
the handler ends, the client has a whole message or nothing, and the message shows the service as it is at this point of
the run (`pages_served`): its health, the latest response, the rows of everything recorded so far.

* `Page.read`: what `_write_http` puts together is taken apart by a reader of HTTP/1.1;
* `Shows`: what is on the page a request line asks for;
* `Ended`: how a handler ends, and what is written then.
-/

namespace AfsimNs3.System.Pages
open Bridge Bridge.Server Loads

/-! ## Framing -/

/-- The page as a message. -/
def messageOf (page : Page) : Http.Message := ⟨page.status.line, page.headers, page.body⟩

theorem intercalate_lines (sep line : Bytes) (lines : List Bytes) :
    sep.intercalate (line :: lines) ++ sep = (line :: lines).flatMap fun line => line ++ sep := by
  induction lines generalizing line with
  | nil => rw [List.intercalate_singleton, List.flatMap_singleton]
  | cons next lines ih =>
    rw [List.intercalate_cons_cons, List.append_assoc, ih next]
    exact (List.flatMap_cons (f := fun line => line ++ sep)).symm

theorem writeHttp_eq (page : Page) : writeHttp page = (messageOf page).write := by
  have hend : ascii "\r\n\r\n" = Http.crlf ++ Http.crlf := by decide
  have hcrlf : ascii "\r\n" = Http.crlf := by decide
  have hfields : (page.headers.map fun header => header.1 ++ ascii ": " ++ header.2) = page.headers.map Http.fieldLine := by
    refine List.map_congr_left fun header _ => ?_
    rw [List.append_assoc]
    rfl
  unfold writeHttp
  dsimp only
  rw [hend, hcrlf, hfields, ← List.append_assoc, intercalate_lines]
  rfl

/-- What the handler gives to `_write_http` besides the body. -/
structure Plain (page : Page) : Prop where
  contentType : page.contentType ∈ [ascii "application/json", ascii "text/plain", ascii "text/plain; charset=utf-8",
    ascii "text/csv; charset=utf-8"]
  extraHeaders : page.extraHeaders = [] ∨ page.extraHeaders = [disposition]

/-- The headers stay apart. -/
theorem headers_eq {page : Page} (h : Plain page) : page.headers = [
    (ascii "Content-Type", page.contentType),
    (ascii "Content-Length", natBytes page.body.length),
    (ascii "Connection", ascii "close"),
    (ascii "Access-Control-Allow-Origin", ascii "*")] ++ page.extraHeaders := by
  unfold Page.headers
  rcases h.extraHeaders with hextra | hextra <;> rw [hextra] <;> rfl

theorem page_framed {page : Page} (h : Plain page) : Http.Framed (messageOf page) := by
  have htype : Http.Inline page.contentType ∧ Http.Unspaced page.contentType := by
    have hmem := h.contentType
    simp only [List.mem_cons, List.not_mem_nil, or_false] at hmem
    rcases hmem with hmem | hmem | hmem | hmem <;> rw [hmem] <;> decide
  have hlength : Http.Inline (natBytes page.body.length) ∧ Http.Unspaced (natBytes page.body.length) :=
    ⟨Http.natBytes_inline _, Http.natBytes_unspaced _⟩
  have hextra : page.extraHeaders ⊆ [disposition] := by
    rcases h.extraHeaders with hnone | hnone
    · rw [hnone]
      exact List.nil_subset _
    · rw [hnone]
      exact List.Subset.refl _
  refine ⟨?_, ?_, ?_, ?_⟩
  · unfold messageOf
    dsimp only
    cases page.status <;> decide
  · show ∀ field ∈ page.headers, _
    rw [headers_eq h]
    simp only [List.forall_mem_append, List.forall_mem_cons]
    refine ⟨⟨by decide, by decide, by decide, by decide, List.forall_mem_nil _⟩, fun field hfield => ?_⟩
    rw [List.mem_singleton.mp (hextra hfield)]
    decide
  · show ∀ field ∈ page.headers, _
    rw [headers_eq h]
    simp only [List.forall_mem_append, List.forall_mem_cons]
    refine ⟨⟨htype, hlength, by decide, by decide, List.forall_mem_nil _⟩, ?_⟩
    intro field hfield
    rw [List.mem_singleton.mp (hextra hfield)]
    decide
  · show Http.contentLength page.headers = some page.body.length
    have hfind : page.headers.find? (fun field => Http.lower field.1 = ascii "content-length") =
        some (ascii "Content-Length", natBytes page.body.length) := by
      rw [headers_eq h]
      rfl
    rw [Http.contentLength, hfind]
    exact Http.readDecimal_natBytes _

/-- **A page is read as it was written**, and nothing is left. -/
theorem page_read {page : Page} (h : Plain page) : Http.read (writeHttp page) = some (messageOf page, []) := by
  have hread := Http.read_write (page_framed h) []
  rwa [List.append_nil, ← writeHttp_eq] at hread

/-! ## What is shown -/

/-- The floats in a response. -/
def figures (response : Response) : List Double :=
  response.measured.links.flatMap (fun link => [.finite link.delayMs, .finite link.configuredLossRate]) ++
    response.measured.metrics.flatMap (fun metric =>
      [metric.values.latencyMs, metric.values.lossRate, metric.values.throughputBps]) ++
    .finite response.measured.computeMs :: response.effects.flatMap fun effect =>
      [.finite effect.policy.maxDelayMs, .finite effect.policy.maxLossRate, .finite effect.policy.minThroughputBps]

/-- The floats of the page with the latest response. -/
def latestFigures {δ : Type} (s : Server δ) : List Double := s.latest.elim [.finite 0] figures

section Contents
variable {floatText : ℚ → Bytes}

theorem node_regular (node : Ns3Runner.NodeRecord) :
    Regular floatText (.obj node.mapping) ∧ Regular floatText (.obj node.fields) := by
  constructor
  · refine .obj _ ?_ ?_
    · simp only [Ns3Runner.NodeRecord.mapping, List.map_cons, List.map_nil]
      simp [str_inj]
    · simp only [Ns3Runner.NodeRecord.mapping, List.forall_mem_cons]
      exact ⟨.str _, .str _, .int _, List.forall_mem_nil _⟩
  · refine .obj _ ?_ ?_
    · simp only [Ns3Runner.NodeRecord.fields, List.map_cons, List.map_nil]
      simp [str_inj]
    · simp only [Ns3Runner.NodeRecord.fields, List.forall_mem_cons]
      exact ⟨.str _, .str _, .int _, .bool _, .bool _, List.forall_mem_nil _⟩

theorem link_regular {link : LinkRecord} (hdelay : Literal floatText (.finite link.delayMs))
    (hloss : Literal floatText (.finite link.configuredLossRate)) : Regular floatText (.obj link.fields) := by
  refine .obj _ ?_ ?_
  · simp only [LinkRecord.fields, List.map_cons, List.map_nil]
    simp [str_inj]
  · simp only [LinkRecord.fields, List.forall_mem_cons]
    exact ⟨.str _, .str _, .str _, .str _, .int _, .float _ hdelay, .float _ hloss, .str _, List.forall_mem_nil _⟩

theorem metric_regular {metric : Ns3Runner.FlowMetric} (hlatency : Literal floatText metric.values.latencyMs)
    (hloss : Literal floatText metric.values.lossRate) (hthroughput : Literal floatText metric.values.throughputBps) :
    Regular floatText (.obj metric.fields) := by
  refine .obj _ ?_ ?_
  · simp only [Ns3Runner.FlowMetric.fields, List.map_cons, List.map_nil]
    simp [str_inj]
  · simp only [Ns3Runner.FlowMetric.fields, List.forall_mem_cons]
    exact ⟨.str _, .str _, .str _, .bool _, .float _ hlatency, .float _ hloss, .float _ hthroughput, .int _, .int _, .str _,
      .str _, List.forall_mem_nil _⟩

theorem effect_regular {effect : Effect} (hdelay : Literal floatText (.finite effect.policy.maxDelayMs))
    (hloss : Literal floatText (.finite effect.policy.maxLossRate))
    (hthroughput : Literal floatText (.finite effect.policy.minThroughputBps)) :
    Regular floatText (.obj effect.fields) := by
  have hthresholds : Regular floatText (.obj effect.policy.thresholds) := by
    refine .obj _ ?_ ?_
    · simp only [EffectPolicy.thresholds, List.map_cons, List.map_nil]
      simp [str_inj]
    · simp only [EffectPolicy.thresholds, List.forall_mem_cons]
      exact ⟨.float _ hdelay, .float _ hloss, .float _ hthroughput, .str _, List.forall_mem_nil _⟩
  have hreasons : Regular floatText (.arr (effect.reasons.map fun reason => .str reason.text)) :=
    .arr _ (List.forall_mem_map.mpr fun reason _ => .str _)
  refine .obj _ ?_ ?_
  · simp only [Effect.fields, List.map_cons, List.map_nil]
    simp [str_inj]
  · simp only [Effect.fields, List.forall_mem_cons]
    exact ⟨.str _, .str _, .str _, .str _, .str _, .str _, hreasons, hthresholds, List.forall_mem_nil _⟩

theorem queueState_regular (queueState : QueueState) : Regular floatText (.obj queueState.fields) := by
  have hrevision : Regular floatText (queueState.latestPendingRevision.elim .null fun revision => .int revision) := by
    cases queueState.latestPendingRevision with
    | none => exact .null
    | some revision => exact .int _
  refine .obj _ ?_ ?_
  · simp only [QueueState.fields, List.map_cons, List.map_nil]
    simp [str_inj]
  · simp only [QueueState.fields, List.forall_mem_cons]
    exact ⟨.bool _, hrevision, List.forall_mem_nil _⟩

theorem status_regular (message : Str) : Regular floatText (.obj (statusFields message)) := by
  refine .obj _ ?_ ?_
  · simp only [statusFields, List.map_cons, List.map_nil]
    simp [str_inj]
  · simp only [statusFields, List.forall_mem_cons]
    exact ⟨.int _, .str _, List.forall_mem_nil _⟩

theorem response_regular {response : Response} (h : ∀ x ∈ figures response, Literal floatText x) (requestId : Str) :
    Regular floatText (.obj (response.fields requestId [])) := by
  simp only [figures, List.forall_mem_append, List.forall_mem_cons, List.forall_mem_flatMap] at h
  obtain ⟨⟨hlinks, hmetrics⟩, hcompute, heffects⟩ := h
  refine .obj _ ?_ ?_
  · simp only [Response.fields, List.append_nil, List.map_cons, List.map_nil]
    simp [str_inj]
  · simp only [Response.fields, List.append_nil, List.forall_mem_cons]
    exact ⟨.str _, .str _, status_regular _, .str _, .int _, .int _,
      regular_objects fun node _ => (node_regular node).1, regular_objects fun node _ => (node_regular node).2,
      regular_objects fun link hlink => link_regular (hlinks link hlink).1 (hlinks link hlink).2.1,
      regular_objects fun metric hmetric =>
        metric_regular (hmetrics metric hmetric).1 (hmetrics metric hmetric).2.1 (hmetrics metric hmetric).2.2.1,
      .float _ hcompute, queueState_regular _,
      regular_objects fun effect heffect =>
        effect_regular (heffects effect heffect).1 (heffects effect heffect).2.1 (heffects effect heffect).2.2.1,
      List.forall_mem_nil _⟩

theorem noMetrics_regular (h : Literal floatText (.finite 0)) (requestId : Str) :
    Regular floatText (.obj (noMetricsFields requestId)) := by
  have hempty : Regular floatText (.arr []) := .arr _ (List.forall_mem_nil _)
  refine .obj _ ?_ ?_
  · simp only [noMetricsFields, List.map_cons, List.map_nil]
    simp [str_inj]
  · simp only [noMetricsFields, List.forall_mem_cons]
    exact ⟨.str _, .str _, .str _, .int _, .int _, status_regular _, hempty, hempty, hempty, hempty, hempty,
      queueState_regular _, .float _ h, List.forall_mem_nil _⟩

variable {δ : Type} {s : Server δ}

theorem latest_regular (h : ∀ x ∈ latestFigures s, Literal floatText x) : Regular floatText (.obj s.latestFields) := by
  unfold latestFigures at h
  unfold latestFields
  cases hlatest : s.latest with
  | none =>
    rw [hlatest] at h
    exact noMetrics_regular (h _ List.mem_cons_self) []
  | some response =>
    rw [hlatest] at h
    exact response_regular h _

theorem health_regular (s : Server δ) : Regular floatText (.obj s.health) := by
  have herror : Regular floatText (s.lastError.elim .null .str) := by
    cases s.lastError with
    | none => exact .null
    | some error => exact .str error
  refine .obj _ ?_ ?_
  · simp only [Server.health, List.map_cons, List.map_nil]
    simp [str_inj]
  · simp only [Server.health, List.forall_mem_cons]
    exact ⟨.str _, .str _, .bool _, .int _, .int _, .int _, .bool _, herror, List.forall_mem_nil _⟩

theorem latest_encodable (h : s.Encodable) : (Json.obj s.latestFields).Encodable := by
  unfold latestFields
  cases hlatest : s.latest with
  | none =>
    have hnone : ∀ response ∈ (none : Option Response), response.Encodable := fun _ hmem => absurd hmem (Option.not_mem_none _)
    exact (encodable_answer_iff hnone []).mpr rfl
  | some response =>
    have hresponse := h.latest response hlatest
    exact (encodable_fields_iff hresponse).mpr ⟨hresponse.requestId, Json.encodable_obj.mpr (List.forall_mem_nil _)⟩

theorem health_encodable (h : ∀ error ∈ s.lastError, encodable error = true) : (Json.obj s.health).Encodable := by
  have hstatus : encodable (if s.lastError = none then str "ok" else str "degraded") = true := by
    split_ifs <;> exact Str.encodable_literal _
  have herror : (s.lastError.elim .null .str : Json).Encodable := by
    cases herror : s.lastError with
    | none => exact Json.encodable_null
    | some error => exact Json.encodable_str.mpr (h error herror)
  rw [Json.encodable_obj]
  simp only [Server.health, List.forall_mem_cons, Str.encodable_literal, Json.encodable_str, Json.encodable_bool,
    Json.encodable_int, true_and, protocolVersion]
  exact ⟨hstatus, herror, List.forall_mem_nil _⟩

end Contents

/-! ## The last error -/

section Errors
variable {δ : Type} {s s' : Server δ}

/-- The texts the runner gives are decoded, those of its errors included. -/
def TextsDecoded : Server.Action → Prop
  | .computed (.failed message) _ => encodable message = true
  | action => action.Decoded

theorem TextsDecoded.decoded {action : Server.Action} (h : TextsDecoded action) : action.Decoded := by
  cases action with
  | computed computation order =>
    cases computation with
    | ok measured computeMs => exact h
    | failed message => trivial
  | _ => trivial

theorem takeJob_lastError (s : Server δ) : s.takeJob.lastError = s.lastError := by
  unfold takeJob
  cases s.pending <;> rfl

theorem awaitEvent_lastError (s : Server δ) : s.awaitEvent.lastError = s.lastError := by
  unfold awaitEvent awaitJob
  split_ifs
  · rfl
  · exact takeJob_lastError s
  · rfl

theorem sendNext_lastError (s : Server δ) (message : Broadcast) (todo failed : List Client) :
    (s.sendNext message todo failed).lastError = s.lastError := by
  unfold sendNext
  cases todo with
  | nil => exact awaitEvent_lastError (s.removeClients failed)
  | cons client todo => rfl

theorem write_lastError (s : Server δ) (ok : Bool) (message : Broadcast) (client : Client) (todo failed : List Client) :
    (s.write ok message client todo failed).lastError = s.lastError := by
  unfold write
  split_ifs
  · rfl
  · exact sendNext_lastError s message todo (failed ++ [client])

/-- A computation sets the last error, to nothing or to its own. -/
theorem computed_lastError (hs : s.Unlocked) (job : Job) (computation : Computation) (order : List Client) :
    (s.computed job computation order).lastError =
      match computation with | .failed message => some message | .ok _ _ => none := by
  unfold computed
  cases computation with
  | failed message => exact sendNext_lastError (s.setLastError (some message)) _ order []
  | ok measured computeMs =>
    dsimp only
    rw [hs.pending, if_neg Bool.false_ne_true]
    split_ifs
    · exact awaitEvent_lastError (s.setLastError none)
    · exact sendNext_lastError ((s.setLastError none).record job _) _ order []

variable [DecidableEq δ] {digestOf : Json → Except PyError δ}

theorem process_lastError (hs : s.Unlocked) (payload : Json) : (s.process digestOf payload).1.lastError = s.lastError := by
  have houtcome := process_outcome digestOf hs payload
  generalize s.process digestOf payload = result at houtcome ⊢
  cases houtcome <;> rfl

theorem lastError_encodable (hs : s.Unlocked) (h : ∀ error ∈ s.lastError, encodable error = true) {action : Server.Action}
    (htexts : TextsDecoded action) (hstep : Server.step digestOf s action = some s') :
    ∀ error ∈ s'.lastError, encodable error = true := by
  cases step_cases hs hstep with
  | connect client => exact h
  | disconnect client => exact h
  | call payload => rwa [process_lastError hs]
  | wake hwaiting => rwa [takeJob_lastError]
  | computed job computation order hjob horder =>
    rw [computed_lastError hs]
    cases computation with
    | failed message =>
      intro error herror
      obtain rfl := Option.some.inj herror
      exact htexts
    | ok measured computeMs => exact fun _ herror => absurd herror (Option.not_mem_none _)
  | write ok message client todo failed hworker => rwa [write_lastError]
  | drained ok message client todo failed hworker => rwa [sendNext_lastError]

end Errors

/-! ## What a page shows -/

section Shows
variable {δ : Type} (floatText : ℚ → Bytes) (urlPath : Str → Option Str)

/-- What holds of the service and its file in every reachable state. -/
structure Showing (rows : List (List Str)) (e : Exporting δ) : Prop where
  sound : Sound e.server
  lastError : ∀ error ∈ e.server.lastError, encodable error = true
  file : HistoryOf rows e.file

/-- The request line asks for the page at the path. -/
def Asks (requestLine : Bytes) (path : Str) : Prop :=
  ∃ target version, splitWords (asciiText requestLine) = [str "GET", target, version] ∧ urlPath target = some path

/-- The body is the text of an object. -/
def Carries (body : Bytes) (fields : Fields) : Prop :=
  ∃ text, decode body = some text ∧ loads (fun n => some n.value) text = some (.obj fields)

/-- The message is the page of the service, at the time of its state, that the request line asks for. `rows` are those of the
responses recorded up to then. -/
inductive Shows (e : Exporting δ) (rows : List (List Str)) (requestLine : Bytes) (m : Http.Message) : Prop where
  | notGet (h : ∀ target version, splitWords (asciiText requestLine) ≠ [str "GET", target, version])
      (hstart : m.start = HttpStatus.line .methodNotAllowed)
  | health (h : Asks urlPath requestLine (str "/health")) (hstart : m.start = HttpStatus.line .ok)
      (hbody : Carries m.body e.server.health)
  /-- JSON has no text for a float that is not finite. -/
  | latest (h : Asks urlPath requestLine (str "/metrics/latest")) (hstart : m.start = HttpStatus.line .ok)
      (hbody : (∀ x ∈ latestFigures e.server, Literal floatText x) → Carries m.body e.server.latestFields)
  | history (h : Asks urlPath requestLine (str "/metrics/export.csv")) (hstart : m.start = HttpStatus.line .ok)
      (hbody : readHistory m.body = some (csvFields :: rows))
  | notFound (path : Str) (h : Asks urlPath requestLine path)
      (hother : path ∉ [str "/health", str "/metrics/latest", str "/metrics/export.csv"])
      (hstart : m.start = HttpStatus.line .notFound)

variable {floatText urlPath} {e : Exporting δ} {rows : List (List Str)}

theorem jsonBytes_of_encodable {fields : Fields} (h : (Json.obj fields).Encodable) :
    jsonBytes floatText fields = some (dumps floatText (.obj fields)) := if_pos (List.all_eq_true.mpr h)

/-- A page is put together whatever the path. -/
theorem pageAt_shows (h : Showing rows e) {requestLine : Bytes} {path : Str} (hasks : Asks urlPath requestLine path) :
    ∃ page, pageAt floatText e path = some page ∧ Plain page ∧
      Shows floatText urlPath e rows requestLine (messageOf page) := by
  have hhealth := health_encodable h.lastError
  have hlatest := latest_encodable h.sound.encodable
  unfold pageAt
  split_ifs with h1 h2 h3
  · rw [jsonBytes_of_encodable hhealth]
    refine ⟨_, rfl, ⟨List.mem_cons_self, .inl rfl⟩, .health (h1 ▸ hasks) rfl ?_⟩
    exact (health_regular e.server).loads hhealth
  · rw [jsonBytes_of_encodable hlatest]
    refine ⟨_, rfl, ⟨List.mem_cons_self, .inl rfl⟩, .latest (h2 ▸ hasks) rfl fun hfigures => ?_⟩
    exact (latest_regular hfigures).loads hlatest
  · have hcsv : ascii "text/csv; charset=utf-8" ∈ [ascii "application/json", ascii "text/plain",
        ascii "text/plain; charset=utf-8", ascii "text/csv; charset=utf-8"] := by decide
    exact ⟨_, rfl, ⟨hcsv, .inr rfl⟩, .history (h3 ▸ hasks) rfl h.file.read⟩
  · refine ⟨_, rfl, ⟨by decide, .inl rfl⟩, .notFound path hasks ?_ rfl⟩
    simp only [List.mem_cons, List.not_mem_nil, or_false, not_or]
    exact ⟨h1, h2, h3⟩

/-- **The answer to a request line**, if the path of its target can be told. -/
theorem pageFor_shows (h : Showing rows e) (requestLine : Bytes) :
    (∃ page, pageFor floatText urlPath e requestLine = some page ∧ Plain page ∧
      Shows floatText urlPath e rows requestLine (messageOf page)) ∨
    pageFor floatText urlPath e requestLine = none ∧ ∃ target version,
      splitWords (asciiText requestLine) = [str "GET", target, version] ∧ urlPath target = none := by
  have hnotGet : (∀ target version, splitWords (asciiText requestLine) ≠ [str "GET", target, version]) →
      Shows floatText urlPath e rows requestLine (messageOf notGet) := fun hne => .notGet hne rfl
  have hplain : Plain notGet := ⟨by decide, .inl rfl⟩
  unfold pageFor
  split
  · rename_i method target version hwords
    split_ifs with hget
    · refine .inl ⟨_, rfl, hplain, hnotGet fun target' version' heq => ?_⟩
      rw [hwords] at heq
      exact hget (List.cons.inj heq).1
    · rw [not_not] at hget
      subst hget
      cases hpath : urlPath target with
      | none => exact .inr ⟨rfl, target, version, hwords, hpath⟩
      | some path => exact .inl (pageAt_shows h ⟨target, version, hwords, hpath⟩)
  · rename_i hwords
    exact .inl ⟨_, rfl, hplain, hnotGet fun target version heq => hwords _ _ _ heq⟩

end Shows

/-! ## The end of a handler -/

section Handler
variable {δ : Type} (floatText : ℚ → Bytes) (urlPath : Str → Option Str)

/-- What ended the handler of `c`, and what it wrote. -/
inductive Ended (rows : List (List Str)) (c : HttpClient δ) : Ending → Bytes → Prop where
  | empty (hstage : c.stage = .requestLine) (h : c.unread = []) : Ended rows c .empty []
  | reset : Ended rows c .reset []
  /-- A line beyond the limit of the reader. -/
  | overrun (h : readlineWithin maxHttpHeaderBytes c.unread = none) : Ended rows c .raised []
  | rejected (requestLine : Bytes) (target version : Str) (hstage : c.stage = .headers requestLine)
      (hwords : splitWords (asciiText requestLine) = [str "GET", target, version]) (h : urlPath target = none) :
      Ended rows c .raised []
  /-- A request line just within that limit. -/
  | tooLarge (line rest written : Bytes) (message : Http.Message) (hstage : c.stage = .requestLine)
      (hline : readlineWithin maxHttpHeaderBytes c.unread = some (line, rest)) (hlong : maxHttpHeaderBytes ≤ line.length)
      (hread : Http.read written = some (message, [])) (hstart : message.start = HttpStatus.line .headersTooLarge) :
      Ended rows c .answered written
  | page (requestLine written : Bytes) (message : Http.Message) (hstage : c.stage = .headers requestLine)
      (hread : Http.read written = some (message, []))
      (hshows : Shows floatText urlPath c.exporting rows requestLine message) : Ended rows c .answered written

/-- The handler has not ended. -/
def Running : HttpStage → Prop
  | .closed _ => False
  | _ => True

theorem readlineWithin_nil {limit : ℕ} {unread rest : Bytes} (h : readlineWithin limit unread = some ([], rest)) :
    unread = [] := by
  unfold readlineWithin at h
  split at h
  · split_ifs at h
    obtain ⟨htake, -⟩ := Prod.mk.inj (Option.some.inj h)
    exact (List.take_eq_nil_iff.mp htake).resolve_left (Nat.succ_ne_zero _)
  · split_ifs at h
    exact (Prod.mk.inj (Option.some.inj h)).1

variable {floatText urlPath} {rows : List (List Str)}

/-- The handler goes on, or has ended in a way that is accounted for. -/
def Accounted (floatText : ℚ → Bytes) (urlPath : Str → Option Str) (rows : List (List Str)) (c c' : HttpClient δ) : Prop :=
  Running c'.stage ∧ c'.written = [] ∨
    ∃ ending, c'.stage = .closed ending ∧ Ended floatText urlPath rows c ending c'.written

theorem answer_written {c : HttpClient δ} (hwritten : c.written = []) (page : Page) :
    (c.answer (some page)).written = writeHttp page := by
  show c.written ++ writeHttp page = _
  rw [hwritten, List.nil_append]

theorem readLine_accounted {c : HttpClient δ} (h : Showing rows c.exporting) (hrunning : Running c.stage)
    (hwritten : c.written = []) {line rest : Bytes}
    (hline : readlineWithin maxHttpHeaderBytes c.unread = some (line, rest)) :
    Accounted floatText urlPath rows c (c.readLine floatText urlPath line rest) := by
  unfold HttpClient.readLine
  cases hstage : c.stage with
  | requestLine =>
    dsimp only
    split_ifs with hempty hlong
    · subst hempty
      refine .inr ⟨.empty, rfl, ?_⟩
      show Ended floatText urlPath rows c .empty c.written
      rw [hwritten]
      exact .empty hstage (readlineWithin_nil hline)
    · refine .inr ⟨.answered, rfl, ?_⟩
      rw [answer_written (by exact hwritten)]
      exact .tooLarge line rest _ _ hstage hline hlong (page_read ⟨by decide, .inl rfl⟩) rfl
    · exact .inl ⟨trivial, hwritten⟩
  | headers requestLine =>
    dsimp only
    split_ifs
    · rcases pageFor_shows h requestLine with ⟨page, hpage, hplain, hshows⟩ | ⟨hpage, target, version, hwords, hpath⟩
      · refine .inr ⟨.answered, by rw [hpage]; rfl, ?_⟩
        rw [hpage, answer_written (by exact hwritten)]
        exact .page requestLine _ _ hstage (page_read hplain) hshows
      · refine .inr ⟨.raised, by rw [hpage]; rfl, ?_⟩
        rw [hpage]
        show Ended floatText urlPath rows c .raised c.written
        rw [hwritten]
        exact .rejected requestLine target version hstage hwords hpath
    · exact .inl ⟨trivial, hwritten⟩
  | closed ending =>
    rw [hstage] at hrunning
    exact hrunning.elim

variable [DecidableEq δ] {digestOf : Json → Except PyError δ}

/-- A step of a running handler. -/
theorem step_accounted {c c' : HttpClient δ} (h : Showing rows c.exporting) (hrunning : Running c.stage)
    (hwritten : c.written = []) {action : HttpClient.Action} (hstep : c.step floatText urlPath digestOf action = some c') :
    Accounted floatText urlPath rows c c' := by
  have hstart : ∀ {α : Type} {x y : Option α} {a : α}, (match c.stage with | .closed _ => x | _ => y) = some a → y = some a := by
    intro α x y a heq
    cases hstage : c.stage with
    | closed ending =>
      rw [hstage] at hrunning
      exact hrunning.elim
    | requestLine => rwa [hstage] at heq
    | headers requestLine => rwa [hstage] at heq
  cases action with
  | read =>
    have hread := hstart hstep
    cases hline : readlineWithin maxHttpHeaderBytes c.unread with
    | none =>
      rw [hline] at hread
      obtain rfl := Option.some.inj hread
      refine .inr ⟨.raised, rfl, ?_⟩
      show Ended floatText urlPath rows c .raised c.written
      rw [hwritten]
      exact .overrun hline
    | some next =>
      obtain ⟨line, rest⟩ := next
      rw [hline] at hread
      obtain rfl := Option.some.inj hread
      exact readLine_accounted h hrunning hwritten hline
  | reset =>
    obtain rfl := Option.some.inj (hstart hstep)
    refine .inr ⟨.reset, rfl, ?_⟩
    show Ended floatText urlPath rows c .reset c.written
    rw [hwritten]
    exact .reset
  | other action =>
    obtain ⟨e, -, rfl⟩ := Option.map_eq_some_iff.mp hstep
    exact .inl ⟨hrunning, hwritten⟩

/-- Nothing is written after the end. -/
theorem step_closed {c c' : HttpClient δ} {ending : Ending} (hstage : c.stage = .closed ending)
    {action : HttpClient.Action} (hstep : c.step floatText urlPath digestOf action = some c') :
    c'.stage = .closed ending ∧ c'.written = c.written := by
  cases action with
  | other action =>
    obtain ⟨e, -, rfl⟩ := Option.map_eq_some_iff.mp hstep
    exact ⟨hstage, rfl⟩
  | read =>
    rw [HttpClient.step, hstage] at hstep
    cases hstep
  | reset =>
    rw [HttpClient.step, hstage] at hstep
    cases hstep

end Handler

/-! ## Runs -/

section Runs
variable {δ : Type} [DecidableEq δ] {floatText : ℚ → Bytes} {sha256 : Bytes → δ} {urlPath : Str → Option Str}

/-- What happens in the service during a run. -/
def serviceActions (actions : List HttpClient.Action) : List Server.Action :=
  actions.filterMap fun action => match action with | .other action => some action | _ => none

omit [DecidableEq δ] in
theorem readLine_exporting (c : HttpClient δ) (line rest : Bytes) :
    (c.readLine floatText urlPath line rest).exporting = c.exporting := by
  unfold HttpClient.readLine
  cases c.stage with
  | requestLine =>
    dsimp only
    split_ifs <;> rfl
  | headers requestLine =>
    dsimp only
    split_ifs
    · cases pageFor floatText urlPath c.exporting requestLine <;> rfl
    · rfl
  | closed ending => rfl

/-- The client changes nothing in the service. -/
theorem step_exporting {digestOf : Json → Except PyError δ} {c c' : HttpClient δ} {action : HttpClient.Action}
    (h : c.step floatText urlPath digestOf action = some c') :
    Machine.run (Exporting.step floatText digestOf) c.exporting (serviceActions [action]) = some c'.exporting := by
  cases action with
  | other action =>
    obtain ⟨e, he, rfl⟩ := Option.map_eq_some_iff.mp h
    exact Machine.run_cons.mpr ⟨e, he, rfl⟩
  | read =>
    unfold HttpClient.step at h
    dsimp only at h
    split at h
    · cases h
    · cases hline : readlineWithin maxHttpHeaderBytes c.unread with
      | none =>
        rw [hline] at h
        obtain rfl := Option.some.inj h
        rfl
      | some next =>
        rw [hline] at h
        obtain rfl := Option.some.inj h
        exact congrArg some (readLine_exporting c next.1 next.2).symm
  | reset =>
    unfold HttpClient.step at h
    dsimp only at h
    split at h
    · cases h
    · obtain rfl := Option.some.inj h
      rfl

theorem run_exporting {digestOf : Json → Except PyError δ} {actions : List HttpClient.Action} {c c' : HttpClient δ}
    (h : Machine.run (HttpClient.step floatText urlPath digestOf) c actions = some c') :
    Machine.run (Exporting.step floatText digestOf) c.exporting (serviceActions actions) = some c'.exporting := by
  induction actions generalizing c with
  | nil =>
    obtain rfl := Option.some.inj h
    rfl
  | cons action actions ih =>
    obtain ⟨t, ht, hrest⟩ := Machine.run_cons.mp h
    have hsplit : serviceActions (action :: actions) = serviceActions [action] ++ serviceActions actions :=
      List.filterMap_append (l := [action])
    rw [hsplit]
    exact Machine.run_append.mpr ⟨t.exporting, step_exporting ht, ih hrest⟩

/-- In every run the service can show what it is asked for. -/
theorem run_showing {rows : List (List Str)} {e e' : Exporting δ} (h : Showing rows e) {actions : List Server.Action}
    (htexts : ∀ action ∈ actions, TextsDecoded action)
    (hrun : Machine.run (Exporting.step floatText (requestDigest floatText sha256)) e actions = some e') :
    Showing (rows ++ (Exporting.recordings (requestDigest floatText sha256) e.server actions).flatMap
      (csvRows floatText)) e' := by
  have hdecoded : ∀ action ∈ actions, action.Decoded := fun action haction => (htexts action haction).decoded
  obtain ⟨hserver, hexported⟩ := History.run_exported h.sound h.file hdecoded hrun
  have hinvariant := Machine.along_invariant (fun s : Server δ => Sound s ∧ ∀ error ∈ s.lastError, encodable error = true)
    (fun s action s' hs htext hstep => ⟨hs.1.step htext.decoded hstep,
      lastError_encodable hs.1.unlocked hs.2 htext hstep⟩)
    ⟨h.sound, h.lastError⟩ (Machine.along_of_forall htexts _) hserver
  exact ⟨hinvariant.1, hinvariant.2, hexported.file⟩

omit [DecidableEq δ] in
theorem new_showing {rows : List (List Str)} {file : Option Bytes} (h : HistoryOf rows file) :
    Showing rows (⟨Server.new, file⟩ : Exporting δ) := ⟨new_sound, (fun _ herror => absurd herror (Option.not_mem_none _)), h⟩

/-- **Every page shows the service as it is.** A client sends a request while the service runs, on the file of earlier
services or on none. Either its handler still runs and has written nothing, or it ended at some point of the run, as
`Ended` says: with a whole message about the state at that point, or without a word because the client sent nothing, the
connection failed, a line was too long or the path of the target could not be told. -/
theorem pages_served {rows : List (List Str)} {file : Option Bytes} (hfile : HistoryOf rows file) (request : Bytes)
    {actions : List HttpClient.Action} (htexts : ∀ action ∈ serviceActions actions, TextsDecoded action) {c : HttpClient δ}
    (hrun : Machine.run (HttpClient.step floatText urlPath (requestDigest floatText sha256))
      ⟨⟨Server.new, file⟩, request, .requestLine, []⟩ actions = some c) :
    Running c.stage ∧ c.written = [] ∨ ∃ before after ending v,
      actions = before ++ after ∧ c.stage = .closed ending ∧
      Machine.run (HttpClient.step floatText urlPath (requestDigest floatText sha256))
        ⟨⟨Server.new, file⟩, request, .requestLine, []⟩ before = some v ∧
      Ended floatText urlPath (rows ++ (Exporting.recordings (requestDigest floatText sha256) Server.new
        (serviceActions before)).flatMap (csvRows floatText)) v ending c.written := by
  induction actions using List.reverseRecOn generalizing c with
  | nil =>
    obtain rfl := Option.some.inj hrun
    exact .inl ⟨trivial, rfl⟩
  | append_singleton actions action ih =>
    obtain ⟨u, hu, hstep⟩ := Machine.run_append.mp hrun
    obtain ⟨t, ht, hend⟩ := Machine.run_cons.mp hstep
    obtain rfl := Option.some.inj hend
    have hsplit : serviceActions (actions ++ [action]) = serviceActions actions ++ serviceActions [action] :=
      List.filterMap_append
    rw [hsplit] at htexts
    have hbefore : ∀ a ∈ serviceActions actions, TextsDecoded a := fun a ha => htexts a (List.mem_append_left _ ha)
    rcases ih hbefore hu with ⟨hu₁, hu₂⟩ | ⟨before, after, ending, v, rfl, hstage, hv, hended⟩
    · have hshowing := run_showing (new_showing hfile) hbefore (run_exporting hu)
      rcases step_accounted hshowing hu₁ hu₂ ht with hopen | ⟨ending, hstage, hended⟩
      · exact .inl hopen
      · exact .inr ⟨actions, [action], ending, u, rfl, hstage, hu, hended⟩
    · obtain ⟨hstage', hwritten'⟩ := step_closed hstage ht
      refine .inr ⟨before, after ++ [action], ending, v, List.append_assoc _ _ _, hstage', hv, ?_⟩
      rw [hwritten']
      exact hended

end Runs

/-! ## Requests for the history and for the latest response -/

/-- `urlsplit` on a target that is a path with a query. -/
def originPath (target : Str) : Option Str := some (target.takeWhile fun c => c.val ≠ 63)

def historyRequest : Bytes := ascii "GET /metrics/export.csv?all HTTP/1.1\r\nHost: a\r\n\r\n"

/-- A result is recorded while the client sends its lines. -/
def historyActions : List HttpClient.Action := .read :: History.quotedRun.map .other ++ [.read, .read]

def latestRequest : Bytes := ascii "GET /metrics/latest HTTP/1.1\r\nHost: a\r\n\r\n"

/-- A result is recorded before the client sends its lines. -/
def latestActions : List HttpClient.Action := History.quotedRun.map .other ++ [.read, .read, .read]

/-- The run of a client that sends the request. -/
def pageRun (request : Bytes) (actions : List HttpClient.Action) : Option (HttpClient Bytes) :=
  Machine.run (HttpClient.step History.unitText originPath (requestDigest History.unitText id))
    ⟨Exporting.new, request, .requestLine, []⟩ actions

def endingOf {δ : Type} (c : HttpClient δ) : Option Ending := match c.stage with | .closed ending => some ending | _ => none

/-- The words of the request line of a handler that reads headers, and the figures it could show. -/
def asked {δ : Type} (c : HttpClient δ) : Option (List Str × List Double) :=
  match c.stage with
  | .headers requestLine => some (splitWords (asciiText requestLine), latestFigures c.exporting.server)
  | _ => none

/-- The literal with one digit before the point and a zero behind it. -/
def unitNumeral (digit : CodePoint) : Numeral := ⟨false, [digit], some [48], none⟩

theorem unitNumeral_valid {digit : CodePoint} (h : isDigit digit = true) : (unitNumeral digit).Valid := by
  refine ⟨List.forall_mem_singleton.mpr h, List.cons_ne_nil _ _, fun _ _ _ => rfl, fun digits hdigits => ?_,
    fun e he => absurd he (Option.not_mem_none e)⟩
  obtain rfl := Option.some.inj hdigits
  exact ⟨List.cons_ne_nil _ _, List.forall_mem_singleton.mpr rfl⟩

/-- The figures of the run are printed as literals. -/
theorem unitText_literal {x : Double} (h : x = .finite 0 ∨ x = .finite 1) : Literal History.unitText x := by
  have hvalues : Double.ofRat (unitNumeral 48).rational = .finite 0 ∧
      Double.ofRat (unitNumeral 49).rational = .finite 1 := by
    decide +kernel
  rcases h with rfl | rfl
  · exact ⟨unitNumeral 48, unitNumeral_valid rfl, congrArg Json.float hvalues.1, rfl⟩
  · exact ⟨unitNumeral 49, unitNumeral_valid rfl, congrArg Json.float hvalues.2, rfl⟩

theorem not_running_of_ending {δ : Type} {c : HttpClient δ} {ending : Ending} (h : endingOf c = some ending) :
    ¬ Running c.stage := by
  intro hrunning
  unfold endingOf at h
  split at h
  · rename_i heq
    rw [heq] at hrunning
    exact hrunning
  · cases h

theorem stage_of_ending {δ : Type} {c : HttpClient δ} {ending ending' : Ending} (h : endingOf c = some ending)
    (hstage : c.stage = .closed ending') : ending' = ending := by
  rw [endingOf, hstage] at h
  exact Option.some.inj h

/-- The handler that reads headers in a run of the latter client was asked for the latest response, after the service was
done, and what it could show has literals. -/
theorem latestRun_asked : ∀ n ∈ List.range 7, ∀ p ∈ (pageRun latestRequest (latestActions.take n)).bind asked,
    (n = 4 ∨ n = 5) ∧ p.1 = [str "GET", str "/metrics/latest", str "HTTP/1.1"] ∧
      ∀ x ∈ p.2, x = .finite 0 ∨ x = .finite 1 := by
  decide +kernel

/-- What that handler shows is the latest response of the service after its run. -/
theorem latestRun_shows {before after : List HttpClient.Action} {v : HttpClient Bytes} {rows : List (List Str)}
    {requestLine : Bytes} {message : Http.Message} (hsplit : latestActions = before ++ after)
    (hv : pageRun latestRequest before = some v) (hstage : v.stage = .headers requestLine)
    (hshows : Shows History.unitText originPath v.exporting rows requestLine message) :
    Machine.run (Exporting.step History.unitText (requestDigest History.unitText id)) Exporting.new
      History.quotedRun = some v.exporting ∧ Carries message.body v.exporting.server.latestFields := by
  have hbefore : before = latestActions.take before.length := by
    rw [hsplit, List.take_left]
  have hlength : before.length < 7 := by
    have htotal := congrArg List.length hsplit
    rw [List.length_append] at htotal
    have hsix : latestActions.length = 6 := rfl
    omega
  have hmem : (splitWords (asciiText requestLine), latestFigures v.exporting.server) ∈
      (pageRun latestRequest (latestActions.take before.length)).bind asked := by
    rw [← hbefore, hv, Option.bind_some, asked, hstage]
    rfl
  obtain ⟨hdone, hwords, hfigures⟩ := latestRun_asked before.length (List.mem_range.mpr hlength) _ hmem
  have hexporting := run_exporting hv
  have hservice : serviceActions before = History.quotedRun := by
    rw [hbefore]
    rcases hdone with hdone | hdone <;> rw [hdone] <;> rfl
  rw [hservice] at hexporting
  refine ⟨hexporting, ?_⟩
  have hpath : ∀ path, Asks originPath requestLine path → path = str "/metrics/latest" := by
    rintro path ⟨target, version, hasked, htarget⟩
    obtain ⟨rfl, -⟩ := List.cons.inj (List.cons.inj (hwords.symm.trans hasked)).2
    exact (Option.some.inj htarget).symm
  cases hshows with
  | notGet h hstart => exact absurd hwords (h _ _)
  | health h hstart hbody => exact absurd (hpath _ h) (by decide)
  | latest h hstart hbody => exact hbody fun x hx => unitText_literal (hfigures x hx)
  | history h hstart hbody => exact absurd (hpath _ h) (by decide)
  | notFound path h hother hstart =>
    rw [hpath path h] at hother
    exact absurd (List.mem_cons_of_mem _ List.mem_cons_self) hother

theorem requestedPages_served :
    (∃ (c : HttpClient Bytes) (message : Http.Message), pageRun historyRequest historyActions = some c ∧
      endingOf c = some .answered ∧ Http.read c.written = some (message, [])) ∧
    ∃ (c : HttpClient Bytes) (message : Http.Message) (e : Exporting Bytes),
      pageRun latestRequest latestActions = some c ∧ Http.read c.written = some (message, []) ∧
      Machine.run (Exporting.step History.unitText (requestDigest History.unitText id)) Exporting.new
        History.quotedRun = some e ∧ Carries message.body e.server.latestFields := by
  have hfile : HistoryOf [] none := ⟨rfl, fun _ => rfl, List.forall_mem_nil _⟩
  have hserved : ∀ (request : Bytes) (actions : List HttpClient.Action) (c : HttpClient Bytes),
      serviceActions actions = History.quotedRun → pageRun request actions = some c → endingOf c = some .answered →
      ∃ before after v rows, actions = before ++ after ∧ pageRun request before = some v ∧
        Ended History.unitText originPath rows v .answered c.written := by
    intro request actions c hservice hrun hending
    have htexts : ∀ action ∈ serviceActions actions, TextsDecoded action := by
      rw [hservice]
      simp only [History.quotedRun, List.forall_mem_cons]
      refine ⟨trivial, trivial, fun index values h => ?_, List.forall_mem_nil _⟩
      cases h
    have hserved := pages_served hfile request htexts hrun
    rcases hserved with ⟨hrunning, -⟩ | ⟨before, after, ending, v, hsplit, hstage, hv, hended⟩
    · exact absurd hrunning (not_running_of_ending hending)
    · obtain rfl := stage_of_ending hending hstage
      exact ⟨before, after, v, _, hsplit, hv, hended⟩
  constructor
  · have hend : (pageRun historyRequest historyActions).map endingOf = some (some .answered) := by decide +kernel
    obtain ⟨c, hrun, hending⟩ := Option.map_eq_some_iff.mp hend
    obtain ⟨before, after, v, rows, -, -, hended⟩ := hserved _ _ c rfl hrun hending
    cases hended with
    | tooLarge line rest written message hstage hline hlong hread hstart => exact ⟨c, message, hrun, hending, hread⟩
    | page requestLine written message hstage hread hshows => exact ⟨c, message, hrun, hending, hread⟩
  · have hend : (pageRun latestRequest latestActions).map (fun c =>
        (endingOf c, (Http.read c.written).map fun read => read.1.start)) =
        some (some .answered, some (HttpStatus.line .ok)) := by
      decide +kernel
    obtain ⟨c, hrun, hends⟩ := Option.map_eq_some_iff.mp hend
    obtain ⟨hending, hok⟩ := Prod.mk.inj hends
    obtain ⟨before, after, v, rows, hsplit, hv, hended⟩ := hserved _ _ c rfl hrun hending
    cases hended with
    | tooLarge line rest written message hstage hline hlong hread hstart =>
      rw [hread, Option.map_some, hstart] at hok
      exact absurd hok (by decide)
    | page requestLine written message hstage hread hshows =>
      obtain ⟨hexporting, hbody⟩ := latestRun_shows hsplit hv hstage hshows
      exact ⟨c, message, v.exporting, hrun, hread, hexporting, hbody⟩

end AfsimNs3.System.Pages
