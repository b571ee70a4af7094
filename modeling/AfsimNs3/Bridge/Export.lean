import AfsimNs3.Bridge.ServiceTexts
import AfsimNs3.Lib.Csv
import AfsimNs3.Lib.Utf8

/-!
# The metrics history (`metrics_store.py`)

`MetricsStore.record` keeps a response as the latest one and appends a line for each of its metrics to the export file; a
new file begins with a byte order mark and the names of the columns. `Exporting` is the service with this file.

`readHistory` is what a reader of the file does: decode, drop the mark, take the records apart.
-/

namespace AfsimNs3.Bridge
open Ns3Runner (FlowMetric MetricValues ComputeResult)

/-- `csv.excel`. -/
def excel : Csv.Dialect CodePoint := ⟨44, 34, 13, 10, by decide⟩

/-- `CSV_FIELDS`. -/
def csvFields : List Str := [str "request_id", str "timestamp_ms", str "revision", str "flow_id", str "source_entity_id",
  str "target_entity_id", str "connected", str "latency_ms", str "loss_rate", str "throughput_bps", str "tx_packets",
  str "rx_packets", str "traffic_direction", str "link_state"]

/-- `"\ufeff"`. -/
def bom : CodePoint := 0xfeff

/-! ## The rows of a response -/

section Rows
variable (floatText : ℚ → Bytes)

/-- The text of a float in a row. -/
def floatField : Double → Str
  | .finite q => Str.ofOctets (floatText q)
  | .inf false => str "inf"
  | .inf true => str "-inf"
  | .nan => str "nan"

def boolField (b : Bool) : Str := if b then str "True" else str "False"

def intField (n : ℤ) : Str := Str.ofOctets (intBytes n)

/-- The row of a metric, in the order of `CSV_FIELDS`. -/
def csvRow (response : Response) (metric : FlowMetric) : List Str := [
  response.measured.requestId,
  intField response.measured.timestampMs,
  intField response.measured.revision,
  metric.flowId,
  metric.sourceEntityId,
  metric.targetEntityId,
  boolField metric.values.connected,
  floatField floatText metric.values.latencyMs,
  floatField floatText metric.values.lossRate,
  floatField floatText metric.values.throughputBps,
  intField metric.values.txPackets,
  intField metric.values.rxPackets,
  metric.trafficDirection,
  metric.values.linkState]

def csvRows (response : Response) : List (List Str) := response.measured.metrics.map (csvRow floatText response)

/-! ## The file -/

/-- `utf-8-sig`: a mark goes before what is first written to an empty file. -/
def markFor (before : Bytes) (text : Str) : Bytes := if before = [] ∧ text ≠ [] then utf8 [bom] else []

/-- `_append_csv`: what the file holds then, and whether all lines were written. The lines before one that cannot be encoded
are. -/
def appendCsv (file : Option Bytes) (response : Response) : Bytes × Bool :=
  let rows := if file = none then csvFields :: csvRows floatText response else csvRows floatText response
  let lines := rows.map excel.record
  let written := lines.takeWhile encodable
  (file.getD [] ++ markFor (file.getD []) written.flatten ++ utf8 written.flatten, lines.all encodable)

/-- `history_csv`. -/
def historyCsv : Option Bytes → Bytes
  | some content => content
  | none => utf8 (bom :: excel.record csvFields)

/-- The records in the octets of a history. -/
def readHistory (octets : Bytes) : Option (List (List Str)) :=
  match decode octets with
  | some (c :: text) => if c = bom then some (excel.read text) else none
  | _ => none

/-! ## What the file holds -/

/-- The octets of a history with these rows. -/
def fileOf (rows : List (List Str)) : Bytes := utf8 (bom :: (csvFields :: rows).flatMap excel.record)

/-- A row that can be written and is seen again. -/
structure Writable (row : List Str) : Prop where
  nonempty : row ≠ []
  texts : ∀ field ∈ row, encodable field = true

/-- The file is a history with these rows. There is none before the first response. -/
structure HistoryOf (rows : List (List Str)) (file : Option Bytes) : Prop where
  content : historyCsv file = fileOf rows
  absent : file = none → rows = []
  writable : ∀ row ∈ rows, Writable row

theorem excel_encodable {c : CodePoint} (h : excel.Special c) : surrogate c = false := by
  rcases h with rfl | rfl | rfl | rfl <;> decide

theorem csvFields_writable : Writable csvFields := by
  refine ⟨List.cons_ne_nil _ _, fun field hfield => ?_⟩
  obtain ⟨name, rfl⟩ : ∃ name : String, field = str name := by
    simp only [csvFields, List.mem_cons, List.not_mem_nil, or_false] at hfield
    rcases hfield with h | h | h | h | h | h | h | h | h | h | h | h | h | h <;> exact ⟨_, h⟩
  exact Str.encodable_literal name

theorem Writable.record {row : List Str} (h : Writable row) : encodable (excel.record row) = true := by
  refine encodable_iff.mpr fun c hc => ?_
  rcases Csv.mem_record hc with ⟨field, hfield, hc⟩ | hspecial
  · exact encodable_iff.mp (h.texts field hfield) c hc
  · exact excel_encodable hspecial

theorem records_encodable {rows : List (List Str)} (h : ∀ row ∈ rows, Writable row) :
    encodable (rows.flatMap excel.record) = true := by
  refine encodable_iff.mpr fun c hc => ?_
  obtain ⟨row, hrow, hc⟩ := List.mem_flatMap.mp hc
  exact encodable_iff.mp (h row hrow).record c hc

/-- **What is read is what was written.** -/
theorem HistoryOf.read {rows : List (List Str)} {file : Option Bytes} (h : HistoryOf rows file) :
    readHistory (historyCsv file) = some (csvFields :: rows) := by
  have hall : ∀ row ∈ csvFields :: rows, Writable row := List.forall_mem_cons.mpr ⟨csvFields_writable, h.writable⟩
  have hmark : surrogate bom = false := by decide
  have htext : encodable (bom :: (csvFields :: rows).flatMap excel.record) = true := by
    rw [encodable_cons, hmark, records_encodable hall]
    rfl
  unfold readHistory
  rw [h.content, fileOf, decode_utf8 htext]
  dsimp only
  rw [if_pos rfl, Csv.read_records fun row hrow => (hall row hrow).nonempty]

/-- All lines are written if all can be. -/
theorem takeWhile_records {rows : List (List Str)} (h : ∀ row ∈ rows, Writable row) :
    (rows.map excel.record).takeWhile encodable = rows.map excel.record ∧ (rows.map excel.record).all encodable = true := by
  have hlines : ∀ line ∈ rows.map excel.record, encodable line = true :=
    List.forall_mem_map.mpr fun row hrow => (h row hrow).record
  exact ⟨List.takeWhile_eq_self_iff.mpr hlines, List.all_eq_true.mpr hlines⟩

/-- **The rows of a response go after those there are**, all of them; the mark and the names of the columns are written once. -/
theorem HistoryOf.append {rows : List (List Str)} {file : Option Bytes} (h : HistoryOf rows file) {response : Response}
    (hrows : ∀ row ∈ csvRows floatText response, Writable row) :
    appendCsv floatText file response = (fileOf (rows ++ csvRows floatText response), true) := by
  unfold appendCsv
  dsimp only
  cases file with
  | none =>
    obtain ⟨hwritten, hall⟩ := takeWhile_records (List.forall_mem_cons.mpr ⟨csvFields_writable, hrows⟩)
    have hmark : ∀ text : Str, markFor [] (excel.record csvFields ++ text) = utf8 [bom] := by
      intro text
      refine if_pos ⟨rfl, ?_⟩
      rw [Csv.Dialect.record, List.append_assoc]
      exact List.append_ne_nil_of_right_ne_nil _ (List.cons_ne_nil _ _)
    rw [if_pos rfl, hwritten, hall, h.absent rfl, Option.getD_none, List.nil_append, List.nil_append, List.map_cons,
      List.flatten_cons, hmark, ← utf8_append]
    rfl
  | some content =>
    obtain ⟨hwritten, hall⟩ := takeWhile_records hrows
    have hcontent : content = fileOf rows := h.content
    have hne : content ≠ [] := by
      rw [hcontent, fileOf, utf8_cons]
      exact List.append_ne_nil_of_left_ne_nil (by decide) _
    have hmark : ∀ text, markFor content text = [] := fun text => if_neg fun hempty => hne hempty.1
    rw [if_neg (Option.some_ne_none content), hwritten, hall, Option.getD_some, hmark, List.append_nil, hcontent, fileOf,
      fileOf, ← utf8_append]
    congr 2
    rw [List.cons_append, List.flatMap_cons, List.flatMap_cons, List.flatMap_append, List.append_assoc]
    rfl

theorem HistoryOf.appended {rows : List (List Str)} {file : Option Bytes} (h : HistoryOf rows file) {response : Response}
    (hrows : ∀ row ∈ csvRows floatText response, Writable row) :
    HistoryOf (rows ++ csvRows floatText response) (some (appendCsv floatText file response).1) := by
  refine ⟨?_, fun hnone => absurd hnone (Option.some_ne_none _), ?_⟩
  · rw [h.append floatText hrows]
    rfl
  · intro row hrow
    rw [List.mem_append] at hrow
    exact hrow.elim (h.writable row) (hrows row)

/-- The texts of a metric of a response. -/
theorem metric_texts {response : Response} (h : response.Encodable) {metric : FlowMetric}
    (hmetric : metric ∈ response.measured.metrics) :
    encodable metric.flowId = true ∧ encodable metric.sourceEntityId = true ∧ encodable metric.targetEntityId = true ∧
      encodable metric.trafficDirection = true ∧ encodable metric.values.linkState = true := by
  have hfields := h.fields
  simp only [Response.fields, Json.encodable_obj, List.forall_mem_append, List.forall_mem_cons] at hfields
  have hmetrics : (Json.objects FlowMetric.fields response.measured.metrics).Encodable := hfields.1.2.2.2.2.2.2.2.2.2.1.2
  have htexts := encodable_objects.mp hmetrics metric hmetric
  simp only [FlowMetric.fields, Json.encodable_obj, List.forall_mem_cons, Json.encodable_str] at htexts
  exact ⟨htexts.1.2, htexts.2.1.2, htexts.2.2.1.2, htexts.2.2.2.2.2.2.2.2.2.2.1.2, htexts.2.2.2.2.2.2.2.2.2.1.2⟩

/-- A response whose texts can be encoded has rows that can be written. -/
theorem csvRows_writable {response : Response} (h : response.Encodable) : ∀ row ∈ csvRows floatText response, Writable row := by
  refine List.forall_mem_map.mpr fun metric hmetric => ⟨List.cons_ne_nil _ _, ?_⟩
  have hmetric := metric_texts h hmetric
  have hfloat : ∀ x, encodable (floatField floatText x) = true := by
    intro x
    rcases x with q | negative | _
    · exact Str.encodable_ofOctets _
    · cases negative <;> exact Str.encodable_literal _
    · exact Str.encodable_literal _
  have hbool : ∀ b, encodable (boolField b) = true := by
    intro b
    cases b <;> exact Str.encodable_literal _
  have hint : ∀ n, encodable (intField n) = true := fun n => Str.encodable_ofOctets _
  simp only [csvRow, List.forall_mem_cons]
  exact ⟨h.requestId, hint _, hint _, hmetric.1, hmetric.2.1, hmetric.2.2.1, hbool _, hfloat _, hfloat _, hfloat _, hint _,
    hint _, hmetric.2.2.2.1, hmetric.2.2.2.2, List.forall_mem_nil _⟩

end Rows

/-! ## The service and its file -/

namespace Server

variable {δ : Type}

/-- The response that a step records. -/
def recordedBy (s : Server δ) : Action → Option Response
  | .computed (.ok values computeMs) _ =>
    match s.worker with
    | .computing job =>
      if job.snapshot.revision < s.state.revision ∨ s.pendingLock then none
      else some ((s.setLastError none).response job (Ns3Runner.computeResult job.snapshot job.requestId computeMs values))
    | _ => none
  | .resumeWorker _ =>
    match s.worker with
    | .wantsQueueState job measured => if s.pendingLock then none else some (s.response job measured)
    | _ => none
  | _ => none

end Server

structure Exporting (δ : Type) where
  server : Server δ
  file : Option Bytes

namespace Exporting

variable {δ : Type}

/-- A service just started, without a file of an earlier one. -/
def new : Exporting δ := ⟨Server.new, none⟩

variable [DecidableEq δ] (floatText : ℚ → Bytes) (digestOf : Json → Except PyError δ)

/-- A step; what it records is appended to the file. -/
def step (e : Exporting δ) (action : Server.Action) : Option (Exporting δ) :=
  (e.server.step digestOf action).map fun server =>
    ⟨server, (e.server.recordedBy action).elim e.file fun response => some (appendCsv floatText e.file response).1⟩

/-- The responses recorded in a run, in their order. -/
def recordings (s : Server δ) : List Server.Action → List Response
  | [] => []
  | action :: actions => (s.recordedBy action).toList ++
      (s.step digestOf action).elim [] fun server => recordings server actions

end Exporting

end AfsimNs3.Bridge
