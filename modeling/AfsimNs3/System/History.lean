import AfsimNs3.Bridge.Export
import AfsimNs3.System.LockStep
import AfsimNs3.System.Publishing
import AfsimNs3.System.Replies

/-!
# The metrics history over whole runs (`metrics_store.py`)

Every response the service records goes into the export file, and nothing else does. Whatever is in the ids of the
entities and flows and in the requests, a reader of the file finds the rows of these responses, in the order in which they
were recorded (`history_exported`); a service that finds the file of an earlier one continues it.
-/

namespace AfsimNs3.System.History
open Bridge Bridge.Server

section Steps
variable {δ : Type} {s s' : Server δ}

/-- No response is recorded from `s` to `s'`. -/
structure Unrecorded (s s' : Server δ) : Prop where
  latest : s'.latest = s.latest
  revisions : recordedRevisions s'.log = recordedRevisions s.log

theorem Unrecorded.trans {t : Server δ} (h : Unrecorded s s') (h' : Unrecorded s' t) : Unrecorded s t :=
  ⟨h'.latest.trans h.latest, h'.revisions.trans h.revisions⟩

theorem takeJob_unrecorded (s : Server δ) : Unrecorded s s.takeJob := by
  unfold takeJob
  cases s.pending with
  | none => exact ⟨rfl, rfl⟩
  | some job =>
    refine ⟨rfl, ?_⟩
    show recordedRevisions (s.log ++ [.taken job.snapshot.revision]) = _
    rw [recordedRevisions_append]
    exact List.append_nil _

theorem awaitEvent_unrecorded (s : Server δ) : Unrecorded s s.awaitEvent := by
  unfold awaitEvent awaitJob
  split_ifs
  · exact ⟨rfl, rfl⟩
  · exact takeJob_unrecorded s
  · exact ⟨rfl, rfl⟩

theorem sendNext_unrecorded (s : Server δ) (message : Broadcast) (todo failed : List Client) :
    Unrecorded s (s.sendNext message todo failed) := by
  unfold sendNext
  cases todo with
  | nil =>
    have hremoved : Unrecorded s (s.removeClients failed) := ⟨rfl, rfl⟩
    exact hremoved.trans (awaitEvent_unrecorded _)
  | cons client todo => exact ⟨rfl, rfl⟩

theorem setLastError_unrecorded (s : Server δ) (error : Option Str) : Unrecorded s (s.setLastError error) := ⟨rfl, rfl⟩

theorem write_unrecorded (s : Server δ) (ok : Bool) (message : Broadcast) (client : Client) (todo failed : List Client) :
    Unrecorded s (s.write ok message client todo failed) := by
  unfold write
  split_ifs
  · refine ⟨rfl, ?_⟩
    show recordedRevisions (s.log ++ Broadcast.events client message) = _
    have hevents : recordedRevisions (Broadcast.events client message) = [] := by cases message <;> rfl
    rw [recordedRevisions_append, hevents, List.append_nil]
  · exact sendNext_unrecorded s message todo (failed ++ [client])

/-- What a step records, next to what was recorded before. -/
structure Recorded (s s' : Server δ) (response : Option Response) : Prop where
  latest : s'.latest = response.or s.latest
  revisions : recordedRevisions s'.log =
    recordedRevisions s.log ++ response.toList.map fun response => response.measured.revision

theorem Unrecorded.recorded (h : Unrecorded s s') : Recorded s s' none :=
  ⟨h.latest, h.revisions.trans (List.append_nil _).symm⟩

theorem report_recorded (s : Server δ) (job : Job) (measured : Ns3Runner.ComputeResult) (order : List Client) :
    Recorded s (s.report job measured order) (some (s.response job measured)) := by
  have hsent := sendNext_unrecorded (s.record job (s.response job measured)) (.metrics (s.response job measured)) order []
  refine ⟨hsent.latest, hsent.revisions.trans ?_⟩
  show recordedRevisions (s.log ++ [.recorded measured.revision s.state.revision]) = _
  rw [recordedRevisions_append]
  rfl

theorem computed_recorded (hs : s.Unlocked) {job : Job} (hjob : s.worker = .computing job) (computation : Computation)
    (order : List Client) :
    Recorded s (s.computed job computation order) (s.recordedBy (.computed computation order)) := by
  cases computation with
  | failed message =>
    exact ((setLastError_unrecorded s (some message)).trans (sendNext_unrecorded _ _ order [])).recorded
  | ok values computeMs =>
    unfold computed recordedBy
    rw [hjob]
    dsimp only
    rw [hs.pending]
    by_cases hstale : job.snapshot.revision < s.state.revision
    · rw [if_pos hstale, if_pos (.inl hstale)]
      exact ((setLastError_unrecorded s none).trans (awaitEvent_unrecorded _)).recorded
    · rw [if_neg hstale, if_neg Bool.false_ne_true, if_neg (not_or.mpr ⟨hstale, Bool.false_ne_true⟩)]
      obtain ⟨hlatest, hrevisions⟩ := report_recorded (s.setLastError none) job
        (Ns3Runner.computeResult job.snapshot job.requestId computeMs values) order
      exact ⟨hlatest, hrevisions⟩

variable [DecidableEq δ] {digestOf : Json → Except PyError δ}

theorem process_unrecorded (hs : s.Unlocked) (payload : Json) : Unrecorded s (s.process digestOf payload).1 := by
  have houtcome := process_outcome digestOf hs payload
  generalize s.process digestOf payload = result at houtcome ⊢
  cases houtcome with
  | raised e => exact ⟨rfl, rfl⟩
  | latest => exact ⟨rfl, rfl⟩
  | repeated envelope digest ack =>
    refine ⟨rfl, ?_⟩
    show recordedRevisions (s.log ++ [.replied { ack with duplicate := true }]) = _
    rw [recordedRevisions_append]
    exact List.append_nil _
  | accepted envelope digest state snapshot =>
    refine ⟨rfl, ?_⟩
    show recordedRevisions (s.log ++ [.accepted state.revision, .replied (ackOf envelope snapshot s.pending)]) = _
    rw [recordedRevisions_append]
    exact List.append_nil _

/-- **What a step records** is the new latest response and the revision logged. -/
theorem step_recorded (hs : s.Unlocked) {action : Action} (h : step digestOf s action = some s') :
    Recorded s s' (s.recordedBy action) := by
  cases step_cases hs h with
  | connect client => exact Unrecorded.recorded ⟨rfl, rfl⟩
  | disconnect client => exact Unrecorded.recorded ⟨rfl, rfl⟩
  | call payload => exact (process_unrecorded hs payload).recorded
  | wake hwaiting => exact (takeJob_unrecorded s).recorded
  | computed job computation order hjob horder => exact computed_recorded hs hjob computation order
  | write ok message client todo failed hworker => exact (write_unrecorded s ok message client todo failed).recorded
  | drained ok message client todo failed hworker => exact (sendNext_unrecorded s message todo _).recorded

end Steps

/-! ## Runs -/

section Runs
variable {δ : Type} [DecidableEq δ] {floatText : ℚ → Bytes} {sha256 : Bytes → δ}

omit [DecidableEq δ] in
/-- What is recorded can be written. -/
theorem recordedBy_encodable {s : Server δ} (hs : s.Encodable) {action : Action} (hdecoded : action.Decoded) {response : Response}
    (h : s.recordedBy action = some response) (hunlocked : s.Unlocked) : response.Encodable := by
  cases action with
  | computed computation order =>
    cases computation with
    | failed message => exact nomatch h
    | ok values computeMs =>
      unfold recordedBy at h
      dsimp only at h
      split at h
      · rename_i job hjob
        split_ifs at h
        obtain rfl := Option.some.inj h
        exact (s.setLastError none).response_encodable (hs.computing job hjob) hdecoded computeMs
      · exact nomatch h
  | resumeWorker order =>
    have hfree := hunlocked.worker
    unfold recordedBy at h
    dsimp only at h
    split at h
    · rename_i hworker
      rw [hworker] at hfree
      exact hfree.elim
    · exact nomatch h
  | connect | disconnect | call | resumeCall | wake | write | drained => exact nomatch h

/-- What a run has recorded and written, from one state to another. -/
structure Exported (floatText : ℚ → Bytes) (rows : List (List Str)) (e : Exporting δ) (responses : List Response)
    (e' : Exporting δ) : Prop where
  file : HistoryOf (rows ++ responses.flatMap (csvRows floatText)) e'.file
  latest : e'.server.latest = responses.getLast?.or e.server.latest
  revisions : recordedRevisions e'.server.log =
    recordedRevisions e.server.log ++ responses.map fun response => response.measured.revision

/-- The step of the service and of its file. -/
theorem step_exported {e e' : Exporting δ} {rows : List (List Str)} (hs : Sound e.server) (hfile : HistoryOf rows e.file)
    {action : Action} (hdecoded : action.Decoded) (h : e.step floatText (requestDigest floatText sha256) action = some e') :
    e.server.step (requestDigest floatText sha256) action = some e'.server ∧
      Exported floatText rows e (e.server.recordedBy action).toList e' := by
  obtain ⟨server, hstep, rfl⟩ := Option.map_eq_some_iff.mp h
  have hrecorded := step_recorded hs.unlocked hstep
  refine ⟨hstep, ?_, ?_, hrecorded.revisions⟩
  · cases hresponse : e.server.recordedBy action with
    | none =>
      show HistoryOf (rows ++ []) e.file
      rwa [List.append_nil]
    | some response =>
      have hrows := csvRows_writable floatText (recordedBy_encodable hs.encodable hdecoded hresponse hs.unlocked)
      show HistoryOf (rows ++ [response].flatMap (csvRows floatText)) (some (appendCsv floatText e.file response).1)
      rw [List.flatMap_singleton]
      exact hfile.appended floatText hrows
  · show server.latest = _
    rw [hrecorded.latest]
    cases e.server.recordedBy action <;> rfl

theorem run_exported {e e' : Exporting δ} {rows : List (List Str)} (hs : Sound e.server) (hfile : HistoryOf rows e.file)
    {actions : List Action} (hdecoded : ∀ action ∈ actions, action.Decoded)
    (h : Machine.run (Exporting.step floatText (requestDigest floatText sha256)) e actions = some e') :
    Machine.run (Server.step (requestDigest floatText sha256)) e.server actions = some e'.server ∧
      Exported floatText rows e (Exporting.recordings (requestDigest floatText sha256) e.server actions) e' := by
  induction actions generalizing e rows with
  | nil =>
    obtain rfl := Option.some.inj h
    refine ⟨rfl, ?_, rfl, (List.append_nil _).symm⟩
    show HistoryOf (rows ++ []) e.file
    rwa [List.append_nil]
  | cons action actions ih =>
    rw [List.forall_mem_cons] at hdecoded
    obtain ⟨next, hnext, hrest⟩ := Machine.run_cons.mp h
    obtain ⟨hstep, hfirst⟩ := step_exported hs hfile hdecoded.1 hnext
    obtain ⟨hrun, hlater⟩ := ih (hs.step hdecoded.1 hstep) hfirst.file hdecoded.2 hrest
    have hrecordings : Exporting.recordings (requestDigest floatText sha256) e.server (action :: actions) =
        (e.server.recordedBy action).toList ++ Exporting.recordings (requestDigest floatText sha256) next.server actions := by
      rw [Exporting.recordings, hstep]
      rfl
    refine ⟨Machine.run_cons.mpr ⟨next.server, hstep, hrun⟩, ?_, ?_, ?_⟩
    · rw [hrecordings, List.flatMap_append, ← List.append_assoc]
      exact hlater.file
    · rw [hrecordings, hlater.latest, hfirst.latest, List.getLast?_append, Option.or_assoc]
    · rw [hrecordings, hlater.revisions, hfirst.revisions, List.map_append, List.append_assoc]

theorem run_inOrder {actions : List Action} {s : Server δ} {digestOf : Json → Except PyError δ}
    (h : Machine.run (Server.step digestOf) new actions = some s) : InOrder s := by
  have hnew : InOrder (new : Server δ) := ⟨fun r t hr => absurd hr List.not_mem_nil, List.Pairwise.nil, fun _ =>
    List.Pairwise.nil, List.nodup_nil, ⟨fun r hr => absurd hr List.not_mem_nil, fun client r hr => absurd hr List.not_mem_nil⟩,
    fun job hjob => absurd hjob (Option.some_ne_none job).symm⟩
  exact (run_moves (fun s => Accounted s ∧ InOrder s ∧ Ahead s)
    (fun s s' hs hi hmove => ⟨move_accounted hs hi.1 hmove, move_inOrder hs hi.1 hi.2.1 hi.2.2 hmove⟩)
    ⟨new_accounted, hnew, trivial⟩ h).2.2.1

/-- **The export is complete and in order.** Take a service started on a file with the rows of earlier services, or on none.
After every run, a reader of the history finds those rows and after them the rows of exactly the responses recorded in
the run, one revision after the other; the last of them is the latest response. The next service can continue the file. -/
theorem history_exported {rows : List (List Str)} {file : Option Bytes} (hfile : HistoryOf rows file) {actions : List Action}
    (hdecoded : ∀ action ∈ actions, action.Decoded) {e : Exporting δ}
    (h : Machine.run (Exporting.step floatText (requestDigest floatText sha256)) ⟨Server.new, file⟩ actions = some e) :
    let responses := Exporting.recordings (requestDigest floatText sha256) Server.new actions
    let exported := rows ++ responses.flatMap (csvRows floatText)
    readHistory (historyCsv e.file) = some (csvFields :: exported) ∧
      responses.map (fun response => response.measured.revision) = recordedRevisions e.server.log ∧
      (responses.map fun response => response.measured.revision).Pairwise (· < ·) ∧
      responses.getLast? = e.server.latest ∧
      HistoryOf exported e.file := by
  obtain ⟨hrun, hexported⟩ := run_exported new_sound hfile hdecoded h
  have hrevisions : recordedRevisions e.server.log = _ := hexported.revisions
  have hlatest : e.server.latest = _ := hexported.latest.trans (Option.or_none)
  refine ⟨hexported.file.read, hrevisions.symm, ?_, hlatest.symm, hexported.file⟩
  have hrecorded := (run_inOrder hrun).recorded
  rw [hrevisions] at hrecorded
  exact hrecorded

end Runs

/-! ## Ids that need quotes -/

/-- The texts of `0.0` and `1.0`. -/
def unitText (q : ℚ) : Bytes := if q = 1 then ascii "1.0" else ascii "0.0"

def quotedFlow : Json := .obj [
  (str "flow_id", .str (str "a,\"b\"\nc")),
  (str "source_entity_id", .str (str "A")),
  (str "target_entity_id", .str (str "B")),
  (str "packet_size_bytes", .int 64),
  (str "interval_ms", .int 1),
  (str "duration_ms", .int 100)]

def quotedInit : Json := requestOf (str "afsim_init") (str "i,1") [
  (str "entities", .arr [LockStep.pairEntity (str "A") [LockStep.pairDevice 1000], LockStep.pairEntity (str "B") []]),
  (str "flows", .arr [quotedFlow])]

/-- An initialisation with a flow, of which the runner measures nothing. -/
def quotedRun : List Action := [.call quotedInit, .wake, .computed (.ok Dict.empty 0) []]

def quotedRow : List Str := [str "i,1", str "0", str "1", str "a,\"b\"\nc", str "A", str "B", str "False", str "0.0", str "1.0",
  str "0.0", str "0", str "0", str "A->B", str "DOWN"]

theorem quotedRun_exported : ∃ e : Exporting Bytes,
    Machine.run (Exporting.step unitText (requestDigest unitText id)) Exporting.new quotedRun = some e ∧
      readHistory (historyCsv e.file) = some [csvFields, quotedRow] := by
  have hsome : (Machine.run (Exporting.step unitText (requestDigest unitText id))
      Exporting.new quotedRun).isSome = true := by
    decide +kernel
  obtain ⟨e, he⟩ := Option.isSome_iff_exists.mp hsome
  have hrows : (Exporting.recordings (requestDigest unitText id) Server.new quotedRun).flatMap
      (csvRows unitText) = [quotedRow] := by
    decide +kernel
  have hdecoded : ∀ action ∈ quotedRun, action.Decoded := by
    simp only [quotedRun, List.forall_mem_cons]
    refine ⟨trivial, trivial, fun index values h => ?_, List.forall_mem_nil _⟩
    exact nomatch h
  have hnone : HistoryOf [] none := ⟨rfl, fun _ => rfl, List.forall_mem_nil _⟩
  have hread := (history_exported hnone hdecoded he).1
  rw [hrows] at hread
  exact ⟨e, he, hread⟩

end AfsimNs3.System.History
