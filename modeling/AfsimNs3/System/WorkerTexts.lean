import AfsimNs3.Runner.Reports
import AfsimNs3.System.LockStep

/-!
# The replies of the worker as text (`engine.py`)

`LockStep` passes replies from the worker to `compute`. In between they are lines of text: the worker prints them with
six decimals, `compute` takes the standard output apart line by line and column by column, and raises where a line is not
what it expects.

* `readReport_lines`: on the lines of sound replies the read loop does what `readReplies` does on the replies, with the
  figures as they were printed;
* `run_simulates`: so the text is transparent, over all calls of a process;
* `metrics_sound`: every metric returned is in its ranges.
-/

namespace AfsimNs3.System.WorkerTexts
open Bridge Bridge.Ns3Runner Runner LockStep

/-- The conversions between numbers and texts on both sides of the pipes. -/
structure Conversions where
  /-- `str` of a float. -/
  floatText : ℚ → Bytes
  /-- `std::stod`. -/
  stod : Bytes → Except Bytes Double
  /-- `int` of the text of a number without a sign; none is the `ValueError`. -/
  int : Bytes → Option ℕ
  /-- `float`; none is the `ValueError`. -/
  float : Bytes → Option Double
  floatText_oneLine : ∀ q, OneLine (floatText q)
  stod_ends : ∀ text, Except.Ends (fun _ => True) OneLine (stod text)
  int_natBytes : ∀ n, n < 2 ^ 32 → int (natBytes n) = some n
  float_read : ∀ text q, Fixed.read text = some q → float text = some (Double.ofRat q)

/-! ## The read loop -/

/-- Universal newlines: `\r\n` and `\r` are read as `\n`. -/
def universal : Bytes → Bytes
  | 13 :: 10 :: rest => 10 :: universal rest
  | 13 :: rest => 10 :: universal rest
  | c :: rest => c :: universal rest
  | [] => []

/-- `rstrip("\r\n")`. -/
def rstrip (line : Bytes) : Bytes := line.rdropWhile fun c => c = 10 || c = 13

/-- What a call of `compute` ends in. -/
inductive Report where
  | outcome (outcome : LockStep.Outcome)
  | invalidResult (line : Bytes)
  /-- `DONE` without an ID. -/
  | invalidDone (line : Bytes)
  | valueError

section Reader
variable (c : Conversions)

/-- The columns of a `RESULT` line behind the first; none is a `ValueError`. -/
def readColumns : List Bytes → Option (Option Result)
  | [index, connected, latencyMs, lossRate, throughputBps, txPackets, rxPackets, linkState] => some do
    let latencyMs ← c.float latencyMs
    let lossRate ← c.float lossRate
    let throughputBps ← c.float throughputBps
    let txPackets ← c.int txPackets
    let rxPackets ← c.int rxPackets
    let index ← c.int index
    some ⟨index, ⟨connected = ascii "1", latencyMs, lossRate, throughputBps, txPackets, rxPackets,
      Str.ofOctets linkState⟩⟩
  | _ => none

/-- The read loop of `compute`, over the complete lines of the standard output. -/
def readReport (call : Call) (results : List Result) : List Bytes → Report × List Bytes
  | [] => (.outcome .blocked, [])
  | line :: rest =>
    match (rstrip (line ++ [10])).splitOn 9 with
    | [] => readReport call results rest
    | name :: parts =>
      if name = ascii "ERROR" then (.outcome (.raised (.answered (tabJoin parts))), rest)
      else if name = ascii "RESULT" then
        match readColumns c parts with
        | none => (.invalidResult line, rest)
        | some none => (.valueError, rest)
        | some (some result) => readReport call (results ++ [result]) rest
      else if name = ascii "DONE" then
        match parts with
        | [] => (.invalidDone line, rest)
        | id :: _ =>
          if id = scenarioId call.snapshot then (.outcome (.returned (call.answer results)), rest)
          else (.outcome (.raised (.invalidDone id)), rest)
      else readReport call results rest

/-! ## The calls of a process -/

/-- One call of `compute` and the network it meets. -/
structure WorkerCall where
  snapshot : StateSnapshot
  requestId : Str
  computeMs : ℚ
  network : Network

def WorkerCall.call (call : WorkerCall) : Call :=
  ⟨call.snapshot, call.requestId, call.computeMs, call.network.simulate⟩

/-- The call in a simulation whose figures are the printed ones. -/
def WorkerCall.rounded (call : WorkerCall) : Call :=
  { call.call with simulate := fun scenario => (call.network.simulate scenario).map (List.map printedBack) }

/-- The worker process and the unread lines of its standard output. -/
structure Process where
  scenario : Scenario
  unread : List Bytes

def Process.started : Process := ⟨Scenario.empty, []⟩

def Process.compute (p : Process) (call : WorkerCall) : Report × Process :=
  match scenarioLines c.floatText call.snapshot with
  | none => (.outcome .keyError, p)
  | some lines =>
    let (scenario, replies) := handleLines c.stod call.network.simulate p.scenario lines
    let (report, unread) := readReport c call.call [] (p.unread ++ Split.segments 10 (universal (output replies)))
    (report, ⟨scenario, unread⟩)

/-- What the calls of a process end in. -/
def Process.run (p : Process) : List WorkerCall → List Report
  | [] => []
  | call :: calls => (p.compute c call).1 :: Process.run (p.compute c call).2 calls

end Reader

/-- The same for replies that are passed as they are. -/
def outcomes (floatText : ℚ → Bytes) (stod : Bytes → Except Bytes Double) (w : LockStep.Worker) :
    List Call → List LockStep.Outcome
  | [] => []
  | call :: calls =>
    (LockStep.compute floatText stod w call).1 ::
      outcomes floatText stod (LockStep.compute floatText stod w call).2 calls

/-! ## A line is read as its reply -/

/-- A reply as its line says it. -/
def reread : Reply → Reply
  | .result result => .result (printedBack result)
  | reply => reply

theorem universal_of_notMem {text : Bytes} (h : (13 : UInt8) ∉ text) : universal text = text := by
  induction text with
  | nil => rfl
  | cons c rest ih =>
    rw [List.mem_cons, not_or] at h
    unfold universal
    split
    · rename_i heq
      exact absurd (List.cons.inj heq).1.symm h.1
    · rename_i heq
      exact absurd (List.cons.inj heq).1.symm h.1
    · rename_i heq
      obtain ⟨rfl, rfl⟩ := List.cons.inj heq
      rw [ih h.2]
    · rename_i heq
      cases heq

theorem rstrip_line {line : Bytes} (h : OneLine line) : rstrip (line ++ [10]) = line := by
  have hsame : line.rdropWhile (fun c => c = 10 || c = 13) = line := by
    rw [List.rdropWhile_eq_self_iff]
    intro hne hend
    have hlast := h _ (List.getLast_mem hne)
    rw [Bool.or_eq_true, decide_eq_true_eq, decide_eq_true_eq] at hend
    exact hend.elim hlast.2.1 hlast.2.2
  unfold rstrip
  rw [List.rdropWhile_concat_pos _ _ _ (by decide), hsame]

variable (c : Conversions)

theorem float_figureText {x : Double} {bound : ℚ} (h : Double.Within 0 bound x) :
    c.float (figureText x) = some (reprinted x) := by
  obtain ⟨q, rfl, -⟩ := h
  exact c.float_read _ _ (Fixed.read_text (by norm_num) q)

theorem flag_eq_one (b : Bool) : decide (flag b = ascii "1") = b := by
  cases b <;> decide

/-- **The columns of a result are read back.** -/
theorem readColumns_result {result : Result} (h : SoundResult result) :
    readColumns c (columns result).tail = some (some (printedBack result)) := by
  obtain ⟨hindex, hvalues⟩ := h
  have hrx : result.values.rxPackets < 2 ^ 32 := hvalues.received.trans_lt hvalues.counted
  have hstate : Str.ofOctets (utf8 result.values.linkState) = result.values.linkState := by
    rw [hvalues.linkState]
    split_ifs
    · decide
    · decide
  unfold columns readColumns
  simp only [List.tail_cons, float_figureText c hvalues.latencyMs, float_figureText c hvalues.lossRate,
    float_figureText c hvalues.throughputBps, c.int_natBytes _ hvalues.counted, c.int_natBytes _ hrx,
    c.int_natBytes _ hindex, flag_eq_one, hstate]
  rfl

/-- **The read loop reads the replies** off their lines, and leaves the same ones unread. -/
theorem readReport_lines (call : WorkerCall) {replies : List Reply} (h : ∀ reply ∈ replies, reply.Sound)
    (read : List Result) : ∃ (outcome : LockStep.Outcome) (rest : List Reply), (∀ reply ∈ rest, reply ∈ replies) ∧
      readReport c call.call read (replies.map Reply.line) = (.outcome outcome, rest.map Reply.line) ∧
      readReplies call.rounded read (replies.map reread) = (outcome, rest.map reread) := by
  induction replies generalizing read with
  | nil => exact ⟨.blocked, [], fun _ h => h, rfl, rfl⟩
  | cons reply replies ih =>
    rw [List.forall_mem_cons] at h
    obtain ⟨hreply, hreplies⟩ := h
    have hstripped := rstrip_line (oneLine_line hreply)
    cases reply with
    | error what =>
      refine ⟨.raised (.answered what), replies, fun _ h => List.mem_cons_of_mem _ h, ?_, rfl⟩
      have hsplit : (rstrip (Reply.line (.error what) ++ [10])).splitOn 9 = ascii "ERROR" :: what.splitOn 9 := by
        rw [hstripped, Reply.line, tabJoin, List.intercalate_cons_cons, List.intercalate_singleton, List.append_assoc]
        exact List.splitOn_append_cons_self_of_not_mem (show (9 : UInt8) ∉ ascii "ERROR" by decide) what
      rw [List.map_cons, readReport, hsplit]
      dsimp only
      rw [if_pos rfl, tabJoin, List.intercalate_splitOn]
    | result result =>
      obtain ⟨outcome, rest, hrest, hlines, hread⟩ := ih hreplies (read ++ [printedBack result])
      refine ⟨outcome, rest, fun r hr => List.mem_cons_of_mem _ (hrest r hr), ?_, hread⟩
      have hsplit : (rstrip (Reply.line (.result result) ++ [10])).splitOn 9 =
          ascii "RESULT" :: (columns result).tail := by
        rw [hstripped, splitOn_result hreply]
        rfl
      rw [List.map_cons, readReport, hsplit]
      dsimp only
      rw [if_neg (by decide), if_pos rfl, readColumns_result c hreply]
      exact hlines
    | done id =>
      have hsplit : (rstrip (Reply.line (.done id) ++ [10])).splitOn 9 = [ascii "DONE", id] := by
        rw [hstripped]
        refine List.splitOn_intercalate 9 ?_ (List.cons_ne_nil _ _)
        simp only [List.forall_mem_cons, List.not_mem_nil, false_imp_iff, implies_true, and_true]
        exact ⟨by decide, hreply.2⟩
      have hline : readReport c call.call read (Reply.line (.done id) :: replies.map Reply.line) =
          if id = scenarioId call.snapshot then (.outcome (.returned (call.call.answer read)), replies.map Reply.line)
          else (.outcome (.raised (.invalidDone id)), replies.map Reply.line) := by
        rw [readReport, hsplit]
        rfl
      rw [List.map_cons, hline]
      by_cases hid : id = scenarioId call.snapshot
      · exact ⟨.returned (call.call.answer read), replies, fun _ h => List.mem_cons_of_mem _ h, if_pos hid, if_pos hid⟩
      · exact ⟨.raised (.invalidDone id), replies, fun _ h => List.mem_cons_of_mem _ h, if_neg hid, if_neg hid⟩

/-! ## The lines that are written -/

theorem oneLine_intBytes (n : ℤ) : OneLine (intBytes n) := by
  unfold intBytes
  split_ifs
  · intro octet hoctet
    rcases List.mem_cons.mp hoctet with rfl | hdigit
    · decide
    · exact oneLine_natBytes _ octet hdigit
  · exact oneLine_natBytes _

theorem oneLine_scenarioId (snapshot : StateSnapshot) : OneLine (scenarioId snapshot) := by
  unfold scenarioId
  intro octet hoctet
  rw [List.mem_append, List.mem_append] at hoctet
  rcases hoctet with (hrevision | hdash) | htime
  · exact oneLine_natBytes _ octet hrevision
  · exact @oneLine_of_ascii (ascii "-") (by decide) octet hdash
  · exact oneLine_intBytes _ octet htime

theorem oneLine_flag (b : Bool) : OneLine (flag b) := (named_flag b).1

/-- Every line of a scenario is one line. -/
theorem oneLine_scenarioLines {snapshot : StateSnapshot} {lines : List Bytes}
    (h : scenarioLines c.floatText snapshot = some lines) : ∀ line ∈ lines, OneLine line := by
  have hword : ∀ text : Bytes, text.all (fun c => c.toNat < 128 && c ≠ 10 && c ≠ 13) = true → OneLine text :=
    fun text => oneLine_of_ascii
  obtain ⟨records, hrecords, rfl⟩ := Option.map_eq_some_iff.mp h
  simp only [recordLines, Option.bind_eq_bind, Option.bind_eq_some_iff, Option.some.injEq] at hrecords
  obtain ⟨linkLines, hlinks, flowLines, hflows, rfl⟩ := hrecords
  intro line hline
  simp only [List.cons_append, List.mem_cons, List.mem_append, List.not_mem_nil, or_false] at hline
  rcases hline with rfl | ((hnode | hlink) | hflow) | rfl
  · refine oneLine_tabJoin ?_
    simp only [List.forall_mem_cons, oneLine_natBytes, oneLine_scenarioId, List.not_mem_nil, false_imp_iff, implies_true,
      and_true]
    exact hword _ (by decide)
  · obtain ⟨entity, -, rfl⟩ := List.mem_map.mp hnode
    refine oneLine_tabJoin ?_
    simp only [List.forall_mem_cons, oneLine_natBytes, c.floatText_oneLine, oneLine_flag, List.not_mem_nil,
      false_imp_iff, implies_true, and_true]
    exact hword _ (by decide)
  · obtain ⟨link, -, hlink⟩ := exists_of_mapM hlinks hlink
    simp only [linkLine, Option.bind_eq_bind, Option.bind_eq_some_iff, Option.some.injEq] at hlink
    obtain ⟨source, -, target, -, rfl⟩ := hlink
    refine oneLine_tabJoin ?_
    simp only [List.forall_mem_cons, oneLine_natBytes, oneLine_intBytes, c.floatText_oneLine, oneLine_flag,
      List.not_mem_nil, false_imp_iff, implies_true, and_true]
    exact hword _ (by decide)
  · obtain ⟨flow, -, hflow⟩ := exists_of_mapM hflows hflow
    simp only [flowLine, Option.bind_eq_bind, Option.bind_eq_some_iff, Option.some.injEq] at hflow
    obtain ⟨source, -, target, -, rfl⟩ := hflow
    refine oneLine_tabJoin ?_
    simp only [List.forall_mem_cons, oneLine_natBytes, oneLine_intBytes, oneLine_flag, List.not_mem_nil, false_imp_iff,
      implies_true, and_true]
    exact hword _ (by decide)
  · exact hword _ (by decide)

/-! ## The worker with printed figures -/

variable (simulate : Scenario → Except Bytes (List Result)) (stod : Bytes → Except Bytes Double)

/-- Printing in the simulation is printing in the replies. -/
theorem handleLine_rounded (scenario : Scenario) (line : Bytes) :
    handleLine stod (fun s => (simulate s).map (List.map printedBack)) scenario line =
      ((handleLine stod simulate scenario line).1, (handleLine stod simulate scenario line).2.map reread) := by
  unfold handleLine
  split_ifs
  · rfl
  · cases hparse : parseCommand stod line with
    | error what => rfl
    | ok command =>
      cases command with
      | scenario id nodes links flows => rfl
      | node input => rfl
      | link input => rfl
      | flow input => rfl
      | run =>
        rw [Except.ok_bind, Except.ok_bind, execute, execute, runScenario, runScenario]
        cases validateScenario scenario with
        | error what => rfl
        | ok =>
          rw [Except.ok_bind, Except.ok_bind]
          cases simulate scenario with
          | error what => rfl
          | ok results =>
            have hmap : (results.map printedBack).map Reply.result = (results.map Reply.result).map reread := by
              rw [List.map_map, List.map_map]
              rfl
            show (scenario, (results.map printedBack).map Reply.result ++ [.done scenario.id]) =
              (scenario, (results.map Reply.result ++ [Reply.done scenario.id]).map reread)
            rw [hmap, List.map_append]
            rfl

theorem handleLines_rounded (scenario : Scenario) (lines : List Bytes) :
    handleLines stod (fun s => (simulate s).map (List.map printedBack)) scenario lines =
      ((handleLines stod simulate scenario lines).1, (handleLines stod simulate scenario lines).2.map reread) := by
  induction lines generalizing scenario with
  | nil => rfl
  | cons line lines ih => simp only [handleLines, handleLine_rounded, ih, List.map_append]

/-! ## The simulation -/

theorem thirteen_notMem_output {replies : List Reply} (h : ∀ reply ∈ replies, reply.Sound) :
    (13 : UInt8) ∉ output replies := by
  unfold output
  intro hmem
  obtain ⟨line, hline, hoctet⟩ := List.mem_flatMap.mp hmem
  obtain ⟨reply, hreply, rfl⟩ := List.mem_map.mp hline
  rcases List.mem_append.mp hoctet with hin | hend
  · exact (oneLine_line (h reply hreply) 13 hin).2.2 rfl
  · exact absurd hend (by decide)

/-- The process and the worker are in the same state: unread lines for unread replies. -/
structure Simulates (p : Process) (w : LockStep.Worker) : Prop where
  scenario : p.scenario = w.scenario
  named : Runner.Named p.scenario.id
  unread : ∃ replies : List Reply, (∀ reply ∈ replies, reply.Sound) ∧ p.unread = replies.map Reply.line ∧
    w.unread = replies.map reread

theorem started_simulates : Simulates Process.started LockStep.Worker.started where
  scenario := rfl
  named := ⟨fun _ hc => absurd hc List.not_mem_nil, List.not_mem_nil⟩
  unread := ⟨[], fun _ h => absurd h List.not_mem_nil, rfl, rfl⟩

section Calls
variable {c} {p : Process} {w : LockStep.Worker} {call : WorkerCall} {lines : List Bytes} {scenario : Scenario}
  {printed : List Reply}

theorem Process.compute_some (hlines : scenarioLines c.floatText call.snapshot = some lines)
    (hhandle : handleLines c.stod call.network.simulate p.scenario lines = (scenario, printed))
    (hprinted : ∀ reply ∈ printed, reply.Sound) {report : Report} {unread : List Bytes}
    (hread : readReport c call.call [] (p.unread ++ printed.map Reply.line) = (report, unread)) :
    p.compute c call = (report, ⟨scenario, unread⟩) := by
  have hpipe : Split.segments 10 (universal (output printed)) = printed.map Reply.line := by
    rw [universal_of_notMem (thirteen_notMem_output hprinted), segments_output hprinted]
  rw [Process.compute, hlines]
  dsimp only
  rw [hhandle]
  dsimp only
  rw [hpipe, hread]

theorem compute_rounded (hlines : scenarioLines c.floatText call.snapshot = some lines)
    (hhandle : handleLines c.stod call.network.simulate w.scenario lines = (scenario, printed))
    {outcome : LockStep.Outcome} {unread : List Reply}
    (hread : readReplies call.rounded [] (w.unread ++ printed.map reread) = (outcome, unread)) :
    LockStep.compute c.floatText c.stod w call.rounded = (outcome, ⟨scenario, unread⟩) := by
  have hsame : scenarioLines c.floatText call.rounded.snapshot = some lines := hlines
  have hrounded : handleLines c.stod call.rounded.simulate w.scenario lines = (scenario, printed.map reread) := by
    show handleLines c.stod (fun s => (call.network.simulate s).map (List.map printedBack)) w.scenario lines = _
    rw [handleLines_rounded, hhandle]
  rw [LockStep.compute, hsame]
  dsimp only
  rw [hrounded]
  dsimp only
  rw [hread]

/-- **One call** ends the same way on lines and on replies. -/
theorem Simulates.compute (h : Simulates p w) (call : WorkerCall) :
    (p.compute c call).1 = .outcome (LockStep.compute c.floatText c.stod w call.rounded).1 ∧
      Simulates (p.compute c call).2 (LockStep.compute c.floatText c.stod w call.rounded).2 := by
  cases hlines : scenarioLines c.floatText call.snapshot with
  | none =>
    have hrounded : scenarioLines c.floatText call.rounded.snapshot = none := hlines
    rw [Process.compute, LockStep.compute, hlines, hrounded]
    exact ⟨rfl, h⟩
  | some lines =>
    obtain ⟨hscenario, hnamed, replies, hsound, hunread, hunread'⟩ := h
    obtain ⟨hid, hnew⟩ := handleLines_sound call.network c.stod_ends (oneLine_scenarioLines c hlines) hnamed
    obtain ⟨scenario, printed, hhandle⟩ : ∃ scenario printed,
        handleLines c.stod call.network.simulate p.scenario lines = (scenario, printed) := ⟨_, _, rfl⟩
    rw [hhandle] at hid hnew
    have hall : ∀ reply ∈ replies ++ printed, reply.Sound := fun reply hreply =>
      (List.mem_append.mp hreply).elim (hsound reply) (hnew reply)
    obtain ⟨outcome, rest, hrest, htext, hread⟩ := readReport_lines c call hall []
    rw [List.map_append, ← hunread] at htext
    rw [List.map_append, ← hunread'] at hread
    rw [Process.compute_some hlines hhandle hnew htext, compute_rounded hlines (hscenario ▸ hhandle) hread]
    exact ⟨rfl, rfl, hid, rest, fun reply hreply => hall reply (hrest reply hreply), rfl, rfl⟩

theorem Simulates.run (h : Simulates p w) (calls : List WorkerCall) :
    p.run c calls = (outcomes c.floatText c.stod w (calls.map WorkerCall.rounded)).map Report.outcome := by
  induction calls generalizing p w with
  | nil => rfl
  | cons call calls ih =>
    obtain ⟨hreport, hnext⟩ := h.compute call
    rw [Process.run, List.map_cons, outcomes, List.map_cons, hreport, ih hnext]

/-! ## The metrics that are returned -/

theorem soundValues_unmeasured : SoundValues MetricValues.unmeasured :=
  ⟨within_zero (by norm_num), ⟨1, rfl, by norm_num, le_refl 1⟩, within_zero (by norm_num), le_refl 0, by decide, rfl⟩

/-- What is read of sound replies is in its ranges. -/
theorem readReplies_sound {call : Call} {replies : List Reply} (h : ∀ reply ∈ replies, reply.Sound)
    {result : ComputeResult} (hread : (readReplies call [] (replies.map reread)).1 = .returned result) :
    ∀ metric ∈ result.metrics, SoundValues metric.values := by
  obtain ⟨results, rest, hreplies, rfl⟩ := readReplies_returned hread
  have hresults : ∀ r ∈ results, SoundValues r.values := by
    intro r hr
    have hmem : Reply.result r ∈ replies.map reread := by
      rw [hreplies]
      exact List.mem_append_left _ (List.mem_map_of_mem hr)
    obtain ⟨reply, hreply, hsame⟩ := List.mem_map.mp hmem
    have hsound := h reply hreply
    cases reply with
    | error what => cases hsame
    | done id => cases hsame
    | result result =>
      obtain rfl := Reply.result.inj hsame
      exact (SoundResult.printedBack hsound).values
  intro metric hmetric
  obtain ⟨flow, -, rfl⟩ := List.mem_map.mp hmetric
  show SoundValues (((measured ([] ++ results)).get? flow.2).getD MetricValues.unmeasured)
  cases hget : (measured ([] ++ results)).get? flow.2 with
  | none => exact soundValues_unmeasured
  | some values =>
    unfold measured at hget
    rw [Dict.get?_ofList_eq] at hget
    obtain ⟨binding, hbinding, rfl⟩ := List.mem_map.mp (List.mem_of_getLast? hget)
    obtain ⟨r, hr, rfl⟩ := List.mem_map.mp (List.mem_of_mem_filter hbinding)
    exact hresults r hr

/-- The same of a call. -/
theorem Simulates.returned (h : Simulates p w) (call : WorkerCall) {result : ComputeResult}
    (hreturned : (p.compute c call).1 = .outcome (.returned result)) :
    ∀ metric ∈ result.metrics, SoundValues metric.values := by
  rw [(h.compute call).1] at hreturned
  have houtcome := Report.outcome.inj hreturned
  cases hlines : scenarioLines c.floatText call.snapshot with
  | none =>
    have hrounded : scenarioLines c.floatText call.rounded.snapshot = none := hlines
    rw [LockStep.compute, hrounded] at houtcome
    cases houtcome
  | some lines =>
    obtain ⟨hscenario, hnamed, replies, hsound, -, hunread⟩ := h
    rw [hscenario] at hnamed
    obtain ⟨-, hnew⟩ := handleLines_sound call.network c.stod_ends (oneLine_scenarioLines c hlines) hnamed
    obtain ⟨scenario, printed, hhandle⟩ : ∃ scenario printed,
        handleLines c.stod call.network.simulate w.scenario lines = (scenario, printed) := ⟨_, _, rfl⟩
    rw [hhandle] at hnew
    obtain ⟨outcome, unread, hread⟩ : ∃ outcome unread,
        readReplies call.rounded [] (w.unread ++ printed.map reread) = (outcome, unread) := ⟨_, _, rfl⟩
    rw [compute_rounded hlines hhandle hread] at houtcome
    obtain rfl : outcome = .returned result := houtcome
    have hall : ∀ reply ∈ replies ++ printed, reply.Sound := fun reply hreply =>
      (List.mem_append.mp hreply).elim (hsound reply) (hnew reply)
    refine @readReplies_sound call.rounded _ hall _ ?_
    rw [List.map_append, ← hunread, hread]

theorem Simulates.metrics (h : Simulates p w) {calls : List WorkerCall} {result : ComputeResult}
    (hreport : Report.outcome (.returned result) ∈ p.run c calls) :
    ∀ metric ∈ result.metrics, SoundValues metric.values := by
  induction calls generalizing p w with
  | nil => cases hreport
  | cons call calls ih =>
    rcases List.mem_cons.mp hreport with hhead | htail
    · exact h.returned call hhead.symm
    · exact ih (h.compute call).2 htail

end Calls

/-- **The text between the worker and `compute` is transparent.** Whatever the calls of a process ask, and whatever the
networks they meet do, every line is read as the reply it was printed for: each call ends as it would if the replies were
passed on, with six decimals of every figure. -/
theorem texts_transparent (c : Conversions) (calls : List WorkerCall) :
    Process.started.run c calls =
      (outcomes c.floatText c.stod LockStep.Worker.started (calls.map WorkerCall.rounded)).map Report.outcome :=
  started_simulates.run calls

/-- **Every metric that is returned is in its ranges**, in every call of a process. -/
theorem metrics_sound (c : Conversions) (calls : List WorkerCall) {result : ComputeResult}
    (hreport : Report.outcome (.returned result) ∈ Process.started.run c calls) :
    ∀ metric ∈ result.metrics, SoundValues metric.values :=
  started_simulates.metrics hreport

/-! ## Two packets of three -/

/-- Conversions of decimal texts. -/
def decimal : Conversions where
  floatText := zeroText
  stod := stodZero
  int := fun text => if text.all isDigit then some (digitsValue text) else none
  float := fun text => (Fixed.read text).map Double.ofRat
  floatText_oneLine := fun _ => @oneLine_of_ascii (ascii "0.0") (by decide)
  stod_ends := fun text => by
    unfold stodZero
    split_ifs
    · trivial
    · exact oneLine_of_ascii (by decide)
  int_natBytes := fun n _ => by
    rw [if_pos (List.all_eq_true.mpr fun c hc => isDigit_of_mem_natBytes hc), digitsValue_natBytes]
  float_read := fun text q h => by rw [h, Option.map_some]

def exactClock : Clock where
  getSeconds := fun n => .finite (n / 10 ^ 9)
  near := fun n hnonneg _ => by
    have hcast : (0 : ℚ) ≤ n := by exact_mod_cast hnonneg
    exact ⟨_, rfl, by linarith, by linarith⟩

/-- Two of three packets arrive, half a second late. -/
def twoOfThree : Monitored where
  txPackets := 3
  rxPackets := 2
  rxBytes := 128
  delaySum := 1000000000
  timeFirstTxPacket := 500000000
  timeLastRxPacket := 1000000000
  received := by decide
  counted := by decide
  bytes := by decide
  delays := by decide
  times := by decide

def lossyNetwork : Network := ⟨exactClock, fun _ => .ok fun _ => some twoOfThree, nofun⟩

def lossySnapshot : StateSnapshot :=
  { pairSnapshot 1000 1 with flows := [⟨str "f", str "A", str "B", 64, 10, 100, true⟩] }

def lossyCall : WorkerCall := ⟨lossySnapshot, str "r", 0, lossyNetwork⟩

/-- The losses of a result that is returned. -/
def Report.losses : Report → Option (List Double)
  | .outcome (.returned result) => some (result.metrics.map fun metric => metric.values.lossRate)
  | _ => none

/-- A third is returned as it was printed. -/
theorem lossyCall_metrics : ∃ result, Report.outcome (.returned result) ∈ Process.started.run decimal [lossyCall] ∧
    result.metrics.map (fun metric => metric.values.lossRate) = [Double.ofRat (333333 / 1000000)] ∧
    ∀ metric ∈ result.metrics, SoundValues metric.values := by
  have hlosses : (Process.started.compute decimal lossyCall).1.losses = some [Double.ofRat (333333 / 1000000)] := by
    decide +kernel
  cases hreport : (Process.started.compute decimal lossyCall).1 with
  | invalidResult line => rw [hreport] at hlosses; cases hlosses
  | invalidDone line => rw [hreport] at hlosses; cases hlosses
  | valueError => rw [hreport] at hlosses; cases hlosses
  | outcome outcome =>
    rw [hreport] at hlosses
    cases outcome with
    | raised error => cases hlosses
    | keyError => cases hlosses
    | blocked => cases hlosses
    | returned result =>
      have hmem : Report.outcome (.returned result) ∈ Process.started.run decimal [lossyCall] :=
        List.mem_singleton.mpr hreport.symm
      exact ⟨result, hmem, Option.some.inj hlosses, metrics_sound decimal [lossyCall] hmem⟩

end AfsimNs3.System.WorkerTexts
