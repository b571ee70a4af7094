import AfsimNs3.Runner.Main

/-!
# Requests and replies of the worker process

`compute` writes the lines of a scenario and reads replies until `DONE` or the first `ERROR`. The pipe is a queue:
what `compute` leaves unread is read by the next call. The worker answers every line it cannot parse, so a scenario
with such a line is answered more than once.

`Accepted`: the worker parses every line of the scenario. Then exactly the replies to `RUN` are printed and all of
them are read (`compute_accepted`), so no call leaves anything to the next one; `answers_in_lockStep` is what this
means for the answers. `rejected_line_fails_next`: without `Accepted` the next call fails, whatever it asks.
-/

namespace AfsimNs3.System.LockStep
open Bridge Bridge.Ns3Runner Runner

/-! ## The calls -/

/-- One call of `compute`: what it is given, the clock it reads, and the simulation it meets. -/
structure Call where
  snapshot : StateSnapshot
  requestId : Str
  computeMs : ℚ
  simulate : Scenario → Except Bytes (List Result)

/-- The result of the call on the `RESULT` lines read for it. -/
def Call.answer (call : Call) (results : List Result) : ComputeResult :=
  computeResult call.snapshot call.requestId call.computeMs (measured results)

/-- The `RunnerError` raised: an `ERROR` reply, or a `DONE` of another scenario. -/
inductive RunnerError where
  | answered (what : Bytes)
  | invalidDone (scenarioId : Bytes)
  deriving DecidableEq

inductive Outcome where
  | returned (result : ComputeResult)
  | raised (error : RunnerError)
  /-- `node_index` has no such entity: nothing is written. -/
  | keyError
  /-- `readline` waits and no reply comes. -/
  | blocked

/-- The worker process and the replies in its pipe. -/
structure Worker where
  scenario : Scenario
  unread : List Reply

/-- `_ensure_process`: a process just started. -/
def Worker.started : Worker := ⟨Scenario.empty, []⟩

/-- The read loop of `compute`. -/
def readReplies (call : Call) (results : List Result) : List Reply → Outcome × List Reply
  | [] => (.blocked, [])
  | .error what :: rest => (.raised (.answered what), rest)
  | .result result :: rest => readReplies call (results ++ [result]) rest
  | .done id :: rest =>
    if id = scenarioId call.snapshot then (.returned (call.answer results), rest) else (.raised (.invalidDone id), rest)

section Pipe
variable (floatText : ℚ → Bytes) (stod : Bytes → Except Bytes Double)

def compute (w : Worker) (call : Call) : Outcome × Worker :=
  match scenarioLines floatText call.snapshot with
  | none => (.keyError, w)
  | some lines =>
    let (scenario, replies) := handleLines stod call.simulate w.scenario lines
    let (outcome, unread) := readReplies call [] (w.unread ++ replies)
    (outcome, ⟨scenario, unread⟩)

/-- The worker after the calls. -/
def afterCalls (w : Worker) (calls : List Call) : Worker :=
  calls.foldl (fun w call => (compute floatText stod w call).2) w

/-- What the worker prints for the scenario of the call alone. -/
def printed (call : Call) : List Reply :=
  ((scenarioLines floatText call.snapshot).map
    (fun lines => (handleLines stod call.simulate Scenario.empty lines).2)).getD []

/-- The worker parses every line of the scenario. -/
def Accepted (snapshot : StateSnapshot) : Prop :=
  ∀ lines, scenarioLines floatText snapshot = some lines → ∀ line ∈ lines, ∃ c, parseCommand stod line = .ok c

/-- The worker runs the scenario of the call: it prints the results and `DONE`, and nothing else. -/
def RunsTo (call : Call) (results : List Result) : Prop :=
  printed floatText stod call = results.map Reply.result ++ [.done (scenarioId call.snapshot)]

/-- The outcome is the one of the call's own scenario: a result is made of what was printed for it, and a scenario
that runs has its result returned. -/
def InLockStep (call : Call) (outcome : Outcome) : Prop :=
  (∀ result, outcome = .returned result → ∃ results, RunsTo floatText stod call results ∧ result = call.answer results) ∧
  ∀ results, RunsTo floatText stod call results → outcome = .returned (call.answer results)

end Pipe

/-! ## The lines of a scenario -/

section Lines
variable {floatText : ℚ → Bytes} {stod : Bytes → Except Bytes Double}

theorem splitTabs_tabJoin {name : Bytes} (hname : (9 : UInt8) ∉ name) (part : Bytes) (parts : List Bytes) :
    ∃ rest, splitTabs (tabJoin (name :: part :: parts)) = name :: rest := by
  have hsplit : (tabJoin (name :: part :: parts)).splitOn 9 = name :: (tabJoin (part :: parts)).splitOn 9 := by
    rw [tabJoin, List.intercalate_cons_cons, List.append_assoc]
    exact List.splitOn_append_cons_self_of_not_mem hname _
  rw [splitTabs, hsplit]
  split_ifs
  · exact ⟨_, List.dropLast_cons_of_ne_nil (List.splitOn_ne_nil 9 _)⟩
  · exact ⟨_, rfl⟩

theorem splitTabs_eq_of_tabFree {parts : List Bytes} (hfree : ∀ part ∈ parts, (9 : UInt8) ∉ part) {last : Bytes}
    (hlast : parts.getLast? = some last) (hne : last ≠ []) : splitTabs (tabJoin parts) = parts := by
  have hparts : parts ≠ [] := by
    rintro rfl
    exact absurd hlast (by simp)
  rw [splitTabs, tabJoin, List.splitOn_intercalate 9 hfree hparts, if_neg]
  rw [hlast]
  exact fun h => hne (Option.some.inj h)

theorem tab_notMem_natBytes (n : ℕ) : (9 : UInt8) ∉ natBytes n :=
  fun h => absurd (isDigit_of_mem_natBytes h) (by decide)

theorem tab_notMem_scenarioId (snapshot : StateSnapshot) : (9 : UInt8) ∉ scenarioId snapshot := by
  have hint : (9 : UInt8) ∉ intBytes snapshot.timestampMs := by
    rw [intBytes]
    split_ifs
    · rw [List.mem_cons, not_or]
      exact ⟨by decide, tab_notMem_natBytes _⟩
    · exact tab_notMem_natBytes _
  rw [scenarioId, List.mem_append, List.mem_append, not_or, not_or]
  exact ⟨⟨tab_notMem_natBytes _, by decide⟩, hint⟩

theorem scenarioId_ne_nil (snapshot : StateSnapshot) : scenarioId snapshot ≠ [] := by
  rw [scenarioId]
  simp [natBytes_ne_nil]

/-- The first line names the scenario and the counts of its records. -/
theorem parseCommand_headLine (snapshot : StateSnapshot) :
    parseCommand stod (headLine snapshot) = (do
      pure (.scenario (scenarioId snapshot) (← toUint32 (natBytes snapshot.entities.length))
        (← toUint32 (natBytes (links snapshot.entities).length)) (← toUint32 (natBytes snapshot.flows.length)))) := by
  have hsplit : splitTabs (headLine snapshot) = [ascii "SCENARIO", scenarioId snapshot,
      natBytes snapshot.entities.length, natBytes (links snapshot.entities).length, natBytes snapshot.flows.length] := by
    refine splitTabs_eq_of_tabFree ?_ rfl (natBytes_ne_nil _)
    simp only [List.forall_mem_cons, List.not_mem_nil, false_imp_iff, implies_true, and_true]
    exact ⟨by decide, tab_notMem_scenarioId snapshot, tab_notMem_natBytes _, tab_notMem_natBytes _,
      tab_notMem_natBytes _⟩
  rw [parseCommand, hsplit]
  rfl

/-- The command of a record line adds to the scenario and prints nothing. -/
def Command.IsRecord : Command → Prop
  | .node _ | .link _ | .flow _ => True
  | .scenario .. | .run => False

/-- A line that is read as a record, if at all. -/
def RecordLine (stod : Bytes → Except Bytes Double) (line : Bytes) : Prop :=
  splitTabs line ≠ [] ∧ ∀ c, parseCommand stod line = .ok c → Command.IsRecord c

theorem recordLine_tabJoin {name : Bytes} (hname : (9 : UInt8) ∉ name) (part : Bytes) (parts : List Bytes)
    (h : ∀ line rest c, splitTabs line = name :: rest → parseCommand stod line = .ok c → Command.IsRecord c) :
    RecordLine stod (tabJoin (name :: part :: parts)) := by
  obtain ⟨rest, hrest⟩ := splitTabs_tabJoin hname part parts
  refine ⟨?_, fun c hc => h _ rest c hrest hc⟩
  rw [hrest]
  exact List.cons_ne_nil _ _

theorem isRecord_of_node {line : Bytes} {rest : List Bytes} {c : Command} (hsplit : splitTabs line = ascii "NODE" :: rest)
    (hc : parseCommand stod line = .ok c) : Command.IsRecord c := by
  rw [parseCommand, hsplit] at hc
  dsimp only at hc
  rw [if_neg (by decide), if_pos rfl] at hc
  split at hc
  · simp only [Except.bind_ok_iff, Except.pure_ok_iff] at hc
    obtain ⟨_, -, _, -, _, -, _, -, _, -, rfl⟩ := hc
    trivial
  · cases hc

theorem isRecord_of_link {line : Bytes} {rest : List Bytes} {c : Command} (hsplit : splitTabs line = ascii "LINK" :: rest)
    (hc : parseCommand stod line = .ok c) : Command.IsRecord c := by
  rw [parseCommand, hsplit] at hc
  dsimp only at hc
  rw [if_neg (by decide), if_neg (by decide), if_pos rfl] at hc
  split at hc
  · simp only [Except.bind_ok_iff, Except.pure_ok_iff] at hc
    obtain ⟨_, -, _, -, _, -, _, -, _, -, _, -, _, -, rfl⟩ := hc
    trivial
  · cases hc

theorem isRecord_of_flow {line : Bytes} {rest : List Bytes} {c : Command} (hsplit : splitTabs line = ascii "FLOW" :: rest)
    (hc : parseCommand stod line = .ok c) : Command.IsRecord c := by
  rw [parseCommand, hsplit] at hc
  dsimp only at hc
  rw [if_neg (by decide), if_neg (by decide), if_neg (by decide), if_pos rfl] at hc
  split at hc
  · simp only [Except.bind_ok_iff, Except.pure_ok_iff] at hc
    obtain ⟨_, -, _, -, _, -, _, -, _, -, _, -, _, -, rfl⟩ := hc
    trivial
  · cases hc

theorem exists_of_mapM {α : Type} {f : α → Option Bytes} {xs : List α} {lines : List Bytes} {line : Bytes}
    (h : xs.mapM f = some lines) (hline : line ∈ lines) : ∃ x ∈ xs, f x = some line := by
  rw [Option.mapM_eq_some_iff, Option.forall₂_some_iff] at h
  exact List.mem_map.mp (h ▸ List.mem_map_of_mem hline)

theorem recordLine_linkLine {entities : List EntityState} {link : LinkRecord × ℕ} {line : Bytes}
    (h : linkLine floatText entities link = some line) : RecordLine stod line := by
  simp only [linkLine, Option.bind_eq_bind, Option.bind_eq_some_iff, Option.some.injEq] at h
  obtain ⟨source, -, target, -, rfl⟩ := h
  exact recordLine_tabJoin (by decide) _ _ (fun line rest c => isRecord_of_link)

theorem recordLine_flowLine {entities : List EntityState} {flow : FlowConfig × ℕ} {line : Bytes}
    (h : flowLine entities flow = some line) : RecordLine stod line := by
  simp only [flowLine, Option.bind_eq_bind, Option.bind_eq_some_iff, Option.some.injEq] at h
  obtain ⟨source, -, target, -, rfl⟩ := h
  exact recordLine_tabJoin (by decide) _ _ (fun line rest c => isRecord_of_flow)

theorem recordLine_of_mem {snapshot : StateSnapshot} {records : List Bytes}
    (h : recordLines floatText snapshot = some records) : ∀ line ∈ records, RecordLine stod line := by
  simp only [recordLines, Option.bind_eq_bind, Option.bind_eq_some_iff, Option.some.injEq] at h
  obtain ⟨linkLines, hlinks, flowLines, hflows, rfl⟩ := h
  intro line hline
  rw [List.mem_append, List.mem_append] at hline
  rcases hline with (hnode | hlink) | hflow
  · obtain ⟨entity, -, rfl⟩ := List.mem_map.mp hnode
    exact recordLine_tabJoin (by decide) _ _ (fun line rest c => isRecord_of_node)
  · obtain ⟨link, -, hlink⟩ := exists_of_mapM hlinks hlink
    exact recordLine_linkLine hlink
  · obtain ⟨flow, -, hflow⟩ := exists_of_mapM hflows hflow
    exact recordLine_flowLine hflow

variable (stod) in
theorem scenarioLines_eq_some {snapshot : StateSnapshot} {lines : List Bytes}
    (h : scenarioLines floatText snapshot = some lines) :
    ∃ records, lines = headLine snapshot :: records ++ [ascii "RUN"] ∧ ∀ line ∈ records, RecordLine stod line := by
  obtain ⟨records, hrecords, rfl⟩ := Option.map_eq_some_iff.mp h
  exact ⟨records, rfl, recordLine_of_mem hrecords⟩

theorem parseCommand_run : parseCommand stod (ascii "RUN") = .ok .run := by
  have hsplit : splitTabs (ascii "RUN") = [ascii "RUN"] := by decide
  rw [parseCommand, hsplit]
  rfl

end Lines

/-! ## What the worker prints -/

section Printed
variable {floatText : ℚ → Bytes} {stod : Bytes → Except Bytes Double}
  {simulate : Scenario → Except Bytes (List Result)}

theorem handleLine_of_ok {scenario : Scenario} {line : Bytes} {c : Command} {out : Scenario × List Reply}
    (hparts : splitTabs line ≠ []) (hc : parseCommand stod line = .ok c) (hout : execute simulate scenario c = .ok out) :
    handleLine stod simulate scenario line = out := by
  have hline : line ≠ [] := by
    rintro rfl
    exact hparts rfl
  rw [handleLine, if_neg (not_or.mpr ⟨hline, hparts⟩), hc, Except.ok_bind, hout]

theorem handleLine_of_error {scenario : Scenario} {line : Bytes} {what : Bytes}
    (hparts : splitTabs line ≠ []) (h : parseCommand stod line >>= execute simulate scenario = .error what) :
    handleLine stod simulate scenario line = (Scenario.empty, [.error what]) := by
  have hline : line ≠ [] := by
    rintro rfl
    exact hparts rfl
  rw [handleLine, if_neg (not_or.mpr ⟨hline, hparts⟩), h]

variable (simulate) in
/-- A record line is added in silence, or answered once with the scenario dropped. -/
theorem handleLine_record (scenario : Scenario) {line : Bytes} (hline : RecordLine stod line) :
    ((∃ c, parseCommand stod line = .ok c) ∧ (handleLine stod simulate scenario line).2 = [] ∧
      (handleLine stod simulate scenario line).1.id = scenario.id) ∨
    ((¬ ∃ c, parseCommand stod line = .ok c) ∧ ∃ what,
      handleLine stod simulate scenario line = (Scenario.empty, [.error what])) := by
  cases hc : parseCommand stod line with
  | error what =>
    refine .inr ⟨by simp, what, handleLine_of_error hline.1 ?_⟩
    rw [hc]
    rfl
  | ok c =>
    refine .inl ⟨⟨c, rfl⟩, ?_⟩
    have hrecord := hline.2 c hc
    cases c with
    | scenario | run => exact hrecord.elim
    | node | link | flow => rw [handleLine_of_ok hline.1 hc rfl]; exact ⟨rfl, rfl⟩

theorem handleLines_append (scenario : Scenario) (lines lines' : List Bytes) :
    handleLines stod simulate scenario (lines ++ lines') =
      ((handleLines stod simulate (handleLines stod simulate scenario lines).1 lines').1,
        (handleLines stod simulate scenario lines).2 ++
          (handleLines stod simulate (handleLines stod simulate scenario lines).1 lines').2) := by
  induction lines generalizing scenario with
  | nil => rfl
  | cons line lines ih => simp only [List.cons_append, handleLines, ih, List.append_assoc]

variable (simulate) in
/-- Record lines are answered only with errors, one at least when a line is not parsed; the scenario then has no
name any more. -/
theorem handleLines_records {lines : List Bytes} (hlines : ∀ line ∈ lines, RecordLine stod line)
    (scenario : Scenario) :
    ∃ errors : List Bytes, (handleLines stod simulate scenario lines).2 = errors.map Reply.error ∧
      (errors = [] ↔ ∀ line ∈ lines, ∃ c, parseCommand stod line = .ok c) ∧
      (handleLines stod simulate scenario lines).1.id = if errors = [] then scenario.id else [] := by
  induction lines generalizing scenario with
  | nil => exact ⟨[], rfl, by simp, rfl⟩
  | cons line lines ih =>
    rw [List.forall_mem_cons] at hlines
    obtain ⟨errors, hprint, hnil, hid⟩ := ih hlines.2 (handleLine stod simulate scenario line).1
    simp only [handleLines, hprint, List.forall_mem_cons]
    rcases handleLine_record simulate scenario hlines.1 with
      ⟨hok, hsilent, hsame⟩ | ⟨hbad, what, hdrop⟩
    · refine ⟨errors, by rw [hsilent, List.nil_append], ?_, by rw [hid, hsame]⟩
      rw [hnil]
      exact ⟨fun h => ⟨hok, h⟩, And.right⟩
    · refine ⟨what :: errors, by rw [hdrop]; rfl, ⟨fun h => absurd h (List.cons_ne_nil _ _), fun h => absurd h.1 hbad⟩, ?_⟩
      rw [hid, hdrop, if_neg (List.cons_ne_nil _ _)]
      exact ite_self _

/-- What `RUN` is answered with. -/
def runReplies (simulate : Scenario → Except Bytes (List Result)) (scenario : Scenario) : List Reply :=
  match runScenario simulate scenario with
  | .ok replies => replies
  | .error what => [.error what]

theorem runReplies_cases (simulate : Scenario → Except Bytes (List Result)) (scenario : Scenario) :
    (∃ results : List Result, runReplies simulate scenario = results.map Reply.result ++ [.done scenario.id]) ∨
    ∃ what, runReplies simulate scenario = [.error what] := by
  rw [runReplies]
  cases hrun : runScenario simulate scenario with
  | error what => exact .inr ⟨what, rfl⟩
  | ok replies =>
    simp only [runScenario, Except.exists_punit, Except.bind_ok_iff, Except.pure_ok_iff] at hrun
    obtain ⟨-, results, -, rfl⟩ := hrun
    exact .inl ⟨results, rfl⟩

theorem handleLine_run (scenario : Scenario) :
    (handleLine stod simulate scenario (ascii "RUN")).2 = runReplies simulate scenario := by
  rw [handleLine, if_neg (by decide), parseCommand_run, Except.ok_bind, execute, runReplies]
  cases runScenario simulate scenario with
  | ok replies => rfl
  | error what => rfl

variable (stod simulate) in
/-- The first line starts a new scenario, whatever the old one was, or is answered with an error. -/
theorem headLine_started (snapshot : StateSnapshot) :
    ((∃ c, parseCommand stod (headLine snapshot) = .ok c) ∧ ∃ nodes links flows, ∀ before,
      handleLine stod simulate before (headLine snapshot) =
        (⟨scenarioId snapshot, nodes, links, flows, [], [], []⟩, [])) ∨
    ((¬ ∃ c, parseCommand stod (headLine snapshot) = .ok c) ∧ ∃ what, ∀ before,
      handleLine stod simulate before (headLine snapshot) = (Scenario.empty, [.error what])) := by
  have hparts : splitTabs (headLine snapshot) ≠ [] := by
    obtain ⟨rest, hrest⟩ := splitTabs_tabJoin (show (9 : UInt8) ∉ ascii "SCENARIO" by decide) (scenarioId snapshot) _
    rw [headLine, hrest]
    exact List.cons_ne_nil _ _
  cases hc : parseCommand stod (headLine snapshot) with
  | error what =>
    refine .inr ⟨by simp, what, fun before => handleLine_of_error hparts ?_⟩
    rw [hc]
    rfl
  | ok c =>
    have hscenario := hc
    rw [parseCommand_headLine] at hscenario
    simp only [Except.bind_ok_iff, Except.pure_ok_iff] at hscenario
    obtain ⟨nodes, -, links, -, flows, -, rfl⟩ := hscenario
    exact .inl ⟨⟨_, rfl⟩, nodes, links, flows, fun before => handleLine_of_ok hparts hc rfl⟩

variable (stod simulate) in
theorem handleLine_headLine (snapshot : StateSnapshot) :
    ∃ scenario replies, (∀ before, handleLine stod simulate before (headLine snapshot) = (scenario, replies)) ∧
      (((∃ c, parseCommand stod (headLine snapshot) = .ok c) ∧ replies = [] ∧ scenario.id = scenarioId snapshot) ∨
        ((¬ ∃ c, parseCommand stod (headLine snapshot) = .ok c) ∧ scenario.id = [] ∧ ∃ what, replies = [.error what])) := by
  rcases headLine_started stod simulate snapshot with ⟨hok, nodes, links, flows, hhead⟩ | ⟨hbad, what, hhead⟩
  · exact ⟨_, _, hhead, .inl ⟨hok, rfl, rfl⟩⟩
  · exact ⟨_, _, hhead, .inr ⟨hbad, rfl, what, rfl⟩⟩

variable (simulate) in
/-- The replies to a scenario: an error for each line that is not parsed, then the replies to `RUN`. -/
theorem handleLines_scenario (snapshot : StateSnapshot) {records : List Bytes}
    (hrecords : ∀ line ∈ records, RecordLine stod line) :
    ∃ (errors : List Bytes) (scenario : Scenario),
      (∀ before, (handleLines stod simulate before (headLine snapshot :: records ++ [ascii "RUN"])).2 =
        errors.map Reply.error ++ runReplies simulate scenario) ∧
      (errors = [] ↔ ∀ line ∈ headLine snapshot :: records, ∃ c, parseCommand stod line = .ok c) ∧
      scenario.id = if errors = [] then scenarioId snapshot else [] := by
  obtain ⟨started, replies, hhead, hcases⟩ := handleLine_headLine stod simulate snapshot
  obtain ⟨errors, hprint, hnil, hid⟩ := handleLines_records simulate hrecords started
  have hlines : ∀ before, (handleLines stod simulate before (headLine snapshot :: records ++ [ascii "RUN"])).2 =
      (replies ++ errors.map Reply.error) ++ runReplies simulate (handleLines stod simulate started records).1 := by
    intro before
    rw [handleLines_append]
    simp only [handleLines, hhead, hprint, handleLine_run, List.append_nil]
  rcases hcases with ⟨hok, rfl, hname⟩ | ⟨hbad, hname, what, rfl⟩
  · refine ⟨errors, _, hlines, ?_, by rw [hid, hname]⟩
    rw [hnil, List.forall_mem_cons]
    exact ⟨fun h => ⟨hok, h⟩, And.right⟩
  · refine ⟨what :: errors, _, hlines, ?_, ?_⟩
    · rw [List.forall_mem_cons]
      exact ⟨fun h => absurd h (List.cons_ne_nil _ _), fun h => absurd h.1 hbad⟩
    · rw [hid, hname, if_neg (List.cons_ne_nil _ _), ite_self]

end Printed

/-! ## What `compute` reads -/

section Read
variable {call : Call}

theorem readReplies_done (results read : List Result) (id : Bytes) (rest : List Reply) :
    readReplies call read (results.map Reply.result ++ .done id :: rest) =
      if id = scenarioId call.snapshot then (.returned (call.answer (read ++ results)), rest)
      else (.raised (.invalidDone id), rest) := by
  induction results generalizing read with
  | nil => rw [List.append_nil]; rfl
  | cons result results ih =>
    rw [List.map_cons, List.cons_append, readReplies, ih, List.append_assoc, List.singleton_append]

/-- A result is returned for the replies up to the scenario's own `DONE`. -/
theorem readReplies_returned {read : List Result} {replies : List Reply} {result : ComputeResult}
    (h : (readReplies call read replies).1 = .returned result) :
    ∃ results rest, replies = results.map Reply.result ++ .done (scenarioId call.snapshot) :: rest ∧
      result = call.answer (read ++ results) := by
  induction replies generalizing read with
  | nil => cases h
  | cons reply replies ih =>
    cases reply with
    | error what => cases h
    | result r =>
      obtain ⟨results, rest, rfl, rfl⟩ := ih h
      exact ⟨r :: results, rest, rfl, by rw [List.append_assoc, List.singleton_append]⟩
    | done id =>
      rw [readReplies] at h
      split_ifs at h with hid
      cases h
      exact ⟨[], replies, by rw [hid]; rfl, by rw [List.append_nil]⟩

theorem readReplies_error (read : List Result) (what : Bytes) (rest : List Reply) :
    readReplies call read (.error what :: rest) = (.raised (.answered what), rest) := rfl

/-- The first `DONE` of a list of replies. -/
theorem done_unique {results results' : List Result} {id id' : Bytes} {rest rest' : List Reply}
    (h : results.map Reply.result ++ .done id :: rest = results'.map Reply.result ++ .done id' :: rest') :
    id = id' ∧ rest = rest' := by
  induction results generalizing results' with
  | nil =>
    cases results' with
    | nil => exact ⟨Reply.done.inj (List.cons.inj h).1, (List.cons.inj h).2⟩
    | cons => cases (List.cons.inj h).1
  | cons result results ih =>
    cases results' with
    | nil => cases (List.cons.inj h).1
    | cons => exact ih (List.cons.inj h).2

/-- An error is no result and no `DONE`. -/
theorem error_ne_results {what id : Bytes} {results : List Result} {replies rest : List Reply} :
    .error what :: replies ≠ results.map Reply.result ++ .done id :: rest := by
  intro h
  cases results <;> cases (List.cons.inj h).1

end Read

/-! ## Calls in sequence -/

section Calls
variable {floatText : ℚ → Bytes} {stod : Bytes → Except Bytes Double}

variable (stod) in
/-- A call reads its replies behind those the earlier calls left. -/
theorem compute_some (w : Worker) (call : Call) {lines : List Bytes}
    (hlines : scenarioLines floatText call.snapshot = some lines) :
    ∃ scenario, compute floatText stod w call =
      ((readReplies call [] (w.unread ++ printed floatText stod call)).1,
        ⟨scenario, (readReplies call [] (w.unread ++ printed floatText stod call)).2⟩) := by
  obtain ⟨records, rfl, hrecords⟩ := scenarioLines_eq_some stod hlines
  obtain ⟨errors, final, hprint, -⟩ := handleLines_scenario call.simulate call.snapshot hrecords
  refine ⟨(handleLines stod call.simulate w.scenario (headLine call.snapshot :: records ++ [ascii "RUN"])).1, ?_⟩
  rw [compute, printed, hlines, Option.map_some, Option.getD_some, hprint, ← hprint w.scenario]

variable (stod) in
/-- The shape of what is printed for one scenario. -/
theorem printed_cases {call : Call} {lines : List Bytes}
    (hlines : scenarioLines floatText call.snapshot = some lines) :
    ∃ (errors : List Bytes) (scenario : Scenario),
      printed floatText stod call = errors.map Reply.error ++ runReplies call.simulate scenario ∧
      (errors = [] ↔ Accepted floatText stod call.snapshot) ∧
      scenario.id = if errors = [] then scenarioId call.snapshot else [] := by
  obtain ⟨records, rfl, hrecords⟩ := scenarioLines_eq_some stod hlines
  obtain ⟨errors, final, hprint, hnil, hid⟩ := handleLines_scenario call.simulate call.snapshot hrecords
  refine ⟨errors, final, ?_, ?_, hid⟩
  · rw [printed, hlines, Option.map_some, Option.getD_some, hprint]
  · rw [hnil, Accepted]
    constructor
    · intro h lines hsome line hline
      rw [hlines, Option.some.injEq] at hsome
      rw [← hsome, List.mem_append, List.mem_singleton] at hline
      rcases hline with hline | rfl
      · exact h line hline
      · exact ⟨.run, parseCommand_run⟩
    · exact fun h line hline => h _ hlines line (List.mem_append_left _ hline)

theorem accepted_iff_all (snapshot : StateSnapshot) : Accepted floatText stod snapshot ↔
    ((scenarioLines floatText snapshot).getD []).all (fun line => (parseCommand stod line).isOk) = true := by
  have hok : ∀ line, (∃ c, parseCommand stod line = .ok c) ↔ (parseCommand stod line).isOk = true := fun line => by
    cases parseCommand stod line <;> simp [Except.isOk, Except.toBool]
  rw [List.all_eq_true, Accepted]
  cases scenarioLines floatText snapshot with
  | none => simp
  | some lines => simp [hok]

/-- With an empty pipe, a call answers for its own scenario. -/
theorem compute_inLockStep {w : Worker} (hw : w.unread = []) (call : Call) :
    InLockStep floatText stod call (compute floatText stod w call).1 := by
  cases hlines : scenarioLines floatText call.snapshot with
  | none =>
    have hprinted : printed floatText stod call = [] := by rw [printed, hlines]; rfl
    rw [compute, hlines]
    refine ⟨fun result h => (nomatch h), fun results h => ?_⟩
    rw [RunsTo, hprinted] at h
    exact absurd h.symm (List.append_ne_nil_of_right_ne_nil _ (List.cons_ne_nil _ _))
  | some lines =>
    obtain ⟨scenario, hcompute⟩ := compute_some stod w call hlines
    obtain ⟨errors, final, hprint, -⟩ := printed_cases stod hlines
    rw [hcompute, hw, List.nil_append]
    constructor
    · intro result h
      obtain ⟨results, rest, hreplies, rfl⟩ := readReplies_returned h
      refine ⟨results, ?_, rfl⟩
      have hrest : rest = [] := by
        rw [hreplies] at hprint
        cases errors with
        | cons what errors => exact absurd hprint.symm error_ne_results
        | nil =>
          rw [List.map_nil, List.nil_append] at hprint
          rcases runReplies_cases call.simulate final with ⟨results', hrun⟩ | ⟨what, hrun⟩
          · exact (done_unique (hprint.trans hrun)).2
          · exact absurd (hprint.trans hrun).symm error_ne_results
      rw [RunsTo, hreplies, hrest]
    · intro results h
      rw [RunsTo] at h
      rw [h, readReplies_done, if_pos rfl, List.nil_append]

/-- A call whose lines are all parsed reads every reply to it. -/
theorem compute_reads_all {w : Worker} (hw : w.unread = []) {call : Call}
    (hok : Accepted floatText stod call.snapshot) : (compute floatText stod w call).2.unread = [] := by
  cases hlines : scenarioLines floatText call.snapshot with
  | none => rw [compute, hlines]; exact hw
  | some lines =>
    obtain ⟨scenario, hcompute⟩ := compute_some stod w call hlines
    obtain ⟨errors, final, hprint, hnil, hid⟩ := printed_cases stod hlines
    have herrors := hnil.mpr hok
    rw [hcompute, hw, List.nil_append, hprint, herrors, List.map_nil, List.nil_append]
    rcases runReplies_cases call.simulate final with ⟨results, hrun⟩ | ⟨what, hrun⟩
    · rw [hrun, readReplies_done]
      split_ifs <;> rfl
    · rw [hrun, readReplies_error]

theorem afterCalls_reads_all {calls : List Call}
    (hok : ∀ call ∈ calls, Accepted floatText stod call.snapshot) {w : Worker} (hw : w.unread = []) :
    (afterCalls floatText stod w calls).unread = [] := by
  induction calls generalizing w with
  | nil => exact hw
  | cons call calls ih =>
    rw [List.forall_mem_cons] at hok
    exact ih hok.2 (compute_reads_all hw hok.1)

/-- **Lock-step.** As long as the worker parses every line it is sent, every call of the process answers for its own
scenario: failed calls (a scenario that does not validate, a simulation that raises) leave no trace. -/
theorem answers_in_lockStep (floatText : ℚ → Bytes) (stod : Bytes → Except Bytes Double) (calls : List Call)
    (hok : ∀ call ∈ calls, Accepted floatText stod call.snapshot) (call : Call) :
    InLockStep floatText stod call (compute floatText stod (afterCalls floatText stod Worker.started calls) call).1 :=
  compute_inLockStep (afterCalls_reads_all hok rfl) call

/-- A scenario with a line that is not parsed makes the next call fail, whatever that call asks for. -/
theorem rejected_line_fails_next {w : Worker} (hw : w.unread = []) {call : Call}
    (hbad : ¬ Accepted floatText stod call.snapshot) (next : Call) :
    ∀ result, (compute floatText stod (compute floatText stod w call).2 next).1 ≠ .returned result := by
  intro result hreturned
  cases hlines : scenarioLines floatText call.snapshot with
  | none => exact hbad fun lines hsome => nomatch hlines ▸ hsome
  | some lines =>
    obtain ⟨scenario, hcompute⟩ := compute_some stod w call hlines
    obtain ⟨errors, final, hprint, hnil, hid⟩ := printed_cases stod hlines
    cases errors with
    | nil => exact hbad (hnil.mp rfl)
    | cons what errors =>
      rw [hcompute, hw, List.nil_append, hprint, List.map_cons, List.cons_append, readReplies_error] at hreturned
      cases hnext : scenarioLines floatText next.snapshot with
      | none => rw [compute, hnext] at hreturned; cases hreturned
      | some lines' =>
        obtain ⟨scenario', hcompute'⟩ := compute_some stod ⟨scenario, errors.map Reply.error ++
          runReplies call.simulate final⟩ next hnext
        rw [hcompute'] at hreturned
        obtain ⟨results, rest, hreplies, -⟩ := readReplies_returned hreturned
        cases errors with
        | cons what errors => exact error_ne_results hreplies
        | nil =>
          rw [List.map_nil, List.nil_append] at hreplies
          rcases runReplies_cases call.simulate final with ⟨results', hrun⟩ | ⟨what, hrun⟩
          · rw [hrun, List.append_assoc, List.singleton_append] at hreplies
            have hname := (done_unique hreplies).1
            rw [hid, if_neg (List.cons_ne_nil _ _)] at hname
            exact scenarioId_ne_nil next.snapshot hname.symm
          · rw [hrun] at hreplies
            exact error_ne_results hreplies

end Calls

/-! ## Two entities and a link -/

/-- The text of `0.0`. -/
def zeroText (_ : ℚ) : Bytes := ascii "0.0"

def stodZero (text : Bytes) : Except Bytes Double :=
  if text = ascii "0.0" then .ok (.finite 0) else .error (ascii "stod")

def pairEntity (id : Str) (devices : List Json) : Json := .obj [
  (str "entity_id", .str id),
  (str "business_node_id", .str id),
  (str "position", .obj [(str "x_m", .int 0), (str "y_m", .int 0), (str "z_m", .int 0)]),
  (str "velocity", .obj [(str "vx_mps", .int 0), (str "vy_mps", .int 0), (str "vz_mps", .int 0)]),
  (str "heading_deg", .int 0),
  (str "alive", .bool true),
  (str "devices", .arr devices)]

def pairDevice (rate : ℤ) : Json := .obj [
  (str "device_id", .str (str "d")),
  (str "peer_entity_id", .str (str "B")),
  (str "kind", .str (str "wired")),
  (str "data_rate_bps", .int rate),
  (str "delay_ms", .int 0),
  (str "loss_rate", .int 0),
  (str "link_state", .str (str "UP"))]

def pairInit (rate : ℤ) : Fields := [
  (str "entities", .arr [pairEntity (str "A") [pairDevice rate], pairEntity (str "B") []]),
  (str "flows", .arr [])]

def pairSnapshot (rate : ℤ) (revision : ℕ) : StateSnapshot :=
  { timestampMs := 0
    entities := [
      ⟨str "A", str "A", none, ⟨0, 0, 0⟩, ⟨0, 0, 0⟩, 0, true, [⟨str "d", str "B", .wired, rate, 0, 0, .up⟩], []⟩,
      ⟨str "B", str "B", none, ⟨0, 0, 0⟩, ⟨0, 0, 0⟩, 0, true, [], []⟩]
    flows := []
    revision := revision }

def pairCall (rate : ℤ) (revision : ℕ) : Call := ⟨pairSnapshot rate revision, str "r", 0, fun _ => .ok []⟩

theorem answers_in_lockStep_pair :
    RunsTo zeroText stodZero (pairCall 2000 2) [] ∧
      (compute zeroText stodZero (afterCalls zeroText stodZero Worker.started [pairCall 1000 1]) (pairCall 2000 2)).1 =
        .returned ((pairCall 2000 2).answer []) := by
  have hruns : RunsTo zeroText stodZero (pairCall 2000 2) [] := by
    rw [RunsTo]
    decide +kernel
  have hok : ∀ call ∈ [pairCall 1000 1], Accepted zeroText stodZero call.snapshot := by
    rw [List.forall_mem_singleton, accepted_iff_all]
    decide +kernel
  exact ⟨hruns, (answers_in_lockStep zeroText stodZero [pairCall 1000 1] hok (pairCall 2000 2)).2 [] hruns⟩

/-- **A rate beyond the worker's range** (the store accepts it) is answered twice, and the next call fails. -/
theorem rejected_rate_fails_next :
    (((StateStore.new.initializeStore (pairInit (2 ^ 64)) 0) >>= StateStore.snapshot).toOption =
      some (pairSnapshot (2 ^ 64) 1)) ∧
    (((StateStore.new.initializeStore (pairInit (2 ^ 64)) 0) >>= fun s => s.initializeStore (pairInit 2000) 0 >>=
      StateStore.snapshot).toOption = some (pairSnapshot 2000 2)) ∧
    RunsTo zeroText stodZero (pairCall 2000 2) [] ∧
    (compute zeroText stodZero (afterCalls zeroText stodZero Worker.started [pairCall (2 ^ 64) 1])
      (pairCall 2000 2)).1 = .raised (.invalidDone []) ∧
    ¬ InLockStep zeroText stodZero (pairCall 2000 2)
      (compute zeroText stodZero (afterCalls zeroText stodZero Worker.started [pairCall (2 ^ 64) 1])
        (pairCall 2000 2)).1 := by
  have hruns : RunsTo zeroText stodZero (pairCall 2000 2) [] := by
    rw [RunsTo]
    decide +kernel
  have hraised : (compute zeroText stodZero (afterCalls zeroText stodZero Worker.started [pairCall (2 ^ 64) 1])
      (pairCall 2000 2)).1 = .raised (.invalidDone []) := by
    rfl
  refine ⟨by decide +kernel, by decide +kernel, hruns, hraised, fun h => ?_⟩
  rw [hraised] at h
  exact nomatch h.2 [] hruns

end AfsimNs3.System.LockStep
