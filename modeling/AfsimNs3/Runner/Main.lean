import AfsimNs3.Bridge.Engine
import AfsimNs3.Lib.Ctype
import AfsimNs3.Lib.Except

/-!
# The worker process (`afsim-ns3-runner.cc`)

The command loop over the lines of the standard input. Every line is parsed on its own; a line that cannot be parsed
is answered with `ERROR` and drops the scenario collected so far, `RUN` is answered with the results or with `ERROR`.
The simulation inside `RunScenario` is a parameter: the result values it prints, or the exception it ends in. So is
`std::stod`.
-/

namespace AfsimNs3.Runner
open AfsimNs3.Bridge.Ns3Runner (Result)

structure NodeInput where
  index : UInt32
  x : Double
  y : Double
  z : Double
  alive : Bool

structure LinkInput where
  index : UInt32
  source : UInt32
  target : UInt32
  dataRateBps : UInt64
  delayMs : Double
  lossRate : Double
  up : Bool

structure FlowInput where
  index : UInt32
  source : UInt32
  target : UInt32
  packetSizeBytes : UInt32
  intervalMs : UInt32
  durationMs : UInt32
  enabled : Bool

structure Scenario where
  id : Bytes
  expectedNodes : UInt32
  expectedLinks : UInt32
  expectedFlows : UInt32
  nodes : List NodeInput
  links : List LinkInput
  flows : List FlowInput

def Scenario.empty : Scenario := ⟨[], 0, 0, 0, [], [], []⟩

/-- `SplitTabs`: no part follows a final tab. -/
def splitTabs (line : Bytes) : List Bytes :=
  let parts := line.splitOn 9
  if parts.getLast? = some [] then parts.dropLast else parts

def toUint32 (value : Bytes) : Except Bytes UInt32 := do
  let parsed ← stoull value
  if 4294967295 < parsed then .error (ascii "integer exceeds uint32 range") else .ok parsed.toUInt32

def toUint64 (value : Bytes) : Except Bytes UInt64 := stoull value

def toBool (value : Bytes) : Except Bytes Bool :=
  if value = ascii "1" then .ok true
  else if value = ascii "0" then .ok false
  else .error (ascii "boolean must be 0 or 1")

/-! ## Validation -/

/-- One condition of `ValidateScenario`. -/
def ensure (condition : Bool) (message : Bytes) : Except Bytes PUnit := if condition then .ok ⟨⟩ else .error message

theorem ensure_ok_iff {condition : Bool} {message : Bytes} {u : PUnit} :
    ensure condition message = .ok u ↔ condition = true := by
  unfold ensure
  split_ifs with h
  · exact iff_of_true rfl h
  · exact iff_of_false not_false h

def validateLink (nodes : ℕ) (link : LinkInput) : Except Bytes PUnit := do
  ensure (link.source.toNat < nodes && link.target.toNat < nodes) (ascii "link references unknown node")
  ensure (!(link.dataRateBps == 0 || link.delayMs.below 0 || link.lossRate.below 0 || link.lossRate.above 1))
    (ascii "invalid link parameters")

def validateFlow (nodes : ℕ) (flow : FlowInput) : Except Bytes PUnit := do
  ensure (flow.source.toNat < nodes && flow.target.toNat < nodes) (ascii "flow references unknown node")
  ensure (!(flow.packetSizeBytes < 64 || flow.intervalMs == 0 || flow.durationMs < 100))
    (ascii "invalid flow parameters")

def validateScenario (scenario : Scenario) : Except Bytes PUnit := do
  ensure (scenario.nodes.length == scenario.expectedNodes.toNat &&
    scenario.links.length == scenario.expectedLinks.toNat && scenario.flows.length == scenario.expectedFlows.toNat)
    (ascii "scenario record count mismatch")
  forM scenario.nodes.zipIdx fun node => ensure (node.1.index.toNat == node.2) (ascii "node indexes must be contiguous")
  forM scenario.links (validateLink scenario.nodes.length)
  forM scenario.flows (validateFlow scenario.nodes.length)

/-! ## The command loop -/

/-- What the worker prints. -/
inductive Reply where
  | error (what : Bytes)
  | result (values : Result)
  | done (scenarioId : Bytes)
  deriving DecidableEq

inductive Command where
  | scenario (id : Bytes) (expectedNodes expectedLinks expectedFlows : UInt32)
  | node (input : NodeInput)
  | link (input : LinkInput)
  | flow (input : FlowInput)
  | run

section Loop
variable (stod : Bytes → Except Bytes Double) (simulate : Scenario → Except Bytes (List Result))

/-- A line that is neither empty nor `QUIT`, read part by part. -/
def parseCommand (line : Bytes) : Except Bytes Command :=
  match splitTabs line with
  | [] => .error (ascii "unknown runner command")
  | name :: parts =>
    if name = ascii "SCENARIO" then
      match parts with
      | [id, nodes, links, flows] => do
        pure (.scenario id (← toUint32 nodes) (← toUint32 links) (← toUint32 flows))
      | _ => .error (ascii "invalid SCENARIO line")
    else if name = ascii "NODE" then
      match parts with
      | [index, x, y, z, alive] => do
        pure (.node ⟨← toUint32 index, ← stod x, ← stod y, ← stod z, ← toBool alive⟩)
      | _ => .error (ascii "invalid NODE line")
    else if name = ascii "LINK" then
      match parts with
      | [index, source, target, rate, delay, loss, up] => do
        pure (.link ⟨← toUint32 index, ← toUint32 source, ← toUint32 target, ← toUint64 rate, ← stod delay,
          ← stod loss, ← toBool up⟩)
      | _ => .error (ascii "invalid LINK line")
    else if name = ascii "FLOW" then
      match parts with
      | [index, source, target, size, interval, duration, enabled] => do
        pure (.flow ⟨← toUint32 index, ← toUint32 source, ← toUint32 target, ← toUint32 size, ← toUint32 interval,
          ← toUint32 duration, ← toBool enabled⟩)
      | _ => .error (ascii "invalid FLOW line")
    else if name = ascii "RUN" then .ok .run
    else .error (ascii "unknown runner command")

/-- `RunScenario`. -/
def runScenario (scenario : Scenario) : Except Bytes (List Reply) := do
  validateScenario scenario
  let results ← simulate scenario
  pure (results.map Reply.result ++ [.done scenario.id])

/-- A command in the `try` block: the scenario and the replies, or the exception. -/
def execute (scenario : Scenario) : Command → Except Bytes (Scenario × List Reply)
  | .scenario id nodes links flows => .ok (⟨id, nodes, links, flows, [], [], []⟩, [])
  | .node input => .ok ({ scenario with nodes := scenario.nodes ++ [input] }, [])
  | .link input => .ok ({ scenario with links := scenario.links ++ [input] }, [])
  | .flow input => .ok ({ scenario with flows := scenario.flows ++ [input] }, [])
  | .run => (runScenario simulate scenario).map (fun replies => (scenario, replies))

/-- One turn of the loop on a line that does not end it. A line without parts is skipped. -/
def handleLine (scenario : Scenario) (line : Bytes) : Scenario × List Reply :=
  if line = [] ∨ splitTabs line = [] then (scenario, [])
  else
    match parseCommand stod line >>= execute simulate scenario with
    | .ok out => out
    | .error what => (Scenario.empty, [.error what])

/-- The loop over the lines of one request. -/
def handleLines (scenario : Scenario) : List Bytes → Scenario × List Reply
  | [] => (scenario, [])
  | line :: lines =>
    let (scenario, replies) := handleLine stod simulate scenario line
    let (scenario, rest) := handleLines scenario lines
    (scenario, replies ++ rest)

end Loop

end AfsimNs3.Runner
