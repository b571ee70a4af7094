import AfsimNs3.Bridge.State

/-!
# The ns-3 engine (`engine.py`)

The scenario a snapshot is sent to the worker process as, and the result built from the values it prints: nodes by
position in the snapshot, links from the devices, flows. The text of a float (`str`) is a parameter.
-/

namespace AfsimNs3.Bridge

structure LinkRecord where
  linkId : Str
  sourceEntityId : Str
  targetEntityId : Str
  kind : Kind
  dataRateBps : ℤ
  delayMs : ℚ
  configuredLossRate : ℚ
  state : LinkState
  deriving DecidableEq

namespace Ns3Runner

/-- `node_index`: the position of each entity. -/
def nodeIndex (entities : List EntityState) : Dict Str ℕ :=
  Dict.ofList (entities.map EntityState.entityId).zipIdx

def aliveMap (entities : List EntityState) : Dict Str Bool :=
  Dict.ofList (entities.map (fun entity => (entity.entityId, entity.alive)))

/-- `alive.get(id, False)`. -/
def isAlive (entities : List EntityState) (id : Str) : Bool := ((aliveMap entities).get? id).getD false

/-- `_links`: one link for each device, up when the device and both ends are. -/
def links (entities : List EntityState) : List LinkRecord :=
  entities.flatMap fun entity => entity.devices.map fun device =>
    { linkId := entity.entityId ++ str ":" ++ device.deviceId
      sourceEntityId := entity.entityId
      targetEntityId := device.peerEntityId
      kind := device.kind
      dataRateBps := device.dataRateBps
      delayMs := device.delayMs
      configuredLossRate := device.lossRate
      state := if device.linkState = .up ∧ entity.alive = true ∧ isAlive entities device.peerEntityId = true
        then .up else .down }

/-- `"\t".join`. -/
def tabJoin (parts : List Bytes) : Bytes := List.intercalate [9] parts

def flag (b : Bool) : Bytes := if b then ascii "1" else ascii "0"

/-- `scenario_id`. -/
def scenarioId (snapshot : StateSnapshot) : Bytes :=
  natBytes snapshot.revision ++ ascii "-" ++ intBytes snapshot.timestampMs

section Lines
variable (floatText : ℚ → Bytes)

def nodeLine (entity : EntityState × ℕ) : Bytes :=
  tabJoin [ascii "NODE", natBytes entity.2, floatText entity.1.position.xM, floatText entity.1.position.yM,
    floatText entity.1.position.zM, flag entity.1.alive]

/-- The line of a link; `none` is the `KeyError` of `node_index`. -/
def linkLine (entities : List EntityState) (link : LinkRecord × ℕ) : Option Bytes := do
  let source ← (nodeIndex entities).get? link.1.sourceEntityId
  let target ← (nodeIndex entities).get? link.1.targetEntityId
  some (tabJoin [ascii "LINK", natBytes link.2, natBytes source, natBytes target, intBytes link.1.dataRateBps,
    floatText link.1.delayMs, floatText link.1.configuredLossRate, flag (link.1.state = .up)])

def flowLine (entities : List EntityState) (flow : FlowConfig × ℕ) : Option Bytes := do
  let source ← (nodeIndex entities).get? flow.1.sourceEntityId
  let target ← (nodeIndex entities).get? flow.1.targetEntityId
  some (tabJoin [ascii "FLOW", natBytes flow.2, natBytes source, natBytes target, intBytes flow.1.packetSizeBytes,
    intBytes flow.1.intervalMs, intBytes flow.1.durationMs,
    flag (flow.1.active && isAlive entities flow.1.sourceEntityId && isAlive entities flow.1.targetEntityId)])

def headLine (snapshot : StateSnapshot) : Bytes :=
  tabJoin [ascii "SCENARIO", scenarioId snapshot, natBytes snapshot.entities.length,
    natBytes (links snapshot.entities).length, natBytes snapshot.flows.length]

/-- The lines `compute` writes, up to the final `RUN`. -/
def recordLines (snapshot : StateSnapshot) : Option (List Bytes) := do
  let linkLines ← (links snapshot.entities).zipIdx.mapM (linkLine floatText snapshot.entities)
  let flowLines ← snapshot.flows.zipIdx.mapM (flowLine snapshot.entities)
  some (snapshot.entities.zipIdx.map (nodeLine floatText) ++ linkLines ++ flowLines)

/-- All lines `compute` writes for a snapshot. -/
def scenarioLines (snapshot : StateSnapshot) : Option (List Bytes) :=
  (recordLines floatText snapshot).map fun records => headLine snapshot :: records ++ [ascii "RUN"]

end Lines

/-! ## The result -/

/-- What one `RESULT` line says of a flow. -/
structure MetricValues where
  connected : Bool
  latencyMs : Double
  lossRate : Double
  throughputBps : Double
  txPackets : ℕ
  rxPackets : ℕ
  linkState : Str
  deriving DecidableEq

/-- The values of a flow the worker reported nothing about. -/
def MetricValues.unmeasured : MetricValues := ⟨false, .finite 0, .finite 1, .finite 0, 0, 0, str "DOWN"⟩

/-- One `RESULT` line. -/
structure Result where
  index : ℕ
  values : MetricValues
  deriving DecidableEq

structure NodeRecord where
  entityId : Str
  businessNodeId : Str
  ns3NodeId : ℕ
  alive : Bool
  connected : Bool

structure FlowMetric where
  flowId : Str
  sourceEntityId : Str
  targetEntityId : Str
  values : MetricValues
  trafficDirection : Str

/-- The dictionary `compute` returns. `nodeMappings` are the first three fields of the nodes. -/
structure ComputeResult where
  requestId : Str
  timestampMs : ℤ
  revision : ℕ
  nodes : List NodeRecord
  links : List LinkRecord
  metrics : List FlowMetric
  computeMs : ℚ

/-- `measured`, once the `RESULT` lines are read in order. -/
def measured (results : List Result) : Dict ℕ MetricValues :=
  Dict.ofList (results.map (fun result => (result.index, result.values)))

def metrics (flows : List FlowConfig) (measured : Dict ℕ MetricValues) : List FlowMetric :=
  flows.zipIdx.map fun flow =>
    { flowId := flow.1.flowId
      sourceEntityId := flow.1.sourceEntityId
      targetEntityId := flow.1.targetEntityId
      values := (measured.get? flow.2).getD MetricValues.unmeasured
      trafficDirection := flow.1.sourceEntityId ++ str "->" ++ flow.1.targetEntityId }

/-- `connected_entities`. -/
def connectedEntities (links : List LinkRecord) : List Str :=
  (links.filter (fun link => link.state = .up)).flatMap (fun link => [link.sourceEntityId, link.targetEntityId])

def nodes (snapshot : StateSnapshot) : List NodeRecord :=
  snapshot.entities.map fun entity =>
    { entityId := entity.entityId
      businessNodeId := entity.businessNodeId
      ns3NodeId := ((nodeIndex snapshot.entities).get? entity.entityId).getD 0
      alive := entity.alive
      connected := entity.alive && decide (entity.entityId ∈ connectedEntities (links snapshot.entities)) }

/-- The result of `compute`, once `measured` is read. -/
def computeResult (snapshot : StateSnapshot) (requestId : Str) (computeMs : ℚ) (measured : Dict ℕ MetricValues) :
    ComputeResult :=
  { requestId := requestId
    timestampMs := snapshot.timestampMs
    revision := snapshot.revision
    nodes := nodes snapshot
    links := links snapshot.entities
    metrics := metrics snapshot.flows measured
    computeMs := computeMs }

theorem nodeIndex_get? {entities : List EntityState} (hn : (entities.map EntityState.entityId).Nodup) {id : Str}
    {index : ℕ} :
    (nodeIndex entities).get? id = some index ↔ (entities.map EntityState.entityId)[index]? = some id := by
  rw [nodeIndex, Dict.get?_ofList (by rwa [List.zipIdx_map_fst]), List.mem_zipIdx_iff_getElem?]

end Ns3Runner

end AfsimNs3.Bridge
