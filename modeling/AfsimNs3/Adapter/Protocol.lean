import AfsimNs3.Lib.Json

/-!
# Frames and messages of the adapter (`AfsimNs3Protocol`)

The records the simulation side collects, and the two messages built from them. A message is given as the value
`json.loads` reads from the text that is written; it is `none` when the text is not JSON, which happens exactly
when a double is infinite or not a number (`inf`, `nan`). A `std::string` is given by the text it encodes in UTF-8.
-/

namespace AfsimNs3.Adapter

structure Position where
  xM : Double
  yM : Double
  zM : Double

structure Velocity where
  vxMps : Double
  vyMps : Double
  vzMps : Double

structure DeviceConfig where
  deviceId : Str
  peerEntityId : Str
  kind : Str
  dataRateBps : UInt64
  delayMs : Double
  lossRate : Double
  linkState : Str

structure EffectPolicy where
  subsystemId : Str
  subsystemType : Str
  peerEntityId : Str
  maxDelayMs : Double
  maxLossRate : Double
  minThroughputBps : Double
  violationState : Str

structure EntityState where
  entityId : Str
  businessNodeId : Str
  parentEntityId : Str
  hasParent : Bool
  position : Position
  velocity : Velocity
  headingDeg : Double
  alive : Bool
  devices : List DeviceConfig
  effectPolicies : List EffectPolicy

structure FlowConfig where
  flowId : Str
  sourceEntityId : Str
  targetEntityId : Str
  packetSizeBytes : UInt32
  intervalMs : UInt32
  durationMs : UInt32
  active : Bool

/-- A delta contains only changed or created entities and flows plus removed IDs. -/
structure DeltaState where
  entityUpserts : List EntityState
  entityRemovals : List Str
  flowUpserts : List FlowConfig
  flowRemovals : List Str

/-! ## Writers -/

/-- `output << value` at `setprecision(15)`: fifteen significant digits, a point or an exponent only where the
rounded value is not an integer below `10 ^ 15`. -/
def writeDouble : Double → Option Json
  | .finite q =>
    let rounded := Double.roundDigits 10 15 (-400) q
    if rounded.den = 1 ∧ |rounded| < 10 ^ 15 then some (.int rounded.num) else some (.float (Double.ofRat rounded))
  | _ => none

def writeDevice (device : DeviceConfig) : Option Json := do
  let delayMs ← writeDouble device.delayMs
  let lossRate ← writeDouble device.lossRate
  some (.obj [
    (str "device_id", .str device.deviceId),
    (str "peer_entity_id", .str device.peerEntityId),
    (str "kind", .str device.kind),
    (str "data_rate_bps", .int device.dataRateBps.toNat),
    (str "delay_ms", delayMs),
    (str "loss_rate", lossRate),
    (str "link_state", .str device.linkState)])

def writePolicy (policy : EffectPolicy) : Option Json := do
  let maxDelayMs ← writeDouble policy.maxDelayMs
  let maxLossRate ← writeDouble policy.maxLossRate
  let minThroughputBps ← writeDouble policy.minThroughputBps
  some (.obj [
    (str "subsystem_id", .str policy.subsystemId),
    (str "subsystem_type", .str policy.subsystemType),
    (str "peer_entity_id", .str policy.peerEntityId),
    (str "max_delay_ms", maxDelayMs),
    (str "max_loss_rate", maxLossRate),
    (str "min_throughput_bps", minThroughputBps),
    (str "violation_state", .str policy.violationState)])

def writeArray {α : Type} (writer : α → Option Json) (values : List α) : Option Json :=
  (values.mapM writer).map Json.arr

def writePosition (position : Position) : Option Json := do
  let xM ← writeDouble position.xM
  let yM ← writeDouble position.yM
  let zM ← writeDouble position.zM
  some (.obj [(str "x_m", xM), (str "y_m", yM), (str "z_m", zM)])

def writeVelocity (velocity : Velocity) : Option Json := do
  let vxMps ← writeDouble velocity.vxMps
  let vyMps ← writeDouble velocity.vyMps
  let vzMps ← writeDouble velocity.vzMps
  some (.obj [(str "vx_mps", vxMps), (str "vy_mps", vyMps), (str "vz_mps", vzMps)])

def writeEntity (entity : EntityState) : Option Json := do
  let position ← writePosition entity.position
  let velocity ← writeVelocity entity.velocity
  let headingDeg ← writeDouble entity.headingDeg
  let devices ← writeArray writeDevice entity.devices
  let effectPolicies ← writeArray writePolicy entity.effectPolicies
  some (.obj [
    (str "entity_id", .str entity.entityId),
    (str "business_node_id", .str entity.businessNodeId),
    (str "parent_entity_id", if entity.hasParent then .str entity.parentEntityId else .null),
    (str "position", position),
    (str "velocity", velocity),
    (str "heading_deg", headingDeg),
    (str "alive", .bool entity.alive),
    (str "devices", devices),
    (str "effect_policies", effectPolicies)])

def writeFlow (flow : FlowConfig) : Option Json :=
  some (.obj [
    (str "flow_id", .str flow.flowId),
    (str "source_entity_id", .str flow.sourceEntityId),
    (str "target_entity_id", .str flow.targetEntityId),
    (str "packet_size_bytes", .int flow.packetSizeBytes.toNat),
    (str "interval_ms", .int flow.intervalMs.toNat),
    (str "duration_ms", .int flow.durationMs.toNat),
    (str "active", .bool flow.active)])

def writeStrings (values : List Str) : Json := .arr (values.map Json.str)

def writeEnvelope (messageType requestId : Str) (timestampMs : UInt64) : Fields := [
  (str "protocol_version", .str (str "0.2")),
  (str "message_type", .str messageType),
  (str "request_id", .str requestId),
  (str "timestamp_ms", .int timestampMs.toNat)]

def buildInitMessage (requestId : Str) (timestampMs : UInt64) (entities : List EntityState)
    (flows : List FlowConfig) : Option Json := do
  let entities ← writeArray writeEntity entities
  let flows ← writeArray writeFlow flows
  some (.obj (writeEnvelope (str "afsim_init") requestId timestampMs ++
    [(str "entities", entities), (str "flows", flows)]))

def buildDeltaMessage (requestId : Str) (timestampMs : UInt64) (delta : DeltaState) : Option Json := do
  let entityUpserts ← writeArray writeEntity delta.entityUpserts
  let flowUpserts ← writeArray writeFlow delta.flowUpserts
  some (.obj (writeEnvelope (str "afsim_delta") requestId timestampMs ++
    [(str "entity_upserts", entityUpserts), (str "entity_removals", writeStrings delta.entityRemovals),
      (str "flow_upserts", flowUpserts), (str "flow_removals", writeStrings delta.flowRemovals)]))

end AfsimNs3.Adapter
