import AfsimNs3.Bridge.Server

/-!
# The `ns3_metrics` response as JSON

The fields in the order the service puts them in: those of `_compute_loop` around the result of `compute`, and
those of the answer to a query, which is the latest response under the query's `request_id`.
-/

namespace AfsimNs3.Bridge

def Kind.text : Kind → Str
  | .wired => str "wired"
  | .wireless => str "wireless"

def LinkState.text : LinkState → Str
  | .up => str "UP"
  | .down => str "DOWN"

def SubsystemType.text : SubsystemType → Str
  | .weapon => str "weapon"
  | .radar => str "radar"

def ViolationState.text : ViolationState → Str
  | .degraded => str "DEGRADED"
  | .blocked => str "BLOCKED"

def EffectState.text : EffectState → Str
  | .available => str "AVAILABLE"
  | .degraded => str "DEGRADED"
  | .blocked => str "BLOCKED"

def Reason.text : Reason → Str
  | .noNetworkMetric => str "NO_NETWORK_METRIC"
  | .disconnected => str "DISCONNECTED"
  | .delayExceeded => str "DELAY_EXCEEDED"
  | .lossExceeded => str "LOSS_EXCEEDED"
  | .throughputBelowMinimum => str "THROUGHPUT_BELOW_MINIMUM"

namespace Ns3Runner

/-- An entry of `node_mappings`. -/
def NodeRecord.mapping (node : NodeRecord) : Fields := [
  (str "entity_id", .str node.entityId),
  (str "business_node_id", .str node.businessNodeId),
  (str "ns3_node_id", .int node.ns3NodeId)]

def NodeRecord.fields (node : NodeRecord) : Fields := [
  (str "entity_id", .str node.entityId),
  (str "business_node_id", .str node.businessNodeId),
  (str "ns3_node_id", .int node.ns3NodeId),
  (str "alive", .bool node.alive),
  (str "connected", .bool node.connected)]

def FlowMetric.fields (metric : FlowMetric) : Fields := [
  (str "flow_id", .str metric.flowId),
  (str "source_entity_id", .str metric.sourceEntityId),
  (str "target_entity_id", .str metric.targetEntityId),
  (str "connected", .bool metric.values.connected),
  (str "latency_ms", .float metric.values.latencyMs),
  (str "loss_rate", .float metric.values.lossRate),
  (str "throughput_bps", .float metric.values.throughputBps),
  (str "tx_packets", .int metric.values.txPackets),
  (str "rx_packets", .int metric.values.rxPackets),
  (str "link_state", .str metric.values.linkState),
  (str "traffic_direction", .str metric.trafficDirection)]

end Ns3Runner

def LinkRecord.fields (link : LinkRecord) : Fields := [
  (str "link_id", .str link.linkId),
  (str "source_entity_id", .str link.sourceEntityId),
  (str "target_entity_id", .str link.targetEntityId),
  (str "kind", .str link.kind.text),
  (str "data_rate_bps", .int link.dataRateBps),
  (str "delay_ms", Json.ofRat link.delayMs),
  (str "configured_loss_rate", Json.ofRat link.configuredLossRate),
  (str "state", .str link.state.text)]

def EffectPolicy.thresholds (policy : EffectPolicy) : Fields := [
  (str "max_delay_ms", Json.ofRat policy.maxDelayMs),
  (str "max_loss_rate", Json.ofRat policy.maxLossRate),
  (str "min_throughput_bps", Json.ofRat policy.minThroughputBps),
  (str "violation_state", .str policy.violationState.text)]

def Effect.fields (effect : Effect) : Fields := [
  (str "entity_id", .str effect.entityId),
  (str "business_node_id", .str effect.businessNodeId),
  (str "subsystem_id", .str effect.policy.subsystemId),
  (str "subsystem_type", .str effect.policy.subsystemType.text),
  (str "peer_entity_id", .str effect.policy.peerEntityId),
  (str "state", .str effect.state.text),
  (str "reasons", .arr (effect.reasons.map (fun reason => .str reason.text))),
  (str "thresholds", .obj effect.policy.thresholds)]

def QueueState.fields (queueState : QueueState) : Fields := [
  (str "pending", .bool queueState.pending),
  (str "latest_pending_revision", queueState.latestPendingRevision.elim .null (fun revision => .int revision))]

def statusFields (message : Str) : Fields := [(str "code", .int 0), (str "message", .str message)]

/-- The response, under a `request_id` of its own and with what follows the effects. -/
def Response.fields (response : Response) (requestId : Str) (tail : Fields) : Fields := [
  (str "protocol_version", .str protocolVersion),
  (str "message_type", .str (str "ns3_metrics")),
  (str "status", .obj (statusFields (str "ok"))),
  (str "request_id", .str requestId),
  (str "timestamp_ms", .int response.measured.timestampMs),
  (str "revision", .int response.measured.revision),
  (str "node_mappings", Json.objects Ns3Runner.NodeRecord.mapping response.measured.nodes),
  (str "nodes", Json.objects Ns3Runner.NodeRecord.fields response.measured.nodes),
  (str "links", Json.objects LinkRecord.fields response.measured.links),
  (str "metrics", Json.objects Ns3Runner.FlowMetric.fields response.measured.metrics),
  (str "compute_ms", Json.ofRat response.measured.computeMs),
  (str "queue_state", .obj response.queueState.fields),
  (str "effects", Json.objects Effect.fields response.effects)] ++ tail

/-- `MetricsStore.latest` before the first result. -/
def noMetricsFields (requestId : Str) : Fields := [
  (str "protocol_version", .str protocolVersion),
  (str "message_type", .str (str "ns3_metrics")),
  (str "request_id", .str requestId),
  (str "timestamp_ms", .int 0),
  (str "revision", .int 0),
  (str "status", .obj (statusFields (str "no metrics yet"))),
  (str "metrics", .arr []),
  (str "effects", .arr []),
  (str "links", .arr []),
  (str "nodes", .arr []),
  (str "node_mappings", .arr []),
  (str "queue_state", .obj (QueueState.fields ⟨false, none⟩)),
  (str "compute_ms", Json.ofRat 0)]

/-- What the service sends as `ns3_metrics`: a result to every client, or the answer to a query. -/
inductive MetricsMessage where
  | broadcast (response : Response)
  | answer (requestId : Str) (latest : Option Response)

namespace MetricsMessage

/-- The message as it is encoded. The `request_id` a latest response had is kept unless it is empty. -/
def fields : MetricsMessage → Fields
  | broadcast response => response.fields response.measured.requestId []
  | answer requestId (some response) => response.fields requestId
      (if response.measured.requestId = [] then [] else
        [(str "source_request_id", .str response.measured.requestId)])
  | answer requestId none => noMetricsFields requestId

/-- The response a message carries, if there is one. -/
def response? : MetricsMessage → Option Response
  | broadcast response => some response
  | answer _ latest => latest

def revision (message : MetricsMessage) : ℕ := message.response?.elim 0 (fun response => response.measured.revision)

def links (message : MetricsMessage) : List LinkRecord :=
  message.response?.elim [] (fun response => response.measured.links)

def metrics (message : MetricsMessage) : List Ns3Runner.FlowMetric :=
  message.response?.elim [] (fun response => response.measured.metrics)

def effects (message : MetricsMessage) : List Effect := message.response?.elim [] Response.effects

end MetricsMessage

/-! ## The other responses -/

def ErrorResponse.fields (response : ErrorResponse) : Fields := [
  (str "protocol_version", .str protocolVersion),
  (str "message_type", .str (str "ns3_error")),
  (str "request_id", .str response.requestId),
  (str "timestamp_ms", .int response.timestampMs),
  (str "revision", .int response.revision),
  (str "status", .obj [(str "code", .int response.code), (str "message", .str response.message)])]

/-- What a broadcast is encoded from. -/
def Broadcast.fields : Broadcast → Fields
  | .metrics response => (MetricsMessage.broadcast response).fields
  | .error response => response.fields

end AfsimNs3.Bridge
