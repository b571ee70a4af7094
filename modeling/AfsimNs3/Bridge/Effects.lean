import AfsimNs3.Bridge.Engine

/-!
# Subsystem effects (`effects.py`)

The state of every policy of a snapshot, judged by the metric of its direction.
-/

namespace AfsimNs3.Bridge

inductive EffectState where
  | available
  | degraded
  | blocked
  deriving DecidableEq

inductive Reason where
  | noNetworkMetric
  | disconnected
  | delayExceeded
  | lossExceeded
  | throughputBelowMinimum
  deriving DecidableEq

structure Effect where
  entityId : Str
  businessNodeId : Str
  policy : EffectPolicy
  state : EffectState
  reasons : List Reason
  deriving DecidableEq

def ViolationState.toEffect : ViolationState → EffectState
  | .degraded => .degraded
  | .blocked => .blocked

/-- `by_direction`. -/
def byDirection (metrics : List Ns3Runner.FlowMetric) : Dict (Str × Str) Ns3Runner.MetricValues :=
  Dict.ofList (metrics.map (fun metric => ((metric.sourceEntityId, metric.targetEntityId), metric.values)))

/-- The thresholds a connected direction misses. -/
def missedThresholds (policy : EffectPolicy) (values : Ns3Runner.MetricValues) : List Reason :=
  (if values.latencyMs.above policy.maxDelayMs then [.delayExceeded] else []) ++
    (if values.lossRate.above policy.maxLossRate then [.lossExceeded] else []) ++
    (if values.throughputBps.below policy.minThroughputBps then [.throughputBelowMinimum] else [])

def evaluatePolicy (policy : EffectPolicy) : Option Ns3Runner.MetricValues → EffectState × List Reason
  | none => (.blocked, [.noNetworkMetric])
  | some values =>
    if !values.connected then (.blocked, [.disconnected])
    else if missedThresholds policy values = [] then (.available, [])
    else (policy.violationState.toEffect, missedThresholds policy values)

def evaluateEffects (snapshot : StateSnapshot) (metrics : List Ns3Runner.FlowMetric) : List Effect :=
  snapshot.entities.flatMap fun entity => entity.effectPolicies.map fun policy =>
    let verdict := evaluatePolicy policy ((byDirection metrics).get? (entity.entityId, policy.peerEntityId))
    { entityId := entity.entityId
      businessNodeId := entity.businessNodeId
      policy := policy
      state := verdict.1
      reasons := verdict.2 }

end AfsimNs3.Bridge
