import AfsimNs3.Adapter.JsonFields
import AfsimNs3.Lib.Dict

/-!
# The client's gates (`MessageTransportGate.cpp`, `NetworkEffectGate.cpp`)

Each gate reads an `ns3_metrics` line as a whole and takes what it read when the revision is above the latest one.
`Controller.onJsonLine` hands a line to both, in the source's order; an exception leaves the rest undone and is
swallowed by the network worker.
-/

namespace AfsimNs3.Adapter

/-! ## Message transport -/

/-- `MessageTransportGate::Profile`. -/
structure Profile where
  connected : Bool
  delayMs : ℚ
  lossRate : ℚ
  deriving DecidableEq

def Profile.initial : Profile := ⟨false, 0, 1⟩

abbrev Profiles := Dict (Bytes × Bytes) Profile

structure MessageTransportGate where
  mProfiles : Profiles
  mLatestRevision : UInt64

namespace MessageTransportGate

def new : MessageTransportGate := ⟨Dict.empty, 0⟩

section
variable (stod : Bytes → Except Bytes Double)

/-- A turn of the loop over `links`. -/
def readLink (profiles : Profiles) (object : Bytes) : Except Bytes Profiles := do
  let state ← jsonString object (ascii "state")
  let delayMs ← jsonDouble stod object (ascii "delay_ms")
  let lossRate ← jsonDouble stod object (ascii "configured_loss_rate")
  let source ← jsonString object (ascii "source_entity_id")
  let target ← jsonString object (ascii "target_entity_id")
  pure (profiles.put (source, target) ⟨state = ascii "UP", max 0 delayMs, max 0 (min 1 lossRate)⟩)

/-- `JsonBool(object, "connected") && JsonString(object, "link_state") == "UP"`. -/
def readConnected (object : Bytes) : Except Bytes Bool := do
  let connected ← jsonBool object (ascii "connected")
  if connected then (jsonString object (ascii "link_state")).map (fun state => decide (state = ascii "UP"))
  else .ok false

/-- A turn of the loop over `metrics`. -/
def readMetric (profiles : Profiles) (object : Bytes) : Except Bytes Profiles := do
  let source ← jsonString object (ascii "source_entity_id")
  let target ← jsonString object (ascii "target_entity_id")
  let profile := (profiles.get? (source, target)).getD Profile.initial
  let connected ← readConnected object
  let latencyMs ← jsonDouble stod object (ascii "latency_ms")
  pure (profiles.put (source, target)
    { profile with connected := connected, delayMs := max profile.delayMs (max 0 latencyMs) })

/-- What the gate reads from a line; `none` when the line is no `ns3_metrics` message. -/
def readMetrics (line : Bytes) : Except Bytes (Option (UInt64 × Profiles)) := do
  let messageType ← jsonString line (ascii "message_type")
  if messageType ≠ ascii "ns3_metrics" then .ok none
  else do
    let revision ← jsonUint64 line (ascii "revision")
    let links ← objectArray line (ascii "links")
    let profiles ← links.foldlM (readLink stod) Dict.empty
    let metrics ← objectArray line (ascii "metrics")
    let profiles ← metrics.foldlM (readMetric stod) profiles
    pure (some (revision, profiles))

/-- `UpdateFromMetricsJson` on what was read. -/
def accept (gate : MessageTransportGate) : Option (UInt64 × Profiles) → MessageTransportGate × Bool
  | none => (gate, false)
  | some (revision, profiles) =>
    if revision ≤ gate.mLatestRevision then (gate, false) else (⟨profiles, revision⟩, true)

def updateFromMetricsJson (gate : MessageTransportGate) (line : Bytes) :
    Except Bytes (MessageTransportGate × Bool) :=
  (readMetrics stod line).map gate.accept

end

inductive Disposition where
  | noLink
  | drop
  | deliver
  deriving DecidableEq

structure Decision where
  sourceEntityId : Bytes
  targetEntityId : Bytes
  disposition : Disposition
  delayMs : ℚ
  lossRate : ℚ
  revision : UInt64
  reason : Bytes
  deriving DecidableEq

def hashByte (hash : UInt64) (c : UInt8) : UInt64 := (hash ^^^ c.toUInt64) * 1099511628211

/-- `HashText`. -/
def hashText (hash : UInt64) (text : Bytes) : UInt64 := text.foldl hashByte hash

/-- The octets of the serial and of the revision, taken in turn. -/
def hashNumbers (hash serial revision : UInt64) : UInt64 :=
  (List.range 8).foldl (fun hash index => hashByte
    (hashByte hash (serial >>> UInt64.ofNat (8 * index)).toUInt8) (revision >>> UInt64.ofNat (8 * index)).toUInt8) hash

/-- `UnitDraw`. -/
def unitDraw (source target : Bytes) (messageSerial revision : UInt64) : ℚ :=
  let hash := hashNumbers (hashText (hashText 1469598103934665603 source) target) messageSerial revision
  (hash >>> 11).toNat / 2 ^ 53

/-- `Decide`. -/
def decide (gate : MessageTransportGate) (source target : Bytes) (messageSerial : UInt64) : Decision :=
  match gate.mProfiles.get? (source, target) with
  | none => ⟨source, target, .noLink, 0, 1, gate.mLatestRevision, ascii "NO_NETWORK_PROFILE"⟩
  | some profile =>
    let decision : Decision :=
      ⟨source, target, .noLink, profile.delayMs, profile.lossRate, gate.mLatestRevision, ascii "LINK_DOWN"⟩
    if !profile.connected then decision
    else if 1 ≤ profile.lossRate ∨ unitDraw source target messageSerial gate.mLatestRevision < profile.lossRate then
      { decision with disposition := .drop, reason := ascii "PACKET_LOSS" }
    else { decision with disposition := .deliver, reason := ascii "NONE" }

end MessageTransportGate

/-! ## Network effects -/

inductive EffectState where
  | available
  | degraded
  | blocked
  deriving DecidableEq

/-- `ParseState`. -/
def EffectState.parse (value : Bytes) : Except Bytes EffectState :=
  if value = ascii "AVAILABLE" then .ok .available
  else if value = ascii "DEGRADED" then .ok .degraded
  else if value = ascii "BLOCKED" then .ok .blocked
  else .error (ascii "unknown network effect state")

structure EffectDecision where
  entityId : Bytes
  subsystemId : Bytes
  subsystemType : Bytes
  peerEntityId : Bytes
  state : EffectState
  revision : UInt64
  deriving DecidableEq

structure NetworkEffectGate where
  mStates : Dict (Bytes × Bytes) EffectState
  mLatestRevision : UInt64

namespace NetworkEffectGate

def new : NetworkEffectGate := ⟨Dict.empty, 0⟩

def readEffect (revision : UInt64) (object : Bytes) : Except Bytes EffectDecision := do
  let entityId ← jsonString object (ascii "entity_id")
  let subsystemId ← jsonString object (ascii "subsystem_id")
  let subsystemType ← jsonString object (ascii "subsystem_type")
  let peerEntityId ← jsonString object (ascii "peer_entity_id")
  let state ← jsonString object (ascii "state") >>= EffectState.parse
  pure ⟨entityId, subsystemId, subsystemType, peerEntityId, state, revision⟩

/-- What the gate reads from a line; `none` when the line is no `ns3_metrics` message. -/
def readMetrics (line : Bytes) : Except Bytes (Option (UInt64 × List EffectDecision)) := do
  let messageType ← jsonString line (ascii "message_type")
  if messageType ≠ ascii "ns3_metrics" then .ok none
  else do
    let revision ← jsonUint64 line (ascii "revision")
    let effects ← objectArray line (ascii "effects")
    let decisions ← effects.mapM (readEffect revision)
    pure (some (revision, decisions))

/-- The loop over the decisions. -/
def setStates (states : Dict (Bytes × Bytes) EffectState) (decisions : List EffectDecision) :
    Dict (Bytes × Bytes) EffectState :=
  decisions.foldl (fun states decision => states.put (decision.entityId, decision.subsystemId) decision.state) states

/-- `UpdateFromMetricsJson` on what was read. The states of other subsystems stay. -/
def accept (gate : NetworkEffectGate) :
    Option (UInt64 × List EffectDecision) → NetworkEffectGate × List EffectDecision
  | none => (gate, [])
  | some (revision, decisions) =>
    if revision ≤ gate.mLatestRevision then (gate, [])
    else (⟨setStates gate.mStates decisions, revision⟩, decisions)

def updateFromMetricsJson (gate : NetworkEffectGate) (line : Bytes) :
    Except Bytes (NetworkEffectGate × List EffectDecision) :=
  (readMetrics line).map gate.accept

/-- `GetState`. -/
def getState (gate : NetworkEffectGate) (entityId subsystemId : Bytes) : EffectState :=
  (gate.mStates.get? (entityId, subsystemId)).getD .blocked

/-- `CanOperate`. -/
def canOperate (gate : NetworkEffectGate) (entityId subsystemId : Bytes) : Bool :=
  gate.getState entityId subsystemId ≠ .blocked

end NetworkEffectGate

/-! ## A line handled -/

/-- The gates of an `AfsimBridgeController`. -/
structure Gates where
  mMessageGate : MessageTransportGate
  mGate : NetworkEffectGate

def Gates.new : Gates := ⟨MessageTransportGate.new, NetworkEffectGate.new⟩

/-- `OnJsonLine` under the `catch` of `DispatchLines`. -/
def Gates.onJsonLine (stod : Bytes → Except Bytes Double) (gates : Gates) (line : Bytes) : Gates :=
  match gates.mMessageGate.updateFromMetricsJson stod line with
  | .error _ => gates
  | .ok (message, _) =>
    match gates.mGate.updateFromMetricsJson line with
    | .error _ => { gates with mMessageGate := message }
    | .ok (effect, _) => ⟨message, effect⟩

end AfsimNs3.Adapter
