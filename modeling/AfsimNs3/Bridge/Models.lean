import AfsimNs3.Lib.Except
import AfsimNs3.Lib.Json

/-!
# The records of the wire protocol (`models.py`)

Each record of a message is read from a decoded JSON value by its `fromDict`, which raises on the first field
that violates the contract. An accepted record holds trimmed texts, finite numbers within their bounds and
enumeration values, so nothing downstream checks them again.
-/

namespace AfsimNs3.Bridge

def protocolVersion : Str := str "0.2"

/-- The exceptions a request can raise: `ProtocolError`, the `OverflowError` of `float` on a huge integer, and the
`UnicodeEncodeError` of the encoding of a lone surrogate. -/
inductive PyError where
  | protocol (code : ℕ) (message : Str)
  | overflow
  | unicode
  deriving DecidableEq

/-- The decimal text of an integer. -/
def decimal (n : ℤ) : Str := str (toString n)

/-! ## Fields -/

def requiredText (data : Fields) (key : Str) : Except PyError Str :=
  match data.get key with
  | .str value =>
    if Str.strip value = [] then .error (.protocol 1002 (key ++ str " must be a non-empty string"))
    else .ok (Str.strip value)
  | _ => .error (.protocol 1002 (key ++ str " must be a non-empty string"))

def optionalText (data : Fields) (key : Str) : Except PyError (Option Str) :=
  match data.get key with
  | .null => .ok none
  | .str value =>
    if Str.strip value = [] then .error (.protocol 1002 (key ++ str " must be null or a non-empty string"))
    else .ok (some (Str.strip value))
  | _ => .error (.protocol 1002 (key ++ str " must be null or a non-empty string"))

/-- A bound of a number, with the text messages show it by. -/
structure Bound where
  value : ℚ
  text : Str

def zeroBound : Bound := ⟨0, str "0.0"⟩

def oneBound : Bound := ⟨1, str "1.0"⟩

def degreesBound : Bound := ⟨360, str "360.0"⟩

/-- `float(value)` of a JSON number. -/
def toFloat (key : Str) : Json → Except PyError Double
  | .int n =>
    match Double.ofRat n with
    | .inf _ => .error .overflow
    | x => .ok x
  | .float x => .ok x
  | _ => .error (.protocol 1002 (key ++ str " must be numeric"))

/-- The finite number read, once it lies within the bounds. -/
def withinBounds (key : Str) (minimum maximum : Option Bound) : Double → Except PyError ℚ
  | .finite q =>
    if minimum.any (fun b => q < b.value) then
      .error (.protocol 1002 (key ++ str " must be >= " ++ (minimum.map Bound.text).getD []))
    else if maximum.any (fun b => b.value < q) then
      .error (.protocol 1002 (key ++ str " must be <= " ++ (maximum.map Bound.text).getD []))
    else .ok q
  | _ => .error (.protocol 1002 (key ++ str " must be finite"))

def number (data : Fields) (key : Str) (minimum maximum : Option Bound) : Except PyError ℚ := do
  let result ← toFloat key (data.get key)
  withinBounds key minimum maximum result

def integer (data : Fields) (key : Str) (minimum : Option ℤ) : Except PyError ℤ :=
  match data.get key with
  | .int value =>
    if minimum.any (fun m => value < m) then
      .error (.protocol 1002 (key ++ str " must be >= " ++ (minimum.map decimal).getD []))
    else .ok value
  | _ => .error (.protocol 1002 (key ++ str " must be an integer"))

/-! ## Records -/

inductive Kind where
  | wired
  | wireless
  deriving DecidableEq

inductive LinkState where
  | up
  | down
  deriving DecidableEq

inductive SubsystemType where
  | weapon
  | radar
  deriving DecidableEq

inductive ViolationState where
  | degraded
  | blocked
  deriving DecidableEq

structure Position where
  xM : ℚ
  yM : ℚ
  zM : ℚ
  deriving DecidableEq

def Position.fromDict : Json → Except PyError Position
  | .obj data => do
    let xM ← number data (str "x_m") none none
    let yM ← number data (str "y_m") none none
    let zM ← number data (str "z_m") none none
    pure ⟨xM, yM, zM⟩
  | _ => .error (.protocol 1002 (str "position must be an object"))

structure Velocity where
  vxMps : ℚ
  vyMps : ℚ
  vzMps : ℚ
  deriving DecidableEq

def Velocity.fromDict : Json → Except PyError Velocity
  | .obj data => do
    let vxMps ← number data (str "vx_mps") none none
    let vyMps ← number data (str "vy_mps") none none
    let vzMps ← number data (str "vz_mps") none none
    pure ⟨vxMps, vyMps, vzMps⟩
  | _ => .error (.protocol 1002 (str "velocity must be an object"))

structure DeviceConfig where
  deviceId : Str
  peerEntityId : Str
  kind : Kind
  dataRateBps : ℤ
  delayMs : ℚ
  lossRate : ℚ
  linkState : LinkState
  deriving DecidableEq

def Kind.parse (text : Str) : Except PyError Kind :=
  if Str.lower text = str "wired" then .ok .wired
  else if Str.lower text = str "wireless" then .ok .wireless
  else .error (.protocol 1002 (str "device kind must be wired or wireless"))

def LinkState.parse (text : Str) : Except PyError LinkState :=
  if Str.upper text = str "UP" then .ok .up
  else if Str.upper text = str "DOWN" then .ok .down
  else .error (.protocol 1002 (str "link_state must be UP or DOWN"))

def DeviceConfig.fromDict : Json → Except PyError DeviceConfig
  | .obj data => do
    let kind ← requiredText data (str "kind") >>= Kind.parse
    let linkState ← requiredText data (str "link_state") >>= LinkState.parse
    let deviceId ← requiredText data (str "device_id")
    let peerEntityId ← requiredText data (str "peer_entity_id")
    let dataRateBps ← integer data (str "data_rate_bps") (some 1)
    let delayMs ← number data (str "delay_ms") (some zeroBound) none
    let lossRate ← number data (str "loss_rate") (some zeroBound) (some oneBound)
    pure ⟨deviceId, peerEntityId, kind, dataRateBps, delayMs, lossRate, linkState⟩
  | _ => .error (.protocol 1002 (str "devices entries must be objects"))

structure EffectPolicy where
  subsystemId : Str
  subsystemType : SubsystemType
  peerEntityId : Str
  maxDelayMs : ℚ
  maxLossRate : ℚ
  minThroughputBps : ℚ
  violationState : ViolationState
  deriving DecidableEq

def SubsystemType.parse (text : Str) : Except PyError SubsystemType :=
  if Str.lower text = str "weapon" then .ok .weapon
  else if Str.lower text = str "radar" then .ok .radar
  else .error (.protocol 1002 (str "subsystem_type must be weapon or radar"))

def ViolationState.parse (text : Str) : Except PyError ViolationState :=
  if Str.upper text = str "DEGRADED" then .ok .degraded
  else if Str.upper text = str "BLOCKED" then .ok .blocked
  else .error (.protocol 1002 (str "violation_state must be DEGRADED or BLOCKED"))

def EffectPolicy.fromDict : Json → Except PyError EffectPolicy
  | .obj data => do
    let subsystemType ← requiredText data (str "subsystem_type") >>= SubsystemType.parse
    let violationState ← requiredText data (str "violation_state") >>= ViolationState.parse
    let subsystemId ← requiredText data (str "subsystem_id")
    let peerEntityId ← requiredText data (str "peer_entity_id")
    let maxDelayMs ← number data (str "max_delay_ms") (some zeroBound) none
    let maxLossRate ← number data (str "max_loss_rate") (some zeroBound) (some oneBound)
    let minThroughputBps ← number data (str "min_throughput_bps") (some zeroBound) none
    pure ⟨subsystemId, subsystemType, peerEntityId, maxDelayMs, maxLossRate, minThroughputBps, violationState⟩
  | _ => .error (.protocol 1002 (str "effect_policies entries must be objects"))

structure EntityState where
  entityId : Str
  businessNodeId : Str
  parentEntityId : Option Str
  position : Position
  velocity : Velocity
  headingDeg : ℚ
  alive : Bool
  devices : List DeviceConfig
  effectPolicies : List EffectPolicy
  deriving DecidableEq

/-- `alive = data.get("alive")`, which must be a boolean. -/
def boolean (value : Json) (message : Str) : Except PyError Bool :=
  match value with
  | .bool b => .ok b
  | _ => .error (.protocol 1002 message)

def arrays (first second : Json) (message : Str) : Except PyError (List Json × List Json) :=
  match first, second with
  | .arr xs, .arr ys => .ok (xs, ys)
  | _, _ => .error (.protocol 1002 message)

/-- `EntityState.from_dict` of an object. -/
def EntityState.ofFields (data : Fields) : Except PyError EntityState := do
  let alive ← boolean (data.get (str "alive")) (str "alive must be boolean")
  let (devices, policies) ← arrays (data.getD (str "devices") (.arr []))
    (data.getD (str "effect_policies") (.arr [])) (str "devices and effect_policies must be arrays")
  let entityId ← requiredText data (str "entity_id")
  let businessNodeId ← requiredText data (str "business_node_id")
  let parentEntityId ← optionalText data (str "parent_entity_id")
  let position ← Position.fromDict (data.get (str "position"))
  let velocity ← Velocity.fromDict (data.get (str "velocity"))
  let headingDeg ← number data (str "heading_deg") (some zeroBound) (some degreesBound)
  let devices ← devices.mapM DeviceConfig.fromDict
  let effectPolicies ← policies.mapM EffectPolicy.fromDict
  pure ⟨entityId, businessNodeId, parentEntityId, position, velocity, headingDeg, alive, devices, effectPolicies⟩

def EntityState.fromDict : Json → Except PyError EntityState
  | .obj data => EntityState.ofFields data
  | _ => .error (.protocol 1002 (str "entities entries must be objects"))

structure FlowConfig where
  flowId : Str
  sourceEntityId : Str
  targetEntityId : Str
  packetSizeBytes : ℤ
  intervalMs : ℤ
  durationMs : ℤ
  active : Bool
  deriving DecidableEq

/-- `FlowConfig.from_dict` of an object. -/
def FlowConfig.ofFields (data : Fields) : Except PyError FlowConfig := do
  let active ← boolean (data.getD (str "active") (.bool true)) (str "active must be boolean")
  let flowId ← requiredText data (str "flow_id")
  let sourceEntityId ← requiredText data (str "source_entity_id")
  let targetEntityId ← requiredText data (str "target_entity_id")
  let packetSizeBytes ← integer data (str "packet_size_bytes") (some 64)
  let intervalMs ← integer data (str "interval_ms") (some 1)
  let durationMs ← integer data (str "duration_ms") (some 100)
  pure ⟨flowId, sourceEntityId, targetEntityId, packetSizeBytes, intervalMs, durationMs, active⟩

def FlowConfig.fromDict : Json → Except PyError FlowConfig
  | .obj data => FlowConfig.ofFields data
  | _ => .error (.protocol 1002 (str "flows entries must be objects"))

/-! ## The envelope -/

inductive MessageType where
  | afsimInit
  | afsimDelta
  | metricsQuery
  deriving DecidableEq

structure Envelope where
  messageType : MessageType
  requestId : Str
  timestampMs : ℤ
  deriving DecidableEq

def MessageType.parse (text : Str) : Except PyError MessageType :=
  if text = str "afsim_init" then .ok .afsimInit
  else if text = str "afsim_delta" then .ok .afsimDelta
  else if text = str "metrics_query" then .ok .metricsQuery
  else .error (.protocol 1003 (str "unsupported message_type: " ++ text))

def checkVersion : Json → Except PyError Unit
  | .str version =>
    if version = protocolVersion then .ok () else .error (.protocol 1003 (str "protocol_version must be 0.2"))
  | _ => .error (.protocol 1003 (str "protocol_version must be 0.2"))

def validateEnvelope : Json → Except PyError Envelope
  | .obj payload => do
    checkVersion (Fields.get payload (str "protocol_version"))
    let messageType ← requiredText payload (str "message_type") >>= MessageType.parse
    let requestId ← requiredText payload (str "request_id")
    let timestampMs ← integer payload (str "timestamp_ms") (some 0)
    pure ⟨messageType, requestId, timestampMs⟩
  | _ => .error (.protocol 1001 (str "message must be a JSON object"))

/-! ## What an accepted record satisfies -/

theorem requiredText_ok_iff {data : Fields} {key text : Str} :
    requiredText data key = .ok text ↔
      ∃ value, data.get key = .str value ∧ Str.strip value ≠ [] ∧ Str.strip value = text := by
  unfold requiredText
  cases data.get key with
  | str value =>
    simp only [Json.str.injEq]
    split_ifs with h
    · simp [h]
    · simp [h]
  | _ => simp

theorem requiredText_trimmed {data : Fields} {key text : Str} (h : requiredText data key = .ok text) :
    text ≠ [] ∧ Str.Trimmed text := by
  obtain ⟨value, -, hne, rfl⟩ := requiredText_ok_iff.mp h
  exact ⟨hne, Str.strip_trimmed value⟩

theorem number_bounds {data : Fields} {key : Str} {minimum maximum : Option Bound} {q : ℚ}
    (h : number data key minimum maximum = .ok q) :
    (∀ b, minimum = some b → b.value ≤ q) ∧ ∀ b, maximum = some b → q ≤ b.value := by
  rw [number, Except.bind_ok_iff] at h
  obtain ⟨x, -, hx⟩ := h
  unfold withinBounds at hx
  split at hx
  · split_ifs at hx with hmin hmax
    obtain rfl := Except.ok.inj hx
    refine ⟨fun b hb => ?_, fun b hb => ?_⟩
    · rw [hb, Option.any_some, decide_eq_true_eq] at hmin
      exact not_lt.mp hmin
    · rw [hb, Option.any_some, decide_eq_true_eq] at hmax
      exact not_lt.mp hmax
  · exact absurd hx Except.error_ne_ok

theorem integer_bound {data : Fields} {key : Str} {minimum n : ℤ} (h : integer data key (some minimum) = .ok n) :
    minimum ≤ n := by
  unfold integer at h
  split at h
  · split_ifs at h with hmin
    obtain rfl := Except.ok.inj h
    rw [Option.any_some, decide_eq_true_eq] at hmin
    exact not_lt.mp hmin
  · exact absurd h Except.error_ne_ok

/-- The values of an accepted device that have bounds. -/
structure DeviceConfig.Bounded (device : DeviceConfig) : Prop where
  rate : 1 ≤ device.dataRateBps
  delay : 0 ≤ device.delayMs
  loss : 0 ≤ device.lossRate ∧ device.lossRate ≤ 1

theorem DeviceConfig.bounded {raw : Json} {device : DeviceConfig} (h : DeviceConfig.fromDict raw = .ok device) :
    device.Bounded := by
  cases raw with
  | obj data =>
    simp only [DeviceConfig.fromDict, Except.bind_ok_iff, Except.pure_ok_iff] at h
    obtain ⟨_, -, _, -, _, -, _, -, rate, hrate, delay, hdelay, loss, hloss, rfl⟩ := h
    exact ⟨integer_bound hrate, (number_bounds hdelay).1 zeroBound rfl, (number_bounds hloss).1 zeroBound rfl,
      (number_bounds hloss).2 oneBound rfl⟩
  | _ => cases h

theorem EntityState.devices_bounded {data : Fields} {entity : EntityState} (h : EntityState.ofFields data = .ok entity) :
    ∀ device ∈ entity.devices, device.Bounded := by
  simp only [EntityState.ofFields, Except.bind_ok_iff, Except.pure_ok_iff, Except.mapM_ok_iff] at h
  obtain ⟨_, -, _, -, _, -, _, -, _, -, _, -, _, -, _, -, devices, hdevices, _, -, rfl⟩ := h
  intro device hdevice
  obtain ⟨raw, -, hraw⟩ := hdevices.exists_left hdevice
  exact DeviceConfig.bounded hraw

/-- The values of an accepted flow that have bounds. -/
structure FlowConfig.Bounded (flow : FlowConfig) : Prop where
  packetSize : 64 ≤ flow.packetSizeBytes
  interval : 1 ≤ flow.intervalMs
  duration : 100 ≤ flow.durationMs

theorem FlowConfig.bounded {data : Fields} {flow : FlowConfig} (h : FlowConfig.ofFields data = .ok flow) :
    flow.Bounded := by
  simp only [FlowConfig.ofFields, Except.bind_ok_iff, Except.pure_ok_iff] at h
  obtain ⟨_, -, _, -, _, -, _, -, _, hsize, _, hinterval, _, hduration, rfl⟩ := h
  exact ⟨integer_bound hsize, integer_bound hinterval, integer_bound hduration⟩

theorem EntityState.entityId_of_ofFields {data : Fields} {entity : EntityState}
    (h : EntityState.ofFields data = .ok entity) : requiredText data (str "entity_id") = .ok entity.entityId := by
  simp only [EntityState.ofFields, Except.bind_ok_iff, Except.pure_ok_iff] at h
  obtain ⟨_, -, _, -, id, hid, _, -, _, -, _, -, _, -, _, -, _, -, _, -, rfl⟩ := h
  exact hid

theorem FlowConfig.flowId_of_ofFields {data : Fields} {flow : FlowConfig}
    (h : FlowConfig.ofFields data = .ok flow) : requiredText data (str "flow_id") = .ok flow.flowId := by
  simp only [FlowConfig.ofFields, Except.bind_ok_iff, Except.pure_ok_iff] at h
  obtain ⟨_, -, id, hid, _, -, _, -, _, -, _, -, _, -, rfl⟩ := h
  exact hid

end AfsimNs3.Bridge
