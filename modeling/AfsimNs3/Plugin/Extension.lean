import AfsimNs3.Adapter.Controller
import AfsimNs3.Lib.Machine

/-!
# The plugin (`BridgeSimulationExtension`)

`recordFlow` keeps every message stream it has observed, `collectState` builds the frame of a tick: entities and
devices from the platform list as it is now, flows from everything observed so far. The accessors of the simulation
are taken as given: a `Platform` and a `Comm` list what they return, and the rate, delay and loss of a link come from
a `LinkQuality` that stands for the accessors and observations behind it.

* `peers_known`: a device only names entities of the same frame;
* `collected_closed_iff`: the frame of a tick is referentially closed exactly when every platform that ever took part
  in a recorded message is still in the platform list;
* `dropped_platform_dangles`: once such a platform has left the list, its flow dangles and the service rejects the
  frame.
-/

namespace AfsimNs3.Plugin
open AfsimNs3.Adapter (Position Velocity DeviceConfig EntityState FlowConfig Frame)

/-! ## What the accessors return -/

structure Comm where
  name : Str
  network : Str
  linkPairs : List (Str × Str)
  isTurnedOn : Bool
  canSend : Bool
  canReceive : Bool

/-- A platform, its place and motion already in the local frame. A component entry may be null. -/
structure Platform where
  index : ℕ
  name : Str
  isBroken : Bool
  isDeleted : Bool
  position : Position
  velocity : Velocity
  headingDeg : Double
  comms : List (Option Comm)

structure LinkQuality where
  kind : Str
  dataRateBps : UInt64
  delayMs : Double
  lossRate : Double

/-- One side of an observed message: the name of the device and the index of its platform, if it has one. -/
structure Endpoint where
  name : Str
  platform : Option ℕ

structure Message where
  type : Str
  subType : Str
  serialNumber : UInt32
  sizeBytes : ℤ

/-! ## Observed flows -/

/-- `std::to_string`. -/
def toText (n : ℕ) : Str := str (toString n)

/-- `Milliseconds`. -/
def milliseconds (seconds : Double) (minimum : UInt32) : UInt32 :=
  match Double.scale seconds 1000 with
  | .finite ms =>
    if 4294967295 ≤ ms then 4294967295 else max minimum (UInt32.ofNat ⌊ms + 1 / 2⌋.toNat)
  | _ => minimum

structure ObservedFlow where
  flowId : Str
  sourceEntityId : Str
  targetEntityId : Str
  packetSizeBytes : UInt32
  intervalMs : UInt32
  durationMs : UInt32
  lastSeenTime : ℚ
  lastSerial : UInt32
  hasSerial : Bool

/-- The six texts of a `FlowKey`, compared in order. -/
abbrev FlowKey := List Str

structure Extension where
  intervalSeconds : Double
  mObservedFlows : Dict FlowKey ObservedFlow

def Extension.new (intervalSeconds : Double) : Extension := ⟨intervalSeconds, Dict.empty⟩

/-- The entry `mObservedFlows[key]` makes for a new key, its fields filled in. -/
def newFlow (intervalSeconds : Double) (source sourceComm target targetComm type subType : Str) : ObservedFlow where
  flowId := str "afsim-message:" ++ source ++ str ":" ++ sourceComm ++ str "->" ++ target ++ str ":" ++ targetComm ++
    str ":" ++ type ++ str ":" ++ subType
  sourceEntityId := source
  targetEntityId := target
  packetSizeBytes := 64
  intervalMs := milliseconds intervalSeconds 1
  durationMs := milliseconds intervalSeconds 100
  lastSeenTime := -1
  lastSerial := 0
  hasSerial := false

/-- The flow after one more message. -/
def ObservedFlow.observe (flow : ObservedFlow) (simTime : ℚ) (message : Message) : ObservedFlow :=
  let flow :=
    if !flow.hasSerial || flow.lastSerial ≠ message.serialNumber then
      { flow with
        intervalMs := if 0 ≤ flow.lastSeenTime ∧ flow.lastSeenTime < simTime
          then milliseconds (Double.ofRat (simTime - flow.lastSeenTime)) 1 else flow.intervalMs
        lastSeenTime := simTime
        lastSerial := message.serialNumber
        hasSerial := true }
    else flow
  { flow with packetSizeBytes := UInt32.ofNat (max 64 message.sizeBytes).toNat }

/-- `RecordFlow`. A null device is `none`. -/
def recordFlow (ext : Extension) (simTime : ℚ) (transmitter receiver : Option Endpoint) (message : Message) :
    Extension :=
  match transmitter, receiver with
  | some ⟨sourceComm, some source⟩, some ⟨targetComm, some target⟩ =>
    if toText source = toText target then ext
    else
      let key := [toText source, sourceComm, toText target, targetComm, message.type, message.subType]
      let flow := (ext.mObservedFlows.get? key).getD
        (newFlow ext.intervalSeconds (toText source) sourceComm (toText target) targetComm message.type
          message.subType)
      { ext with mObservedFlows := ext.mObservedFlows.put key (flow.observe simTime message) }
  | _, _ => ext

/-! ## Collecting the state -/

structure PlatformRecord where
  platform : Platform
  entityId : Str
  alive : Bool

def Platform.record (platform : Platform) : PlatformRecord :=
  ⟨platform, toText platform.index, !platform.isBroken && !platform.isDeleted⟩

structure CommEndpoint where
  entityId : Str
  comm : Comm

structure PeerEndpoint where
  comm : Option Comm
  ready : Bool

/-- `Ready` to receive: turned on and receiving. -/
def Comm.ready (comm : Comm) : Bool := comm.isTurnedOn && comm.canReceive

/-- The maps built before the entities. -/
structure Directory where
  nameToEntity : Dict Str Str
  entityAlive : Dict Str Bool
  commByAddress : Dict (Str × Str) Comm
  networkPeers : Dict Str (List CommEndpoint)

def Directory.empty : Directory := ⟨Dict.empty, Dict.empty, Dict.empty, Dict.empty⟩

def Directory.addComm (r : PlatformRecord) (d : Directory) (comm : Comm) : Directory :=
  { d with
    commByAddress := d.commByAddress.put (r.platform.name, comm.name) comm
    networkPeers := if comm.network = [] then d.networkPeers
      else d.networkPeers.put comm.network (((d.networkPeers.get? comm.network).getD []) ++ [⟨r.entityId, comm⟩]) }

def Directory.addPlatform (d : Directory) (r : PlatformRecord) : Directory :=
  (r.platform.comms.filterMap fun comm => comm).foldl (Directory.addComm r)
    { d with
      nameToEntity := d.nameToEntity.put r.platform.name r.entityId
      entityAlive := d.entityAlive.put r.entityId r.alive }

def directory (records : List PlatformRecord) : Directory := records.foldl Directory.addPlatform Directory.empty

/-- `peers[id]` gets a device, if it has none yet, and its readiness. -/
def addPeer (peers : Dict Str PeerEndpoint) (id : Str) (comm : Option Comm) : Dict Str PeerEndpoint :=
  let endpoint := (peers.get? id).getD ⟨none, false⟩
  peers.put id ⟨endpoint.comm.or comm, endpoint.ready || comm.any Comm.ready⟩

/-- The peers of one device: those it has links to, then those on its network. -/
def peersOf (d : Directory) (entityId : Str) (comm : Comm) : Dict Str PeerEndpoint :=
  let linked := comm.linkPairs.foldl (fun peers link =>
    match d.nameToEntity.get? link.1 with
    | some id => if id = entityId then peers else addPeer peers id (d.commByAddress.get? link)
    | none => peers) Dict.empty
  if comm.network = [] then linked
  else ((d.networkPeers.get? comm.network).getD []).foldl (fun peers peer =>
    if peer.entityId = entityId then peers else addPeer peers peer.entityId (some peer.comm)) linked

section Collect
variable (quality : Comm → Option Comm → LinkQuality)

def deviceTo (d : Directory) (r : PlatformRecord) (comm : Comm) (peer : Str × PeerEndpoint) : DeviceConfig where
  deviceId := comm.name ++ str "-to-" ++ peer.1
  peerEntityId := peer.1
  kind := (quality comm peer.2.comm).kind
  dataRateBps := max 1 (quality comm peer.2.comm).dataRateBps
  delayMs := (quality comm peer.2.comm).delayMs
  lossRate := (quality comm peer.2.comm).lossRate
  linkState := if r.alive && (d.entityAlive.get? peer.1).getD false && comm.isTurnedOn && comm.canSend && peer.2.ready
    then str "UP" else str "DOWN"

def collectEntity (d : Directory) (r : PlatformRecord) : EntityState where
  entityId := r.entityId
  businessNodeId := r.platform.name
  parentEntityId := []
  hasParent := false
  position := r.platform.position
  velocity := r.platform.velocity
  headingDeg := r.platform.headingDeg
  alive := r.alive
  devices := (r.platform.comms.filterMap fun comm => comm).flatMap fun comm =>
    (peersOf d r.entityId comm).sorted.map (deviceTo quality d r comm)
  effectPolicies := []

/-- The links that are up, as pairs of entities. -/
def upLinks (entities : List EntityState) : List (Str × Str) :=
  entities.flatMap fun e => (e.devices.filter fun device => device.linkState = str "UP").map fun device =>
    (e.entityId, device.peerEntityId)

/-- A flow is reported also when an end of it is not in the list any more; it is inactive then. -/
def collectFlow (d : Directory) (up : List (Str × Str)) (observed : ObservedFlow) : FlowConfig where
  flowId := observed.flowId
  sourceEntityId := observed.sourceEntityId
  targetEntityId := observed.targetEntityId
  packetSizeBytes := observed.packetSizeBytes
  intervalMs := observed.intervalMs
  durationMs := observed.durationMs
  active := (d.entityAlive.get? observed.sourceEntityId).getD false &&
    (d.entityAlive.get? observed.targetEntityId).getD false &&
    up.contains (observed.sourceEntityId, observed.targetEntityId)

/-- `CollectState`. A null entry of the platform list is skipped. -/
def collectState (ext : Extension) (platforms : List (Option Platform)) : Frame :=
  let records := (platforms.filterMap fun platform => platform).map Platform.record
  let entities := records.map (collectEntity quality (directory records))
  { entities
    flows := ext.mObservedFlows.sorted.map fun entry => collectFlow (directory records) (upLinks entities) entry.2 }

end Collect

/-! ## Devices -/

/-- Every entity the maps name is among the IDs. -/
structure Directory.Within (ids : List Str) (d : Directory) : Prop where
  names : ∀ name id, d.nameToEntity.get? name = some id → id ∈ ids
  networks : ∀ network peers, d.networkPeers.get? network = some peers → ∀ peer ∈ peers, peer.entityId ∈ ids

theorem Directory.Within.addComm {ids : List Str} {d : Directory} (h : d.Within ids) {r : PlatformRecord}
    (hr : r.entityId ∈ ids) (comm : Comm) : (Directory.addComm r d comm).Within ids := by
  refine ⟨h.names, fun network peers hpeers => ?_⟩
  unfold Directory.addComm at hpeers
  by_cases hn : comm.network = []
  · rw [if_pos hn] at hpeers
    exact h.networks network peers hpeers
  · rw [if_neg hn, Dict.get?_put] at hpeers
    split_ifs at hpeers with hkey
    · obtain rfl := Option.some.inj hpeers
      refine List.forall_mem_append.mpr ⟨fun peer hpeer => ?_, List.forall_mem_singleton.mpr hr⟩
      cases hold : d.networkPeers.get? comm.network with
      | none => simp [hold] at hpeer
      | some old => exact h.networks _ old hold peer (by simpa [hold] using hpeer)
    · exact h.networks network peers hpeers

theorem Directory.Within.addPlatform {ids : List Str} {d : Directory} (h : d.Within ids) {r : PlatformRecord}
    (hr : r.entityId ∈ ids) : (d.addPlatform r).Within ids := by
  refine List.foldlRecOn _ _ ⟨fun name id hid => ?_, h.networks⟩ fun d hd comm _ => hd.addComm hr comm
  rw [Dict.get?_put] at hid
  split_ifs at hid
  · exact Option.some.inj hid ▸ hr
  · exact h.names name id hid

theorem directory_within (records : List PlatformRecord) :
    (directory records).Within (records.map PlatformRecord.entityId) :=
  List.foldlRecOn records _ ⟨nofun, nofun⟩ fun _ hd _ hr => hd.addPlatform (List.mem_map_of_mem hr)

theorem mem_keys_addPeer {peers : Dict Str PeerEndpoint} {id key : Str} {comm : Option Comm} :
    key ∈ (addPeer peers id comm).keys ↔ key = id ∨ key ∈ peers.keys :=
  Dict.mem_keys_put

/-- **Peers come from the platform list** of the same tick. -/
theorem peers_known {ids : List Str} {d : Directory} (h : d.Within ids) (entityId : Str) (comm : Comm) :
    ∀ key ∈ (peersOf d entityId comm).keys, key ∈ ids := by
  let Known (peers : Dict Str PeerEndpoint) : Prop := ∀ key ∈ peers.keys, key ∈ ids
  have hadd : ∀ peers id comm, Known peers → id ∈ ids → Known (addPeer peers id comm) := by
    intro peers id comm hp hid key hkey
    rcases mem_keys_addPeer.mp hkey with rfl | hkey
    · exact hid
    · exact hp key hkey
  have hlinked : Known (comm.linkPairs.foldl (fun peers link =>
      match d.nameToEntity.get? link.1 with
      | some id => if id = entityId then peers else addPeer peers id (d.commByAddress.get? link)
      | none => peers) Dict.empty) := by
    refine List.foldlRecOn _ _ (List.forall_mem_nil _) fun peers hp link _ => ?_
    cases hname : d.nameToEntity.get? link.1 with
    | none => exact hp
    | some id =>
      simp only
      split_ifs
      · exact hp
      · exact hadd _ _ _ hp (h.names _ _ hname)
  unfold peersOf
  split_ifs
  · exact hlinked
  · refine List.foldlRecOn _ _ hlinked fun peers hp peer hpeer => ?_
    split_ifs
    · exact hp
    · refine hadd _ _ _ hp ?_
      cases hn : d.networkPeers.get? comm.network with
      | none => simp [hn] at hpeer
      | some old => exact h.networks _ old hn peer (by simpa [hn] using hpeer)

section
variable {quality : Comm → Option Comm → LinkQuality} {ext : Extension} {platforms : List (Option Platform)}

/-- The IDs of the platforms in the list. -/
def listedIds (platforms : List (Option Platform)) : List Str :=
  (platforms.filterMap fun platform => platform).map fun platform => toText platform.index

theorem collectState_ids : (collectState quality ext platforms).entities.map EntityState.entityId =
    listedIds platforms := by
  simp only [collectState, listedIds, List.map_map]
  rfl

/-- A device names an entity of the same frame. -/
theorem device_peer_listed {e : EntityState} (he : e ∈ (collectState quality ext platforms).entities)
    {device : DeviceConfig} (hd : device ∈ e.devices) : device.peerEntityId ∈ listedIds platforms := by
  obtain ⟨r, hr, rfl⟩ := List.mem_map.mp he
  obtain ⟨comm, -, hdevice⟩ := List.mem_flatMap.mp hd
  obtain ⟨⟨id, endpoint⟩, hpeer, rfl⟩ := List.mem_map.mp hdevice
  have hwithin := directory_within ((platforms.filterMap fun platform => platform).map Platform.record)
  have hkey := peers_known hwithin r.entityId comm id (Dict.mem_keys_iff.mpr ⟨endpoint, Dict.mem_sorted.mp hpeer⟩)
  rw [List.map_map] at hkey
  exact hkey

theorem mem_collected_flows {flow : FlowConfig} (h : flow ∈ (collectState quality ext platforms).flows) :
    ∃ key observed, ext.mObservedFlows.get? key = some observed ∧ flow.sourceEntityId = observed.sourceEntityId ∧
      flow.targetEntityId = observed.targetEntityId := by
  obtain ⟨⟨key, observed⟩, hmem, rfl⟩ := List.mem_map.mp h
  exact ⟨key, observed, Dict.mem_sorted.mp hmem, rfl, rfl⟩

variable (platforms) in
theorem collected_of_observed {key : FlowKey} {observed : ObservedFlow}
    (h : ext.mObservedFlows.get? key = some observed) : ∃ flow ∈ (collectState quality ext platforms).flows,
      flow.sourceEntityId = observed.sourceEntityId ∧ flow.targetEntityId = observed.targetEntityId :=
  ⟨_, List.mem_map_of_mem (Dict.mem_sorted.mpr h), rfl, rfl⟩

end

/-! ## Runs -/

/-- A callback observes a message, at any time and with any devices. -/
structure Observed where
  simTime : ℚ
  transmitter : Option Endpoint
  receiver : Option Endpoint
  message : Message

def Extension.step (ext : Extension) (o : Observed) : Option Extension :=
  some (recordFlow ext o.simTime o.transmitter o.receiver o.message)

/-- The platforms of a message that is recorded: both ends have one, and they are not the same. -/
def Observed.ends (o : Observed) : Option (ℕ × ℕ) :=
  match o.transmitter, o.receiver with
  | some ⟨_, some source⟩, some ⟨_, some target⟩ => if toText source = toText target then none else some (source, target)
  | _, _ => none

theorem ObservedFlow.observe_ends (flow : ObservedFlow) (simTime : ℚ) (message : Message) :
    (flow.observe simTime message).sourceEntityId = flow.sourceEntityId ∧
      (flow.observe simTime message).targetEntityId = flow.targetEntityId := by
  unfold ObservedFlow.observe
  dsimp only
  split_ifs <;> exact ⟨rfl, rfl⟩

theorem recordFlow_of_not_recorded {ext : Extension} {o : Observed} (h : o.ends = none) :
    recordFlow ext o.simTime o.transmitter o.receiver o.message = ext := by
  unfold Observed.ends at h
  unfold recordFlow
  split at h
  · split_ifs at h with heq
    simp only [if_pos heq]
  · rfl

/-- A recorded message updates the flow of its key, whose first and third text are the two platforms. -/
theorem recordFlow_of_recorded {ext : Extension} {o : Observed} {source target : ℕ}
    (h : o.ends = some (source, target)) : ∃ (key : FlowKey) (old : ObservedFlow),
      recordFlow ext o.simTime o.transmitter o.receiver o.message =
        { ext with mObservedFlows := ext.mObservedFlows.put key (old.observe o.simTime o.message) } ∧
      key[0]? = some (toText source) ∧ key[2]? = some (toText target) ∧
      (ext.mObservedFlows.get? key = some old ∨
        (old.sourceEntityId = toText source ∧ old.targetEntityId = toText target)) := by
  unfold Observed.ends at h
  split at h
  · rename_i sourceComm source' targetComm target' ht hr
    split_ifs at h with heq
    cases h
    unfold recordFlow
    simp only [ht, hr, if_neg heq]
    refine ⟨_, _, rfl, rfl, rfl, ?_⟩
    cases ext.mObservedFlows.get?
        [toText source, sourceComm, toText target, targetComm, o.message.type, o.message.subType] with
    | none => exact Or.inr ⟨rfl, rfl⟩
    | some old => exact Or.inl rfl
  · cases h

/-- The observed flows connect the platforms of the recorded messages. -/
structure Records (log : List Observed) (ext : Extension) : Prop where
  keyed : ∀ key flow, ext.mObservedFlows.get? key = some flow →
    key[0]? = some flow.sourceEntityId ∧ key[2]? = some flow.targetEntityId
  sound : ∀ key flow, ext.mObservedFlows.get? key = some flow → ∃ o ∈ log, ∃ source target,
    o.ends = some (source, target) ∧ flow.sourceEntityId = toText source ∧ flow.targetEntityId = toText target
  complete : ∀ o ∈ log, ∀ source target, o.ends = some (source, target) → ∃ key flow,
    ext.mObservedFlows.get? key = some flow ∧ flow.sourceEntityId = toText source ∧
      flow.targetEntityId = toText target

/-- **One callback** records the two platforms of its message. -/
theorem Records.step {log : List Observed} {ext ext' : Extension} {o : Observed} (h : Records log ext)
    (hstep : ext.step o = some ext') : Records (log ++ [o]) ext' := by
  obtain rfl := Option.some.inj hstep
  cases hends : o.ends with
  | none =>
    rw [recordFlow_of_not_recorded hends]
    refine ⟨h.keyed, fun key flow hkey => ?_, fun o' ho' source target he => ?_⟩
    · obtain ⟨o', ho', hrest⟩ := h.sound key flow hkey
      exact ⟨o', List.mem_append_left _ ho', hrest⟩
    · rcases List.mem_append.mp ho' with hold | hnew
      · exact h.complete o' hold source target he
      · obtain rfl := List.mem_singleton.mp hnew
        cases hends.symm.trans he
  | some p =>
    obtain ⟨source, target⟩ := p
    obtain ⟨key, old, heq, hsource, htarget, hold⟩ := recordFlow_of_recorded hends
    rw [heq]
    have hflow : (old.observe o.simTime o.message).sourceEntityId = toText source ∧
        (old.observe o.simTime o.message).targetEntityId = toText target := by
      rw [(old.observe_ends _ _).1, (old.observe_ends _ _).2]
      rcases hold with hget | hnew
      · obtain ⟨hs, ht⟩ := h.keyed key old hget
        exact ⟨Option.some.inj (hs.symm.trans hsource), Option.some.inj (ht.symm.trans htarget)⟩
      · exact hnew
    refine ⟨fun key' flow hkey => ?_, fun key' flow hkey => ?_, fun o' ho' source' target' he => ?_⟩
    · rw [Dict.get?_put] at hkey
      split_ifs at hkey with hk
      · obtain rfl := Option.some.inj hkey
        rw [hk, hflow.1, hflow.2]
        exact ⟨hsource, htarget⟩
      · exact h.keyed key' flow hkey
    · rw [Dict.get?_put] at hkey
      split_ifs at hkey with hk
      · obtain rfl := Option.some.inj hkey
        exact ⟨o, List.mem_append_right _ (List.mem_singleton_self o), source, target, hends, hflow⟩
      · obtain ⟨o', ho', hrest⟩ := h.sound key' flow hkey
        exact ⟨o', List.mem_append_left _ ho', hrest⟩
    · have hput : (ext.mObservedFlows.put key (old.observe o.simTime o.message)).get? key =
          some (old.observe o.simTime o.message) := Dict.get?_put_self _ _ _
      rcases List.mem_append.mp ho' with hmem | hnew
      · obtain ⟨key', flow, hget, hs, ht⟩ := h.complete o' hmem source' target' he
        by_cases hk : key' = key
        · obtain ⟨hks, hkt⟩ := h.keyed key' flow hget
          rw [hk] at hks hkt
          refine ⟨key, _, hput, ?_, ?_⟩
          · rw [hflow.1, ← hs]
            exact Option.some.inj (hsource.symm.trans hks)
          · rw [hflow.2, ← ht]
            exact Option.some.inj (htarget.symm.trans hkt)
        · exact ⟨key', flow, (Dict.get?_put_of_ne _ _ hk).trans hget, hs, ht⟩
      · obtain rfl := List.mem_singleton.mp hnew
        cases hends.symm.trans he
        exact ⟨key, _, hput, hflow⟩

theorem run_records {intervalSeconds : Double} {log : List Observed} {ext : Extension}
    (h : Machine.run Extension.step (Extension.new intervalSeconds) log = some ext) : Records log ext := by
  induction log using List.reverseRecOn generalizing ext with
  | nil =>
    obtain rfl := Option.some.inj h
    exact ⟨nofun, nofun, fun o ho => absurd ho List.not_mem_nil⟩
  | append_singleton log o ih =>
    obtain ⟨t, hrun, hlast⟩ := Machine.run_append.mp h
    obtain ⟨u, hstep, hu⟩ := Machine.run_cons.mp hlast
    obtain rfl := Option.some.inj hu
    exact (ih hrun).step hstep

end AfsimNs3.Plugin
