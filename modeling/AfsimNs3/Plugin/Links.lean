import AfsimNs3.Lib.Pass
import AfsimNs3.Plugin.Messaging
import AfsimNs3.Plugin.RuntimeConfig

/-!
# Links as they are reported

`collectState` once more, down to the devices: where the rate, the delay and the loss of a link come from, and what is
forgotten when they are read. `LinkQuality`, which `Plugin.collectState` takes as given, is computed here.

* `link_collectState`: what a tick does to the observation of each link;
* `entry_of_mem`: where the entries of a frame come from;
* `collectState_alike`: apart from the qualities of the links, the frame is the one of `Plugin.collectState`.
-/

namespace AfsimNs3.Plugin
open AfsimNs3.Adapter (DeviceConfig EntityState FlowConfig Frame)

/-! ## Devices -/

/-- The last draws of a guided mode. -/
structure ModeGuided where
  delayTime : Double
  propagationSpeed : Double

/-- A medium by its identifier; the current mode of a guided one may be of another class. -/
inductive Medium where
  | guided (mode : Option ModeGuided)
  | unguided
  | other

/-- A device, with what its medium, its physical layer and its statistics return. -/
structure Device extends Comm where
  address : ℕ
  medium : Option Medium
  transferRate : Option Double
  lastDataRate : Double

/-- A platform whose components are known as devices. -/
structure Equipped extends Platform where
  devices : List (Option Device)
  comms_eq : comms = devices.map (Option.map Device.toComm)

/-- The simulation at a tick: its platforms, and the distance of two devices whose platforms are known. -/
structure Scene where
  simTime : ℚ
  platforms : List (Option Equipped)
  distance : ℕ → ℕ → Option Double

def Scene.listed (scene : Scene) : List Equipped := scene.platforms.filterMap fun platform => platform

def Equipped.present (platform : Equipped) : List Device := platform.devices.filterMap fun device => device

def Equipped.record (platform : Equipped) : PlatformRecord := platform.toPlatform.record

def Scene.directory (scene : Scene) : Directory := Plugin.directory (scene.listed.map Equipped.record)

/-! ## Peers -/

structure DeviceEndpoint where
  entityId : Str
  device : Device

structure PeerDevice where
  device : Option Device
  ready : Bool

/-- The two maps of the `Directory` that hold devices. -/
structure DeviceMaps where
  commByAddress : Dict (Str × Str) Device
  networkPeers : Dict Str (List DeviceEndpoint)

namespace DeviceMaps

def empty : DeviceMaps := ⟨Dict.empty, Dict.empty⟩

def addDevice (r : PlatformRecord) (maps : DeviceMaps) (device : Device) : DeviceMaps where
  commByAddress := maps.commByAddress.put (r.platform.name, device.name) device
  networkPeers := if device.network = [] then maps.networkPeers
    else maps.networkPeers.put device.network
      (((maps.networkPeers.get? device.network).getD []) ++ [⟨r.entityId, device⟩])

def addPlatform (maps : DeviceMaps) (platform : Equipped) : DeviceMaps :=
  platform.present.foldl (addDevice platform.record) maps

end DeviceMaps

def Scene.deviceMaps (scene : Scene) : DeviceMaps := scene.listed.foldl DeviceMaps.addPlatform DeviceMaps.empty

def addPeerDevice (peers : Dict Str PeerDevice) (id : Str) (device : Option Device) : Dict Str PeerDevice :=
  let endpoint := (peers.get? id).getD ⟨none, false⟩
  peers.put id ⟨endpoint.device.or device, endpoint.ready || device.any fun device => device.ready⟩

/-- The peers of one device: those it has links to, then those on its network. -/
def peerDevices (names : Dict Str Str) (maps : DeviceMaps) (entityId : Str) (device : Device) : Dict Str PeerDevice :=
  let linked := device.linkPairs.foldl (fun peers link =>
    match names.get? link.1 with
    | some id => if id = entityId then peers else addPeerDevice peers id (maps.commByAddress.get? link)
    | none => peers) Dict.empty
  if device.network = [] then linked
  else ((maps.networkPeers.get? device.network).getD []).foldl (fun peers peer =>
    if peer.entityId = entityId then peers else addPeerDevice peers peer.entityId (some peer.device)) linked

/-! ## What is remembered of a link -/

/-- The fields of a `LinkObservation` that only `CollectState` reads and writes. -/
structure LinkMemory where
  lastDelayMs : Double
  lastLossRate : Double
  hasDelay : Bool
  hasLoss : Bool

def LinkMemory.initial : LinkMemory := ⟨.finite 0, .finite 0, false, false⟩

structure LinkState where
  observation : LinkObservation
  memory : LinkMemory

def lossRate (losses : UInt64 × UInt64) : Double :=
  ((Double.ofRat losses.2.toNat).quotient (Double.ofRat losses.1.toNat)).atMost 1

def meanDelayMs (delays : Double × UInt64) : Double := delays.1.quotient (Double.ofRat delays.2.toNat)

namespace LinkState

def initial : LinkState := ⟨LinkObservation.initial, LinkMemory.initial⟩

def readLoss (link : LinkState) : LinkState :=
  if 0 < link.observation.completed then
    { observation := { link.observation with completed := 0, failures := 0 }
      memory := { link.memory with lastLossRate := lossRate link.observation.losses, hasLoss := true } }
  else link

def readDelay (link : LinkState) : LinkState :=
  if 0 < link.observation.delaySamples then
    { observation := { link.observation with delayTotalMs := .finite 0, delaySamples := 0 }
      memory := { link.memory with lastDelayMs := meanDelayMs link.observation.delays, hasDelay := true } }
  else link

def read (link : LinkState) : LinkState := link.readLoss.readDelay

end LinkState

structure SimulationExtension where
  books : Bookkeeping
  mLinkMemory : Dict LinkKey LinkMemory
  mConfiguredDataRates : Dict ℕ UInt64

def SimulationExtension.new (config : RuntimeConfig) : SimulationExtension :=
  ⟨Bookkeeping.new config.intervalSeconds, Dict.empty, Dict.empty⟩

/-! ## The accessors behind a link -/

section
variable (wsf : Wsf) (config : RuntimeConfig) (scene : Scene)

/-- `GuidedMode`. -/
def guidedMode (device : Device) : Option ModeGuided :=
  match device.medium with
  | some (.guided mode) => mode
  | _ => none

/-- `NativeGuidedDelayMs`. -/
def nativeGuidedDelayMs (transmitter : Device) (receiver : Option Device) : Double :=
  match guidedMode transmitter with
  | none => .finite (-1)
  | some mode =>
    let delaySeconds := mode.delayTime.nonnegative
    let distance := receiver.bind fun receiver => scene.distance transmitter.address receiver.address
    let delaySeconds := if mode.propagationSpeed.above 0
      then match distance with
        | some distance => delaySeconds.add (distance.quotient mode.propagationSpeed)
        | none => delaySeconds
      else delaySeconds
    (delaySeconds.scale 1000).nonnegative

/-- `ConfiguredDelayMs`. -/
def configuredDelayMs (transmitter : Device) (receiver : Option Device) : Double :=
  if config.delayOverride then config.defaultDelayMs
  else
    let nativeDelayMs := nativeGuidedDelayMs scene transmitter receiver
    if nativeDelayMs = .finite 0 ∨ nativeDelayMs.above 0 then nativeDelayMs else config.defaultDelayMs

/-- `LinkKind`. -/
def linkKind (device : Device) : Str :=
  match device.medium with
  | some (.guided _) => str "wired"
  | some .unguided => str "wireless"
  | _ => if config.linkKind = ascii "wired" then str "wired" else str "wireless"

/-- A finite rate above zero as an integer, or the fallback. -/
def positiveRate (rate : Double) (fallback : UInt64) : UInt64 :=
  match rate with
  | .finite rate => if 0 < rate then wsf.rateBps rate else fallback
  | _ => fallback

namespace SimulationExtension

def link (s : SimulationExtension) (key : LinkKey) : LinkState :=
  ⟨s.books.observation key, (s.mLinkMemory.get? key).getD LinkMemory.initial⟩

def setLink (s : SimulationExtension) (key : LinkKey) (link : LinkState) : SimulationExtension :=
  { s with
    books := s.books.setObservation key link.observation
    mLinkMemory := s.mLinkMemory.put key link.memory }

/-- `ConfiguredDataRate`: the rate is drawn once for a device. -/
def configuredDataRate (s : SimulationExtension) (device : Device) : SimulationExtension × UInt64 :=
  match s.mConfiguredDataRates.get? device.address with
  | some rate => (s, rate)
  | none =>
    let configured := max 1 <| match device.transferRate with
      | some rate => positiveRate wsf rate config.defaultDataRateBps
      | none => config.defaultDataRateBps
    ({ s with mConfiguredDataRates := s.mConfiguredDataRates.put device.address configured }, configured)

/-! ## Collecting the state -/

/-- What is reported of a link; there is no observation where the peer has no device. -/
def quality (device : Device) (peer : Option Device) (aggregateDataRate : UInt64) (link : Option LinkState) :
    LinkQuality where
  kind := linkKind config device
  dataRateBps := match link with
    | some link => if link.observation.hasDataRate then link.observation.lastDataRateBps else aggregateDataRate
    | none => aggregateDataRate
  delayMs := match link with
    | some link => if link.memory.hasDelay && !config.delayOverride then link.memory.lastDelayMs
      else configuredDelayMs config scene device peer
    | none => configuredDelayMs config scene device peer
  lossRate := match link with
    | some link => if link.memory.hasLoss && !config.lossOverride then link.memory.lastLossRate
      else config.defaultLossRate
    | none => config.defaultLossRate

/-- A device entry as `Plugin.deviceTo` writes it. -/
def deviceEntry (r : PlatformRecord) (device : Device) (peer : Str × PeerDevice) (quality : LinkQuality) :
    DeviceConfig :=
  deviceTo (fun _ _ => quality) scene.directory r device.toComm
    (peer.1, ⟨peer.2.device.map Device.toComm, peer.2.ready⟩)

/-- One peer of a device. Reading the observation of their link forgets what was counted. -/
def visitPeer (r : PlatformRecord) (device : Device) (aggregateDataRate : UInt64) (s : SimulationExtension)
    (peer : Str × PeerDevice) : SimulationExtension × DeviceConfig :=
  match peer.2.device with
  | some remote =>
    let key : LinkKey := (device.address, remote.address)
    let link := (s.link key).read
    (s.setLink key link,
      deviceEntry scene r device peer (quality config scene device peer.2.device aggregateDataRate (some link)))
  | none =>
    (s, deviceEntry scene r device peer (quality config scene device peer.2.device aggregateDataRate none))

def peersFor (r : PlatformRecord) (device : Device) : List (Str × PeerDevice) :=
  (peerDevices scene.directory.nameToEntity scene.deviceMaps r.entityId device).sorted

def collectDevice (r : PlatformRecord) (s : SimulationExtension) (device : Device) :
    SimulationExtension × List DeviceConfig :=
  let configured := s.configuredDataRate wsf config device
  let aggregateDataRate := positiveRate wsf device.lastDataRate configured.2
  pass (visitPeer config scene r device aggregateDataRate) configured.1 (peersFor scene r device)

def collectEntity (s : SimulationExtension) (platform : Equipped) : SimulationExtension × EntityState :=
  let collected := pass (collectDevice wsf config scene platform.record) s platform.present
  (collected.1, {
    entityId := platform.record.entityId
    businessNodeId := platform.name
    parentEntityId := []
    hasParent := false
    position := platform.position
    velocity := platform.velocity
    headingDeg := platform.headingDeg
    alive := platform.record.alive
    devices := collected.2.flatten
    effectPolicies := [] })

def transmitCutoff : Double := (Double.finite scene.simTime).sub ((config.intervalSeconds.scale 5).atLeast 5)

/-- The transmit times from the cutoff on are kept. -/
def forgetTransmitTimes (s : SimulationExtension) : SimulationExtension :=
  { s with books := { s.books with
    mTransmitTimes := s.books.mTransmitTimes.keep fun _ time => !(transmitCutoff config scene).above time } }

/-- `CollectState`. -/
def collectState (s : SimulationExtension) : SimulationExtension × Frame :=
  let collected := pass (collectEntity wsf config scene) s scene.listed
  (collected.1.forgetTransmitTimes config scene, {
    entities := collected.2
    flows := s.books.flows.mObservedFlows.sorted.map fun entry =>
      collectFlow scene.directory (upLinks collected.2) entry.2 })

end SimulationExtension

end

/-! ## The maps of devices and the directory -/

def DeviceEndpoint.toEndpoint (endpoint : DeviceEndpoint) : CommEndpoint := ⟨endpoint.entityId, endpoint.device.toComm⟩

def PeerDevice.toEndpoint (peer : PeerDevice) : PeerEndpoint := ⟨peer.device.map Device.toComm, peer.ready⟩

/-- The directory has the same devices. -/
structure DeviceMaps.Of (d : Directory) (maps : DeviceMaps) : Prop where
  commByAddress : d.commByAddress = maps.commByAddress.mapValues Device.toComm
  networkPeers : d.networkPeers = maps.networkPeers.mapValues (List.map DeviceEndpoint.toEndpoint)

theorem DeviceMaps.Of.addDevice {d : Directory} {maps : DeviceMaps} (h : maps.Of d) (r : PlatformRecord)
    (device : Device) : (DeviceMaps.addDevice r maps device).Of (Directory.addComm r d device.toComm) := by
  refine ⟨?_, ?_⟩
  · show d.commByAddress.put _ _ = (maps.commByAddress.put _ _).mapValues _
    rw [Dict.mapValues_put, h.commByAddress]
  · unfold Directory.addComm DeviceMaps.addDevice
    by_cases hn : device.network = []
    · rw [if_pos hn, if_pos hn]
      exact h.networkPeers
    · rw [if_neg hn, if_neg hn, Dict.mapValues_put, h.networkPeers, Dict.get?_mapValues, List.map_append]
      cases maps.networkPeers.get? device.network <;> rfl

theorem Equipped.comms_present (platform : Equipped) :
    (platform.comms.filterMap fun comm => comm) = platform.present.map Device.toComm := by
  rw [platform.comms_eq, Equipped.present, List.filterMap_map, List.map_filterMap]
  exact List.filterMap_congr fun device _ => by cases device <;> rfl

theorem DeviceMaps.Of.addPlatform {d : Directory} {maps : DeviceMaps} (h : maps.Of d) (platform : Equipped) :
    (maps.addPlatform platform).Of (d.addPlatform platform.record) := by
  unfold Directory.addPlatform DeviceMaps.addPlatform
  have hcomms : (platform.record.platform.comms.filterMap fun comm => comm) = platform.present.map Device.toComm :=
    platform.comms_present
  rw [hcomms, List.foldl_map]
  refine List.foldl_rel (r := fun d maps => DeviceMaps.Of d maps) ⟨h.1, h.2⟩ fun device _ d maps hof => ?_
  exact hof.addDevice platform.record device

theorem Scene.deviceMaps_of (scene : Scene) : scene.deviceMaps.Of scene.directory := by
  unfold Scene.deviceMaps Scene.directory Plugin.directory
  rw [List.foldl_map]
  refine List.foldl_rel (r := fun d maps => DeviceMaps.Of d maps) ⟨rfl, rfl⟩ fun platform _ d maps hof => ?_
  exact hof.addPlatform platform

theorem addPeer_mapValues (peers : Dict Str PeerDevice) (id : Str) (device : Option Device) :
    addPeer (peers.mapValues PeerDevice.toEndpoint) id (device.map Device.toComm) =
      (addPeerDevice peers id device).mapValues PeerDevice.toEndpoint := by
  unfold addPeer addPeerDevice
  rw [Dict.mapValues_put, Dict.get?_mapValues]
  cases peers.get? id with
  | none => cases device <;> rfl
  | some peer =>
    rcases peer with ⟨old, ready⟩
    cases old <;> cases device <;> rfl

/-- **The peers of a device** are the same, device for device. -/
theorem peersOf_eq {d : Directory} {maps : DeviceMaps} (h : maps.Of d) (entityId : Str) (device : Device) :
    peersOf d entityId device.toComm =
      (peerDevices d.nameToEntity maps entityId device).mapValues PeerDevice.toEndpoint := by
  unfold peersOf peerDevices
  dsimp only
  generalize hcomms : List.foldl _ (Dict.empty : Dict Str PeerEndpoint) device.linkPairs = comms
  generalize hdevices : List.foldl _ (Dict.empty : Dict Str PeerDevice) device.linkPairs = devices
  have hlinked : comms = devices.mapValues PeerDevice.toEndpoint := by
    rw [← hcomms, ← hdevices]
    refine List.foldl_rel (r := fun peers peers' => peers = Dict.mapValues PeerDevice.toEndpoint peers') rfl ?_
    rintro link - _ peers rfl
    cases d.nameToEntity.get? link.1 with
    | none => rfl
    | some id =>
      dsimp only
      split_ifs
      · rfl
      · rw [h.commByAddress, Dict.get?_mapValues, addPeer_mapValues]
  rw [hlinked]
  split_ifs
  · rfl
  · have hpeers : (d.networkPeers.get? device.network).getD [] =
        ((maps.networkPeers.get? device.network).getD []).map DeviceEndpoint.toEndpoint := by
      rw [h.networkPeers, Dict.get?_mapValues]
      cases maps.networkPeers.get? device.network <;> rfl
    rw [hpeers, List.foldl_map]
    refine List.foldl_rel (r := fun peers peers' => peers = Dict.mapValues PeerDevice.toEndpoint peers') rfl ?_
    rintro peer - _ peers rfl
    show (if peer.entityId = entityId then _ else addPeer _ _ _) = _
    split_ifs
    · rfl
    · exact addPeer_mapValues peers peer.entityId (some peer.device)

/-! ## The frame, apart from the qualities -/

/-- What a device entry shows apart from the quality of its link. -/
def bareDevice (device : DeviceConfig) : DeviceConfig :=
  { device with kind := [], dataRateBps := 0, delayMs := .nan, lossRate := .nan }

def bareEntity (e : EntityState) : EntityState := { e with devices := e.devices.map bareDevice }

/-- The frames differ in nothing but the qualities of their links. -/
structure Alike (f f' : Frame) : Prop where
  entities : f.entities.map bareEntity = f'.entities.map bareEntity
  flows : f.flows = f'.flows

theorem Alike.entity {f f' : Frame} (h : Alike f f') {e : EntityState} (he : e ∈ f.entities) :
    ∃ e' ∈ f'.entities, bareEntity e = bareEntity e' := by
  have hmem : bareEntity e ∈ f'.entities.map bareEntity := h.entities ▸ List.mem_map_of_mem he
  obtain ⟨e', he', heq⟩ := List.mem_map.mp hmem
  exact ⟨e', he', heq.symm⟩

theorem Alike.ids {f f' : Frame} (h : Alike f f') : f.entities.map EntityState.entityId = f'.entities.map EntityState.entityId := by
  have hids := congrArg (List.map EntityState.entityId) h.entities
  rwa [List.map_map, List.map_map] at hids

/-- What a bare entity still shows. -/
theorem bareEntity_fields {e e' : EntityState} (h : bareEntity e = bareEntity e') :
    (e.hasParent = e'.hasParent ∧ e.parentEntityId = e'.parentEntityId ∧ e.effectPolicies = e'.effectPolicies) ∧
      e.businessNodeId = e'.businessNodeId ∧ e.position = e'.position ∧ e.velocity = e'.velocity ∧
      e.headingDeg = e'.headingDeg :=
  ⟨⟨(congrArg EntityState.hasParent h :), (congrArg EntityState.parentEntityId h :),
    (congrArg EntityState.effectPolicies h :)⟩, (congrArg EntityState.businessNodeId h :),
    (congrArg EntityState.position h :), (congrArg EntityState.velocity h :), (congrArg EntityState.headingDeg h :)⟩

theorem bareEntity_device {e e' : EntityState} (h : bareEntity e = bareEntity e') {device : DeviceConfig}
    (hdevice : device ∈ e.devices) : ∃ device' ∈ e'.devices, device.peerEntityId = device'.peerEntityId := by
  have hdevices : e.devices.map bareDevice = e'.devices.map bareDevice := congrArg EntityState.devices h
  have hmem : bareDevice device ∈ e'.devices.map bareDevice := hdevices ▸ List.mem_map_of_mem hdevice
  obtain ⟨device', hdevice', heq⟩ := List.mem_map.mp hmem
  exact ⟨device', hdevice', (congrArg DeviceConfig.peerEntityId heq).symm⟩

theorem upLinks_bare (entities : List EntityState) : upLinks (entities.map bareEntity) = upLinks entities := by
  unfold upLinks
  rw [List.flatMap_map]
  refine List.flatMap_congr fun e _ => ?_
  show ((e.devices.map bareDevice).filter _).map _ = _
  rw [List.filter_map, List.map_map]
  rfl

namespace SimulationExtension
variable (wsf : Wsf) (config : RuntimeConfig) (scene : Scene)

theorem visitPeer_entry (r : PlatformRecord) (device : Device) (aggregateDataRate : UInt64) (s : SimulationExtension)
    (peer : Str × PeerDevice) : (visitPeer config scene r device aggregateDataRate s peer).2 =
      deviceEntry scene r device peer (quality config scene device peer.2.device aggregateDataRate
        (peer.2.device.map fun remote => (s.link (device.address, remote.address)).read)) := by
  unfold visitPeer
  cases peer.2.device <;> rfl

variable (q : Comm → Option Comm → LinkQuality)

theorem visitPeer_bare (r : PlatformRecord) (device : Device) (aggregateDataRate : UInt64) (s : SimulationExtension)
    (peer : Str × PeerDevice) : bareDevice (visitPeer config scene r device aggregateDataRate s peer).2 =
      bareDevice (deviceTo q scene.directory r device.toComm (peer.1, peer.2.toEndpoint)) := by
  rw [visitPeer_entry]
  rfl

theorem collectDevice_bare (r : PlatformRecord) (s : SimulationExtension) (device : Device) :
    (collectDevice wsf config scene r s device).2.map bareDevice =
      ((peersOf scene.directory r.entityId device.toComm).sorted.map
        (deviceTo q scene.directory r device.toComm)).map bareDevice := by
  unfold collectDevice
  dsimp only
  rw [map_pass (fun s peer _ => visitPeer_bare config scene q r device _ s peer), peersOf_eq scene.deviceMaps_of,
    Dict.sorted_mapValues, List.map_map, List.map_map]
  rfl

theorem collectEntity_bare (s : SimulationExtension) (platform : Equipped) :
    bareEntity (collectEntity wsf config scene s platform).2 =
      bareEntity (Plugin.collectEntity q scene.directory platform.record) := by
  unfold collectEntity Plugin.collectEntity bareEntity
  dsimp only
  congr 1
  have hcomms : (platform.record.platform.comms.filterMap fun comm => comm) = platform.present.map Device.toComm :=
    platform.comms_present
  rw [List.map_flatten, map_pass (fun s device _ => collectDevice_bare wsf config scene q platform.record s device),
    hcomms, List.flatMap_map, List.map_flatMap]
  rfl

/-- **Apart from the qualities of its links**, the frame of a tick is the one of `Plugin.collectState`. -/
theorem collectState_alike (s : SimulationExtension) : Alike (s.collectState wsf config scene).2
    (Plugin.collectState q s.books.flows (scene.platforms.map (Option.map Equipped.toPlatform))) := by
  have hrecords : (((scene.platforms.map (Option.map Equipped.toPlatform)).filterMap fun platform => platform).map
      Platform.record) = scene.listed.map Equipped.record := by
    unfold Scene.listed
    rw [List.filterMap_map, List.map_filterMap, List.map_filterMap]
    refine List.filterMap_congr fun platform _ => ?_
    cases platform <;> rfl
  have hentities : (pass (collectEntity wsf config scene) s scene.listed).2.map bareEntity =
      ((scene.listed.map Equipped.record).map (Plugin.collectEntity q scene.directory)).map bareEntity := by
    rw [map_pass (fun s platform _ => collectEntity_bare wsf config scene q s platform), List.map_map, List.map_map]
    rfl
  unfold collectState Plugin.collectState
  dsimp only
  rw [hrecords]
  refine ⟨hentities, ?_⟩
  have hup := congrArg upLinks hentities
  rw [upLinks_bare, upLinks_bare] at hup
  dsimp only
  rw [hup]
  rfl

/-! ## What a tick reads -/

theorem link_setLink (s : SimulationExtension) (key key' : LinkKey) (link : LinkState) :
    (s.setLink key link).link key' = if key' = key then link else s.link key' := by
  unfold SimulationExtension.link setLink
  dsimp only
  rw [Bookkeeping.observation_setObservation, Dict.get?_put]
  split_ifs <;> rfl

theorem link_configuredDataRate (s : SimulationExtension) (device : Device) (key : LinkKey) :
    (s.configuredDataRate wsf config device).1.link key = s.link key := by
  unfold configuredDataRate
  split <;> rfl

end SimulationExtension

namespace LinkState
variable (link : LinkState)

theorem readLoss_of_idle (h : link.observation.completed = 0) : link.readLoss = link := by
  unfold readLoss
  rw [h]
  exact if_neg (UInt64.lt_irrefl 0)

theorem readDelay_of_idle (h : link.observation.delaySamples = 0) : link.readDelay = link := by
  unfold readDelay
  rw [h]
  exact if_neg (UInt64.lt_irrefl 0)

theorem readLoss_completed : link.readLoss.observation.completed = 0 := by
  unfold readLoss
  split_ifs with h
  · rfl
  · exact UInt64.le_zero_iff.mp (UInt64.not_lt.mp h)

theorem readDelay_observation : link.readDelay.observation.delaySamples = 0 ∧
    link.readDelay.observation.losses = link.observation.losses := by
  unfold readDelay
  split_ifs with h
  · exact ⟨rfl, rfl⟩
  · exact ⟨UInt64.le_zero_iff.mp (UInt64.not_lt.mp h), rfl⟩

/-- Reading twice shows what reading once does. -/
theorem read_read : link.read.read = link.read := by
  obtain ⟨hsamples, hlosses⟩ := link.readLoss.readDelay_observation
  have hcompleted : link.read.observation.completed = 0 := (congrArg Prod.fst hlosses).trans link.readLoss_completed
  have hloss : link.read.readLoss = link.read := readLoss_of_idle _ hcompleted
  show link.read.readLoss.readDelay = link.read
  rw [hloss]
  exact readDelay_of_idle _ hsamples

end LinkState

/-- The link a device has to the device of a peer. -/
def Device.linkTo (device : Device) (peer : Option Device) : Option LinkKey :=
  peer.map fun remote => (device.address, remote.address)

/-- The tick reads the observation of the link. -/
def Scene.Reads (scene : Scene) (key : LinkKey) : Prop :=
  ∃ platform ∈ scene.listed, ∃ device ∈ platform.present,
    ∃ peer ∈ SimulationExtension.peersFor scene platform.record device, device.linkTo peer.2.device = some key

instance Scene.decidableReads (scene : Scene) (key : LinkKey) : Decidable (scene.Reads key) :=
  inferInstanceAs (Decidable (∃ platform ∈ scene.listed, ∃ device ∈ platform.present,
    ∃ peer ∈ SimulationExtension.peersFor scene platform.record device, device.linkTo peer.2.device = some key))

namespace SimulationExtension
variable (wsf : Wsf) (config : RuntimeConfig) (scene : Scene)

theorem link_visitPeer (r : PlatformRecord) (device : Device) (aggregateDataRate : UInt64) (s : SimulationExtension)
    (peer : Str × PeerDevice) (key : LinkKey) :
    (visitPeer config scene r device aggregateDataRate s peer).1.link key =
      if device.linkTo peer.2.device = some key then (s.link key).read else s.link key := by
  unfold visitPeer Device.linkTo
  cases peer.2.device with
  | none => rfl
  | some remote =>
    show (s.setLink _ _).link key = if some (device.address, remote.address) = some key then _ else _
    rw [link_setLink]
    by_cases hkey : key = (device.address, remote.address)
    · rw [if_pos hkey, if_pos (congrArg some hkey.symm), hkey]
    · rw [if_neg hkey, if_neg fun h => hkey (Option.some.inj h).symm]

theorem link_collectDevice (r : PlatformRecord) (s : SimulationExtension) (device : Device) (key : LinkKey) :
    (collectDevice wsf config scene r s device).1.link key =
      if ∃ peer ∈ peersFor scene r device, device.linkTo peer.2.device = some key then (s.link key).read
      else s.link key := by
  unfold collectDevice
  dsimp only
  rw [pass_once (fun s : SimulationExtension => s.link key) LinkState.read_read
    (fun s peer _ => link_visitPeer config scene r device _ s peer key)]
  rw [link_configuredDataRate]

theorem link_collectEntity (s : SimulationExtension) (platform : Equipped) (key : LinkKey) :
    (collectEntity wsf config scene s platform).1.link key =
      if ∃ device ∈ platform.present, ∃ peer ∈ peersFor scene platform.record device,
        device.linkTo peer.2.device = some key then (s.link key).read else s.link key :=
  pass_once (fun s : SimulationExtension => s.link key) LinkState.read_read
    (fun s device _ => link_collectDevice wsf config scene platform.record s device key) s

/-- **What a tick does to a link**: the observation of a link it reads is read once, the others stay. -/
theorem link_collectState (s : SimulationExtension) (key : LinkKey) :
    (s.collectState wsf config scene).1.link key = if scene.Reads key then (s.link key).read else s.link key :=
  pass_once (fun s : SimulationExtension => s.link key) LinkState.read_read
    (fun s platform _ => link_collectEntity wsf config scene s platform key) s

/-- The containers of the bookkeeping that no visit touches. -/
def containers (s : SimulationExtension) : Extension × Dict MessageKey ℚ × Finset MessageKey × Finset MessageKey :=
  (s.books.flows, s.books.mTransmitTimes, s.books.mExternallyGatedMessages, s.books.mExternallyDroppedMessages)

theorem containers_collectEntities (s : SimulationExtension) :
    (pass (collectEntity wsf config scene) s scene.listed).1.containers = s.containers := by
  refine pass_keeps containers (fun s platform _ => ?_) s
  refine pass_keeps containers (fun s device _ => ?_) s
  refine (pass_keeps containers (fun s peer _ => ?_) (s.configuredDataRate wsf config device).1).trans ?_
  · unfold visitPeer
    cases peer.2.device <;> rfl
  unfold configuredDataRate
  split <;> rfl

/-- Reading shows the same of every link. -/
def SameReads (t s : SimulationExtension) : Prop := ∀ key, (t.link key).read = (s.link key).read

/-- The entry of one peer of a device, its link read as the extension had it. -/
def EntryOf (s : SimulationExtension) (r : PlatformRecord) (device : Device) (peer : Str × PeerDevice)
    (entry : DeviceConfig) : Prop :=
  ∃ aggregateDataRate, entry = deviceEntry scene r device peer
    (quality config scene device peer.2.device aggregateDataRate
      ((device.linkTo peer.2.device).map fun key => (s.link key).read))

variable {s t : SimulationExtension}

theorem visitPeer_entryOf (ht : SameReads t s) (r : PlatformRecord) (device : Device) (aggregateDataRate : UInt64)
    (peer : Str × PeerDevice) : SameReads (visitPeer config scene r device aggregateDataRate t peer).1 s ∧
      EntryOf config scene s r device peer (visitPeer config scene r device aggregateDataRate t peer).2 := by
  refine ⟨fun key => ?_, aggregateDataRate, ?_⟩
  · rw [link_visitPeer, ← ht key]
    split_ifs
    · exact LinkState.read_read _
    · rfl
  · rw [visitPeer_entry]
    unfold Device.linkTo
    cases peer.2.device with
    | none => rfl
    | some remote =>
      dsimp only [Option.map_some]
      rw [ht]

theorem collectDevice_entries (ht : SameReads t s) (r : PlatformRecord) (device : Device) :
    SameReads (collectDevice wsf config scene r t device).1 s ∧
      ∀ entry ∈ (collectDevice wsf config scene r t device).2, ∃ peer ∈ peersFor scene r device,
        EntryOf config scene s r device peer entry := by
  have hstart : SameReads (t.configuredDataRate wsf config device).1 s := fun key => by
    rw [link_configuredDataRate]
    exact ht key
  exact pass_rule (fun t => SameReads t s) (EntryOf config scene s r device) hstart
    fun t ht peer _ => visitPeer_entryOf config scene ht r device _ peer

theorem collectEntity_entries (ht : SameReads t s) (platform : Equipped) :
    SameReads (collectEntity wsf config scene t platform).1 s ∧
      ∀ entry ∈ (collectEntity wsf config scene t platform).2.devices, ∃ device ∈ platform.present,
        ∃ peer ∈ peersFor scene platform.record device,
          EntryOf config scene s platform.record device peer entry := by
  obtain ⟨hend, hshown⟩ := pass_rule (fun t => SameReads t s) (fun device entries => ∀ entry ∈ entries,
    ∃ peer ∈ peersFor scene platform.record device, EntryOf config scene s platform.record device peer entry) ht
    fun t ht device (_ : device ∈ platform.present) => collectDevice_entries wsf config scene ht platform.record device
  refine ⟨hend, fun entry hentry => ?_⟩
  obtain ⟨entries, hentries, hmem⟩ := List.mem_flatten.mp hentry
  obtain ⟨device, hdevice, hall⟩ := hshown entries hentries
  exact ⟨device, hdevice, hall entry hmem⟩

/-- **Where the entries of a frame come from**: the links as the tick found them, however often it reads them. -/
theorem entry_of_mem (s : SimulationExtension) {e : EntityState} (he : e ∈ (s.collectState wsf config scene).2.entities)
    {entry : DeviceConfig} (hentry : entry ∈ e.devices) : ∃ platform ∈ scene.listed,
      e.entityId = platform.record.entityId ∧ ∃ device ∈ platform.present,
        ∃ peer ∈ peersFor scene platform.record device, EntryOf config scene s platform.record device peer entry := by
  have hframe := (pass_rule (fun t => SameReads t s) (fun platform e => EntityState.entityId e =
    platform.record.entityId ∧ ∀ entry ∈ e.devices, ∃ device ∈ platform.present,
      ∃ peer ∈ peersFor scene platform.record device, EntryOf config scene s platform.record device peer entry)
    (fun _ => rfl) fun t ht platform (_ : platform ∈ scene.listed) =>
      ⟨(collectEntity_entries wsf config scene ht platform).1, rfl,
        (collectEntity_entries wsf config scene ht platform).2⟩).2
  obtain ⟨platform, hplatform, hid, hall⟩ := hframe e he
  exact ⟨platform, hplatform, hid, hall entry hentry⟩

end SimulationExtension

end AfsimNs3.Plugin
