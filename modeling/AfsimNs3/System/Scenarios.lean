import AfsimNs3.Lib.Dumps
import AfsimNs3.System.Snapshots

/-!
# Every snapshot as a scenario of the worker

`compute` writes unbounded integers, the worker reads them into 32 and 64 bits. A snapshot is `Representable` when
its counts, rates, sizes, intervals and durations fit; then, and only then, the worker reads its lines without an
exception into a scenario that passes `ValidateScenario` and says what the snapshot says (`read_iff_representable`).

The texts of floats are assumed to be read back (`RoundTrips`).
-/

namespace AfsimNs3.System
open Bridge Bridge.Ns3Runner Runner LockStep

/-! ## Numbers -/

theorem intBytes_of_nonneg {n : ℤ} (h : 0 ≤ n) : intBytes n = natBytes n.toNat := by
  rw [intBytes, if_neg (not_lt.mpr h)]
  congr 1
  omega

theorem toUint64_natBytes {n : ℕ} {v : UInt64} : toUint64 (natBytes n) = .ok v ↔ n < 2 ^ 64 ∧ v = UInt64.ofNat n := by
  rw [toUint64, stoull_natBytes]
  split_ifs with h
  · exact iff_of_false not_false fun hv => absurd hv.1 (not_lt.mpr h)
  · rw [Except.ok.injEq, eq_comm]
    exact (and_iff_right (not_le.mp h)).symm

theorem toUint32_natBytes {n : ℕ} {v : UInt32} : toUint32 (natBytes n) = .ok v ↔ n < 2 ^ 32 ∧ v = UInt32.ofNat n := by
  rw [toUint32, stoull_natBytes]
  by_cases hlarge : 2 ^ 64 ≤ n
  · rw [if_pos hlarge]
    exact iff_of_false Except.error_ne_ok fun hv => absurd hv.1 (by omega)
  · have hval : (UInt64.ofNat n).toNat = n := by
      rw [UInt64.toNat_ofNat', Nat.mod_eq_of_lt (by omega)]
    have hlt : (4294967295 : UInt64) < UInt64.ofNat n ↔ 2 ^ 32 ≤ n := by
      rw [UInt64.lt_iff_toNat_lt, hval]
      show 4294967295 < n ↔ _
      omega
    rw [if_neg hlarge, Except.ok_bind]
    split_ifs with h
    · exact iff_of_false not_false fun hv => absurd hv.1 (not_lt.mpr (hlt.mp h))
    · have hsmall : n < 2 ^ 32 := not_le.mp fun hle => h (hlt.mpr hle)
      have hconvert : (UInt64.ofNat n).toUInt32 = UInt32.ofNat n := by
        rw [← UInt32.toNat_inj, UInt64.toNat_toUInt32, hval, UInt32.toNat_ofNat']
      rw [Except.ok.injEq, hconvert, eq_comm]
      exact (and_iff_right hsmall).symm

theorem toBool_flag (b : Bool) : toBool (flag b) = .ok b := by
  cases b <;> decide

theorem tab_notMem_flag (b : Bool) : (9 : UInt8) ∉ flag b := by
  cases b <;> decide

theorem flag_ne_nil (b : Bool) : flag b ≠ [] := by
  cases b <;> decide

theorem tab_notMem_intBytes (n : ℤ) : (9 : UInt8) ∉ intBytes n := fun h =>
  absurd (isScalar_intBytes n 9 h) (by decide)

/-! ## The texts of floats -/

/-- The floats `compute` writes for a snapshot. -/
def writtenFloats (snap : StateSnapshot) : List ℚ :=
  snap.entities.flatMap (fun entity => [entity.position.xM, entity.position.yM, entity.position.zM]) ++
    (links snap.entities).flatMap (fun link => [link.delayMs, link.configuredLossRate])

/-- The worker reads back the floats that are written. -/
structure RoundTrips (floatText : ℚ → Bytes) (stod : Bytes → Except Bytes Double) (snap : StateSnapshot) : Prop where
  read : ∀ q ∈ writtenFloats snap, stod (floatText q) = .ok (.finite q)
  tabFree : ∀ q ∈ writtenFloats snap, (9 : UInt8) ∉ floatText q

/-! ## What the scenario says -/

/-- The snapshot fits into the integers of the worker. -/
structure Representable (snap : StateSnapshot) : Prop where
  nodes : snap.entities.length < 2 ^ 32
  links : (links snap.entities).length < 2 ^ 32
  flows : snap.flows.length < 2 ^ 32
  rate : ∀ entity ∈ snap.entities, ∀ device ∈ entity.devices, device.dataRateBps < 2 ^ 64
  packetSize : ∀ flow ∈ snap.flows, flow.packetSizeBytes < 2 ^ 32
  interval : ∀ flow ∈ snap.flows, flow.intervalMs < 2 ^ 32
  duration : ∀ flow ∈ snap.flows, flow.durationMs < 2 ^ 32

structure NodeSays (entity : EntityState × ℕ) (node : NodeInput) : Prop where
  index : node.index.toNat = entity.2
  x : node.x = .finite entity.1.position.xM
  y : node.y = .finite entity.1.position.yM
  z : node.z = .finite entity.1.position.zM
  alive : node.alive = entity.1.alive

structure LinkSays (ids : List Str) (link : LinkRecord × ℕ) (input : LinkInput) : Prop where
  index : input.index.toNat = link.2
  source : ids[input.source.toNat]? = some link.1.sourceEntityId
  target : ids[input.target.toNat]? = some link.1.targetEntityId
  rate : (input.dataRateBps.toNat : ℤ) = link.1.dataRateBps
  delay : input.delayMs = .finite link.1.delayMs
  loss : input.lossRate = .finite link.1.configuredLossRate
  up : input.up = decide (link.1.state = .up)

structure FlowSays (entities : List EntityState) (flow : FlowConfig × ℕ) (input : FlowInput) : Prop where
  index : input.index.toNat = flow.2
  source : (entities.map EntityState.entityId)[input.source.toNat]? = some flow.1.sourceEntityId
  target : (entities.map EntityState.entityId)[input.target.toNat]? = some flow.1.targetEntityId
  packetSize : (input.packetSizeBytes.toNat : ℤ) = flow.1.packetSizeBytes
  interval : (input.intervalMs.toNat : ℤ) = flow.1.intervalMs
  duration : (input.durationMs.toNat : ℤ) = flow.1.durationMs
  enabled : input.enabled =
    (flow.1.active && isAlive entities flow.1.sourceEntityId && isAlive entities flow.1.targetEntityId)

/-- The scenario is the snapshot: the nodes in order, a link for each device, a flow for each flow. -/
structure Says (snap : StateSnapshot) (scenario : Scenario) : Prop where
  id : scenario.id = scenarioId snap
  nodes : List.Forall₂ NodeSays snap.entities.zipIdx scenario.nodes
  links : List.Forall₂ (LinkSays snap.ids) (links snap.entities).zipIdx scenario.links
  flows : List.Forall₂ (FlowSays snap.entities) snap.flows.zipIdx scenario.flows

/-- The lines of the snapshot are read in silence, whatever the worker held before, and `RUN` then finds a valid
scenario that says what the snapshot says. -/
def ReadAsScenario (floatText : ℚ → Bytes) (stod : Bytes → Except Bytes Double) (snap : StateSnapshot) : Prop :=
  ∃ records scenario, scenarioLines floatText snap = some (headLine snap :: records ++ [ascii "RUN"]) ∧
    (∀ simulate before, handleLines stod simulate before (headLine snap :: records) = (scenario, [])) ∧
    validateScenario scenario = .ok () ∧ Says snap scenario

/-! ## Lines that are read -/

section Lines
variable {floatText : ℚ → Bytes} {stod : Bytes → Except Bytes Double}

theorem splitTabs_ne_nil {line : Bytes} {c : Command} (h : parseCommand stod line = .ok c) : splitTabs line ≠ [] := by
  intro hparts
  rw [parseCommand, hparts] at h
  exact absurd h Except.error_ne_ok

/-- What a record adds to the scenario. -/
def addRecord (scenario : Scenario) : Command → Scenario
  | .node input => { scenario with nodes := scenario.nodes ++ [input] }
  | .link input => { scenario with links := scenario.links ++ [input] }
  | .flow input => { scenario with flows := scenario.flows ++ [input] }
  | .scenario .. | .run => scenario

/-- Records that are read are added in order. -/
theorem handleLines_read {lines : List Bytes} {commands : List Command}
    (h : List.Forall₂ (fun line c => parseCommand stod line = .ok c) lines commands)
    (hrecord : ∀ c ∈ commands, Command.IsRecord c) (simulate : Scenario → Except Bytes (List Result))
    (scenario : Scenario) : handleLines stod simulate scenario lines = (commands.foldl addRecord scenario, []) := by
  induction h generalizing scenario with
  | nil => rfl
  | @cons line c lines commands hparse _ ih =>
    rw [List.forall_mem_cons] at hrecord
    have hexecute : execute simulate scenario c = .ok (addRecord scenario c, []) := by
      have hc := hrecord.1
      cases c with
      | scenario | run => exact hc.elim
      | node | link | flow => rfl
    have hline := handleLine_of_ok (splitTabs_ne_nil hparse) hparse hexecute
    simp only [handleLines, hline, ih hrecord.2, List.foldl_cons, List.append_nil]

theorem isRecord_of_mem {nodes : List NodeInput} {links : List LinkInput} {flows : List FlowInput} {c : Command}
    (h : c ∈ nodes.map Command.node ++ links.map Command.link ++ flows.map Command.flow) : Command.IsRecord c := by
  rw [List.mem_append, List.mem_append, List.mem_map, List.mem_map, List.mem_map] at h
  rcases h with (⟨_, -, rfl⟩ | ⟨_, -, rfl⟩) | ⟨_, -, rfl⟩
  · trivial
  · trivial
  · trivial

theorem foldl_addRecord (nodes : List NodeInput) (links : List LinkInput) (flows : List FlowInput)
    (scenario : Scenario) :
    (nodes.map Command.node ++ links.map Command.link ++ flows.map Command.flow).foldl addRecord scenario =
      { scenario with
        nodes := scenario.nodes ++ nodes
        links := scenario.links ++ links
        flows := scenario.flows ++ flows } := by
  have hnodes : ∀ scenario : Scenario, (nodes.map Command.node).foldl addRecord scenario =
      { scenario with nodes := scenario.nodes ++ nodes } := by
    induction nodes with
    | nil => intro scenario; rw [List.append_nil]; rfl
    | cons node nodes ih => intro scenario; rw [List.map_cons, List.foldl_cons, ih, addRecord, List.append_assoc]; rfl
  have hlinks : ∀ scenario : Scenario, (links.map Command.link).foldl addRecord scenario =
      { scenario with links := scenario.links ++ links } := by
    induction links with
    | nil => intro scenario; rw [List.append_nil]; rfl
    | cons link links ih => intro scenario; rw [List.map_cons, List.foldl_cons, ih, addRecord, List.append_assoc]; rfl
  have hflows : ∀ scenario : Scenario, (flows.map Command.flow).foldl addRecord scenario =
      { scenario with flows := scenario.flows ++ flows } := by
    induction flows with
    | nil => intro scenario; rw [List.append_nil]; rfl
    | cons flow flows ih => intro scenario; rw [List.map_cons, List.foldl_cons, ih, addRecord, List.append_assoc]; rfl
  rw [List.foldl_append, List.foldl_append, hnodes, hlinks, hflows]

/-- The worker reads the text of the float. -/
def Written (floatText : ℚ → Bytes) (stod : Bytes → Except Bytes Double) (q : ℚ) : Prop :=
  stod (floatText q) = .ok (.finite q) ∧ (9 : UInt8) ∉ floatText q

theorem toUint32_of_lt {n : ℕ} (h : n < 2 ^ 32) : toUint32 (natBytes n) = .ok (UInt32.ofNat n) :=
  toUint32_natBytes.mpr ⟨h, rfl⟩

theorem toNat_uint32 {n : ℕ} (h : n < 2 ^ 32) : (UInt32.ofNat n).toNat = n := by
  rw [UInt32.toNat_ofNat', Nat.mod_eq_of_lt h]

/-- A number of the store is read as an `uint32_t` of the same value. -/
theorem toUint32_intBytes {n : ℤ} (h0 : 0 ≤ n) (h : n < 2 ^ 32) :
    ∃ v, toUint32 (intBytes n) = .ok v ∧ (v.toNat : ℤ) = n := by
  have hlt : n.toNat < 2 ^ 32 := by omega
  refine ⟨UInt32.ofNat n.toNat, ?_, ?_⟩
  · rw [intBytes_of_nonneg h0, toUint32_of_lt hlt]
  · rw [toNat_uint32 hlt, Int.toNat_of_nonneg h0]

theorem toUint64_intBytes {n : ℤ} (h0 : 0 ≤ n) (h : n < 2 ^ 64) :
    ∃ v, toUint64 (intBytes n) = .ok v ∧ (v.toNat : ℤ) = n := by
  have hlt : n.toNat < 2 ^ 64 := by omega
  refine ⟨UInt64.ofNat n.toNat, ?_, ?_⟩
  · rw [intBytes_of_nonneg h0]
    exact toUint64_natBytes.mpr ⟨hlt, rfl⟩
  · rw [UInt64.toNat_ofNat', Nat.mod_eq_of_lt hlt, Int.toNat_of_nonneg h0]

theorem splitTabs_nodeLine {entity : EntityState × ℕ} (hx : (9 : UInt8) ∉ floatText entity.1.position.xM)
    (hy : (9 : UInt8) ∉ floatText entity.1.position.yM) (hz : (9 : UInt8) ∉ floatText entity.1.position.zM) :
    splitTabs (nodeLine floatText entity) = [ascii "NODE", natBytes entity.2, floatText entity.1.position.xM,
      floatText entity.1.position.yM, floatText entity.1.position.zM, flag entity.1.alive] := by
  refine splitTabs_eq_of_tabFree ?_ rfl (flag_ne_nil _)
  simp only [List.forall_mem_cons, List.not_mem_nil, false_imp_iff, implies_true, and_true]
  exact ⟨by decide, tab_notMem_natBytes _, hx, hy, hz, tab_notMem_flag _⟩

theorem nodeLine_read {entity : EntityState × ℕ} (hindex : entity.2 < 2 ^ 32)
    (hx : Written floatText stod entity.1.position.xM) (hy : Written floatText stod entity.1.position.yM)
    (hz : Written floatText stod entity.1.position.zM) :
    ∃ node, parseCommand stod (nodeLine floatText entity) = .ok (.node node) ∧ NodeSays entity node := by
  have hsplit := splitTabs_nodeLine hx.2 hy.2 hz.2
  refine ⟨⟨UInt32.ofNat entity.2, .finite entity.1.position.xM, .finite entity.1.position.yM,
    .finite entity.1.position.zM, entity.1.alive⟩, ?_, ⟨toNat_uint32 hindex, rfl, rfl, rfl, rfl⟩⟩
  rw [parseCommand, hsplit]
  dsimp only
  rw [if_neg (by decide), if_pos rfl, toUint32_of_lt hindex, hx.1, hy.1, hz.1, toBool_flag]
  rfl

/-- Where the IDs of a snapshot are looked up. -/
structure Placed (ids : List Str) (entities : List EntityState) (id : Str) (index : ℕ) : Prop where
  lookup : (nodeIndex entities).get? id = some index
  place : ids[index]? = some id
  small : index < 2 ^ 32

theorem linkLine_split {entities : List EntityState} {link : LinkRecord × ℕ} {source target : ℕ}
    (hsource : (nodeIndex entities).get? link.1.sourceEntityId = some source)
    (htarget : (nodeIndex entities).get? link.1.targetEntityId = some target)
    (hdelay : (9 : UInt8) ∉ floatText link.1.delayMs) (hloss : (9 : UInt8) ∉ floatText link.1.configuredLossRate) :
    ∃ line, linkLine floatText entities link = some line ∧
      splitTabs line = [ascii "LINK", natBytes link.2, natBytes source, natBytes target, intBytes link.1.dataRateBps,
        floatText link.1.delayMs, floatText link.1.configuredLossRate, flag (link.1.state = .up)] := by
  rw [linkLine, hsource, htarget]
  refine ⟨_, rfl, splitTabs_eq_of_tabFree ?_ rfl (flag_ne_nil _)⟩
  simp only [List.forall_mem_cons, List.not_mem_nil, false_imp_iff, implies_true, and_true]
  exact ⟨by decide, tab_notMem_natBytes _, tab_notMem_natBytes _, tab_notMem_natBytes _, tab_notMem_intBytes _,
    hdelay, hloss, tab_notMem_flag _⟩

theorem flowLine_split {entities : List EntityState} {flow : FlowConfig × ℕ} {source target : ℕ}
    (hsource : (nodeIndex entities).get? flow.1.sourceEntityId = some source)
    (htarget : (nodeIndex entities).get? flow.1.targetEntityId = some target) :
    ∃ line, flowLine entities flow = some line ∧
      splitTabs line = [ascii "FLOW", natBytes flow.2, natBytes source, natBytes target,
        intBytes flow.1.packetSizeBytes, intBytes flow.1.intervalMs, intBytes flow.1.durationMs,
        flag (flow.1.active && isAlive entities flow.1.sourceEntityId && isAlive entities flow.1.targetEntityId)] := by
  rw [flowLine, hsource, htarget]
  refine ⟨_, rfl, splitTabs_eq_of_tabFree ?_ rfl (flag_ne_nil _)⟩
  simp only [List.forall_mem_cons, List.not_mem_nil, false_imp_iff, implies_true, and_true]
  exact ⟨by decide, tab_notMem_natBytes _, tab_notMem_natBytes _, tab_notMem_natBytes _, tab_notMem_intBytes _,
    tab_notMem_intBytes _, tab_notMem_intBytes _, tab_notMem_flag _⟩

theorem linkLine_read {snap : StateSnapshot} {link : LinkRecord × ℕ} {source target : ℕ} (hindex : link.2 < 2 ^ 32)
    (hsource : Placed snap.ids snap.entities link.1.sourceEntityId source)
    (htarget : Placed snap.ids snap.entities link.1.targetEntityId target)
    (hrate0 : 0 ≤ link.1.dataRateBps) (hrate : link.1.dataRateBps < 2 ^ 64)
    (hdelay : Written floatText stod link.1.delayMs) (hloss : Written floatText stod link.1.configuredLossRate) :
    ∃ line input, linkLine floatText snap.entities link = some line ∧
      parseCommand stod line = .ok (.link input) ∧ LinkSays snap.ids link input := by
  obtain ⟨rate, hread, hvalue⟩ := toUint64_intBytes hrate0 hrate
  obtain ⟨line, hline, hsplit⟩ := linkLine_split hsource.lookup htarget.lookup hdelay.2 hloss.2
  refine ⟨line, ⟨UInt32.ofNat link.2, UInt32.ofNat source, UInt32.ofNat target, rate, .finite link.1.delayMs,
    .finite link.1.configuredLossRate, link.1.state = .up⟩, hline, ?_, ?_⟩
  · rw [parseCommand, hsplit]
    dsimp only
    rw [if_neg (by decide), if_neg (by decide), if_pos rfl, toUint32_of_lt hindex, toUint32_of_lt hsource.small,
      toUint32_of_lt htarget.small, hread, hdelay.1, hloss.1, toBool_flag]
    rfl
  · refine ⟨toNat_uint32 hindex, ?_, ?_, hvalue, rfl, rfl, rfl⟩
    · show snap.ids[(UInt32.ofNat source).toNat]? = _
      rw [toNat_uint32 hsource.small, hsource.place]
    · show snap.ids[(UInt32.ofNat target).toNat]? = _
      rw [toNat_uint32 htarget.small, htarget.place]

theorem flowLine_read {snap : StateSnapshot} {flow : FlowConfig × ℕ} {source target : ℕ} (hindex : flow.2 < 2 ^ 32)
    (hsource : Placed snap.ids snap.entities flow.1.sourceEntityId source)
    (htarget : Placed snap.ids snap.entities flow.1.targetEntityId target) (hbounded : flow.1.Bounded)
    (hsize : flow.1.packetSizeBytes < 2 ^ 32) (hinterval : flow.1.intervalMs < 2 ^ 32)
    (hduration : flow.1.durationMs < 2 ^ 32) :
    ∃ line input, flowLine snap.entities flow = some line ∧
      parseCommand stod line = .ok (.flow input) ∧ FlowSays snap.entities flow input := by
  have hbounds := hbounded.packetSize
  have hbounds' := hbounded.interval
  have hbounds'' := hbounded.duration
  obtain ⟨size, hreadSize, hsizeValue⟩ := toUint32_intBytes (by omega) hsize
  obtain ⟨interval, hreadInterval, hintervalValue⟩ := toUint32_intBytes (by omega) hinterval
  obtain ⟨duration, hreadDuration, hdurationValue⟩ := toUint32_intBytes (by omega) hduration
  obtain ⟨line, hline, hsplit⟩ := flowLine_split hsource.lookup htarget.lookup
  refine ⟨line, ⟨UInt32.ofNat flow.2, UInt32.ofNat source, UInt32.ofNat target, size, interval, duration,
    flow.1.active && isAlive snap.entities flow.1.sourceEntityId && isAlive snap.entities flow.1.targetEntityId⟩,
    hline, ?_, ?_⟩
  · rw [parseCommand, hsplit]
    dsimp only
    rw [if_neg (by decide), if_neg (by decide), if_neg (by decide), if_pos rfl, toUint32_of_lt hindex,
      toUint32_of_lt hsource.small, toUint32_of_lt htarget.small, hreadSize, hreadInterval, hreadDuration, toBool_flag]
    rfl
  · refine ⟨toNat_uint32 hindex, ?_, ?_, hsizeValue, hintervalValue, hdurationValue, rfl⟩
    · show snap.ids[(UInt32.ofNat source).toNat]? = _
      rw [toNat_uint32 hsource.small, hsource.place]
    · show snap.ids[(UInt32.ofNat target).toNat]? = _
      rw [toNat_uint32 htarget.small, htarget.place]

/-- Lines that are read one by one are read as a list. -/
theorem exists_read {α β : Type} (mk : β → Command) {text : α → Option Bytes} {R : α → β → Prop} {xs : List α}
    (h : ∀ x ∈ xs, ∃ line input, text x = some line ∧ parseCommand stod line = .ok (mk input) ∧ R x input) :
    ∃ lines inputs, xs.mapM text = some lines ∧
      List.Forall₂ (fun line c => parseCommand stod line = .ok c) lines (inputs.map mk) ∧ List.Forall₂ R xs inputs := by
  induction xs with
  | nil => exact ⟨[], [], rfl, .nil, .nil⟩
  | cons x xs ih =>
    rw [List.forall_mem_cons] at h
    obtain ⟨line, input, hline, hparse, hsaid⟩ := h.1
    obtain ⟨lines, inputs, hlines, hread, hall⟩ := ih h.2
    refine ⟨line :: lines, input :: inputs, ?_, .cons hparse hread, .cons hsaid hall⟩
    rw [List.mapM_cons, hline, hlines]
    rfl

end Lines

/-! ## The snapshot as a scenario -/

section Snapshot
variable {floatText : ℚ → Bytes} {stod : Bytes → Except Bytes Double} {snap : StateSnapshot}

/-- The values of a snapshot that have bounds. -/
structure Bounded (snap : StateSnapshot) : Prop where
  devices : ∀ entity ∈ snap.entities, ∀ device ∈ entity.devices, device.Bounded
  flows : ∀ flow ∈ snap.flows, flow.Bounded

theorem snapshot_bounded {s : StateStore} (h : s.snapshot = .ok snap) : Bounded snap := by
  obtain ⟨-, hentities, hflows, -, -⟩ := StateStore.snapshot_ok_iff.mp h
  refine ⟨fun entity hentity => ?_, fun flow hflow => ?_⟩
  · obtain ⟨raw, -, hread⟩ := hentities.exists_left hentity
    exact EntityState.devices_bounded hread
  · obtain ⟨raw, -, hread⟩ := hflows.exists_left hflow
    exact FlowConfig.bounded hread

theorem placed_of_lookedUp (hclosed : snap.Closed) (hnodes : snap.entities.length < 2 ^ 32) {id : Str}
    (hid : id ∈ lookedUp snap) : ∃ index, Placed snap.ids snap.entities id index := by
  obtain ⟨index, hlookup, hplace⟩ := nodeIndex_defined (lookedUp_ids hclosed id hid)
  obtain ⟨hlt, -⟩ := List.getElem?_eq_some_iff.mp hplace
  rw [List.length_map] at hlt
  exact ⟨index, hlookup, hplace, by omega⟩

theorem written_position (h : RoundTrips floatText stod snap) {entity : EntityState} (hentity : entity ∈ snap.entities) :
    Written floatText stod entity.position.xM ∧ Written floatText stod entity.position.yM ∧
      Written floatText stod entity.position.zM := by
  have hall : ∀ q ∈ [entity.position.xM, entity.position.yM, entity.position.zM], Written floatText stod q := by
    intro q hq
    have hmem : q ∈ writtenFloats snap := List.mem_append_left _ (List.mem_flatMap.mpr ⟨entity, hentity, hq⟩)
    exact ⟨h.read q hmem, h.tabFree q hmem⟩
  simp only [List.forall_mem_cons, List.not_mem_nil, false_imp_iff, implies_true, and_true] at hall
  exact hall

theorem written_link (h : RoundTrips floatText stod snap) {link : LinkRecord} (hlink : link ∈ links snap.entities) :
    Written floatText stod link.delayMs ∧ Written floatText stod link.configuredLossRate := by
  have hall : ∀ q ∈ [link.delayMs, link.configuredLossRate], Written floatText stod q := by
    intro q hq
    have hmem : q ∈ writtenFloats snap := List.mem_append_right _ (List.mem_flatMap.mpr ⟨link, hlink, hq⟩)
    exact ⟨h.read q hmem, h.tabFree q hmem⟩
  simp only [List.forall_mem_cons, List.not_mem_nil, false_imp_iff, implies_true, and_true] at hall
  exact hall

/-- A link carries the rate, the delay and the loss of a device. -/
theorem mem_links_device {link : LinkRecord} (h : link ∈ links snap.entities) :
    ∃ entity ∈ snap.entities, ∃ device ∈ entity.devices, link.dataRateBps = device.dataRateBps ∧
      link.delayMs = device.delayMs ∧ link.configuredLossRate = device.lossRate := by
  obtain ⟨entity, hentity, hmem⟩ := List.mem_flatMap.mp h
  obtain ⟨device, hdevice, rfl⟩ := List.mem_map.mp hmem
  exact ⟨entity, hentity, device, hdevice, rfl, rfl, rfl⟩

theorem index_small {α : Type} {xs : List α} (h : xs.length < 2 ^ 32) {x : α × ℕ} (hx : x ∈ xs.zipIdx) :
    x.2 < 2 ^ 32 := by
  have hlt := List.snd_lt_of_mem_zipIdx hx
  omega

variable (stod) in
theorem headLine_read (h : Representable snap) : parseCommand stod (headLine snap) =
    .ok (.scenario (scenarioId snap) (UInt32.ofNat snap.entities.length)
      (UInt32.ofNat (links snap.entities).length) (UInt32.ofNat snap.flows.length)) := by
  rw [parseCommand_headLine, toUint32_of_lt h.nodes, toUint32_of_lt h.links, toUint32_of_lt h.flows]
  rfl

/-- **A representable snapshot is read** as the scenario it is. -/
theorem read_of_representable (hclosed : snap.Closed) (hbounded : Bounded snap)
    (hround : RoundTrips floatText stod snap) (h : Representable snap) :
    ∃ records scenario, scenarioLines floatText snap = some (headLine snap :: records ++ [ascii "RUN"]) ∧
      (∀ simulate before, handleLines stod simulate before (headLine snap :: records) = (scenario, [])) ∧
      Says snap scenario ∧ scenario.expectedNodes = UInt32.ofNat snap.entities.length ∧
      scenario.expectedLinks = UInt32.ofNat (links snap.entities).length ∧
      scenario.expectedFlows = UInt32.ofNat snap.flows.length := by
  have hnodes : ∀ entity ∈ snap.entities.zipIdx, ∃ line node, some (nodeLine floatText entity) = some line ∧
      parseCommand stod line = .ok (.node node) ∧ NodeSays entity node := by
    intro entity hentity
    obtain ⟨hx, hy, hz⟩ := written_position hround (List.fst_mem_of_mem_zipIdx hentity)
    obtain ⟨node, hread, hsaid⟩ := nodeLine_read (index_small h.nodes hentity) hx hy hz
    exact ⟨_, node, rfl, hread, hsaid⟩
  have hlinks : ∀ link ∈ (links snap.entities).zipIdx, ∃ line input, linkLine floatText snap.entities link = some line ∧
      parseCommand stod line = .ok (.link input) ∧ LinkSays snap.ids link input := by
    intro link hlink
    have hmem := List.fst_mem_of_mem_zipIdx hlink
    obtain ⟨hsource, htarget⟩ := mem_lookedUp_link hmem
    obtain ⟨source, hsource⟩ := placed_of_lookedUp hclosed h.nodes hsource
    obtain ⟨target, htarget⟩ := placed_of_lookedUp hclosed h.nodes htarget
    obtain ⟨hdelay, hloss⟩ := written_link hround hmem
    obtain ⟨entity, hentity, device, hdevice, hrate, -, -⟩ := mem_links_device hmem
    have hlow := (hbounded.devices entity hentity device hdevice).rate
    have hhigh := h.rate entity hentity device hdevice
    exact linkLine_read (index_small h.links hlink) hsource htarget (by omega) (by omega) hdelay hloss
  have hflows : ∀ flow ∈ snap.flows.zipIdx, ∃ line input, flowLine snap.entities flow = some line ∧
      parseCommand stod line = .ok (.flow input) ∧ FlowSays snap.entities flow input := by
    intro flow hflow
    have hmem := List.fst_mem_of_mem_zipIdx hflow
    obtain ⟨hsource, htarget⟩ := mem_lookedUp_flow hmem
    obtain ⟨source, hsource⟩ := placed_of_lookedUp hclosed h.nodes hsource
    obtain ⟨target, htarget⟩ := placed_of_lookedUp hclosed h.nodes htarget
    exact flowLine_read (index_small h.flows hflow) hsource htarget (hbounded.flows _ hmem) (h.packetSize _ hmem)
      (h.interval _ hmem) (h.duration _ hmem)
  obtain ⟨nodeLines, nodes, hnodeLines, hnodesRead, hnodesSay⟩ := exists_read Command.node hnodes
  obtain ⟨linkLines, linkInputs, hlinkLines, hlinksRead, hlinksSay⟩ := exists_read Command.link hlinks
  obtain ⟨flowLines, flows, hflowLines, hflowsRead, hflowsSay⟩ := exists_read Command.flow hflows
  have hmap : nodeLines = snap.entities.zipIdx.map (nodeLine floatText) :=
    (Option.some.inj (List.mapM_pure.symm.trans hnodeLines)).symm
  have hrecords : recordLines floatText snap = some (nodeLines ++ linkLines ++ flowLines) := by
    rw [recordLines, hlinkLines, hflowLines, hmap]
    rfl
  refine ⟨nodeLines ++ linkLines ++ flowLines, ⟨scenarioId snap, UInt32.ofNat snap.entities.length,
    UInt32.ofNat (links snap.entities).length, UInt32.ofNat snap.flows.length, nodes, linkInputs, flows⟩, ?_, ?_,
    ⟨rfl, hnodesSay, hlinksSay, hflowsSay⟩, rfl, rfl, rfl⟩
  · rw [scenarioLines, hrecords]
    rfl
  · intro simulate before
    have hhead := headLine_read stod h
    have hread := List.rel_append (List.rel_append hnodesRead hlinksRead) hflowsRead
    have hline : handleLine stod simulate before (headLine snap) = (⟨scenarioId snap,
        UInt32.ofNat snap.entities.length, UInt32.ofNat (links snap.entities).length, UInt32.ofNat snap.flows.length,
        [], [], []⟩, []) := handleLine_of_ok (splitTabs_ne_nil hhead) hhead rfl
    simp only [handleLines, hline, handleLines_read hread (fun _ => isRecord_of_mem), foldl_addRecord,
      List.nil_append]

/-! ## Validation -/

theorem index_lt {ids : List Str} {index : ℕ} {id : Str} (h : ids[index]? = some id) : index < ids.length :=
  (List.getElem?_eq_some_iff.mp h).choose

theorem linkInput_valid {link : LinkRecord × ℕ} {input : LinkInput} (hlink : link.1 ∈ links snap.entities)
    (hsaid : LinkSays snap.ids link input) (hbounded : Bounded snap) {nodes : ℕ} (hnodes : nodes = snap.ids.length) :
    validateLink nodes input = .ok () := by
  obtain ⟨entity, hentity, device, hdevice, hrate, hdelay, hloss⟩ := mem_links_device hlink
  have hdev := hbounded.devices entity hentity device hdevice
  have hsource := index_lt hsaid.source
  have htarget := index_lt hsaid.target
  have hvalue := hsaid.rate
  have hlow := hdev.rate
  have hne : input.dataRateBps ≠ 0 := by
    intro h0
    rw [h0, hrate] at hvalue
    have hzero : (0 : UInt64).toNat = 0 := rfl
    omega
  rw [validateLink, Except.bind_ok_iff]
  refine ⟨(), ensure_ok_iff.mpr ?_, ensure_ok_iff.mpr ?_⟩
  · rw [Bool.and_eq_true, decide_eq_true_eq, decide_eq_true_eq]
    omega
  · have hdelayLow : input.delayMs.below 0 = false := by
      rw [hsaid.delay, hdelay]
      exact decide_eq_false (not_lt.mpr hdev.delay)
    have hlossLow : input.lossRate.below 0 = false := by
      rw [hsaid.loss, hloss]
      exact decide_eq_false (not_lt.mpr hdev.loss.1)
    have hlossHigh : input.lossRate.above 1 = false := by
      rw [hsaid.loss, hloss]
      exact decide_eq_false (not_lt.mpr hdev.loss.2)
    rw [hdelayLow, hlossLow, hlossHigh, beq_eq_false_iff_ne.mpr hne]
    rfl

theorem flowInput_valid {flow : FlowConfig × ℕ} {input : FlowInput} (hflow : flow.1 ∈ snap.flows)
    (hsaid : FlowSays snap.entities flow input) (hbounded : Bounded snap) {nodes : ℕ}
    (hnodes : nodes = snap.ids.length) : Runner.validateFlow nodes input = .ok () := by
  have hflow := hbounded.flows _ hflow
  have hsource := index_lt hsaid.source
  have htarget := index_lt hsaid.target
  have hsize := hsaid.packetSize
  have hinterval := hsaid.interval
  have hduration := hsaid.duration
  have hlow := hflow.packetSize
  have hlow' := hflow.interval
  have hlow'' := hflow.duration
  have hids : nodes = (snap.entities.map EntityState.entityId).length := hnodes
  rw [Runner.validateFlow, Except.bind_ok_iff]
  refine ⟨(), ensure_ok_iff.mpr ?_, ensure_ok_iff.mpr ?_⟩
  · rw [Bool.and_eq_true, decide_eq_true_eq, decide_eq_true_eq]
    omega
  · have hsizeLow : ¬ input.packetSizeBytes < 64 := by
      rw [UInt32.lt_iff_toNat_lt]
      show ¬ input.packetSizeBytes.toNat < 64
      omega
    have hintervalNe : input.intervalMs ≠ 0 := by
      intro h0
      rw [h0] at hinterval
      have hzero : (0 : UInt32).toNat = 0 := rfl
      omega
    have hdurationLow : ¬ input.durationMs < 100 := by
      rw [UInt32.lt_iff_toNat_lt]
      show ¬ input.durationMs.toNat < 100
      omega
    rw [decide_eq_false hsizeLow, decide_eq_false hdurationLow, beq_eq_false_iff_ne.mpr hintervalNe]
    rfl

theorem scenario_valid (hbounded : Bounded snap) {scenario : Scenario} (hsaid : Says snap scenario)
    (hnodes : scenario.expectedNodes.toNat = snap.entities.length)
    (hlinks : scenario.expectedLinks.toNat = (links snap.entities).length)
    (hflows : scenario.expectedFlows.toNat = snap.flows.length) : validateScenario scenario = .ok () := by
  have hnodesLength := hsaid.nodes.length_eq
  have hlinksLength := hsaid.links.length_eq
  have hflowsLength := hsaid.flows.length_eq
  rw [List.length_zipIdx] at hnodesLength hlinksLength hflowsLength
  have hids : scenario.nodes.length = snap.ids.length := by
    rw [← hnodesLength, StateSnapshot.ids, List.length_map]
  simp only [validateScenario, Except.bind_ok_iff, Except.exists_punit]
  refine ⟨ensure_ok_iff.mpr ?_, Except.forM_ok_iff.mpr fun node hnode => ensure_ok_iff.mpr ?_,
    Except.forM_ok_iff.mpr fun input hinput => ?_, Except.forM_ok_iff.mpr fun input hinput => ?_⟩
  · rw [Bool.and_eq_true, Bool.and_eq_true, beq_iff_eq, beq_iff_eq, beq_iff_eq]
    omega
  · have hplace := List.mem_zipIdx_iff_getElem?.mp hnode
    obtain ⟨hlt, hget⟩ := List.getElem?_eq_some_iff.mp hplace
    have hpair := (List.forall₂_iff_get.mp hsaid.nodes).2 node.2 (by rw [List.length_zipIdx]; omega) hlt
    have hindex := hpair.index
    simp only [List.get_eq_getElem, List.getElem_zipIdx, hget] at hindex
    rw [beq_iff_eq]
    omega
  · obtain ⟨link, hlink, hsaid⟩ := hsaid.links.exists_left hinput
    exact linkInput_valid (List.fst_mem_of_mem_zipIdx hlink) hsaid hbounded hids
  · obtain ⟨flow, hflow, hsaid⟩ := hsaid.flows.exists_left hinput
    exact flowInput_valid (List.fst_mem_of_mem_zipIdx hflow) hsaid hbounded hids

/-! ## Exactly the representable snapshots -/

/-- What the worker holds fits into its integers. -/
theorem representable_of_read (h : ReadAsScenario floatText stod snap) : Representable snap := by
  obtain ⟨records, scenario, -, -, hvalid, hsaid⟩ := h
  have hnodesLength := hsaid.nodes.length_eq
  have hlinksLength := hsaid.links.length_eq
  have hflowsLength := hsaid.flows.length_eq
  rw [List.length_zipIdx] at hnodesLength hlinksLength hflowsLength
  simp only [validateScenario, Except.bind_ok_iff, Except.exists_punit, ensure_ok_iff, Bool.and_eq_true,
    beq_iff_eq] at hvalid
  obtain ⟨⟨⟨hnodes, hlinks⟩, hflows⟩, -⟩ := hvalid
  have hflow : ∀ flow ∈ snap.flows, flow.packetSizeBytes < 2 ^ 32 ∧ flow.intervalMs < 2 ^ 32 ∧
      flow.durationMs < 2 ^ 32 := by
    intro flow hflow
    obtain ⟨i, hi⟩ := List.mem_iff_getElem?.mp hflow
    have hmem : (flow, i) ∈ snap.flows.zipIdx := List.mem_zipIdx_iff_getElem?.mpr hi
    obtain ⟨input, -, hinput⟩ := hsaid.flows.exists_right hmem
    have hsize := input.packetSizeBytes.toNat_lt
    have hinterval := input.intervalMs.toNat_lt
    have hduration := input.durationMs.toNat_lt
    rw [← hinput.packetSize, ← hinput.interval, ← hinput.duration]
    omega
  refine ⟨?_, ?_, ?_, fun entity hentity device hdevice => ?_, fun flow hmem => (hflow flow hmem).1,
    fun flow hmem => (hflow flow hmem).2.1, fun flow hmem => (hflow flow hmem).2.2⟩
  · have hlt := scenario.expectedNodes.toNat_lt
    omega
  · have hlt := scenario.expectedLinks.toNat_lt
    omega
  · have hlt := scenario.expectedFlows.toNat_lt
    omega
  · obtain ⟨link, hlink, hrate⟩ : ∃ link ∈ links snap.entities, link.dataRateBps = device.dataRateBps :=
      ⟨_, List.mem_flatMap.mpr ⟨entity, hentity, List.mem_map_of_mem hdevice⟩, rfl⟩
    obtain ⟨i, hi⟩ := List.mem_iff_getElem?.mp hlink
    have hmem : (link, i) ∈ (links snap.entities).zipIdx := List.mem_zipIdx_iff_getElem?.mpr hi
    obtain ⟨input, -, hinput⟩ := hsaid.links.exists_right hmem
    have hlt := input.dataRateBps.toNat_lt
    rw [← hrate, ← hinput.rate]
    omega

/-- **A snapshot of the store is a scenario of the worker exactly when it is representable.** -/
theorem read_iff_representable {ops : List StoreOp} {s : StateStore}
    (hrun : Machine.run StateStore.step StateStore.new ops = some s) {snap : StateSnapshot} (h : s.snapshot = .ok snap)
    {floatText : ℚ → Bytes} {stod : Bytes → Except Bytes Double} (hround : RoundTrips floatText stod snap) :
    ReadAsScenario floatText stod snap ↔ Representable snap := by
  refine ⟨representable_of_read, fun hrep => ?_⟩
  have hbounded := snapshot_bounded h
  obtain ⟨records, scenario, hlines, hread, hsaid, hnodes, hlinks, hflows⟩ :=
    read_of_representable (run_closed hrun h) hbounded hround hrep
  refine ⟨records, scenario, hlines, hread, scenario_valid hbounded hsaid ?_ ?_ ?_, hsaid⟩
  · rw [hnodes, toNat_uint32 hrep.nodes]
  · rw [hlinks, toNat_uint32 hrep.links]
  · rw [hflows, toNat_uint32 hrep.flows]

end Snapshot

/-! ## The pair with a rate -/

theorem pair_roundTrips (rate : ℤ) (hzero : ∀ q ∈ writtenFloats (pairSnapshot rate 1), q = 0) :
    RoundTrips zeroText stodZero (pairSnapshot rate 1) := by
  have htab : (9 : UInt8) ∉ ascii "0.0" := by decide
  refine ⟨fun q hq => ?_, fun q _ => htab⟩
  rw [hzero q hq, stodZero, zeroText, if_pos rfl]

theorem pair_read : ∃ s, Machine.run StateStore.step StateStore.new [.init (pairInit 1000) 0] = some s ∧
    s.snapshot = .ok (pairSnapshot 1000 1) ∧ ReadAsScenario zeroText stodZero (pairSnapshot 1000 1) := by
  have hend : (Machine.run StateStore.step StateStore.new [.init (pairInit 1000) 0]).bind (fun s => s.snapshot.toOption) =
      some (pairSnapshot 1000 1) := by decide +kernel
  obtain ⟨s, hrun, hsnapshot⟩ := Option.bind_eq_some_iff.mp hend
  have hok : s.snapshot = .ok (pairSnapshot 1000 1) := Except.toOption_eq_some_iff.mp hsnapshot
  have hrep : Representable (pairSnapshot 1000 1) :=
    ⟨by decide, by decide +kernel, by decide, by decide, by decide, by decide, by decide⟩
  exact ⟨s, hrun, hok, (read_iff_representable hrun hok (pair_roundTrips 1000 (by decide +kernel))).mpr hrep⟩

/-- **A rate of `2 ^ 64`** is accepted by the store, and the computation ends in an error of `stoull`. -/
theorem large_rate_not_read : ∃ s,
    Machine.run StateStore.step StateStore.new [.init (pairInit (2 ^ 64)) 0] = some s ∧
    s.snapshot = .ok (pairSnapshot (2 ^ 64) 1) ∧ RoundTrips zeroText stodZero (pairSnapshot (2 ^ 64) 1) ∧
    ¬ ReadAsScenario zeroText stodZero (pairSnapshot (2 ^ 64) 1) ∧
    (compute zeroText stodZero Worker.started (pairCall (2 ^ 64) 1)).1 = .raised (.answered (ascii "stoull")) := by
  have hend : (Machine.run StateStore.step StateStore.new [.init (pairInit (2 ^ 64)) 0]).bind
      (fun s => s.snapshot.toOption) = some (pairSnapshot (2 ^ 64) 1) := by decide +kernel
  obtain ⟨s, hrun, hsnapshot⟩ := Option.bind_eq_some_iff.mp hend
  refine ⟨s, hrun, Except.toOption_eq_some_iff.mp hsnapshot, pair_roundTrips _ (by decide +kernel), fun hread => ?_,
    by rfl⟩
  have hrate := (representable_of_read hread).rate _ List.mem_cons_self _ List.mem_cons_self
  exact absurd hrate (by decide)

end AfsimNs3.System
