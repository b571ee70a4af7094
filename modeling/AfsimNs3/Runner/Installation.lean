import AfsimNs3.Lib.Dict
import AfsimNs3.Lib.Split
import AfsimNs3.Runner.Paths

/-!
# Subnets and ports (`afsim-ns3-runner.cc`)

`RunScenario` derives the subnet of a link and the port of a flow from their indices: an octet is the quotient by 256
and one, a port the remainder by 50000 and 9000. What the flow monitor counts under a destination port is reported for
the flow the port was last given to. Whether `FirstNodeAddress` finds an address on a node is the parameter
`hasAddress`.

* `dottedQuad_iff`: a subnet is a dotted quad exactly for an index below 65280;
* `port_eq_iff`: two flows share a port exactly when their indices differ by a multiple of 50000;
* `measured_get?`: flows with ports of their own are reported their own statistics.
-/

namespace AfsimNs3.Runner

/-! ## Links -/

/-- The links devices are installed for. -/
def Scenario.activeLinks (scenario : Scenario) : List LinkInput := scenario.links.filter scenario.carries

namespace LinkInput

def secondOctet (link : LinkInput) : UInt32 := 1 + link.index / 256

def thirdOctet (link : LinkInput) : UInt32 := link.index % 256

/-- The text handed to `SetBase`. -/
def subnet (link : LinkInput) : Bytes :=
  ascii "10." ++ natBytes link.secondOctet.toNat ++ ascii "." ++ natBytes link.thirdOctet.toNat ++ ascii ".0"

end LinkInput

def dot : UInt8 := 46

/-- Four decimal octets. -/
def quad (a b c d : ℕ) : Bytes := [dot].intercalate [natBytes a, natBytes b, natBytes c, natBytes d]

/-- The text is an address in dotted notation. -/
def DottedQuad (text : Bytes) : Prop := ∃ a b c d, a ≤ 255 ∧ b ≤ 255 ∧ c ≤ 255 ∧ d ≤ 255 ∧ text = quad a b c d

theorem natBytes_injective {m n : ℕ} (h : natBytes m = natBytes n) : m = n := by
  rw [← digitsValue_natBytes m, h, digitsValue_natBytes]

theorem dot_notMem_natBytes (n : ℕ) : dot ∉ natBytes n := by
  intro hmem
  have hdigit := isDigit_of_mem_natBytes hmem
  revert hdigit
  decide

/-- A dotted text says what its numbers are. -/
theorem quad_injective {a b c d a' b' c' d' : ℕ} (h : quad a b c d = quad a' b' c' d') :
    a = a' ∧ b = b' ∧ c = c' ∧ d = d' := by
  have hplain : ∀ a b c d : ℕ, ∀ field ∈ [natBytes a, natBytes b, natBytes c, natBytes d], dot ∉ field := by
    intro a b c d field hfield
    simp only [List.mem_cons, List.not_mem_nil, or_false] at hfield
    rcases hfield with rfl | rfl | rfl | rfl <;> exact dot_notMem_natBytes _
  have hfields := Split.intercalate_inj_of_notMem dot (hplain a b c d) (hplain a' b' c' d') (List.cons_ne_nil _ _)
    (List.cons_ne_nil _ _) h
  simp only [List.cons.injEq, and_true] at hfields
  obtain ⟨ha, hb, hc, hd⟩ := hfields
  exact ⟨natBytes_injective ha, natBytes_injective hb, natBytes_injective hc, natBytes_injective hd⟩

theorem subnet_eq (link : LinkInput) :
    link.subnet = quad 10 (1 + link.index.toNat / 256) (link.index.toNat % 256) 0 := by
  have hlt : link.index.toNat < 2 ^ 32 := link.index.toNat_lt
  have hsecond : link.secondOctet.toNat = 1 + link.index.toNat / 256 := by
    have hdiv : (link.index / 256).toNat = link.index.toNat / 256 := UInt32.toNat_div ..
    rw [LinkInput.secondOctet, UInt32.toNat_add, hdiv]
    have hone : (1 : UInt32).toNat = 1 := rfl
    omega
  have hthird : link.thirdOctet.toNat = link.index.toNat % 256 := UInt32.toNat_mod ..
  have hten : ascii "10." = natBytes 10 ++ [dot] := rfl
  have hdot : ascii "." = [dot] := rfl
  have hzero : ascii ".0" = dot :: natBytes 0 := rfl
  rw [LinkInput.subnet, hsecond, hthird, hten, hdot, hzero, quad]
  simp [List.intercalate_cons_cons]

/-- **A subnet is a dotted quad exactly for an index below 65280.** -/
theorem dottedQuad_iff (link : LinkInput) : DottedQuad link.subnet ↔ link.index.toNat < 65280 := by
  rw [subnet_eq]
  constructor
  · rintro ⟨a, b, c, d, -, hb, -, -, heq⟩
    obtain ⟨-, hsecond, -, -⟩ := quad_injective heq
    omega
  · intro h
    exact ⟨10, 1 + link.index.toNat / 256, link.index.toNat % 256, 0, by omega, by omega, by omega, by omega, rfl⟩

/-- Links with different indices get different subnets, valid or not. -/
theorem index_of_subnet_eq {link link' : LinkInput} (h : link.subnet = link'.subnet) :
    link.index.toNat = link'.index.toNat := by
  rw [subnet_eq, subnet_eq] at h
  obtain ⟨-, hsecond, hthird, -⟩ := quad_injective h
  omega

/-! ## Flows -/

def FlowInput.port (flow : FlowInput) : UInt16 := (9000 + flow.index % 50000).toUInt16

/-- **Two flows share a port exactly when their indices differ by a multiple of 50000.** -/
theorem port_eq_iff (flow flow' : FlowInput) :
    flow.port = flow'.port ↔ flow.index.toNat % 50000 = flow'.index.toNat % 50000 := by
  have hport : ∀ flow : FlowInput, flow.port.toNat = 9000 + flow.index.toNat % 50000 := by
    intro flow
    have hmod : (flow.index % 50000).toNat = flow.index.toNat % 50000 := UInt32.toNat_mod ..
    rw [FlowInput.port, UInt32.toNat_toUInt16, UInt32.toNat_add, hmod]
    have hbase : (9000 : UInt32).toNat = 9000 := rfl
    omega
  rw [← UInt16.toNat_inj, hport, hport]
  omega

section Flows
variable (hasAddress : UInt32 → Bool) (scenario : Scenario)

/-- The flows applications are installed for: enabled, both ends alive, and the target has an address. -/
def Scenario.installedFlows : List FlowInput :=
  scenario.flows.filter fun flow =>
    flow.enabled && scenario.aliveAt flow.source && scenario.aliveAt flow.target && hasAddress flow.target

def Scenario.portToFlowIndex : Dict UInt16 UInt32 :=
  Dict.ofList ((scenario.installedFlows hasAddress).map fun flow => (flow.port, flow.index))

/-- One entry of the flow monitor, with the classifier's tuple. -/
structure MonitorEntry where
  destinationPort : UInt16
  protocol : UInt8
  stats : FlowStats

/-- The loop that fills `measured`. -/
def Scenario.measured (entries : List MonitorEntry) : Dict UInt32 FlowStats :=
  Dict.ofList (entries.filterMap fun entry =>
    if entry.protocol = 17 then
      ((scenario.portToFlowIndex hasAddress).get? entry.destinationPort).map fun index => (index, entry.stats)
    else none)

/-- What the monitor last counted of the packets sent to the port of a flow. -/
def FlowInput.sentStats (flow : FlowInput) (entries : List MonitorEntry) : Option FlowStats :=
  ((entries.filter fun entry => entry.protocol = 17 ∧ entry.destinationPort = flow.port).map MonitorEntry.stats).getLast?

end Flows

variable {hasAddress : UInt32 → Bool} {scenario : Scenario}

/-- A port leads to the index of the flow it was given to, when the ports are distinct. -/
theorem portToFlowIndex_get? (hports : ((scenario.installedFlows hasAddress).map FlowInput.port).Nodup) {port : UInt16}
    {index : UInt32} : (scenario.portToFlowIndex hasAddress).get? port = some index ↔
      ∃ flow ∈ scenario.installedFlows hasAddress, flow.port = port ∧ flow.index = index := by
  have hkeys : (((scenario.installedFlows hasAddress).map fun flow => (flow.port, flow.index)).map Prod.fst).Nodup := by
    rw [List.map_map]
    exact hports
  rw [Scenario.portToFlowIndex, Dict.get?_ofList hkeys, List.mem_map]
  simp only [Prod.mk.injEq]

/-- **Flows with ports and indices of their own are reported their own statistics.** -/
theorem measured_get? (hports : ((scenario.installedFlows hasAddress).map FlowInput.port).Nodup)
    (hindices : ((scenario.installedFlows hasAddress).map FlowInput.index).Nodup) {flow : FlowInput}
    (hflow : flow ∈ scenario.installedFlows hasAddress) (entries : List MonitorEntry) :
    (scenario.measured hasAddress entries).get? flow.index = flow.sentStats entries := by
  have hown : ∀ port, (scenario.portToFlowIndex hasAddress).get? port = some flow.index ↔ port = flow.port := by
    intro port
    rw [portToFlowIndex_get? hports]
    constructor
    · rintro ⟨flow', hflow', rfl, hindex⟩
      rw [List.inj_on_of_nodup_map hindices hflow' hflow hindex]
    · rintro rfl
      exact ⟨flow, hflow, rfl, rfl⟩
  rw [Scenario.measured, Dict.get?_ofList_eq, FlowInput.sentStats]
  congr 1
  induction entries with
  | nil => rfl
  | cons entry entries ih =>
    have hentry := hown entry.destinationPort
    rw [List.filterMap_cons, List.filter_cons]
    by_cases hudp : entry.protocol = 17
    · cases hget : (scenario.portToFlowIndex hasAddress).get? entry.destinationPort with
      | none =>
        have hport : ¬ entry.destinationPort = flow.port := fun h => by simpa [hget] using hentry.mpr h
        simpa [hudp, hget, hport] using ih
      | some index =>
        by_cases hindex : index = flow.index
        · have hport : entry.destinationPort = flow.port := hentry.mp (hindex ▸ hget)
          simpa [hudp, hget, hindex, hport] using ih
        · have hport : ¬ entry.destinationPort = flow.port := fun h =>
            hindex (Option.some.inj (hget.symm.trans (hentry.mpr h)))
          simpa [hudp, hget, hindex, hport] using ih
    · simpa [hudp] using ih

/-! ## Numbered scenarios -/

/-- The links and the flows are numbered as they are listed. -/
structure Scenario.Numbered (scenario : Scenario) : Prop where
  links : (scenario.links.map fun link => link.index.toNat) = List.range scenario.links.length
  flows : (scenario.flows.map fun flow => flow.index.toNat) = List.range scenario.flows.length

/-- Every active link has a valid subnet of its own, every installed flow a port of its own, and each such flow is
reported what was counted of its packets. -/
structure Addressed (hasAddress : UInt32 → Bool) (scenario : Scenario) : Prop where
  quads : ∀ link ∈ scenario.activeLinks, DottedQuad link.subnet
  subnets : (scenario.activeLinks.map LinkInput.subnet).Nodup
  ports : ((scenario.installedFlows hasAddress).map FlowInput.port).Nodup
  reported : ∀ flow ∈ scenario.installedFlows hasAddress, ∀ entries,
    (scenario.measured hasAddress entries).get? flow.index = flow.sentStats entries

theorem Scenario.Numbered.link_indices (h : scenario.Numbered) :
    (scenario.activeLinks.map fun link => link.index.toNat).Nodup := by
  have hall : (scenario.links.map fun link => link.index.toNat).Nodup := h.links ▸ List.nodup_range
  exact hall.sublist (List.filter_sublist.map _)

theorem Scenario.Numbered.flow_indices (h : scenario.Numbered) :
    ((scenario.installedFlows hasAddress).map FlowInput.index).Nodup := by
  have hall : (scenario.flows.map fun flow => flow.index.toNat).Nodup := h.flows ▸ List.nodup_range
  have hindices : ((scenario.flows.map FlowInput.index).map UInt32.toNat).Nodup := by
    rw [List.map_map]
    exact hall
  exact (hindices.of_map _).sublist (List.filter_sublist.map _)

/-- **The addresses of a numbered scenario are valid and distinct exactly when** every active link has an index below
65280 and no two installed flows have indices that differ by a multiple of 50000. -/
theorem addressed_iff (hnum : scenario.Numbered) : Addressed hasAddress scenario ↔
    (∀ link ∈ scenario.activeLinks, link.index.toNat < 65280) ∧
      ∀ flow ∈ scenario.installedFlows hasAddress, ∀ flow' ∈ scenario.installedFlows hasAddress,
        flow.index.toNat % 50000 = flow'.index.toNat % 50000 → flow.index = flow'.index := by
  have hindices := @Scenario.Numbered.flow_indices hasAddress scenario hnum
  have hsubnets : (scenario.activeLinks.map LinkInput.subnet).Nodup := by
    refine (List.nodup_map_iff_inj_on (hnum.link_indices.of_map _)).mpr ?_
    intro link hlink link' hlink' heq
    exact List.inj_on_of_nodup_map hnum.link_indices hlink hlink' (index_of_subnet_eq heq)
  have hports : ((scenario.installedFlows hasAddress).map FlowInput.port).Nodup ↔
      ∀ flow ∈ scenario.installedFlows hasAddress, ∀ flow' ∈ scenario.installedFlows hasAddress,
        flow.index.toNat % 50000 = flow'.index.toNat % 50000 → flow.index = flow'.index := by
    rw [List.nodup_map_iff_inj_on (hindices.of_map _)]
    refine forall₂_congr fun flow hflow => forall₂_congr fun flow' hflow' => ?_
    rw [port_eq_iff]
    constructor
    · intro h heq
      exact congrArg FlowInput.index (h heq)
    · intro h heq
      exact List.inj_on_of_nodup_map hindices hflow hflow' (h heq)
  constructor
  · intro h
    exact ⟨fun link hlink => (dottedQuad_iff link).mp (h.quads link hlink), hports.mp h.ports⟩
  · rintro ⟨hlow, happart⟩
    have hnodup := hports.mpr happart
    exact ⟨fun link hlink => (dottedQuad_iff link).mpr (hlow link hlink), hsubnets, hnodup,
      fun flow hflow entries => measured_get? hnodup hindices hflow entries⟩

/-! ## One link too many -/

def standingNode (index : UInt32) : NodeInput := ⟨index, .finite 0, .finite 0, .finite 0, true⟩

def upLink (index : ℕ) : LinkInput := ⟨UInt32.ofNat index, 0, 1, 1000000, .finite 1, .finite 0, true⟩

/-- Two nodes joined by some links, with two flows between them. -/
def linkedPair (links : ℕ) : Scenario where
  id := ascii "pair"
  expectedNodes := 2
  expectedLinks := UInt32.ofNat links
  expectedFlows := 2
  nodes := [standingNode 0, standingNode 1]
  links := (List.range links).map upLink
  flows := [⟨0, 0, 1, 64, 1, 100, true⟩, ⟨1, 1, 0, 64, 1, 100, true⟩]

theorem toNat_upLink {index : ℕ} (h : index < 2 ^ 32) : (upLink index).index.toNat = index := by
  rw [upLink, UInt32.toNat_ofNat', Nat.mod_eq_of_lt h]

theorem linkedPair_numbered {links : ℕ} (h : links < 2 ^ 32) : (linkedPair links).Numbered := by
  constructor
  · rw [linkedPair, List.map_map, List.length_map, List.length_range]
    have hindex : ∀ i ∈ List.range links, ((fun link => link.index.toNat) ∘ upLink) i = i := fun i hi =>
      toNat_upLink ((List.mem_range.mp hi).trans h)
    rw [List.map_congr_left hindex, List.map_id']
  · rfl

theorem linkedPair_addressed : Addressed (fun _ => true) (linkedPair 2) :=
  (addressed_iff (linkedPair_numbered (by decide))).mpr (by decide +kernel)

theorem linkedPair_valid {links : ℕ} (h : links < 2 ^ 32) : validateScenario (linkedPair links) = .ok () := by
  have hcount : links = (UInt32.ofNat links).toNat := by rw [UInt32.toNat_ofNat', Nat.mod_eq_of_lt h]
  have hlinks : forM (linkedPair links).links (validateLink 2) = .ok () := by
    rw [Except.forM_ok_iff]
    intro link hlink
    obtain ⟨i, -, rfl⟩ := List.mem_map.mp hlink
    rfl
  have hrecords : ((linkedPair links).nodes.length == (linkedPair links).expectedNodes.toNat &&
      (linkedPair links).links.length == (linkedPair links).expectedLinks.toNat &&
      (linkedPair links).flows.length == (linkedPair links).expectedFlows.toNat) = true := by
    simp [linkedPair, ← hcount]
  unfold validateScenario
  rw [hrecords]
  have hnodes : (linkedPair links).nodes.length = 2 := rfl
  rw [hnodes, hlinks]
  rfl

theorem upLink_active {links index : ℕ} (h : index < links) : upLink index ∈ (linkedPair links).activeLinks := by
  have hmem : upLink index ∈ (linkedPair links).links := List.mem_map_of_mem (List.mem_range.mpr h)
  exact List.mem_filter.mpr ⟨hmem, rfl⟩

/-- The last of 65281 links gets the subnet 10.256.0.0. -/
theorem linkedPair_not_addressed : ¬ ∀ (hasAddress : UInt32 → Bool) (scenario : Scenario),
    validateScenario scenario = .ok () → scenario.Numbered → Addressed hasAddress scenario := by
  intro hall
  have hsize : 65281 < 2 ^ 32 := by norm_num
  have haddressed := hall (fun _ => true) (linkedPair 65281) (linkedPair_valid hsize) (linkedPair_numbered hsize)
  have hlast : 65280 < 65281 := by norm_num
  have hlow := (dottedQuad_iff (upLink 65280)).mp (haddressed.quads _ (upLink_active hlast))
  rw [toNat_upLink (by norm_num)] at hlow
  omega

end AfsimNs3.Runner
