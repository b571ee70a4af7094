import AfsimNs3.Lib.Worklist
import AfsimNs3.Runner.Main

/-!
# Active paths (`afsim-ns3-runner.cc`)

`HasActivePath` searches the nodes from the source with a stack, over the links that carry traffic. The adjacency lists
hold exactly the nodes joined by such a link (`mem_neighbours_iff`), so the search ends and finds the target if and only
if a path leads to it (`hasActivePath_ends`). `simulate` is what `RunScenario` prints of each flow; what the flow
monitor counts is the parameter `network`.
-/

namespace AfsimNs3.Runner
open AfsimNs3.Bridge.Ns3Runner (Result MetricValues)

/-- `scenario.nodes[node].alive`. -/
def Scenario.aliveAt (scenario : Scenario) (node : UInt32) : Bool :=
  match scenario.nodes[node.toNat]? with
  | some input => input.alive
  | none => false

/-- The link is up and so are both ends. -/
def Scenario.carries (scenario : Scenario) (link : LinkInput) : Bool :=
  link.up && scenario.aliveAt link.source && scenario.aliveAt link.target

/-- One link in the loop that fills `adjacency`. -/
def Scenario.addLink (scenario : Scenario) (adjacency : List (List UInt32)) (link : LinkInput) : List (List UInt32) :=
  if scenario.carries link then
    (adjacency.modify link.source.toNat (· ++ [link.target])).modify link.target.toNat (· ++ [link.source])
  else adjacency

def Scenario.adjacency (scenario : Scenario) : List (List UInt32) :=
  scenario.links.foldl scenario.addLink (List.replicate scenario.nodes.length [])

def Scenario.neighbours (scenario : Scenario) (node : UInt32) : List UInt32 :=
  (scenario.adjacency[node.toNat]?).getD []

/-- `HasActivePath`, its loop cut off after some turns. -/
def hasActivePath (scenario : Scenario) (source target : UInt32) (turns : ℕ) : Option Bool :=
  if !scenario.aliveAt source || !scenario.aliveAt target then some false
  else Worklist.search scenario.neighbours target turns (Worklist.start source)

/-! ## The results -/

/-- What the flow monitor says of a flow. The quotients are the ones `RunScenario` forms, as they are printed. -/
structure FlowStats where
  txPackets : ℕ
  rxPackets : ℕ
  meanDelayMs : Double
  lostShare : Double
  activeSeconds : Double
  receivedBps : Double

/-- One `RESULT` line. -/
def resultOf (scenario : Scenario) (measured : UInt32 → Option FlowStats) (flow : FlowInput) : Result :=
  let connected := flow.enabled &&
    (hasActivePath scenario flow.source flow.target (scenario.nodes.length + 1)).getD false
  let linkState := if connected then str "UP" else str "DOWN"
  match measured flow.index with
  | none => ⟨flow.index.toNat, ⟨connected, .finite 0, .finite 1, .finite 0, 0, 0, linkState⟩⟩
  | some stats => ⟨flow.index.toNat,
      { connected := connected
        latencyMs := if 0 < stats.rxPackets then stats.meanDelayMs else .finite 0
        lossRate := if 0 < stats.txPackets then stats.lostShare else .finite 1
        throughputBps := if 0 < stats.rxPackets ∧ stats.activeSeconds.above 0 then stats.receivedBps else .finite 0
        txPackets := stats.txPackets
        rxPackets := stats.rxPackets
        linkState := linkState }⟩

/-- `RunScenario` after the validation: the run of the network, then a line for each flow. -/
def simulate (network : Scenario → Except Bytes (UInt32 → Option FlowStats)) (scenario : Scenario) :
    Except Bytes (List Result) := do
  let measured ← network scenario
  pure (scenario.flows.map (resultOf scenario measured))

/-! ## Reachability -/

/-- A link that carries traffic joins the nodes, in either direction. -/
def Scenario.Joined (scenario : Scenario) (v w : UInt32) : Prop :=
  ∃ link ∈ scenario.links, scenario.carries link = true ∧
    (link.source = v ∧ link.target = w ∨ link.target = v ∧ link.source = w)

/-- Both nodes exist and are alive, and a path of such links leads from one to the other. -/
def Scenario.Connects (scenario : Scenario) (source target : UInt32) : Prop :=
  scenario.aliveAt source = true ∧ scenario.aliveAt target = true ∧
    Relation.ReflTransGen scenario.Joined source target

variable {scenario : Scenario}

theorem lt_of_aliveAt {node : UInt32} (h : scenario.aliveAt node = true) : node.toNat < scenario.nodes.length := by
  by_contra hout
  have hnone : scenario.nodes[node.toNat]? = none := List.getElem?_eq_none (not_lt.mp hout)
  rw [Scenario.aliveAt, hnone] at h
  exact absurd h Bool.false_ne_true

theorem mem_getD_modify {α : Type} (xss : List (List α)) (i j : ℕ) (x y : α) (hi : i < xss.length) :
    y ∈ ((xss.modify i (· ++ [x]))[j]?).getD [] ↔ y ∈ (xss[j]?).getD [] ∨ i = j ∧ y = x := by
  rw [List.getElem?_modify]
  by_cases hij : i = j
  · subst hij
    simp [List.getElem?_eq_getElem hi]
  · simp [hij]

theorem length_addLink (adjacency : List (List UInt32)) (link : LinkInput) :
    (scenario.addLink adjacency link).length = adjacency.length := by
  unfold Scenario.addLink
  split_ifs
  · rw [List.length_modify, List.length_modify]
  · rfl

theorem mem_addLink (adjacency : List (List UInt32)) (hlength : adjacency.length = scenario.nodes.length)
    (link : LinkInput) (v w : UInt32) :
    w ∈ ((scenario.addLink adjacency link)[v.toNat]?).getD [] ↔ w ∈ (adjacency[v.toNat]?).getD [] ∨
      scenario.carries link = true ∧
        (link.source = v ∧ link.target = w ∨ link.target = v ∧ link.source = w) := by
  unfold Scenario.addLink
  split_ifs with hcarries
  · have hends := hcarries
    rw [Scenario.carries, Bool.and_eq_true, Bool.and_eq_true] at hends
    have hsource := lt_of_aliveAt hends.1.2
    have htarget := lt_of_aliveAt hends.2
    rw [mem_getD_modify _ _ _ _ _ (by rw [List.length_modify]; omega), mem_getD_modify _ _ _ _ _ (by omega),
      UInt32.toNat_inj, UInt32.toNat_inj, or_assoc, eq_comm (a := w), eq_comm (a := w), and_iff_right hcarries]
  · rw [or_iff_left fun h => hcarries h.1]

/-- **The adjacency lists hold the joined nodes.** -/
theorem mem_neighbours_iff {v w : UInt32} : w ∈ scenario.neighbours v ↔ scenario.Joined v w := by
  have hfold : ∀ (links : List LinkInput) (adjacency : List (List UInt32)),
      adjacency.length = scenario.nodes.length →
      (w ∈ ((links.foldl scenario.addLink adjacency)[v.toNat]?).getD [] ↔ w ∈ (adjacency[v.toNat]?).getD [] ∨
        ∃ link ∈ links, scenario.carries link = true ∧
          (link.source = v ∧ link.target = w ∨ link.target = v ∧ link.source = w)) := by
    intro links
    induction links with
    | nil => intro adjacency _; simp
    | cons link links ih =>
      intro adjacency hlength
      rw [List.foldl_cons, ih _ ((length_addLink adjacency link).trans hlength), mem_addLink adjacency hlength link,
        List.exists_mem_cons_iff, or_assoc]
  have hempty : w ∉ ((List.replicate scenario.nodes.length ([] : List UInt32))[v.toNat]?).getD [] := by
    rw [List.getElem?_replicate]
    split_ifs
    · exact List.not_mem_nil
    · exact List.not_mem_nil
  rw [Scenario.neighbours, Scenario.adjacency, hfold _ _ List.length_replicate, or_iff_right hempty]
  rfl

theorem reaches_iff {source target : UInt32} : Worklist.Reaches scenario.neighbours source target ↔
    Relation.ReflTransGen scenario.Joined source target := by
  have hsame : (fun v w => w ∈ scenario.neighbours v) = scenario.Joined :=
    funext fun v => funext fun w => propext mem_neighbours_iff
  rw [Worklist.Reaches, hsame]

theorem aliveAt_of_joined {v w : UInt32} (h : scenario.Joined v w) : scenario.aliveAt w = true := by
  obtain ⟨link, -, hcarries, hends⟩ := h
  rw [Scenario.carries, Bool.and_eq_true, Bool.and_eq_true] at hcarries
  rcases hends with ⟨-, rfl⟩ | ⟨-, rfl⟩
  · exact hcarries.2
  · exact hcarries.1.2

/-- **The search ends**, and says whether the nodes are connected. -/
theorem hasActivePath_ends (scenario : Scenario) (source target : UInt32) :
    ∃ found : Bool, (found = true ↔ scenario.Connects source target) ∧
      ∀ turns, scenario.nodes.length < turns → hasActivePath scenario source target turns = some found := by
  by_cases hends : scenario.aliveAt source = true ∧ scenario.aliveAt target = true
  · obtain ⟨hsource, htarget⟩ := hends
    have hnodes : ∀ v, Worklist.Reaches scenario.neighbours source v →
        v ∈ (List.range scenario.nodes.length).map UInt32.ofNat := by
      intro v hv
      have halive : scenario.aliveAt v = true := by
        rcases Relation.ReflTransGen.cases_tail (reaches_iff.mp hv) with rfl | ⟨u, -, hjoined⟩
        · exact hsource
        · exact aliveAt_of_joined hjoined
      exact List.mem_map.mpr ⟨v.toNat, List.mem_range.mpr (lt_of_aliveAt halive), UInt32.ofNat_toNat⟩
    obtain ⟨found, hfound, hsearch⟩ := Worklist.search_ends target hnodes
    refine ⟨found, ?_, fun turns hturns => ?_⟩
    · rw [hfound, reaches_iff, Scenario.Connects, and_iff_right hsource, and_iff_right htarget]
    · rw [hasActivePath, hsource, htarget]
      exact hsearch turns (by rwa [List.length_map, List.length_range])
  · refine ⟨false, iff_of_false Bool.false_ne_true fun h => hends ⟨h.1, h.2.1⟩, fun turns _ => ?_⟩
    rw [hasActivePath, if_pos]
    by_cases hsource : scenario.aliveAt source = true
    · have htarget : scenario.aliveAt target ≠ true := fun htarget => hends ⟨hsource, htarget⟩
      simp [htarget]
    · simp [hsource]

/-- The `connected` column. -/
theorem resultOf_connected (scenario : Scenario) (measured : UInt32 → Option FlowStats) (flow : FlowInput) :
    (resultOf scenario measured flow).index = flow.index.toNat ∧
      ((resultOf scenario measured flow).values.connected = true ↔
        flow.enabled = true ∧ scenario.Connects flow.source flow.target) := by
  obtain ⟨found, hfound, hends⟩ := hasActivePath_ends scenario flow.source flow.target
  have hsearch := hends (scenario.nodes.length + 1) (Nat.lt_succ_self _)
  have hcolumn : (resultOf scenario measured flow).values.connected = (flow.enabled && found) := by
    unfold resultOf
    rw [hsearch]
    cases measured flow.index <;> rfl
  refine ⟨?_, by rw [hcolumn, Bool.and_eq_true, hfound]⟩
  unfold resultOf
  cases measured flow.index <;> rfl

/-- A valid scenario has as many records as it expects. -/
theorem counts_of_valid (h : validateScenario scenario = .ok ()) :
    scenario.nodes.length = scenario.expectedNodes.toNat ∧ scenario.links.length = scenario.expectedLinks.toNat ∧
      scenario.flows.length = scenario.expectedFlows.toNat := by
  rw [validateScenario, Except.bind_ok_iff] at h
  obtain ⟨_, hcounts, -⟩ := h
  unfold ensure at hcounts
  split_ifs at hcounts with hcond
  rw [Bool.and_eq_true, Bool.and_eq_true, beq_iff_eq, beq_iff_eq, beq_iff_eq, and_assoc] at hcond
  exact hcond

/-- The replies to `RUN`. -/
theorem runScenario_simulate {network : Scenario → Except Bytes (UInt32 → Option FlowStats)} {replies : List Reply}
    (h : runScenario (simulate network) scenario = .ok replies) : ∃ measured, network scenario = .ok measured ∧
      replies = (scenario.flows.map (resultOf scenario measured)).map Reply.result ++ [.done scenario.id] := by
  simp only [runScenario, simulate, Except.bind_ok_iff] at h
  obtain ⟨_, -, results, ⟨measured, hnetwork, hresults⟩, hreplies⟩ := h
  obtain rfl := Except.ok.inj hresults
  exact ⟨measured, hnetwork, (Except.ok.inj hreplies).symm⟩

/-- **Connectivity is reachability.** In a valid scenario the search ends and finds a target if and only if the nodes
are connected, and so say the `RESULT` lines, flow by flow. -/
theorem connected_iff_reachable (hvalid : validateScenario scenario = .ok ()) :
    (∀ source target, ∃ found : Bool, (found = true ↔ scenario.Connects source target) ∧
      ∀ turns, scenario.expectedNodes.toNat < turns → hasActivePath scenario source target turns = some found) ∧
    ∀ network replies, runScenario (simulate network) scenario = .ok replies →
      ∃ results, replies = results.map Reply.result ++ [.done scenario.id] ∧
        List.Forall₂ (fun flow result => result.index = flow.index.toNat ∧
          (result.values.connected = true ↔ flow.enabled = true ∧ scenario.Connects flow.source flow.target))
          scenario.flows results := by
  refine ⟨fun source target => ?_, fun network replies hrun => ?_⟩
  · rw [← (counts_of_valid hvalid).1]
    exact hasActivePath_ends scenario source target
  · obtain ⟨measured, -, hreplies⟩ := runScenario_simulate hrun
    refine ⟨_, hreplies, ?_⟩
    rw [List.forall₂_map_right_iff, List.forall₂_same]
    exact fun flow _ => resultOf_connected scenario measured flow

/-- Three nodes in a row, the links declared towards the middle, and a fourth node apart. -/
def relayScenario : Scenario where
  id := ascii "1-0"
  expectedNodes := 4
  expectedLinks := 2
  expectedFlows := 2
  nodes := [⟨0, .finite 0, .finite 0, .finite 0, true⟩, ⟨1, .finite 0, .finite 0, .finite 0, true⟩,
    ⟨2, .finite 0, .finite 0, .finite 0, true⟩, ⟨3, .finite 0, .finite 0, .finite 0, true⟩]
  links := [⟨0, 0, 1, 1000, .finite 0, .finite 0, true⟩, ⟨1, 2, 1, 1000, .finite 0, .finite 0, true⟩]
  flows := [⟨0, 0, 2, 64, 10, 100, true⟩, ⟨1, 0, 3, 64, 10, 100, true⟩]

/-- Nine packets of ten arrive along the row. -/
def relayStats (index : UInt32) : Option FlowStats :=
  if index = 0 then some ⟨10, 9, .finite 2, .finite (1 / 10), .finite 1, .finite 4608⟩ else none

theorem relay_reachable : (∀ turns, 4 < turns → hasActivePath relayScenario 0 2 turns = some true) ∧
    relayScenario.Connects 0 2 ∧ ¬ relayScenario.Connects 0 3 ∧
    ∃ relayed apart, runScenario (simulate fun _ => .ok relayStats) relayScenario =
        .ok [.result relayed, .result apart, .done relayScenario.id] ∧
      relayed.values.connected = true ∧ apart.values.connected = false := by
  have hvalid : validateScenario relayScenario = .ok () := by decide +kernel
  obtain ⟨hsearches, hlines⟩ := connected_iff_reachable hvalid
  obtain ⟨found, hfound, hends⟩ := hsearches 0 2
  obtain ⟨missed, hmissed, hgivesUp⟩ := hsearches 0 3
  have htrue : hasActivePath relayScenario 0 2 5 = some true := by decide +kernel
  have hfalse : hasActivePath relayScenario 0 3 5 = some false := by decide +kernel
  obtain rfl : found = true := Option.some.inj ((hends 5 (by decide)).symm.trans htrue)
  obtain rfl : missed = false := Option.some.inj ((hgivesUp 5 (by decide)).symm.trans hfalse)
  have hreached : relayScenario.Connects 0 2 := hfound.mp rfl
  have hapart : ¬ relayScenario.Connects 0 3 := fun h => Bool.false_ne_true (hmissed.mpr h)
  obtain ⟨replies, hrun⟩ : ∃ replies, runScenario (simulate fun _ => .ok relayStats) relayScenario = .ok replies := by
    unfold runScenario
    rw [hvalid]
    exact ⟨_, rfl⟩
  obtain ⟨results, hreplies, hflows⟩ := hlines _ replies hrun
  obtain ⟨relayed, rest, ⟨-, hrelayed⟩, hrest, rfl⟩ := List.forall₂_cons_left_iff.mp hflows
  obtain ⟨apart, rest, ⟨-, hcut⟩, hnil, rfl⟩ := List.forall₂_cons_left_iff.mp hrest
  obtain rfl := List.forall₂_nil_left_iff.mp hnil
  refine ⟨hends, hreached, hapart, relayed, apart, hrun.trans (congrArg Except.ok hreplies),
    hrelayed.mpr ⟨rfl, hreached⟩, ?_⟩
  exact Bool.eq_false_iff.mpr fun h => hapart (hcut.mp h).2

end AfsimNs3.Runner
