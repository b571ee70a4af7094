import AfsimNs3.Runner.Paths
import AfsimNs3.System.Scenarios

/-!
# Active links on both sides

Python derives the state of a link from its device and from the entities at both ends, the worker searches a path over
the links that are up between live nodes. When the worker reports a flow of a snapshot as connected, it has parsed every
line (`reported_parsed`: after an error no flow is expected), so its nodes and links are those of the snapshot
(`Carried`), and its path is a chain of links that `compute` lists as up (`chain_of_joined`).
-/

namespace AfsimNs3.System
open Bridge Bridge.Ns3Runner Runner LockStep

/-! ## What `compute` says -/

/-- A link that is up joins the entities, in either direction. -/
def UpLink (links : List LinkRecord) (a b : Str) : Prop :=
  ∃ link ∈ links, link.state = .up ∧
    (link.sourceEntityId = a ∧ link.targetEntityId = b ∨ link.targetEntityId = a ∧ link.sourceEntityId = b)

/-- A chain of links that are up. -/
def Chained (links : List LinkRecord) : Str → Str → Prop := Relation.TransGen (UpLink links)

/-- The entity is listed alive and connected. -/
def ListedConnected (nodes : List NodeRecord) (id : Str) : Prop :=
  ∃ node ∈ nodes, node.entityId = id ∧ node.alive = true ∧ node.connected = true

theorem mem_connectedEntities {links : List LinkRecord} {a b : Str} (h : UpLink links a b) :
    a ∈ connectedEntities links ∧ b ∈ connectedEntities links := by
  obtain ⟨link, hlink, hup, hends⟩ := h
  have hmem : ∀ id ∈ [link.sourceEntityId, link.targetEntityId], id ∈ connectedEntities links := fun id hid =>
    List.mem_flatMap.mpr ⟨link, List.mem_filter.mpr ⟨hlink, decide_eq_true hup⟩, hid⟩
  have hsource := hmem _ List.mem_cons_self
  have htarget := hmem _ (List.mem_cons_of_mem _ List.mem_cons_self)
  rcases hends with ⟨rfl, rfl⟩ | ⟨rfl, rfl⟩
  · exact ⟨hsource, htarget⟩
  · exact ⟨htarget, hsource⟩

/-! ## What the worker holds of a snapshot -/

structure LinkCarried (ids : List Str) (link : LinkRecord) (input : LinkInput) : Prop where
  source : ids[input.source.toNat]? = some link.sourceEntityId
  target : ids[input.target.toNat]? = some link.targetEntityId
  up : input.up = decide (link.state = .up)

structure FlowCarried (ids : List Str) (flow : FlowConfig × ℕ) (input : FlowInput) : Prop where
  index : input.index.toNat = flow.2
  source : ids[input.source.toNat]? = some flow.1.sourceEntityId
  target : ids[input.target.toNat]? = some flow.1.targetEntityId

/-- The nodes, links and flows are those of the snapshot, as far as connectivity depends on them. -/
structure Carried (snap : StateSnapshot) (scenario : Scenario) : Prop where
  nodes : List.Forall₂ (fun (entity : EntityState × ℕ) node => node.alive = entity.1.alive) snap.entities.zipIdx
    scenario.nodes
  links : List.Forall₂ (fun (link : LinkRecord × ℕ) => LinkCarried snap.ids link.1) (links snap.entities).zipIdx
    scenario.links
  flows : List.Forall₂ (FlowCarried snap.ids) snap.flows.zipIdx scenario.flows

section Lines
variable {floatText : ℚ → Bytes} {stod : Bytes → Except Bytes Double} {snap : StateSnapshot}

theorem toNat_of_read {n : ℕ} {v : UInt32} (h : toUint32 (natBytes n) = .ok v) : v.toNat = n := by
  obtain ⟨hlt, rfl⟩ := toUint32_natBytes.mp h
  exact toNat_uint32 hlt

theorem nodeLine_carried {entity : EntityState × ℕ} (hentity : entity.1 ∈ snap.entities)
    (htab : ∀ q ∈ writtenFloats snap, (9 : UInt8) ∉ floatText q) {c : Command}
    (h : parseCommand stod (nodeLine floatText entity) = .ok c) :
    ∃ node, c = .node node ∧ node.alive = entity.1.alive := by
  have hfloat : ∀ q ∈ [entity.1.position.xM, entity.1.position.yM, entity.1.position.zM],
      (9 : UInt8) ∉ floatText q := fun q hq =>
    htab q (List.mem_append_left _ (List.mem_flatMap.mpr ⟨entity.1, hentity, hq⟩))
  simp only [List.forall_mem_cons, List.not_mem_nil, false_imp_iff, implies_true, and_true] at hfloat
  rw [parseCommand, splitTabs_nodeLine hfloat.1 hfloat.2.1 hfloat.2.2] at h
  dsimp only at h
  rw [if_neg (by decide), if_pos rfl, toBool_flag] at h
  simp only [Except.bind_ok_iff, Except.pure_ok_iff] at h
  obtain ⟨_, -, _, -, _, -, _, -, alive, halive, rfl⟩ := h
  exact ⟨_, rfl, (Except.ok.inj halive).symm⟩

theorem linkLine_carried (hn : snap.ids.Nodup) {link : LinkRecord × ℕ} (hlink : link.1 ∈ links snap.entities)
    (htab : ∀ q ∈ writtenFloats snap, (9 : UInt8) ∉ floatText q) {line : Bytes} {c : Command}
    (hline : linkLine floatText snap.entities link = some line) (h : parseCommand stod line = .ok c) :
    ∃ input, c = .link input ∧ LinkCarried snap.ids link.1 input := by
  have hfloat : ∀ q ∈ [link.1.delayMs, link.1.configuredLossRate], (9 : UInt8) ∉ floatText q := fun q hq =>
    htab q (List.mem_append_right _ (List.mem_flatMap.mpr ⟨link.1, hlink, hq⟩))
  simp only [List.forall_mem_cons, List.not_mem_nil, false_imp_iff, implies_true, and_true] at hfloat
  have hlookups := hline
  simp only [linkLine, Option.bind_eq_bind, Option.bind_eq_some_iff] at hlookups
  obtain ⟨source, hsource, target, htarget, -⟩ := hlookups
  obtain ⟨line', hline', hsplit⟩ := linkLine_split hsource htarget hfloat.1 hfloat.2
  obtain rfl := Option.some.inj (hline'.symm.trans hline)
  rw [parseCommand, hsplit] at h
  dsimp only at h
  rw [if_neg (by decide), if_neg (by decide), if_pos rfl, toBool_flag] at h
  simp only [Except.bind_ok_iff, Except.pure_ok_iff] at h
  obtain ⟨_, -, s, hs, t, ht, _, -, _, -, _, -, up, hup, rfl⟩ := h
  refine ⟨_, rfl, ?_, ?_, (Except.ok.inj hup).symm⟩
  · show snap.ids[s.toNat]? = _
    rw [toNat_of_read hs]
    exact (nodeIndex_get? hn).mp hsource
  · show snap.ids[t.toNat]? = _
    rw [toNat_of_read ht]
    exact (nodeIndex_get? hn).mp htarget

theorem flowLine_carried (hn : snap.ids.Nodup) {flow : FlowConfig × ℕ} {line : Bytes} {c : Command}
    (hline : flowLine snap.entities flow = some line) (h : parseCommand stod line = .ok c) :
    ∃ input, c = .flow input ∧ FlowCarried snap.ids flow input := by
  have hlookups := hline
  simp only [flowLine, Option.bind_eq_bind, Option.bind_eq_some_iff] at hlookups
  obtain ⟨source, hsource, target, htarget, -⟩ := hlookups
  obtain ⟨line', hline', hsplit⟩ := flowLine_split hsource htarget
  obtain rfl := Option.some.inj (hline'.symm.trans hline)
  rw [parseCommand, hsplit] at h
  dsimp only at h
  rw [if_neg (by decide), if_neg (by decide), if_neg (by decide), if_pos rfl] at h
  simp only [Except.bind_ok_iff, Except.pure_ok_iff] at h
  obtain ⟨index, hindex, s, hs, t, ht, _, -, _, -, _, -, _, -, rfl⟩ := h
  refine ⟨_, rfl, toNat_of_read hindex, ?_, ?_⟩
  · show snap.ids[s.toNat]? = _
    rw [toNat_of_read hs]
    exact (nodeIndex_get? hn).mp hsource
  · show snap.ids[t.toNat]? = _
    rw [toNat_of_read ht]
    exact (nodeIndex_get? hn).mp htarget

/-- The inputs the lines of a list of records are parsed into. -/
theorem exists_inputs {α β : Type} (mk : β → Command) {text : α → Option Bytes} {R : α → β → Prop} {xs : List α}
    {lines : List Bytes} (hlines : xs.mapM text = some lines)
    (hparsed : ∀ line ∈ lines, ∃ c, parseCommand stod line = .ok c)
    (h : ∀ x ∈ xs, ∀ line c, text x = some line → parseCommand stod line = .ok c → ∃ input, c = mk input ∧ R x input) :
    ∃ inputs, List.Forall₂ (fun line c => parseCommand stod line = .ok c) lines (inputs.map mk) ∧
      List.Forall₂ R xs inputs := by
  rw [Option.mapM_eq_some_iff] at hlines
  induction hlines with
  | nil => exact ⟨[], .nil, .nil⟩
  | @cons x line xs lines htext _ ih =>
    rw [List.forall_mem_cons] at hparsed h
    obtain ⟨c, hc⟩ := hparsed.1
    obtain ⟨input, rfl, hR⟩ := h.1 line c htext hc
    obtain ⟨inputs, hread, hall⟩ := ih hparsed.2 h.2
    exact ⟨input :: inputs, .cons hc hread, .cons hR hall⟩

/-- **A snapshot whose lines are all parsed is held by the worker.** -/
theorem carried_of_parsed (hn : snap.ids.Nodup) (htab : ∀ q ∈ writtenFloats snap, (9 : UInt8) ∉ floatText q)
    {records : List Bytes} (hrecords : recordLines floatText snap = some records)
    (hparsed : ∀ line ∈ records, ∃ c, parseCommand stod line = .ok c)
    (simulate : Scenario → Except Bytes (List Result)) (id : Bytes) (n l f : UInt32) :
    Carried snap (handleLines stod simulate ⟨id, n, l, f, [], [], []⟩ records).1 := by
  simp only [recordLines, Option.bind_eq_bind, Option.bind_eq_some_iff, Option.some.injEq] at hrecords
  obtain ⟨linkLines, hlinkLines, flowLines, hflowLines, rfl⟩ := hrecords
  rw [List.forall_mem_append, List.forall_mem_append] at hparsed
  obtain ⟨⟨hnodeParsed, hlinkParsed⟩, hflowParsed⟩ := hparsed
  have hnodeLines : snap.entities.zipIdx.mapM (fun entity => some (nodeLine floatText entity)) =
      some (snap.entities.zipIdx.map (nodeLine floatText)) := List.mapM_pure
  obtain ⟨nodes, hnodesRead, hnodes⟩ := exists_inputs Command.node hnodeLines hnodeParsed
    (R := fun entity node => node.alive = entity.1.alive) fun entity hentity line c hline hc => by
      obtain rfl := Option.some.inj hline
      exact nodeLine_carried (List.fst_mem_of_mem_zipIdx hentity) htab hc
  obtain ⟨links, hlinksRead, hlinks⟩ := exists_inputs Command.link hlinkLines hlinkParsed
    (R := fun link => LinkCarried snap.ids link.1) fun link hlink line c hline hc =>
      linkLine_carried hn (List.fst_mem_of_mem_zipIdx hlink) htab hline hc
  obtain ⟨flows, hflowsRead, hflows⟩ := exists_inputs Command.flow hflowLines hflowParsed
    (R := FlowCarried snap.ids) fun flow _ line c hline hc => flowLine_carried hn hline hc
  have hread := handleLines_read (List.rel_append (List.rel_append hnodesRead hlinksRead) hflowsRead)
    (fun c hc => isRecord_of_mem hc) simulate ⟨id, n, l, f, [], [], []⟩
  rw [foldl_addRecord] at hread
  rw [hread]
  exact ⟨hnodes, hlinks, hflows⟩

end Lines

/-! ## A report means that every line was parsed -/

section Reports
variable {floatText : ℚ → Bytes} {stod : Bytes → Except Bytes Double} {snap : StateSnapshot}
  {simulate : Scenario → Except Bytes (List Result)}

/-- After an error no flow is expected any more. -/
theorem handleLines_expectedFlows {lines : List Bytes} (hlines : ∀ line ∈ lines, RecordLine stod line)
    {scenario : Scenario}
    (h : scenario.expectedFlows = 0 ∨ ¬ ∀ line ∈ lines, ∃ c, parseCommand stod line = .ok c) :
    (handleLines stod simulate scenario lines).1.expectedFlows = 0 := by
  induction lines generalizing scenario with
  | nil =>
    rcases h with h | h
    · exact h
    · exact absurd (fun line hline => absurd hline List.not_mem_nil) h
  | cons line lines ih =>
    rw [List.forall_mem_cons] at hlines h
    show (handleLines stod simulate (handleLine stod simulate scenario line).1 lines).1.expectedFlows = 0
    apply ih hlines.2
    cases hc : parseCommand stod line with
    | error what =>
      have hdrop : handleLine stod simulate scenario line = (Scenario.empty, [.error what]) := by
        apply handleLine_of_error hlines.1.1
        rw [hc]
        rfl
      rw [hdrop]
      exact .inl rfl
    | ok c =>
      have hrecord := hlines.1.2 c hc
      have hkept : (handleLine stod simulate scenario line).1.expectedFlows = scenario.expectedFlows := by
        cases c with
        | scenario | run => exact hrecord.elim
        | node | link | flow => rw [handleLine_of_ok hlines.1.1 hc rfl]
      rw [hkept]
      rcases h with h | h
      · exact .inl h
      · exact .inr fun hall => h ⟨⟨c, hc⟩, hall⟩

theorem result_notMem_errors {r : Result} {errors : List Bytes} : Reply.result r ∉ errors.map Reply.error := by
  intro h
  obtain ⟨_, -, heq⟩ := List.mem_map.mp h
  cases heq

/-- `RUN` reports the flows of a scenario with as many flows as expected. -/
theorem run_reported {network : Scenario → Except Bytes (UInt32 → Option FlowStats)} {scenario : Scenario} {r : Result}
    (hr : Reply.result r ∈ runReplies (Runner.simulate network) scenario) :
    ∃ measured, ∃ flow ∈ scenario.flows, Runner.resultOf scenario measured flow = r ∧ scenario.expectedFlows ≠ 0 := by
  rw [runReplies] at hr
  cases hrun : runScenario (Runner.simulate network) scenario with
  | error what =>
    rw [hrun] at hr
    exact absurd hr (by simp)
  | ok replies =>
    rw [hrun] at hr
    obtain ⟨measured, -, rfl⟩ := runScenario_simulate hrun
    rw [List.mem_append, List.mem_singleton, or_iff_left (by simp), List.mem_map] at hr
    obtain ⟨result, hmem, heq⟩ := hr
    obtain ⟨flow, hflow, rfl⟩ := List.mem_map.mp hmem
    refine ⟨measured, flow, hflow, Reply.result.inj heq, fun hzero => ?_⟩
    simp only [runScenario, Except.bind_ok_iff] at hrun
    obtain ⟨_, hvalid, -⟩ := hrun
    have hcount := (counts_of_valid hvalid).2.2
    rw [hzero] at hcount
    exact absurd hflow (List.length_eq_zero_iff.mp hcount ▸ List.not_mem_nil)

/-- **A reported result is about the snapshot**: the scenario at `RUN` was parsed from all of its lines. -/
theorem reported_parsed {network : Scenario → Except Bytes (UInt32 → Option FlowStats)} (hn : snap.ids.Nodup)
    (htab : ∀ q ∈ writtenFloats snap, (9 : UInt8) ∉ floatText q) {lines : List Bytes}
    (hlines : scenarioLines floatText snap = some lines) {before : Scenario} {r : Result}
    (hr : Reply.result r ∈ (handleLines stod (Runner.simulate network) before lines).2) :
    ∃ scenario measured, Carried snap scenario ∧ ∃ flow ∈ scenario.flows, Runner.resultOf scenario measured flow = r := by
  obtain ⟨records, hrecords, rfl⟩ := Option.map_eq_some_iff.mp hlines
  have hrecord : ∀ line ∈ records, RecordLine stod line := recordLine_of_mem hrecords
  have hafter : ∀ started replies, handleLine stod (Runner.simulate network) before (headLine snap) = (started, replies) →
      (∀ r, Reply.result r ∉ replies) → ∃ measured,
        ∃ flow ∈ (handleLines stod (Runner.simulate network) started records).1.flows,
          Runner.resultOf (handleLines stod (Runner.simulate network) started records).1 measured flow = r ∧
          started.expectedFlows ≠ 0 ∧ ∀ line ∈ records, ∃ c, parseCommand stod line = .ok c := by
    intro started replies hhead hnone
    obtain ⟨errors, hprint, -, -⟩ := handleLines_records (Runner.simulate network) hrecord started
    rw [handleLines_append] at hr
    simp only [handleLines, hhead, hprint, handleLine_run, List.append_nil, List.mem_append] at hr
    rcases hr with (hr | hr) | hr
    · exact absurd hr (hnone r)
    · exact absurd hr result_notMem_errors
    · obtain ⟨measured, flow, hflow, heq, hexpected⟩ := run_reported hr
      have hall := mt (handleLines_expectedFlows hrecord) hexpected
      rw [not_or, not_not] at hall
      exact ⟨measured, flow, hflow, heq, hall⟩
  rcases headLine_started stod (Runner.simulate network) snap with ⟨-, n, l, f, hhead⟩ | ⟨-, what, hhead⟩
  · obtain ⟨measured, flow, hflow, heq, -, hparsed⟩ := hafter _ _ (hhead before) (fun _ => List.not_mem_nil)
    exact ⟨_, measured, carried_of_parsed hn htab hrecords hparsed _ _ n l f, flow, hflow, heq⟩
  · obtain ⟨_, _, _, _, hexpected, -⟩ := hafter _ _ (hhead before) (by simp)
    exact absurd rfl hexpected

end Reports

/-! ## Paths are chains -/

section Chains
variable {snap : StateSnapshot} {scenario : Scenario}

theorem entity_of_aliveAt (h : Carried snap scenario) {node : UInt32} {id : Str}
    (hid : snap.ids[node.toNat]? = some id) (halive : scenario.aliveAt node = true) :
    ∃ entity ∈ snap.entities, entity.entityId = id ∧ entity.alive = true := by
  have hlt := lt_of_aliveAt halive
  have hlength := h.nodes.length_eq
  rw [List.length_zipIdx] at hlength
  have hpair := (List.forall₂_iff_get.mp h.nodes).2 node.toNat (by rw [List.length_zipIdx]; omega) hlt
  simp only [List.get_eq_getElem, List.getElem_zipIdx] at hpair
  rw [Scenario.aliveAt, List.getElem?_eq_getElem hlt] at halive
  rw [StateSnapshot.ids, List.getElem?_map, List.getElem?_eq_getElem (by omega), Option.map_some, Option.some.injEq] at hid
  exact ⟨_, List.getElem_mem _, hid, hpair.symm.trans halive⟩

/-- A link of the worker that carries traffic is one that `compute` lists as up. -/
theorem upLink_of_joined (h : Carried snap scenario) {v w : UInt32} (hjoined : scenario.Joined v w) :
    ∃ a b, snap.ids[v.toNat]? = some a ∧ snap.ids[w.toNat]? = some b ∧ UpLink (links snap.entities) a b := by
  obtain ⟨input, hinput, hcarries, hends⟩ := hjoined
  obtain ⟨link, hlink, hsaid⟩ := h.links.exists_left hinput
  rw [Scenario.carries, Bool.and_eq_true, Bool.and_eq_true, hsaid.up, decide_eq_true_eq] at hcarries
  have hmem : link.1 ∈ links snap.entities := List.fst_mem_of_mem_zipIdx hlink
  rcases hends with ⟨rfl, rfl⟩ | ⟨rfl, rfl⟩
  · exact ⟨_, _, hsaid.source, hsaid.target, link.1, hmem, hcarries.1.1, .inl ⟨rfl, rfl⟩⟩
  · exact ⟨_, _, hsaid.target, hsaid.source, link.1, hmem, hcarries.1.1, .inr ⟨rfl, rfl⟩⟩

/-- A path of the worker is a chain of links that are up, by induction on the path. -/
theorem chain_of_path (h : Carried snap scenario) {s t : UInt32} {a b : Str}
    (hpath : Relation.ReflTransGen scenario.Joined s t) (ha : snap.ids[s.toNat]? = some a)
    (hb : snap.ids[t.toNat]? = some b) : Relation.ReflTransGen (UpLink (links snap.entities)) a b := by
  induction hpath generalizing b with
  | refl =>
    obtain rfl := Option.some.inj (ha.symm.trans hb)
    exact .refl
  | tail _ hjoined ih =>
    obtain ⟨c, b', hc, hb', hup⟩ := upLink_of_joined h hjoined
    obtain rfl := Option.some.inj (hb'.symm.trans hb)
    exact (ih hc).tail hup

end Chains

theorem listedConnected_of_mem {snap : StateSnapshot} {id : Str}
    (halive : ∃ entity ∈ snap.entities, entity.entityId = id ∧ entity.alive = true)
    (hmem : id ∈ connectedEntities (links snap.entities)) : ListedConnected (nodes snap) id := by
  obtain ⟨entity, hentity, rfl, halive⟩ := halive
  refine ⟨_, List.mem_map_of_mem hentity, rfl, halive, ?_⟩
  rw [halive, Bool.true_and, decide_eq_true hmem]

/-- **A flow the worker reports as connected** has both its ends listed alive and connected, and a chain of links
listed as up from one to the other. Of the texts of floats only that they hold no tab is assumed. -/
theorem reported_flow_chained {snap : StateSnapshot} (hn : snap.ids.Nodup) {floatText : ℚ → Bytes}
    (htab : ∀ q ∈ writtenFloats snap, (9 : UInt8) ∉ floatText q) {lines : List Bytes}
    (hlines : scenarioLines floatText snap = some lines) {stod : Bytes → Except Bytes Double}
    {network : Scenario → Except Bytes (UInt32 → Option FlowStats)} {before : Scenario} {r : Result}
    (hr : Reply.result r ∈ (handleLines stod (Runner.simulate network) before lines).2)
    (hconnected : r.values.connected = true) {flow : FlowConfig} (hflow : snap.flows[r.index]? = some flow)
    (hne : flow.sourceEntityId ≠ flow.targetEntityId) (requestId : Str) (computeMs : ℚ)
    (measured : Dict ℕ MetricValues) :
    ListedConnected (computeResult snap requestId computeMs measured).nodes flow.sourceEntityId ∧
      ListedConnected (computeResult snap requestId computeMs measured).nodes flow.targetEntityId ∧
      Chained (computeResult snap requestId computeMs measured).links flow.sourceEntityId flow.targetEntityId := by
  obtain ⟨scenario, stats, hcarried, input, hinput, rfl⟩ := reported_parsed hn htab hlines hr
  obtain ⟨hindex, hcolumn⟩ := resultOf_connected scenario stats input
  obtain ⟨-, hsource, htarget, hpath⟩ := hcolumn.mp hconnected
  obtain ⟨record, hrecord, hsaid⟩ := hcarried.flows.exists_left hinput
  have hplace := List.mem_zipIdx_iff_getElem?.mp hrecord
  rw [hindex, hsaid.index, hplace] at hflow
  obtain rfl := Option.some.inj hflow
  have hchain := chain_of_path hcarried hpath hsaid.source hsaid.target
  obtain ⟨b, hfirst, -⟩ := (Relation.ReflTransGen.cases_head hchain).resolve_left hne
  obtain ⟨c, -, hlast⟩ := (Relation.ReflTransGen.cases_tail hchain).resolve_left hne.symm
  refine ⟨listedConnected_of_mem (entity_of_aliveAt hcarried hsaid.source hsource) (mem_connectedEntities hfirst).1,
    listedConnected_of_mem (entity_of_aliveAt hcarried hsaid.target htarget) (mem_connectedEntities hlast).2, ?_⟩
  exact (Relation.reflTransGen_iff_eq_or_transGen.mp hchain).resolve_left hne.symm

/-- The pair with a flow against the direction of its link. -/
def pairBack : StateSnapshot :=
  { pairSnapshot 1000 1 with flows := [⟨str "f", str "B", str "A", 64, 10, 100, true⟩] }

theorem pair_flow_chained : Chained (links pairBack.entities) (str "B") (str "A") := by
  have hr : ∃ lines, scenarioLines zeroText pairBack = some lines ∧
      Reply.result ⟨0, ⟨true, .finite 0, .finite 1, .finite 0, 0, 0, str "UP"⟩⟩ ∈
        (handleLines stodZero (Runner.simulate fun _ => .ok fun _ => none) Scenario.empty lines).2 := by
    refine ⟨((scenarioLines zeroText pairBack).getD []), by decide +kernel, by decide +kernel⟩
  obtain ⟨lines, hlines, hr⟩ := hr
  have htab : (9 : UInt8) ∉ ascii "0.0" := by decide
  exact (reported_flow_chained (by decide +kernel) (fun _ _ => htab) hlines hr rfl (show _ = some _ from rfl)
    (by decide +kernel) (str "r") 0 (measured [])).2.2

end AfsimNs3.System
