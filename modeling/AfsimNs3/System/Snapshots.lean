import AfsimNs3.Bridge.References
import AfsimNs3.System.LockStep

/-!
# Computing a snapshot

On a closed snapshot no lookup of `compute` fails: the scenario can be written, and every reply of the worker that
ends in the matching `DONE` gives a result with one metric for each flow, one link for each device and one node for
each entity, in the order of the snapshot.

`buildResult` makes the lookups of the result explicit; `computeResult` is what they give.
-/

namespace AfsimNs3.System
open Bridge Bridge.Ns3Runner Runner LockStep

/-! ## The lookups -/

/-- A node of the result; `none` is the `KeyError` of `node_index`. -/
def nodeRecord (snap : StateSnapshot) (entity : EntityState) : Option NodeRecord := do
  let index ← (nodeIndex snap.entities).get? entity.entityId
  some
    { entityId := entity.entityId
      businessNodeId := entity.businessNodeId
      ns3NodeId := index
      alive := entity.alive
      connected := entity.alive && decide (entity.entityId ∈ connectedEntities (links snap.entities)) }

/-- The dictionary `compute` returns, lookup by lookup. -/
def buildResult (snap : StateSnapshot) (requestId : Str) (computeMs : ℚ) (measured : Dict ℕ MetricValues) :
    Option ComputeResult := do
  let nodes ← snap.entities.mapM (nodeRecord snap)
  some
    { requestId := requestId
      timestampMs := snap.timestampMs
      revision := snap.revision
      nodes := nodes
      links := links snap.entities
      metrics := metrics snap.flows measured
      computeMs := computeMs }

/-- The IDs `compute` looks up. -/
def lookedUp (snap : StateSnapshot) : List Str :=
  snap.ids ++ (links snap.entities).flatMap (fun link => [link.sourceEntityId, link.targetEntityId]) ++
    snap.flows.flatMap (fun flow => [flow.sourceEntityId, flow.targetEntityId])

theorem mem_links {entities : List EntityState} {link : LinkRecord} (h : link ∈ links entities) :
    ∃ entity ∈ entities, ∃ device ∈ entity.devices, link.sourceEntityId = entity.entityId ∧
      link.targetEntityId = device.peerEntityId := by
  obtain ⟨entity, hentity, hlink⟩ := List.mem_flatMap.mp h
  obtain ⟨device, hdevice, rfl⟩ := List.mem_map.mp hlink
  exact ⟨entity, hentity, device, hdevice, rfl, rfl⟩

section
variable {snap : StateSnapshot}

/-- Whatever `compute` looks up in a closed snapshot is the ID of an entity. -/
theorem lookedUp_ids (h : snap.Closed) : ∀ id ∈ lookedUp snap, id ∈ snap.ids := by
  intro id hid
  rw [lookedUp, List.mem_append, List.mem_append, List.mem_flatMap, List.mem_flatMap] at hid
  rcases hid with (hid | ⟨link, hlink, hid⟩) | ⟨flow, hflow, hid⟩
  · exact hid
  · obtain ⟨entity, hentity, device, hdevice, hsource, htarget⟩ := mem_links hlink
    rw [List.mem_cons, List.mem_singleton, hsource, htarget] at hid
    rcases hid with rfl | rfl
    · exact List.mem_map_of_mem hentity
    · exact (h.entities entity hentity).peers device hdevice
  · rw [List.mem_cons, List.mem_singleton] at hid
    rcases hid with rfl | rfl
    · exact (h.flows flow hflow).source
    · exact (h.flows flow hflow).target

/-- **No lookup fails**, and each gives the place of an entity. -/
theorem lookup_defined (h : snap.Closed) {id : Str} (hid : id ∈ lookedUp snap) :
    ∃ index < snap.entities.length, (nodeIndex snap.entities).get? id = some index := by
  obtain ⟨index, hindex, hplace⟩ := nodeIndex_defined (lookedUp_ids h id hid)
  obtain ⟨hlt, -⟩ := List.getElem?_eq_some_iff.mp hplace
  rw [List.length_map] at hlt
  exact ⟨index, hlt, hindex⟩

theorem mem_lookedUp_link {link : LinkRecord} (h : link ∈ links snap.entities) :
    link.sourceEntityId ∈ lookedUp snap ∧ link.targetEntityId ∈ lookedUp snap := by
  have hboth : ∀ id ∈ [link.sourceEntityId, link.targetEntityId], id ∈ lookedUp snap := fun id hid =>
    List.mem_append_left _ (List.mem_append_right _ (List.mem_flatMap.mpr ⟨link, h, hid⟩))
  exact ⟨hboth _ List.mem_cons_self, hboth _ (List.mem_cons_of_mem _ List.mem_cons_self)⟩

theorem mem_lookedUp_flow {flow : FlowConfig} (h : flow ∈ snap.flows) :
    flow.sourceEntityId ∈ lookedUp snap ∧ flow.targetEntityId ∈ lookedUp snap := by
  have hboth : ∀ id ∈ [flow.sourceEntityId, flow.targetEntityId], id ∈ lookedUp snap := fun id hid =>
    List.mem_append_right _ (List.mem_flatMap.mpr ⟨flow, h, hid⟩)
  exact ⟨hboth _ List.mem_cons_self, hboth _ (List.mem_cons_of_mem _ List.mem_cons_self)⟩

theorem mem_lookedUp_entity {entity : EntityState} (h : entity ∈ snap.entities) : entity.entityId ∈ lookedUp snap :=
  List.mem_append_left _ (List.mem_append_left _ (List.mem_map_of_mem h))

/-- The scenario of a closed snapshot can be written. -/
theorem scenarioLines_defined (floatText : ℚ → Bytes) (h : snap.Closed) :
    ∃ lines, scenarioLines floatText snap = some lines := by
  obtain ⟨linkLines, hlinks⟩ : ∃ linkLines, (links snap.entities).zipIdx.mapM (linkLine floatText snap.entities) =
      some linkLines := by
    refine Option.exists_mapM fun link hlink => ?_
    obtain ⟨hsource, htarget⟩ := mem_lookedUp_link (List.fst_mem_of_mem_zipIdx hlink)
    obtain ⟨source, -, hsource⟩ := lookup_defined h hsource
    obtain ⟨target, -, htarget⟩ := lookup_defined h htarget
    rw [linkLine, hsource, htarget]
    exact ⟨_, rfl⟩
  obtain ⟨flowLines, hflows⟩ : ∃ flowLines, snap.flows.zipIdx.mapM (flowLine snap.entities) = some flowLines := by
    refine Option.exists_mapM fun flow hflow => ?_
    obtain ⟨hsource, htarget⟩ := mem_lookedUp_flow (List.fst_mem_of_mem_zipIdx hflow)
    obtain ⟨source, -, hsource⟩ := lookup_defined h hsource
    obtain ⟨target, -, htarget⟩ := lookup_defined h htarget
    rw [flowLine, hsource, htarget]
    exact ⟨_, rfl⟩
  rw [scenarioLines, recordLines, hlinks, hflows]
  exact ⟨_, rfl⟩

/-- The result of a closed snapshot can be built, and is the one `computeResult` gives. -/
theorem buildResult_eq (h : snap.Closed) (requestId : Str) (computeMs : ℚ) (measured : Dict ℕ MetricValues) :
    buildResult snap requestId computeMs measured = some (computeResult snap requestId computeMs measured) := by
  have hnodes : snap.entities.mapM (nodeRecord snap) = some (nodes snap) := by
    rw [Option.mapM_eq_some_iff, nodes, List.forall₂_map_right_iff, List.forall₂_same]
    intro entity hentity
    obtain ⟨index, -, hindex⟩ := lookup_defined h (mem_lookedUp_entity hentity)
    rw [nodeRecord, hindex]
    rfl
  rw [buildResult, hnodes]
  rfl

end

/-! ## The result -/

/-- One metric for each flow, one link for each device, one node for each entity, in order. -/
structure Complete (snap : StateSnapshot) (result : ComputeResult) : Prop where
  metrics : result.metrics.map (fun metric => (metric.flowId, metric.sourceEntityId, metric.targetEntityId)) =
    snap.flows.map (fun flow => (flow.flowId, flow.sourceEntityId, flow.targetEntityId))
  links : result.links.map (fun link => (link.linkId, link.sourceEntityId, link.targetEntityId)) =
    snap.entities.flatMap (fun entity => entity.devices.map (fun device =>
      (entity.entityId ++ str ":" ++ device.deviceId, entity.entityId, device.peerEntityId)))
  nodes : result.nodes.map (fun node => (node.entityId, some node.ns3NodeId)) =
    snap.entities.map (fun entity => (entity.entityId, (nodeIndex snap.entities).get? entity.entityId))

theorem computeResult_complete {snap : StateSnapshot} (h : snap.Closed) (requestId : Str) (computeMs : ℚ)
    (measured : Dict ℕ MetricValues) : Complete snap (computeResult snap requestId computeMs measured) := by
  refine ⟨?_, ?_, ?_⟩
  · show (Ns3Runner.metrics snap.flows measured).map _ = _
    rw [Ns3Runner.metrics, List.map_map]
    have hflows := congrArg (List.map (fun flow : FlowConfig => (flow.flowId, flow.sourceEntityId, flow.targetEntityId)))
      (List.zipIdx_map_fst 0 snap.flows)
    rw [List.map_map] at hflows
    exact hflows
  · show (Ns3Runner.links snap.entities).map _ = _
    rw [Ns3Runner.links, List.map_flatMap]
    simp only [List.map_map]
    rfl
  · show (Ns3Runner.nodes snap).map _ = _
    rw [Ns3Runner.nodes, List.map_map]
    refine List.map_congr_left fun entity hentity => ?_
    obtain ⟨index, -, hindex⟩ := lookup_defined h (mem_lookedUp_entity hentity)
    show (entity.entityId, some (((nodeIndex snap.entities).get? entity.entityId).getD 0)) = _
    rw [hindex]
    rfl

/-- **Snapshots are referentially closed**, after any sequence of accepted calls; so every lookup of `compute` is
defined, the scenario is written, and a reply that ends in the matching `DONE` gives a complete result. -/
theorem snapshots_closed {ops : List StoreOp} {s : StateStore}
    (hrun : Machine.run StateStore.step StateStore.new ops = some s) {snap : StateSnapshot} (h : s.snapshot = .ok snap) :
    snap.Closed ∧
    (∀ id ∈ lookedUp snap, ∃ index < snap.entities.length, (nodeIndex snap.entities).get? id = some index) ∧
    (∀ floatText, ∃ lines, scenarioLines floatText snap = some lines) ∧
    ∀ (call : Call) (results : List Result) (rest : List Reply), call.snapshot = snap → ∃ result,
      readReplies call [] (results.map Reply.result ++ .done (scenarioId snap) :: rest) = (.returned result, rest) ∧
        buildResult snap call.requestId call.computeMs (measured results) = some result ∧ Complete snap result := by
  have hclosed := run_closed hrun h
  refine ⟨hclosed, fun id hid => lookup_defined hclosed hid, fun floatText => scenarioLines_defined floatText hclosed,
    fun call results rest hcall => ?_⟩
  subst hcall
  refine ⟨call.answer results, ?_, buildResult_eq hclosed _ _ _, computeResult_complete hclosed _ _ _⟩
  rw [readReplies_done, if_pos rfl, List.nil_append]

theorem pair_closed : ∃ s, Machine.run StateStore.step StateStore.new [.init (pairInit 1000) 0] = some s ∧
    s.snapshot = .ok (pairSnapshot 1000 1) ∧ (pairSnapshot 1000 1).Closed ∧ ∃ result,
      readReplies (pairCall 1000 1) [] [.done (scenarioId (pairSnapshot 1000 1))] = (.returned result, []) ∧
        Complete (pairSnapshot 1000 1) result := by
  have hend : (Machine.run StateStore.step StateStore.new [.init (pairInit 1000) 0]).bind (fun s => s.snapshot.toOption) =
      some (pairSnapshot 1000 1) := by decide +kernel
  obtain ⟨s, hrun, hsnapshot⟩ := Option.bind_eq_some_iff.mp hend
  have hok : s.snapshot = .ok (pairSnapshot 1000 1) := Except.toOption_eq_some_iff.mp hsnapshot
  obtain ⟨hclosed, -, -, hreplies⟩ := snapshots_closed hrun hok
  obtain ⟨result, hreturned, -, hcomplete⟩ := hreplies (pairCall 1000 1) [] [] rfl
  exact ⟨s, hrun, hok, hclosed, result, hreturned, hcomplete⟩

end AfsimNs3.System
