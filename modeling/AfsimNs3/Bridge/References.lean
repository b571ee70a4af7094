import AfsimNs3.Bridge.Engine
import AfsimNs3.Bridge.Identity

/-!
# References in a snapshot

References are checked against the keys of the store, while a snapshot and `node_index` know the parsed IDs alone.
The two agree on references because a parsed reference is trimmed, and the record under a trimmed key has that key as
its ID (`StripKeyed`). So every reference in a snapshot names an entity of the snapshot (`run_closed`), and no lookup
in `node_index` fails (`nodeIndex_defined`).
-/

namespace AfsimNs3.Bridge
open StateStore

/-! ## References are trimmed -/

theorem optionalText_trimmed {data : Fields} {key text : Str} (h : optionalText data key = .ok (some text)) :
    Str.Trimmed text := by
  unfold optionalText at h
  split at h
  · cases h
  · split_ifs at h
    obtain rfl := Option.some.inj (Except.ok.inj h)
    exact Str.strip_trimmed _
  · cases h

theorem DeviceConfig.peer_trimmed {raw : Json} {device : DeviceConfig} (h : DeviceConfig.fromDict raw = .ok device) :
    Str.Trimmed device.peerEntityId := by
  cases raw with
  | obj data =>
    simp only [DeviceConfig.fromDict, Except.bind_ok_iff, Except.pure_ok_iff] at h
    obtain ⟨_, -, _, -, _, -, peer, hpeer, _, -, _, -, _, -, rfl⟩ := h
    exact (requiredText_trimmed hpeer).2
  | _ => cases h

theorem EffectPolicy.peer_trimmed {raw : Json} {policy : EffectPolicy} (h : EffectPolicy.fromDict raw = .ok policy) :
    Str.Trimmed policy.peerEntityId := by
  cases raw with
  | obj data =>
    simp only [EffectPolicy.fromDict, Except.bind_ok_iff, Except.pure_ok_iff] at h
    obtain ⟨_, -, _, -, _, -, peer, hpeer, _, -, _, -, _, -, rfl⟩ := h
    exact (requiredText_trimmed hpeer).2
  | _ => cases h

/-- Every reference of the entity is trimmed. -/
structure EntityState.Trimmed (entity : EntityState) : Prop where
  parent : ∀ parent, entity.parentEntityId = some parent → Str.Trimmed parent
  peers : ∀ device ∈ entity.devices, Str.Trimmed device.peerEntityId
  policies : ∀ policy ∈ entity.effectPolicies, Str.Trimmed policy.peerEntityId

theorem EntityState.trimmed_of_ofFields {data : Fields} {entity : EntityState}
    (h : EntityState.ofFields data = .ok entity) : entity.Trimmed := by
  simp only [EntityState.ofFields, Except.bind_ok_iff, Except.pure_ok_iff, Except.mapM_ok_iff] at h
  obtain ⟨_, -, _, -, _, -, _, -, parent, hparent, _, -, _, -, _, -, devices, hdevices, policies, hpolicies, rfl⟩ := h
  refine ⟨fun text htext => ?_, fun device hdevice => ?_, fun policy hpolicy => ?_⟩
  · obtain rfl : parent = some text := htext
    exact optionalText_trimmed hparent
  · obtain ⟨raw, -, hraw⟩ := hdevices.exists_left hdevice
    exact DeviceConfig.peer_trimmed hraw
  · obtain ⟨raw, -, hraw⟩ := hpolicies.exists_left hpolicy
    exact EffectPolicy.peer_trimmed hraw

theorem FlowConfig.trimmed_of_ofFields {data : Fields} {flow : FlowConfig} (h : FlowConfig.ofFields data = .ok flow) :
    Str.Trimmed flow.sourceEntityId ∧ Str.Trimmed flow.targetEntityId := by
  simp only [FlowConfig.ofFields, Except.bind_ok_iff, Except.pure_ok_iff] at h
  obtain ⟨_, -, _, -, source, hsource, target, htarget, _, -, _, -, _, -, rfl⟩ := h
  exact ⟨(requiredText_trimmed hsource).2, (requiredText_trimmed htarget).2⟩

/-! ## The checked store -/

/-- The references of an initialised store were checked. -/
def Referenced (s : StateStore) : Prop :=
  s.initialized = true → validateReferences s.entities s.flows = .ok ⟨⟩

theorem step_referenced {s s' : StateStore} {op : StoreOp} (h : s.step op = some s') : Referenced s' := by
  rw [StateStore.step_eq_some_iff] at h
  cases op with
  | init payload timestampMs =>
    obtain ⟨_, _, _, _, -, -, -, -, hrefs, rfl⟩ := initializeStore_ok_iff.mp h
    exact fun _ => hrefs
  | delta payload timestampMs =>
    obtain ⟨-, -, _, _, _, -, -, hrefs, rfl⟩ := applyDelta_ok_iff.mp h
    exact fun _ => hrefs

theorem run_referenced {ops : List StoreOp} {s : StateStore} (h : Machine.run StateStore.step new ops = some s) :
    Referenced s :=
  Machine.run_invariant Referenced (fun _ _ _ _ hstep => step_referenced hstep) (fun h => absurd h Bool.false_ne_true) h

/-! ## The snapshot -/

/-- The IDs of the entities of a snapshot. -/
def StateSnapshot.ids (snap : StateSnapshot) : List Str := snap.entities.map EntityState.entityId

/-- Every reference of the snapshot names one of its entities. -/
structure StateSnapshot.Closed (snap : StateSnapshot) : Prop where
  entities : ∀ entity ∈ snap.entities, EntityClosed snap.ids entity
  flows : ∀ flow ∈ snap.flows, FlowClosed snap.ids flow

/-- A trimmed key of the store is the ID of an entity of the snapshot. -/
theorem mem_ids_of_key {s : StateStore} {snap : StateSnapshot} (hs : StripKeyedStore s) (h : s.snapshot = .ok snap)
    {key : Str} (hkey : key ∈ s.entities.keys) (htrimmed : Str.Trimmed key) : key ∈ snap.ids := by
  obtain ⟨raw, hraw⟩ := Dict.mem_keys_iff.mp hkey
  obtain ⟨parsed, hparsed, hid, -⟩ := hs.entities key raw hraw
  have hsorted : raw ∈ s.entities.sorted.map Prod.snd := List.mem_map.mpr ⟨(key, raw), Dict.mem_sorted.mpr hraw, rfl⟩
  obtain ⟨entity, hentity, hread⟩ := (snapshot_ok_iff.mp h).2.1.exists_right hsorted
  obtain rfl := Except.ok.inj (hparsed.symm.trans hread)
  exact List.mem_map.mpr ⟨parsed, hentity, hid.trans htrimmed⟩

/-- **Snapshots are closed** in every run of accepted calls. -/
theorem run_closed {ops : List StoreOp} {s : StateStore} (hrun : Machine.run StateStore.step new ops = some s)
    {snap : StateSnapshot} (h : s.snapshot = .ok snap) : snap.Closed := by
  have hs := run_stripKeyed hrun
  obtain ⟨hinit, hentities, hflows, -, -⟩ := snapshot_ok_iff.mp h
  obtain ⟨hvalidEntities, hvalidFlows⟩ := validateReferences_ok_iff.mp (run_referenced hrun hinit)
  have hvalue : ∀ {d : Dict Str Fields} {raw : Fields}, raw ∈ d.sorted.map Prod.snd → raw ∈ d.values :=
    fun {d} {raw} hraw => (d.sorted_perm.map Prod.snd).mem_iff.mp hraw
  refine ⟨fun entity hentity => ?_, fun flow hflow => ?_⟩
  · obtain ⟨raw, hraw, hread⟩ := hentities.exists_left hentity
    obtain ⟨checked, hchecked, hclosed⟩ := hvalidEntities raw (hvalue hraw)
    obtain rfl := Except.ok.inj (hchecked.symm.trans hread)
    have htrimmed := EntityState.trimmed_of_ofFields hread
    exact ⟨fun parent hparent => mem_ids_of_key hs h (hclosed.parent parent hparent) (htrimmed.parent parent hparent),
      fun device hdevice => mem_ids_of_key hs h (hclosed.peers device hdevice) (htrimmed.peers device hdevice),
      fun policy hpolicy => mem_ids_of_key hs h (hclosed.policies policy hpolicy) (htrimmed.policies policy hpolicy)⟩
  · obtain ⟨raw, hraw, hread⟩ := hflows.exists_left hflow
    obtain ⟨checked, hchecked, hclosed⟩ := hvalidFlows raw (hvalue hraw)
    obtain rfl := Except.ok.inj (hchecked.symm.trans hread)
    obtain ⟨hsource, htarget⟩ := FlowConfig.trimmed_of_ofFields hread
    exact ⟨mem_ids_of_key hs h hclosed.source hsource, mem_ids_of_key hs h hclosed.target htarget⟩

/-! ## `node_index` -/

namespace Ns3Runner

/-- **A lookup of a present ID is defined**, and gives the place of an entity with that ID. -/
theorem nodeIndex_defined {entities : List EntityState} {id : Str} (h : id ∈ entities.map EntityState.entityId) :
    ∃ index, (nodeIndex entities).get? id = some index ∧ (entities.map EntityState.entityId)[index]? = some id := by
  have hkey : id ∈ (entities.map EntityState.entityId).zipIdx.map Prod.fst := by
    rw [List.zipIdx_map_fst]
    exact h
  obtain ⟨index, hindex, hmem⟩ := Dict.get?_foldl_put_of_mem Dict.empty hkey
  exact ⟨index, hindex, List.mem_zipIdx_iff_getElem?.mp hmem⟩

end Ns3Runner

end AfsimNs3.Bridge
