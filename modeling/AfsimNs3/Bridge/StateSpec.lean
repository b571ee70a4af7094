import AfsimNs3.Bridge.State

/-!
# What the operations of the store do

One lemma for each loop and each operation, guards included (`_ok_iff`); the proofs about the store use these
and never unfold it.

* `indexRecords_get?`: what `initializeStore` leaves under a key;
* `validateReferences_ok_iff`: the check passes exactly on referentially closed records (`EntityClosed`, `FlowClosed`);
* `initializeStore_ok_iff`, `applyDelta_ok_iff`, `snapshot_ok_iff`: the three operations;
* `snapshot_congr`: a snapshot depends on the lookups alone.
-/

namespace AfsimNs3.Bridge.StateStore

section Loops
variable {ρ : Type} {parse : Fields → Except PyError ρ} {fromDict : Json → Except PyError ρ} {idOf : ρ → Str}
  {what idKey : Str} {merged : Option Fields → Fields → Fields} {records records' : Dict Str Fields}

theorem indexOne_ok_iff {raw : Json} : indexOne fromDict idOf idKey records raw = .ok records' ↔
    ∃ parsed, fromDict raw = .ok parsed ∧ idOf parsed ∉ records.keys ∧
      records' = records.put (idOf parsed) raw.fields := by
  unfold indexOne
  rw [Except.bind_ok_iff]
  refine exists_congr fun parsed => and_congr_right fun _ => ?_
  rw [← Dict.contains_iff]
  split_ifs with h
  · simp [h]
  · simp [h, eq_comm]

/-- What the loop leaves under a key. -/
theorem indexRecords_get? {raws : List Json} (h : indexRecords fromDict idOf idKey raws = .ok records)
    {key : Str} {o : Fields} :
    records.get? key = some o ↔
      ∃ raw ∈ raws, raw.fields = o ∧ ∃ parsed, fromDict raw = .ok parsed ∧ idOf parsed = key := by
  let inv (done : List Json) (d : Dict Str Fields) : Prop := ∀ key o, d.get? key = some o ↔
    ∃ raw ∈ done, raw.fields = o ∧ ∃ parsed, fromDict raw = .ok parsed ∧ idOf parsed = key
  have hstep : ∀ done d raw d', inv done d → indexOne fromDict idOf idKey d raw = .ok d' → inv (done ++ [raw]) d' := by
    intro done d raw d' hinv hd key o
    obtain ⟨parsed, hparsed, hnew, rfl⟩ := indexOne_ok_iff.mp hd
    simp only [List.mem_append, List.mem_singleton, or_and_right, exists_or, exists_eq_left]
    rw [← hinv key o, Dict.get?_put]
    split_ifs with hkey
    · subst hkey
      rw [Dict.get?_eq_none_iff.mpr hnew]
      simp [hparsed]
    · have hne : idOf parsed ≠ key := Ne.symm hkey
      simp [hparsed, hne]
  have hnil : inv [] Dict.empty := fun key o => by simp
  have hall := Except.foldlM_ok inv hstep hnil h
  exact hall key o

theorem indexRecords_parsed {raws : List Json} (h : indexRecords fromDict idOf idKey raws = .ok records) :
    ∀ raw ∈ raws, ∃ parsed, fromDict raw = .ok parsed := by
  have hall := Except.foldlM_ok (fun done _ => ∀ raw ∈ done, ∃ parsed, fromDict raw = .ok parsed)
    (fun done d raw d' hinv hd => by
      obtain ⟨parsed, hparsed, -, -⟩ := indexOne_ok_iff.mp hd
      exact List.forall_mem_append.mpr ⟨hinv, List.forall_mem_singleton.mpr ⟨parsed, hparsed⟩⟩)
    (List.forall_mem_nil _) h
  simpa using hall

theorem removeOne_ok_iff {id : Json} : removeOne what records id = .ok records' ↔
    ∃ text, id = .str text ∧ text ≠ [] ∧ records' = records.erase text := by
  unfold removeOne
  cases id with
  | str text =>
    simp only [Json.str.injEq]
    split_ifs with h
    · simp [h]
    · simp [h, eq_comm]
  | _ => simp

theorem upsertOne_ok_iff {update : Json} :
    upsertOne parse merged what idKey records update = .ok records' ↔
      ∃ o id, update = .obj o ∧ Fields.get o idKey = .str id ∧ id ≠ [] ∧
        (∃ parsed, parse (merged (records.get? id) o) = .ok parsed) ∧
          records' = records.put id (merged (records.get? id) o) := by
  unfold upsertOne
  cases update with
  | obj o =>
    simp only [Json.obj.injEq]
    cases hid : Fields.get o idKey with
    | str id =>
      by_cases h : id = []
      · simp [h, hid]
      · simp only [if_neg h, Except.bind_ok_iff, Except.pure_ok_iff]
        constructor
        · rintro ⟨parsed, hparsed, rfl⟩
          exact ⟨o, id, rfl, hid, h, ⟨parsed, hparsed⟩, rfl⟩
        · rintro ⟨o', id', rfl, hid', -, ⟨parsed, hparsed⟩, rfl⟩
          cases hid.symm.trans hid'
          exact ⟨parsed, hparsed, rfl⟩
    | _ => simp [hid]
  | _ => simp

/-- What the removal loop leaves under a key. -/
theorem removals_get? {removals : List Json} (h : removals.foldlM (removeOne what) records = .ok records')
    (key : Str) : records'.get? key = if key ∈ removalTexts removals then none else records.get? key := by
  have hall := Except.foldlM_ok
    (fun done d => ∀ key, d.get? key = if key ∈ removalTexts done then none else records.get? key)
    (fun done d id d' hinv hd key => by
      obtain ⟨text, rfl, -, rfl⟩ := removeOne_ok_iff.mp hd
      rw [Dict.get?_erase, hinv key]
      by_cases hkey : key = text <;> simp [removalTexts, Json.text?, hkey])
    (fun key => by simp [removalTexts]) h
  exact hall key

/-- The upsert loop touches the keys its updates name, and no others. -/
theorem upserts_keys {updates : List Json}
    (h : updates.foldlM (upsertOne parse merged what idKey) records = .ok records') :
    (∀ key, key ∈ records'.keys ↔ key ∈ records.keys ∨ key ∈ recordTexts idKey updates) ∧
      ∀ key, key ∉ recordTexts idKey updates → records'.get? key = records.get? key := by
  have hall := Except.foldlM_ok
    (fun done d => (∀ key, key ∈ d.keys ↔ key ∈ records.keys ∨ key ∈ recordTexts idKey done) ∧
      ∀ key, key ∉ recordTexts idKey done → d.get? key = records.get? key)
    (fun done d update d' hinv hd => by
      obtain ⟨o, id, rfl, hid, -, -, rfl⟩ := upsertOne_ok_iff.mp hd
      have htexts : recordTexts idKey (done ++ [.obj o]) = recordTexts idKey done ++ [id] := by
        simp [recordTexts, Json.fields, hid, Json.text?]
      rw [htexts]
      refine ⟨fun key => ?_, fun key hkey => ?_⟩
      · rw [Dict.mem_keys_put, hinv.1 key]
        simp only [List.mem_append, List.mem_singleton]
        tauto
      · simp only [List.mem_append, List.mem_singleton, not_or] at hkey
        rw [Dict.get?_put_of_ne _ _ hkey.2, hinv.2 key hkey.1])
    ⟨by simp [recordTexts], fun _ _ => rfl⟩ h
  exact hall

end Loops

/-! ## Merged records -/

theorem mergeField_str (key : Str) (old : Option Json) (text : Str) : mergeField key old (.str text) = .str text := by
  cases old with
  | none => rfl
  | some old => cases old <;> rfl

theorem get_eq_str_iff {o : Fields} {key text : Str} : o.get key = .str text ↔ Assoc.find? o key = some (.str text) := by
  unfold Fields.get Fields.getD
  cases Assoc.find? o key <;> simp

/-- A merged record has the ID text of the update. -/
theorem mergedEntity_get_str {current : Option Fields} {update : Fields} {key text : Str}
    (h : update.get key = .str text) : (mergedEntity current update).get key = .str text := by
  cases current with
  | none => exact h
  | some current =>
    rw [get_eq_str_iff] at h ⊢
    rw [mergedEntity, mergeEntity, Assoc.find?_mergeWith, h]
    simp [mergeField_str]

theorem mergedFlow_get_str {current : Option Fields} {update : Fields} {key text : Str}
    (h : update.get key = .str text) : (mergedFlow current update).get key = .str text := by
  rw [get_eq_str_iff] at h ⊢
  rw [mergedFlow, Assoc.find?_merge, h]
  rfl

/-! ## References -/

/-- Every entity the record refers to is among the IDs. -/
structure EntityClosed (ids : List Str) (entity : EntityState) : Prop where
  parent : ∀ parent, entity.parentEntityId = some parent → parent ∈ ids
  peers : ∀ device ∈ entity.devices, device.peerEntityId ∈ ids
  policies : ∀ policy ∈ entity.effectPolicies, policy.peerEntityId ∈ ids

structure FlowClosed (ids : List Str) (flow : FlowConfig) : Prop where
  source : flow.sourceEntityId ∈ ids
  target : flow.targetEntityId ∈ ids

theorem EntityClosed.mono {ids ids' : List Str} (h : ∀ id ∈ ids, id ∈ ids') {entity : EntityState}
    (hc : EntityClosed ids entity) : EntityClosed ids' entity :=
  ⟨fun parent hp => h _ (hc.parent parent hp), fun device hd => h _ (hc.peers device hd),
    fun policy hp => h _ (hc.policies policy hp)⟩

theorem FlowClosed.mono {ids ids' : List Str} (h : ∀ id ∈ ids, id ∈ ids') {flow : FlowConfig}
    (hc : FlowClosed ids flow) : FlowClosed ids' flow :=
  ⟨h _ hc.source, h _ hc.target⟩

theorem checkKnown_ok_iff {ids : List Str} {what id : Str} : checkKnown ids what id = .ok ⟨⟩ ↔ id ∈ ids := by
  unfold checkKnown
  split_ifs with h <;> simp [h]

theorem validateParent_ok_iff {ids : List Str} {parent : Option Str} :
    validateParent ids parent = .ok ⟨⟩ ↔ ∀ id, parent = some id → id ∈ ids := by
  cases parent with
  | none => simp [validateParent]
  | some id => simp [validateParent, checkKnown_ok_iff]

theorem validateEntity_ok_iff {ids : List Str} {entity : EntityState} :
    validateEntity ids entity = .ok ⟨⟩ ↔ EntityClosed ids entity := by
  unfold validateEntity
  simp only [Except.bind_ok_iff, Except.exists_punit, validateParent_ok_iff, Except.forM_ok_iff, checkKnown_ok_iff]
  exact ⟨fun ⟨h₁, h₂, h₃⟩ => ⟨h₁, h₂, h₃⟩, fun ⟨h₁, h₂, h₃⟩ => ⟨h₁, h₂, h₃⟩⟩

theorem validateFlow_ok_iff {ids : List Str} {flow : FlowConfig} :
    validateFlow ids flow = .ok ⟨⟩ ↔ FlowClosed ids flow := by
  unfold validateFlow
  simp only [Except.bind_ok_iff, Except.exists_punit, checkKnown_ok_iff]
  exact ⟨fun ⟨h₁, h₂⟩ => ⟨h₁, h₂⟩, fun ⟨h₁, h₂⟩ => ⟨h₁, h₂⟩⟩

/-- **The reference check** passes exactly when every record reads and refers to present entities. -/
theorem validateReferences_ok_iff {entities flows : Dict Str Fields} :
    validateReferences entities flows = .ok ⟨⟩ ↔
      (∀ raw ∈ entities.values, ∃ entity, EntityState.ofFields raw = .ok entity ∧ EntityClosed entities.keys entity) ∧
        ∀ raw ∈ flows.values, ∃ flow, FlowConfig.ofFields raw = .ok flow ∧ FlowClosed entities.keys flow := by
  unfold validateReferences
  simp only [Except.bind_ok_iff, Except.exists_punit, Except.mapM_ok_iff, Except.forM_ok_iff, validateEntity_ok_iff,
    validateFlow_ok_iff, ← and_assoc, exists_and_right, Except.exists_forall₂_iff]

theorem validateReferences_congr {entities entities' flows flows' : Dict Str Fields} (he : Dict.Same entities entities')
    (hf : Dict.Same flows flows') (h : validateReferences entities flows = .ok ⟨⟩) :
    validateReferences entities' flows' = .ok ⟨⟩ := by
  rw [validateReferences_ok_iff] at h ⊢
  have hids : ∀ id ∈ entities.keys, id ∈ entities'.keys := fun _ hid => he.mem_keys.mp hid
  have hvalues : ∀ {d d' : Dict Str Fields}, Dict.Same d d' → ∀ raw ∈ d'.values, raw ∈ d.values :=
    fun hd raw hraw => by
      obtain ⟨key, hkey⟩ := Dict.mem_values_iff.mp hraw
      exact Dict.mem_values_iff.mpr ⟨key, (hd key).trans hkey⟩
  refine ⟨fun raw hraw => ?_, fun raw hraw => ?_⟩
  · obtain ⟨entity, hread, hclosed⟩ := h.1 raw (hvalues he raw hraw)
    exact ⟨entity, hread, hclosed.mono hids⟩
  · obtain ⟨flow, hread, hclosed⟩ := h.2 raw (hvalues hf raw hraw)
    exact ⟨flow, hread, hclosed.mono hids⟩

/-! ## The operations -/

theorem arrays_ok_iff {first second : Json} {message : Str} {p : List Json × List Json} :
    arrays first second message = .ok p ↔ first = .arr p.1 ∧ second = .arr p.2 := by
  unfold arrays
  rcases p with ⟨xs, ys⟩
  cases first <;> cases second <;> simp

theorem initializeStore_ok_iff {s s' : StateStore} {payload : Fields} {timestampMs : ℤ} :
    s.initializeStore payload timestampMs = .ok s' ↔
      ∃ entities flows entityMap flowMap, payload.get (str "entities") = .arr entities ∧
        payload.get (str "flows") = .arr flows ∧
        indexRecords EntityState.fromDict EntityState.entityId (str "entity_id") entities = .ok entityMap ∧
        indexRecords FlowConfig.fromDict FlowConfig.flowId (str "flow_id") flows = .ok flowMap ∧
        validateReferences entityMap flowMap = .ok ⟨⟩ ∧
        s' = ⟨entityMap, flowMap, timestampMs, s.revision + 1, true⟩ := by
  unfold initializeStore
  rw [Except.bind_ok_iff]
  simp only [Except.bind_ok_iff, Except.pure_ok_iff, arrays_ok_iff, Prod.exists]
  constructor
  · rintro ⟨entities, flows, ⟨he, hf⟩, entityMap, hem, flowMap, hfm, ⟨⟩, href, rfl⟩
    exact ⟨entities, flows, entityMap, flowMap, he, hf, hem, hfm, href, rfl⟩
  · rintro ⟨entities, flows, entityMap, flowMap, he, hf, hem, hfm, href, rfl⟩
    exact ⟨entities, flows, ⟨he, hf⟩, entityMap, hem, flowMap, hfm, ⟨⟩, href, rfl⟩

/-- The loops of a delta, on copies of the maps. -/
structure DeltaApplied (s : StateStore) (lists : DeltaLists) (entities flows : Dict Str Fields) : Prop where
  entityLoops : ∃ kept, lists.entityRemovals.foldlM (removeOne (str "entity_removals")) s.entities = .ok kept ∧
    lists.entityUpserts.foldlM upsertEntity kept = .ok entities
  flowLoops : ∃ kept, lists.flowRemovals.foldlM (removeOne (str "flow_removals")) s.flows = .ok kept ∧
    lists.flowUpserts.foldlM upsertFlow kept = .ok flows

theorem applyDelta_ok_iff {s s' : StateStore} {payload : Fields} {timestampMs : ℤ} :
    s.applyDelta payload timestampMs = .ok s' ↔
      s.initialized = true ∧ s.timestampMs ≤ timestampMs ∧
        ∃ lists entities flows, deltaLists payload = .ok lists ∧ DeltaApplied s lists entities flows ∧
          validateReferences entities flows = .ok ⟨⟩ ∧
            s' = ⟨entities, flows, timestampMs, s.revision + 1, true⟩ := by
  unfold applyDelta
  cases hi : s.initialized with
  | false => simp
  | true =>
    by_cases ht : timestampMs < s.timestampMs
    · simp [ht]
    · simp only [Bool.not_true, Bool.false_eq_true, if_false, if_neg ht, true_and, not_lt.mp ht,
        Except.bind_ok_iff, Except.pure_ok_iff]
      constructor
      · rintro ⟨lists, hl, e₁, he₁, e₂, he₂, f₁, hf₁, f₂, hf₂, ⟨⟩, href, rfl⟩
        exact ⟨lists, e₂, f₂, hl, ⟨⟨e₁, he₁, he₂⟩, ⟨f₁, hf₁, hf₂⟩⟩, href, rfl⟩
      · rintro ⟨lists, e₂, f₂, hl, ⟨⟨e₁, he₁, he₂⟩, ⟨f₁, hf₁, hf₂⟩⟩, href, rfl⟩
        exact ⟨lists, hl, e₁, he₁, e₂, he₂, f₁, hf₁, f₂, hf₂, ⟨⟩, href, rfl⟩

theorem snapshot_ok_iff {s : StateStore} {snap : StateSnapshot} :
    s.snapshot = .ok snap ↔ s.initialized = true ∧
      List.Forall₂ (fun raw entity => EntityState.ofFields raw = .ok entity) (s.entities.sorted.map Prod.snd)
        snap.entities ∧
      List.Forall₂ (fun raw flow => FlowConfig.ofFields raw = .ok flow) (s.flows.sorted.map Prod.snd) snap.flows ∧
      snap.timestampMs = s.timestampMs ∧ snap.revision = s.revision := by
  unfold snapshot
  rcases snap with ⟨timestampMs, entities, flows, revision⟩
  cases hi : s.initialized with
  | false => simp
  | true =>
    simp only [Bool.not_true, Bool.false_eq_true, if_false, Except.bind_ok_iff, Except.mapM_ok_iff,
      Except.pure_ok_iff, true_and, StateSnapshot.mk.injEq]
    constructor
    · rintro ⟨_, he, _, hf, rfl, rfl, rfl, rfl⟩
      exact ⟨he, hf, rfl, rfl⟩
    · rintro ⟨he, hf, rfl, rfl⟩
      exact ⟨_, he, _, hf, rfl, rfl, rfl, rfl⟩

/-- A store whose references were checked has a snapshot. -/
theorem snapshot_exists {s : StateStore} (hi : s.initialized = true)
    (h : validateReferences s.entities s.flows = .ok ⟨⟩) : ∃ snap, s.snapshot = .ok snap := by
  rw [validateReferences_ok_iff] at h
  have hread : ∀ {ρ : Type} {parse : Fields → Except PyError ρ} {P : ρ → Prop} (d : Dict Str Fields),
      (∀ raw ∈ d.values, ∃ x, parse raw = .ok x ∧ P x) →
      ∃ xs, List.Forall₂ (fun raw x => parse raw = .ok x) (d.sorted.map Prod.snd) xs := by
    intro ρ parse P d hd
    obtain ⟨xs, hxs, -⟩ := Except.exists_forall₂_iff.mpr fun raw hraw =>
      hd raw ((d.sorted_perm.map Prod.snd).mem_iff.mp hraw)
    exact ⟨xs, hxs⟩
  obtain ⟨entities, he⟩ := hread s.entities h.1
  obtain ⟨flows, hf⟩ := hread s.flows h.2
  exact ⟨⟨s.timestampMs, entities, flows, s.revision⟩, snapshot_ok_iff.mpr ⟨hi, he, hf, rfl, rfl⟩⟩

/-- **A snapshot depends on the lookups alone.** -/
theorem snapshot_congr {s s' : StateStore} {snap snap' : StateSnapshot} (he : Dict.Same s.entities s'.entities)
    (hf : Dict.Same s.flows s'.flows) (h : s.snapshot = .ok snap) (h' : s'.snapshot = .ok snap') :
    snap.entities = snap'.entities ∧ snap.flows = snap'.flows := by
  obtain ⟨-, hes, hfs, -, -⟩ := snapshot_ok_iff.mp h
  obtain ⟨-, hes', hfs', -, -⟩ := snapshot_ok_iff.mp h'
  rw [Dict.sorted_congr he, ← Except.mapM_ok_iff] at hes
  rw [Dict.sorted_congr hf, ← Except.mapM_ok_iff] at hfs
  rw [← Except.mapM_ok_iff] at hes' hfs'
  exact ⟨Except.ok.inj (hes.symm.trans hes'), Except.ok.inj (hfs.symm.trans hfs')⟩

end AfsimNs3.Bridge.StateStore
