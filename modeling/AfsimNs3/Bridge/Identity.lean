import AfsimNs3.Bridge.Engine
import AfsimNs3.Bridge.StateSpec
import AfsimNs3.Lib.Machine

/-!
# Identity of records

`initializeStore` files a record under its trimmed ID, an upsert or a removal under the ID text as it is written.
So in every reachable state the parsed ID of a record is its key trimmed (`run_stripKeyed`), and key and parsed
ID agree exactly when the key carries no surrounding white space.

* `ids_identify`: when every ID text of the deltas is trimmed, IDs identify: keys are parsed IDs, snapshots have
  distinct IDs, `nodeIndex` is one-to-one and every operation addresses the record of the trimmed ID;
* `padded_upsert_splits_identity`: a padded ID text in an upsert leaves two records with one ID.
-/

namespace AfsimNs3.Bridge
open StateStore

/-! ## Runs of the store -/

inductive StoreOp where
  | init (payload : Fields) (timestampMs : ℤ)
  | delta (payload : Fields) (timestampMs : ℤ)

/-- An accepted call. -/
def StateStore.step (s : StateStore) : StoreOp → Option StateStore
  | .init payload timestampMs => (s.initializeStore payload timestampMs).toOption
  | .delta payload timestampMs => (s.applyDelta payload timestampMs).toOption

/-- The ID texts a delta names. -/
def StateStore.DeltaLists.texts (lists : DeltaLists) : List Str :=
  recordTexts (str "entity_id") lists.entityUpserts ++ removalTexts lists.entityRemovals ++
    (recordTexts (str "flow_id") lists.flowUpserts ++ removalTexts lists.flowRemovals)

/-- The ID texts of the upserts and removals of a call. -/
def StoreOp.texts : StoreOp → List Str
  | .init _ _ => []
  | .delta payload _ => (deltaLists payload).toOption.elim [] DeltaLists.texts

/-- No ID text in an upsert or a removal is padded (a blank text names nothing). -/
def StoreOp.Plain (op : StoreOp) : Prop := ∀ text ∈ op.texts, Str.Trimmed text ∨ Str.strip text = []

instance (op : StoreOp) : Decidable op.Plain := inferInstanceAs (Decidable (∀ text ∈ op.texts, _))

/-! ## Keys and parsed IDs -/

section Keyed
variable {ρ : Type} (parse : Fields → Except PyError ρ) (idOf : ρ → Str)

/-- Every record reads, and its ID is its key. -/
def Keyed (records : Dict Str Fields) : Prop :=
  ∀ key raw, records.get? key = some raw → ∃ parsed, parse raw = .ok parsed ∧ idOf parsed = key

/-- Every record reads, and its ID is its key trimmed. -/
def StripKeyed (records : Dict Str Fields) : Prop :=
  ∀ key raw, records.get? key = some raw →
    ∃ parsed, parse raw = .ok parsed ∧ idOf parsed = Str.strip key ∧ Str.strip key ≠ []

variable {parse idOf}

theorem stripKeyed_empty : StripKeyed parse idOf Dict.empty := fun _ _ h => nomatch h

theorem keyed_iff {records : Dict Str Fields} (h : StripKeyed parse idOf records) :
    Keyed parse idOf records ↔ ∀ key ∈ records.keys, Str.Trimmed key := by
  constructor
  · intro hk key hkey
    obtain ⟨raw, hraw⟩ := Dict.mem_keys_iff.mp hkey
    obtain ⟨parsed, hparsed, hid⟩ := hk key raw hraw
    obtain ⟨parsed', hparsed', hid', -⟩ := h key raw hraw
    cases hparsed.symm.trans hparsed'
    exact hid'.symm.trans hid
  · intro ht key raw hraw
    obtain ⟨parsed, hparsed, hid, -⟩ := h key raw hraw
    exact ⟨parsed, hparsed, hid.trans (ht key (Dict.mem_keys_iff.mpr ⟨raw, hraw⟩))⟩

/-- The IDs read in key order are the keys. -/
theorem Keyed.map_id {records : Dict Str Fields} (h : Keyed parse idOf records) {xs : List ρ}
    (hx : List.Forall₂ (fun raw x => parse raw = .ok x) (records.sorted.map Prod.snd) xs) :
    xs.map idOf = records.sorted.map Prod.fst := by
  have hentry : ∀ e ∈ records.sorted, records.get? e.1 = some e.2 := fun e he => Dict.mem_sorted.mp he
  generalize records.sorted = entries at hx hentry
  induction entries generalizing xs with
  | nil => rw [List.map_nil, List.forall₂_nil_left_iff] at hx; rw [hx]; rfl
  | cons e entries ih =>
    rw [List.forall_mem_cons] at hentry
    obtain ⟨x, rest, hread, hrest, rfl⟩ := List.forall₂_cons_left_iff.mp hx
    obtain ⟨parsed, hparsed, hid⟩ := h e.1 e.2 hentry.1
    cases hread.symm.trans hparsed
    rw [List.map_cons, List.map_cons, hid, ih hrest hentry.2]

variable {what idKey : Str} {merged : Option Fields → Fields → Fields} {records records' : Dict Str Fields}
  {fromDict : Json → Except PyError ρ}

theorem StripKeyed.indexRecords {raws : List Json}
    (hfrom : ∀ raw x, fromDict raw = .ok x → parse raw.fields = .ok x)
    (hid : ∀ o x, parse o = .ok x → requiredText o idKey = .ok (idOf x))
    (h : indexRecords fromDict idOf idKey raws = .ok records) : StripKeyed parse idOf records := by
  intro key o ho
  obtain ⟨raw, -, rfl, x, hx, rfl⟩ := (indexRecords_get? h).mp ho
  obtain ⟨hne, htrim⟩ := requiredText_trimmed (hid _ _ (hfrom raw x hx))
  refine ⟨x, hfrom raw x hx, htrim.symm, ?_⟩
  rwa [htrim]

theorem StripKeyed.removals {removals : List Json} (hk : StripKeyed parse idOf records)
    (h : removals.foldlM (removeOne what) records = .ok records') : StripKeyed parse idOf records' := by
  intro key raw hraw
  rw [removals_get? h] at hraw
  split_ifs at hraw
  exact hk key raw hraw

theorem StripKeyed.upsertOne {update : Json} (hid : ∀ o x, parse o = .ok x → requiredText o idKey = .ok (idOf x))
    (hmerged : ∀ current o text, Fields.get o idKey = .str text → Fields.get (merged current o) idKey = .str text)
    (hk : StripKeyed parse idOf records)
    (h : upsertOne parse merged what idKey records update = .ok records') : StripKeyed parse idOf records' := by
  obtain ⟨o, text, -, htext, -, ⟨x, hx⟩, rfl⟩ := upsertOne_ok_iff.mp h
  intro key raw hraw
  rw [Dict.get?_put] at hraw
  split_ifs at hraw with hkey
  · subst hkey
    obtain rfl := Option.some.inj hraw
    obtain ⟨value, hvalue, hne, hstrip⟩ := requiredText_ok_iff.mp (hid _ _ hx)
    cases (hmerged _ _ _ htext).symm.trans hvalue
    exact ⟨x, hx, hstrip.symm, hne⟩
  · exact hk key raw hraw

theorem StripKeyed.upserts {updates : List Json} (hid : ∀ o x, parse o = .ok x → requiredText o idKey = .ok (idOf x))
    (hmerged : ∀ current o text, Fields.get o idKey = .str text → Fields.get (merged current o) idKey = .str text)
    (hk : StripKeyed parse idOf records)
    (h : updates.foldlM (StateStore.upsertOne parse merged what idKey) records = .ok records') :
    StripKeyed parse idOf records' :=
  Except.foldlM_ok (fun _ d => StripKeyed parse idOf d)
    (fun _ _ _ _ hinv hd => hinv.upsertOne hid hmerged hd) hk h

end Keyed

/-- In both dictionaries the parsed ID is the trimmed key. -/
structure StripKeyedStore (s : StateStore) : Prop where
  entities : StripKeyed EntityState.ofFields EntityState.entityId s.entities
  flows : StripKeyed FlowConfig.ofFields FlowConfig.flowId s.flows

theorem EntityState.ofFields_of_fromDict {raw : Json} {entity : EntityState}
    (h : EntityState.fromDict raw = .ok entity) : EntityState.ofFields raw.fields = .ok entity := by
  cases raw with
  | obj o => exact h
  | _ => cases h

theorem FlowConfig.ofFields_of_fromDict {raw : Json} {flow : FlowConfig}
    (h : FlowConfig.fromDict raw = .ok flow) : FlowConfig.ofFields raw.fields = .ok flow := by
  cases raw with
  | obj o => exact h
  | _ => cases h

theorem StateStore.step_eq_some_iff {s s' : StateStore} {op : StoreOp} : s.step op = some s' ↔
    match op with
    | .init payload t => s.initializeStore payload t = .ok s'
    | .delta payload t => s.applyDelta payload t = .ok s' := by
  have h : ∀ x : Except PyError StateStore, x.toOption = some s' ↔ x = .ok s' := fun x => by
    cases x <;> simp [Except.toOption]
  cases op <;> exact h _

/-- **One accepted call** keeps the parsed IDs tied to the keys. -/
theorem StripKeyedStore.step {s s' : StateStore} {op : StoreOp} (hs : StripKeyedStore s) (h : s.step op = some s') :
    StripKeyedStore s' := by
  rw [StateStore.step_eq_some_iff] at h
  cases op with
  | init payload t =>
    obtain ⟨_, _, entityMap, flowMap, -, -, he, hf, -, rfl⟩ := initializeStore_ok_iff.mp h
    exact ⟨.indexRecords (fun _ _ => EntityState.ofFields_of_fromDict)
        (fun _ _ => EntityState.entityId_of_ofFields) he,
      .indexRecords (fun _ _ => FlowConfig.ofFields_of_fromDict) (fun _ _ => FlowConfig.flowId_of_ofFields) hf⟩
  | delta payload t =>
    obtain ⟨-, -, lists, entities, flows, -, ⟨⟨kept, he, he'⟩, ⟨kept', hf, hf'⟩⟩, -, rfl⟩ := applyDelta_ok_iff.mp h
    exact ⟨(hs.entities.removals he).upserts (fun _ _ => EntityState.entityId_of_ofFields)
        (fun _ _ _ => mergedEntity_get_str) he',
      (hs.flows.removals hf).upserts (fun _ _ => FlowConfig.flowId_of_ofFields)
        (fun _ _ _ => mergedFlow_get_str) hf'⟩

theorem run_stripKeyed {ops : List StoreOp} {s : StateStore} (h : Machine.run StateStore.step new ops = some s) :
    StripKeyedStore s :=
  Machine.run_invariant StripKeyedStore (fun _ _ _ hs hstep => hs.step hstep)
    ⟨stripKeyed_empty, stripKeyed_empty⟩ h

/-! ## The record an ID text addresses -/

/-- What an initialisation leaves: the records of the trimmed ID texts. -/
structure InitAddresses (idKey : Str) (raws : List Json) (after : Dict Str Fields) : Prop where
  named : ∀ raw ∈ raws, ∀ text, (Fields.get raw.fields idKey) = .str text →
    after.get? (Str.strip text) = some raw.fields
  only : ∀ key ∈ after.keys, key ∈ (recordTexts idKey raws).map Str.strip

/-- What a delta does to the records of the trimmed ID texts, and to no others. -/
structure DeltaAddresses (idKey : Str) (upserts removals : List Json) (before after : Dict Str Fields) : Prop where
  upserted : ∀ text ∈ recordTexts idKey upserts, Str.strip text ∈ after.keys
  removed : ∀ text ∈ removalTexts removals, Str.strip text ∉ (recordTexts idKey upserts).map Str.strip →
    Str.strip text ∉ after.keys
  others : ∀ key, key ∉ (recordTexts idKey upserts).map Str.strip → key ∉ (removalTexts removals).map Str.strip →
    after.get? key = before.get? key

/-- Every ID text a call names addresses the record of the trimmed ID. -/
def StoreOp.Addresses (s s' : StateStore) : StoreOp → Prop
  | .init payload _ => ∀ entities flows, payload.get (str "entities") = .arr entities →
      payload.get (str "flows") = .arr flows →
        InitAddresses (str "entity_id") entities s'.entities ∧ InitAddresses (str "flow_id") flows s'.flows
  | .delta payload _ => ∀ lists, deltaLists payload = .ok lists →
      DeltaAddresses (str "entity_id") lists.entityUpserts lists.entityRemovals s.entities s'.entities ∧
        DeltaAddresses (str "flow_id") lists.flowUpserts lists.flowRemovals s.flows s'.flows

section Addresses
variable {ρ : Type} {parse : Fields → Except PyError ρ} {fromDict : Json → Except PyError ρ} {idOf : ρ → Str}
  {what what' idKey : Str} {merged : Option Fields → Fields → Fields} {records kept records' : Dict Str Fields}

theorem mem_recordTexts {raws : List Json} {text : Str} :
    text ∈ recordTexts idKey raws ↔ ∃ raw ∈ raws, Fields.get raw.fields idKey = .str text := by
  simp [recordTexts]

theorem indexRecords_addresses {raws : List Json}
    (hfrom : ∀ raw x, fromDict raw = .ok x → parse raw.fields = .ok x)
    (hid : ∀ o x, parse o = .ok x → requiredText o idKey = .ok (idOf x))
    (h : indexRecords fromDict idOf idKey raws = .ok records) : InitAddresses idKey raws records := by
  have hread : ∀ raw x, fromDict raw = .ok x → ∃ text, Fields.get raw.fields idKey = .str text ∧
      Str.strip text = idOf x := fun raw x hx => by
    obtain ⟨text, htext, -, hstrip⟩ := requiredText_ok_iff.mp (hid _ _ (hfrom raw x hx))
    exact ⟨text, htext, hstrip⟩
  constructor
  · intro raw hraw text htext
    obtain ⟨x, hx⟩ := indexRecords_parsed h raw hraw
    obtain ⟨text', htext', hstrip⟩ := hread raw x hx
    cases htext.symm.trans htext'
    exact (indexRecords_get? h).mpr ⟨raw, hraw, rfl, x, hx, hstrip.symm⟩
  · intro key hkey
    obtain ⟨o, ho⟩ := Dict.mem_keys_iff.mp hkey
    obtain ⟨raw, hraw, -, x, hx, rfl⟩ := (indexRecords_get? h).mp ho
    obtain ⟨text, htext, hstrip⟩ := hread raw x hx
    exact List.mem_map.mpr ⟨text, mem_recordTexts.mpr ⟨raw, hraw, htext⟩, hstrip⟩

theorem map_strip_of_trimmed {texts : List Str} (h : ∀ text ∈ texts, Str.Trimmed text) :
    texts.map Str.strip = texts :=
  (List.map_congr_left h).trans (List.map_id texts)

/-- An upsert that was accepted names no blank text. -/
theorem recordTexts_trimmed {upserts : List Json} (hk : StripKeyed parse idOf records')
    (h : upserts.foldlM (upsertOne parse merged what idKey) kept = .ok records')
    (hu : ∀ text ∈ recordTexts idKey upserts, Str.Trimmed text ∨ Str.strip text = []) :
    ∀ text ∈ recordTexts idKey upserts, Str.Trimmed text := by
  intro text htext
  obtain ⟨raw, hraw⟩ := Dict.mem_keys_iff.mp (((upserts_keys h).1 text).mpr (Or.inr htext))
  obtain ⟨-, -, -, hne⟩ := hk _ _ hraw
  exact (hu text htext).resolve_right hne

theorem delta_keys_trimmed {upserts removals : List Json} (hk : ∀ key ∈ records.keys, Str.Trimmed key)
    (hu : ∀ text ∈ recordTexts idKey upserts, Str.Trimmed text)
    (h : removals.foldlM (removeOne what) records = .ok kept)
    (h' : upserts.foldlM (upsertOne parse merged what' idKey) kept = .ok records') :
    ∀ key ∈ records'.keys, Str.Trimmed key := by
  intro key hkey
  rcases ((upserts_keys h').1 key).mp hkey with hold | hnew
  · obtain ⟨raw, hraw⟩ := Dict.mem_keys_iff.mp hold
    rw [removals_get? h] at hraw
    split_ifs at hraw
    exact hk key (Dict.mem_keys_iff.mpr ⟨raw, hraw⟩)
  · exact hu key hnew

theorem delta_addresses {upserts removals : List Json} (hk : StripKeyed parse idOf records)
    (hu : ∀ text ∈ recordTexts idKey upserts, Str.Trimmed text)
    (hr : ∀ text ∈ removalTexts removals, Str.Trimmed text ∨ Str.strip text = [])
    (h : removals.foldlM (removeOne what) records = .ok kept)
    (h' : upserts.foldlM (upsertOne parse merged what' idKey) kept = .ok records') :
    DeltaAddresses idKey upserts removals records records' := by
  obtain ⟨hkeys, hothers⟩ := upserts_keys h'
  rw [← map_strip_of_trimmed hu] at hkeys hothers
  constructor
  · exact fun text htext => (hkeys _).mpr (Or.inr (List.mem_map_of_mem htext))
  · intro text htext hnew hmem
    obtain ⟨raw, hraw⟩ := Dict.mem_keys_iff.mp (((hkeys _).mp hmem).resolve_right hnew)
    rw [removals_get? h] at hraw
    split_ifs at hraw with hin
    rcases hr text htext with htrim | hblank
    · exact hin (htrim.symm ▸ htext)
    · obtain ⟨-, -, -, hne⟩ := hk _ _ hraw
      exact hne (by rw [Str.strip_strip, hblank])
  · intro key hkey hkey'
    rw [hothers key hkey, removals_get? h]
    by_cases hmem : key ∈ removalTexts removals
    · rw [if_pos hmem, eq_comm, Option.eq_none_iff_forall_ne_some]
      intro raw hraw
      obtain ⟨-, -, -, hne⟩ := hk _ _ hraw
      have htrim := (hr key hmem).resolve_right hne
      exact hkey' (List.mem_map.mpr ⟨key, hmem, htrim⟩)
    · rw [if_neg hmem]

end Addresses

/-- **One accepted call without padded ID texts** keeps the keys trimmed and addresses the records of the trimmed
IDs. -/
theorem StripKeyedStore.step_plain {s s' : StateStore} {op : StoreOp} (hs : StripKeyedStore s)
    (hkeys : (∀ key ∈ s.entities.keys, Str.Trimmed key) ∧ ∀ key ∈ s.flows.keys, Str.Trimmed key) (hop : op.Plain)
    (h : s.step op = some s') :
    ((∀ key ∈ s'.entities.keys, Str.Trimmed key) ∧ ∀ key ∈ s'.flows.keys, Str.Trimmed key) ∧ op.Addresses s s' := by
  have hs' := hs.step h
  rw [StateStore.step_eq_some_iff] at h
  cases op with
  | init payload t =>
    obtain ⟨es, fs, entityMap, flowMap, hes, hfs, he, hf, -, rfl⟩ := initializeStore_ok_iff.mp h
    have hea := indexRecords_addresses (fun _ _ => EntityState.ofFields_of_fromDict)
      (fun _ _ => EntityState.entityId_of_ofFields) he
    have hfa := indexRecords_addresses (fun _ _ => FlowConfig.ofFields_of_fromDict)
      (fun _ _ => FlowConfig.flowId_of_ofFields) hf
    refine ⟨⟨fun key hkey => ?_, fun key hkey => ?_⟩, fun es' fs' hes' hfs' => ?_⟩
    · obtain ⟨text, -, rfl⟩ := List.mem_map.mp (hea.only key hkey)
      exact Str.strip_trimmed text
    · obtain ⟨text, -, rfl⟩ := List.mem_map.mp (hfa.only key hkey)
      exact Str.strip_trimmed text
    · cases hes.symm.trans hes'
      cases hfs.symm.trans hfs'
      exact ⟨hea, hfa⟩
  | delta payload t =>
    obtain ⟨-, -, lists, entities, flows, hl, ⟨⟨kept, he, he'⟩, ⟨kept', hf, hf'⟩⟩, -, rfl⟩ := applyDelta_ok_iff.mp h
    have hplain : ∀ text ∈ lists.texts, Str.Trimmed text ∨ Str.strip text = [] := by
      have htexts : (StoreOp.delta payload t).texts = lists.texts := by
        rw [StoreOp.texts, hl]
        rfl
      exact htexts ▸ hop
    simp only [DeltaLists.texts, List.forall_mem_append] at hplain
    have heu := recordTexts_trimmed hs'.entities he' hplain.1.1
    have hfu := recordTexts_trimmed hs'.flows hf' hplain.2.1
    refine ⟨⟨delta_keys_trimmed hkeys.1 heu he he', delta_keys_trimmed hkeys.2 hfu hf hf'⟩, fun lists' hl' => ?_⟩
    cases hl.symm.trans hl'
    exact ⟨delta_addresses hs.entities heu hplain.1.2 he he', delta_addresses hs.flows hfu hplain.2.2 hf hf'⟩

/-- The state of a run without padded ID texts. -/
structure KeyedStore (s : StateStore) : Prop where
  entities : Keyed EntityState.ofFields EntityState.entityId s.entities
  flows : Keyed FlowConfig.ofFields FlowConfig.flowId s.flows

theorem run_keyed {ops : List StoreOp} {s : StateStore} (hops : Machine.Along StateStore.step (fun _ op => op.Plain) new ops)
    (h : Machine.run StateStore.step new ops = some s) : StripKeyedStore s ∧ KeyedStore s := by
  have hinv := Machine.along_invariant (fun s => StripKeyedStore s ∧
      (∀ key ∈ s.entities.keys, Str.Trimmed key) ∧ ∀ key ∈ s.flows.keys, Str.Trimmed key)
    (fun s op s' hs hop hstep => ⟨hs.1.step hstep, (hs.1.step_plain hs.2 hop hstep).1⟩)
    ⟨⟨stripKeyed_empty, stripKeyed_empty⟩, List.forall_mem_nil _, List.forall_mem_nil _⟩ hops h
  exact ⟨hinv.1, (keyed_iff hinv.1.entities).mpr hinv.2.1, (keyed_iff hinv.1.flows).mpr hinv.2.2⟩

/-- **IDs identify** in every run of accepted calls whose deltas carry no padded ID text: keys are parsed IDs, a
snapshot has distinct IDs and a one-to-one `nodeIndex`, and whatever call comes next addresses the records of the
trimmed IDs. -/
theorem ids_identify {ops : List StoreOp} {s : StateStore}
    (hops : Machine.Along StateStore.step (fun _ op => op.Plain) new ops)
    (h : Machine.run StateStore.step new ops = some s) :
    KeyedStore s ∧
      (∀ snap, s.snapshot = .ok snap →
        (snap.entities.map EntityState.entityId).Nodup ∧ (snap.flows.map FlowConfig.flowId).Nodup ∧
          ∀ id index, (Ns3Runner.nodeIndex snap.entities).get? id = some index ↔
            (snap.entities.map EntityState.entityId)[index]? = some id) ∧
      ∀ op s', StoreOp.Plain op → s.step op = some s' → op.Addresses s s' := by
  obtain ⟨hstrip, hkeyed⟩ := run_keyed hops h
  refine ⟨hkeyed, fun snap hsnap => ?_, fun op s' hop hstep => ?_⟩
  · obtain ⟨-, he, hf, -, -⟩ := snapshot_ok_iff.mp hsnap
    have hentities : (snap.entities.map EntityState.entityId).Nodup := by
      rw [hkeyed.entities.map_id he]
      exact s.entities.sorted_keys_nodup
    refine ⟨hentities, ?_, fun id index => Ns3Runner.nodeIndex_get? hentities⟩
    rw [hkeyed.flows.map_id hf]
    exact s.flows.sorted_keys_nodup
  · exact (hstrip.step_plain ⟨(keyed_iff hstrip.entities).mp hkeyed.entities,
      (keyed_iff hstrip.flows).mp hkeyed.flows⟩ hop hstep).2

/-- The record of an entity at rest. -/
def restingEntity (id : Str) : Json := .obj [
  (str "entity_id", .str id),
  (str "business_node_id", .str id),
  (str "position", .obj [(str "x_m", .int 0), (str "y_m", .int 0), (str "z_m", .int 0)]),
  (str "velocity", .obj [(str "vx_mps", .int 0), (str "vy_mps", .int 0), (str "vz_mps", .int 0)]),
  (str "heading_deg", .int 0),
  (str "alive", .bool true)]

/-- An initialisation with one entity, then a delta that upserts an entity under the given text. -/
def upsertRun (first second : Str) : List StoreOp := [
  .init [(str "entities", .arr [restingEntity first]), (str "flows", .arr [])] 0,
  .delta [(str "entity_upserts", .arr [restingEntity second])] 1]

theorem upsertRun_accepted :
    ((Machine.run StateStore.step new (upsertRun (str " A") (str "A"))).map (fun s => s.entities.keys)) =
      some [str "A"] := by
  decide +kernel

theorem ids_identify_upsert : ∃ s, Machine.run StateStore.step new (upsertRun (str " A") (str "A")) = some s ∧
    KeyedStore s ∧ s.entities.keys = [str "A"] := by
  obtain ⟨s, hs, hkeys⟩ := Option.map_eq_some_iff.mp upsertRun_accepted
  have hplain : ∀ op ∈ upsertRun (str " A") (str "A"), op.Plain := by decide +kernel
  exact ⟨s, hs, (ids_identify (Machine.along_of_forall hplain new) hs).1, hkeys⟩

/-- **A padded ID text in an upsert** leaves two records with one ID. -/
theorem padded_upsert_splits_identity :
    ∃ s snap, Machine.run StateStore.step new (upsertRun (str "A") (str " A")) = some s ∧ s.snapshot = .ok snap ∧
      ¬ KeyedStore s ∧ ¬ (snap.entities.map EntityState.entityId).Nodup := by
  have hrun : ((Machine.run StateStore.step new (upsertRun (str "A") (str " A"))).bind (fun s =>
      s.snapshot.toOption.map (fun snap => snap.entities.map EntityState.entityId))) = some [str "A", str "A"] := by
    decide +kernel
  obtain ⟨s, hs, hids⟩ := Option.bind_eq_some_iff.mp hrun
  obtain ⟨snap, hsnap, hids⟩ := Option.map_eq_some_iff.mp hids
  have hsnap : s.snapshot = .ok snap := by
    cases h : s.snapshot with
    | error e => rw [h] at hsnap; cases hsnap
    | ok snap' => rw [h] at hsnap; exact congrArg Except.ok (Option.some.inj hsnap)
  have hdup : ¬ (snap.entities.map EntityState.entityId).Nodup := by
    rw [hids]
    decide +kernel
  refine ⟨s, snap, hs, hsnap, fun hkeyed => hdup ?_, hdup⟩
  rw [hkeyed.entities.map_id (snapshot_ok_iff.mp hsnap).2.1]
  exact s.entities.sorted_keys_nodup

end AfsimNs3.Bridge
