import AfsimNs3.Adapter.Controller
import AfsimNs3.Bridge.StateSpec
import AfsimNs3.Lib.Patch

/-!
# One delta, from the tracker to the store

What the tracker's upserts and removals of one kind of record do when the store's loops apply them. A `RecordKind`
packs the two sides of a kind (how the adapter identifies, compares and writes a record, how the bridge reads and
merges it) with the laws that hold between them; `entityKind` and `flowKind` are the two.

* `RecordKind.upserts_ok_iff`: the upsert loop accepts written records exactly when each of them reads, and then
  every one replaces the record under its ID;
* `RecordKind.delta_patches`: the loops patch the store's table by the tracker's touched IDs (`Patch.apply`).
-/

namespace AfsimNs3.System
open AfsimNs3.Bridge (PyError requiredText)
open AfsimNs3.Bridge.StateStore
open AfsimNs3.Adapter.StateDeltaTracker (upserts removals)

/-- The two sides of a kind of record. -/
structure RecordKind (α ρ : Type) where
  idGetter : α → Str
  same : α → α → Bool
  writer : α → Option Json
  parse : Fields → Except PyError ρ
  idOf : ρ → Str
  merged : Option Fields → Fields → Fields
  upsertWhat : Str
  removalWhat : Str
  idKey : Str
  same_sound : ∀ a b, same a b = true → a = b
  writer_obj : ∀ a j, writer a = some j → ∃ o, j = .obj o ∧ Fields.get o idKey = .str (idGetter a)
  parse_id : ∀ o x, parse o = .ok x → requiredText o idKey = .ok (idOf x)
  merged_none : ∀ u, merged none u = u
  merged_writer : ∀ a b o u, writer a = some (.obj o) → writer b = some (.obj u) → merged (some o) u = u

namespace RecordKind
variable {α ρ : Type} (K : RecordKind α ρ)

/-- The object a record is written as. -/
def wire (a : α) : Fields := ((K.writer a).map Json.fields).getD []

theorem writer_eq_some {a : α} {j : Json} (h : K.writer a = some j) : j = .obj (K.wire a) := by
  obtain ⟨o, rfl, -⟩ := K.writer_obj a j h
  rw [wire, h]
  rfl

theorem wire_id {a : α} {j : Json} (h : K.writer a = some j) :
    Fields.get (K.wire a) K.idKey = .str (K.idGetter a) := by
  obtain ⟨o, ho, hid⟩ := K.writer_obj a j h
  cases (K.writer_eq_some h).symm.trans ho
  exact hid

/-! ## The upsert loop on written records -/

/-- Every record was written by the adapter. -/
def Wired (records : Dict Str Fields) : Prop := ∀ key o, records.get? key = some o → ∃ a, K.writer a = some (.obj o)

variable {K} {records kept records' : Dict Str Fields}

theorem merged_wire (hw : K.Wired records) {a : α} {j : Json} (h : K.writer a = some j) (key : Str) :
    K.merged (records.get? key) (K.wire a) = K.wire a := by
  cases hcur : records.get? key with
  | none => exact K.merged_none _
  | some o =>
    obtain ⟨b, hb⟩ := hw key o hcur
    rw [K.writer_eq_some h] at h
    exact K.merged_writer b a o _ hb h

theorem upsertOne_ok_iff (hw : K.Wired records) {a : α} {j : Json} (h : K.writer a = some j)
    (hne : K.idGetter a ≠ []) :
    upsertOne K.parse K.merged K.upsertWhat K.idKey records j = .ok records' ↔
      (∃ x, K.parse (K.wire a) = .ok x) ∧ records' = records.put (K.idGetter a) (K.wire a) := by
  obtain rfl := K.writer_eq_some h
  rw [Bridge.StateStore.upsertOne_ok_iff]
  constructor
  · rintro ⟨o, id, ho, hid, -, hparse, rfl⟩
    obtain rfl := Json.obj.inj ho
    cases (K.wire_id h).symm.trans hid
    rw [merged_wire hw h] at hparse ⊢
    exact ⟨hparse, rfl⟩
  · rintro ⟨hparse, rfl⟩
    refine ⟨K.wire a, K.idGetter a, rfl, K.wire_id h, hne, ?_⟩
    rw [merged_wire hw h]
    exact ⟨hparse, rfl⟩

theorem Wired.put (hw : K.Wired records) {a : α} {j : Json} (h : K.writer a = some j) (key : Str) :
    K.Wired (records.put key (K.wire a)) := by
  intro key' o ho
  rw [Dict.get?_put] at ho
  split_ifs at ho
  · obtain rfl := Option.some.inj ho
    exact ⟨a, K.writer_eq_some h ▸ h⟩
  · exact hw key' o ho

theorem Wired.removals {removals : List Json} {what : Str} (hw : K.Wired records)
    (h : removals.foldlM (removeOne what) records = .ok kept) : K.Wired kept := by
  intro key o ho
  rw [removals_get? h] at ho
  split_ifs at ho
  exact hw key o ho

/-- **The upsert loop** accepts written records exactly when each of them reads; each replaces the record under its
ID. -/
theorem upserts_ok_iff {ups : List α} {js : List Json} (hj : List.Forall₂ (fun a j => K.writer a = some j) ups js)
    (hne : ∀ a ∈ ups, K.idGetter a ≠ []) (hw : K.Wired kept) :
    js.foldlM (upsertOne K.parse K.merged K.upsertWhat K.idKey) kept = .ok records' ↔
      (∀ a ∈ ups, ∃ x, K.parse (K.wire a) = .ok x) ∧
        records' = ups.foldl (fun d a => d.put (K.idGetter a) (K.wire a)) kept := by
  induction hj generalizing kept with
  | nil =>
    rw [List.foldlM_nil, Except.pure_ok_iff]
    simp [eq_comm]
  | @cons a j ups js hwrite hrest ih =>
    rw [List.forall_mem_cons] at hne
    rw [Except.foldlM_cons_ok_iff, List.forall_mem_cons, List.foldl_cons]
    constructor
    · rintro ⟨t, ht, hloop⟩
      obtain ⟨hparse, rfl⟩ := (upsertOne_ok_iff hw hwrite hne.1).mp ht
      obtain ⟨hall, hrec⟩ := (ih hne.2 (hw.put hwrite _)).mp hloop
      exact ⟨⟨hparse, hall⟩, hrec⟩
    · rintro ⟨⟨hparse, hall⟩, hrec⟩
      exact ⟨_, (upsertOne_ok_iff hw hwrite hne.1).mpr ⟨hparse, rfl⟩, (ih hne.2 (hw.put hwrite _)).mpr ⟨hall, hrec⟩⟩

theorem Wired.upserts {ups : List α} {js : List Json} (hj : List.Forall₂ (fun a j => K.writer a = some j) ups js)
    (hne : ∀ a ∈ ups, K.idGetter a ≠ []) (hw : K.Wired kept)
    (h : js.foldlM (upsertOne K.parse K.merged K.upsertWhat K.idKey) kept = .ok records') : K.Wired records' := by
  induction hj generalizing kept with
  | nil =>
    rw [List.foldlM_nil, Except.pure_ok_iff] at h
    exact h ▸ hw
  | cons hwrite hrest ih =>
    rw [List.forall_mem_cons] at hne
    obtain ⟨t, ht, hloop⟩ := Except.foldlM_cons_ok_iff.mp h
    obtain ⟨-, rfl⟩ := (upsertOne_ok_iff hw hwrite hne.1).mp ht
    exact ih hne.2 (hw.put hwrite _) hloop

/-! ## Touched IDs -/

variable (K) {old current : Dict Str α}

/-- The ID appears, disappears or its record is not the same. -/
def touched (old current : Dict Str α) (key : Str) : Bool :=
  match old.get? key, current.get? key with
  | none, none => false
  | some a, some b => !K.same a b
  | _, _ => true

/-- The records the service should hold for a map of the tracker. -/
def table (d : Dict Str α) : Str → Option Fields := fun key => (d.get? key).map K.wire

/-- Every value is filed under its own ID, which is not empty. -/
def Filed (d : Dict Str α) : Prop := ∀ key a, d.get? key = some a → K.idGetter a = key ∧ key ≠ []

variable {K}

theorem table_eq_of_untouched {key : Str} (h : ¬ K.touched old current key = true) :
    K.table old key = K.table current key := by
  unfold touched at h
  unfold table
  cases ho : old.get? key <;> cases hc : current.get? key <;> simp only [ho, hc] at h ⊢
  · simp at h
  · simp at h
  · rename_i a b
    rw [K.same_sound a b (by simpa using h)]

/-- Patching the table of the baseline gives the table of the frame. -/
theorem patch_table : Patch.apply (fun key => K.touched old current key = true) (K.table current) (K.table old) =
    K.table current :=
  Patch.apply_eq_new fun _ => table_eq_of_untouched

theorem patch_eq_table_iff (K : RecordKind α ρ) (old current : Dict Str α) (held : Str → Option Fields) :
    Patch.apply (fun key => K.touched old current key = true) (K.table current) held = K.table current ↔
      ∀ key, held key ≠ K.table old key → K.touched old current key = true :=
  Patch.apply_eq_new_iff fun _ => table_eq_of_untouched

theorem mem_upserts {a : α} : a ∈ upserts K.same old current ↔
    ∃ key, current.get? key = some a ∧ K.touched old current key = true := by
  simp only [upserts, List.mem_map, List.mem_filter, Prod.exists, exists_eq_right,
    Dict.mem_sorted]
  refine exists_congr fun key => and_congr_right fun hc => ?_
  unfold touched
  rw [hc]
  cases old.get? key <;> simp

theorem mem_removals {key : Str} : key ∈ removals old current ↔
    current.get? key = none ∧ K.touched old current key = true := by
  simp only [removals, List.mem_map, List.mem_filter, Prod.exists, exists_eq_right,
    exists_and_right, Dict.mem_sorted, Dict.contains]
  unfold touched
  cases ho : old.get? key <;> cases hc : current.get? key <;> simp

theorem upserts_ids_nodup (hf : K.Filed current) :
    ((upserts K.same old current).map K.idGetter).Nodup := by
  unfold upserts
  rw [List.map_map, List.map_congr_left (g := Prod.fst) fun e he => ?_]
  · exact current.sorted_keys_nodup.sublist (List.filter_sublist.map Prod.fst)
  · exact (hf e.1 e.2 (Dict.mem_sorted.mp (List.mem_filter.mp he).1)).1

theorem upserts_ne_nil (hf : K.Filed current) :
    ∀ a ∈ upserts K.same old current, K.idGetter a ≠ [] := by
  intro a ha
  obtain ⟨key, hc, -⟩ := mem_upserts.mp ha
  obtain ⟨hid, hne⟩ := hf key a hc
  rwa [hid]

theorem removalTexts_map_str (ids : List Str) : removalTexts (ids.map Json.str) = ids := by
  rw [removalTexts, List.filterMap_map]
  exact List.filterMap_some

/-- **The loops patch the store's table** at the touched IDs. -/
theorem delta_patches (hf : K.Filed current) {js : List Json} {what : Str}
    (hj : List.Forall₂ (fun a j => K.writer a = some j) (upserts K.same old current) js)
    (hw : K.Wired records)
    (h : ((removals old current).map Json.str).foldlM (removeOne what) records = .ok kept)
    (h' : js.foldlM (upsertOne K.parse K.merged K.upsertWhat K.idKey) kept = .ok records') :
    records'.get? = Patch.apply (fun key => K.touched old current key = true) (K.table current) records.get? := by
  obtain ⟨-, rfl⟩ := (upserts_ok_iff hj (upserts_ne_nil hf) (hw.removals h)).mp h'
  have hputs : ∀ d : Dict Str Fields, (upserts K.same old current).foldl
      (fun d a => d.put (K.idGetter a) (K.wire a)) d =
      ((upserts K.same old current).map (fun a => (K.idGetter a, K.wire a))).foldl
        (fun d e => d.put e.1 e.2) d := fun d => by rw [List.foldl_map]
  have hids : ((upserts K.same old current).map (fun a => (K.idGetter a, K.wire a))).map
      Prod.fst = (upserts K.same old current).map K.idGetter := List.map_map
  funext key
  unfold Patch.apply
  rw [hputs]
  by_cases htouched : K.touched old current key = true
  · rw [if_pos htouched]
    cases hc : current.get? key with
    | some a =>
      have hmem := mem_upserts.mpr ⟨key, hc, htouched⟩
      rw [table, hc, Dict.get?_foldl_put (hids ▸ upserts_ids_nodup hf) kept (v := K.wire a)]
      · rfl
      · exact List.mem_map.mpr ⟨a, hmem, by rw [(hf key a hc).1]⟩
    | none =>
      rw [table, hc, Dict.get?_foldl_put_of_notMem, removals_get? h, removalTexts_map_str,
        if_pos (mem_removals.mpr ⟨hc, htouched⟩)]
      · rfl
      · rw [hids, List.mem_map]
        rintro ⟨a, ha, hid⟩
        obtain ⟨key', hc', -⟩ := mem_upserts.mp ha
        obtain rfl := (hf key' a hc').1.symm.trans hid
        cases hc.symm.trans hc'
  · rw [if_neg htouched, Dict.get?_foldl_put_of_notMem, removals_get? h, removalTexts_map_str,
      if_neg fun hmem => htouched (mem_removals.mp hmem).2]
    rw [hids, List.mem_map]
    rintro ⟨a, ha, hid⟩
    obtain ⟨key', hc', ht'⟩ := mem_upserts.mp ha
    obtain rfl := (hf key' a hc').1.symm.trans hid
    exact htouched ht'

/-- The loops accept the delta of a frame whose records all read. -/
theorem delta_accepted (what : Str) (hf : K.Filed current) (hold : K.Filed old) {js : List Json}
    (hj : List.Forall₂ (fun a j => K.writer a = some j) (upserts K.same old current) js)
    (hw : K.Wired records) (hread : ∀ key a, current.get? key = some a → ∃ x, K.parse (K.wire a) = .ok x) :
    ∃ kept records', ((removals old current).map Json.str).foldlM (removeOne what) records =
      .ok kept ∧ js.foldlM (upsertOne K.parse K.merged K.upsertWhat K.idKey) kept = .ok records' := by
  have hremovals : ∀ (ids : List Str) (d : Dict Str Fields), (∀ id ∈ ids, id ≠ []) →
      ∃ kept, (ids.map Json.str).foldlM (removeOne what) d = .ok kept := by
    intro ids
    induction ids with
    | nil => exact fun d _ => ⟨d, rfl⟩
    | cons id ids ih =>
      intro d hne
      rw [List.forall_mem_cons] at hne
      obtain ⟨kept, hkept⟩ := ih (d.erase id) hne.2
      exact ⟨kept, Except.foldlM_cons_ok_iff.mpr ⟨_, removeOne_ok_iff.mpr ⟨id, rfl, hne.1, rfl⟩, hkept⟩⟩
  obtain ⟨kept, hkept⟩ := hremovals (removals old current) records fun id hid => by
    obtain ⟨hc, ht⟩ := mem_removals (K := K).mp hid
    unfold touched at ht
    rw [hc] at ht
    cases ho : old.get? id with
    | none => simp [ho] at ht
    | some a => exact (hold id a ho).2
  refine ⟨kept, _, hkept, (upserts_ok_iff hj (upserts_ne_nil hf) (hw.removals hkept)).mpr ⟨fun a ha => ?_, rfl⟩⟩
  obtain ⟨key, hc, -⟩ := mem_upserts.mp ha
  exact hread key a hc

/-- The initialisation loop files written records under their trimmed IDs. -/
theorem init_table {fromDict : Json → Except PyError ρ} (hfrom : ∀ o, fromDict (.obj o) = K.parse o)
    {values : List α} {js : List Json} (hj : List.Forall₂ (fun a j => K.writer a = some j) values js)
    (hi : Adapter.index K.idGetter values = .ok current)
    (h : indexRecords fromDict K.idOf K.idKey js = .ok records)
    (htrim : ∀ a ∈ values, Str.Trimmed (K.idGetter a)) : records.get? = K.table current := by
  rw [Option.forall₂_some_iff] at hj
  have hwritten : ∀ j, j ∈ js ↔ ∃ a ∈ values, K.writer a = some j := fun j => by
    rw [← List.mem_map, hj, List.mem_map]
    simp
  have hid : ∀ a ∈ values, ∀ j x, K.writer a = some j → fromDict j = .ok x → K.idOf x = K.idGetter a := by
    intro a ha j x hw hx
    obtain rfl := K.writer_eq_some hw
    obtain ⟨text, htext, -, hstrip⟩ := Bridge.requiredText_ok_iff.mp (K.parse_id _ x (hfrom _ ▸ hx))
    cases (K.wire_id hw).symm.trans htext
    exact hstrip.symm.trans (htrim a ha)
  funext key
  refine Option.ext fun o => ?_
  rw [indexRecords_get? h, table, Option.map_eq_some_iff]
  constructor
  · rintro ⟨j, hjmem, rfl, x, hx, rfl⟩
    obtain ⟨a, ha, hw⟩ := (hwritten j).mp hjmem
    refine ⟨a, (Adapter.index_get? hi).mpr ⟨ha, (hid a ha j x hw hx).symm⟩, ?_⟩
    rw [K.writer_eq_some hw]
    rfl
  · rintro ⟨a, ha, rfl⟩
    obtain ⟨hmem, rfl⟩ := (Adapter.index_get? hi).mp ha
    have hsome : K.writer a ∈ js.map some := hj ▸ List.mem_map_of_mem hmem
    obtain ⟨j, hjmem, hw⟩ := List.mem_map.mp hsome
    obtain ⟨x, hx⟩ := indexRecords_parsed h j hjmem
    refine ⟨j, hjmem, ?_, x, hx, hid a hmem j x hw.symm hx⟩
    rw [K.writer_eq_some hw.symm]
    rfl

end RecordKind

/-! ## The two kinds -/

theorem mergeField_eq {key : Str} {old value : Json} (h : key ≠ str "position" ∧ key ≠ str "velocity") :
    mergeField key (some old) value = value := by
  unfold mergeField
  cases old <;> cases value <;> simp [h]

theorem mergeField_merge {key : Str} {o v : Fields} (hn : (v.map Prod.fst).Nodup)
    (h : o.map Prod.fst = v.map Prod.fst) : mergeField key (some (.obj o)) (.obj v) = .obj v := by
  simp only [mergeField, Assoc.merge_of_keys_eq hn h, ite_self]

def positionFields (xM yM zM : Json) : Fields := [(str "x_m", xM), (str "y_m", yM), (str "z_m", zM)]

def velocityFields (vxMps vyMps vzMps : Json) : Fields :=
  [(str "vx_mps", vxMps), (str "vy_mps", vyMps), (str "vz_mps", vzMps)]

theorem positionFields_nodup (xM yM zM : Json) : ((positionFields xM yM zM).map Prod.fst).Nodup := by
  have hkeys : (positionFields xM yM zM).map Prod.fst = [str "x_m", str "y_m", str "z_m"] := rfl
  rw [hkeys]
  decide

theorem velocityFields_nodup (vxMps vyMps vzMps : Json) :
    ((velocityFields vxMps vyMps vzMps).map Prod.fst).Nodup := by
  have hkeys : (velocityFields vxMps vyMps vzMps).map Prod.fst = [str "vx_mps", str "vy_mps", str "vz_mps"] := rfl
  rw [hkeys]
  decide

/-- The object an entity is written as. -/
def entityFields (e : Adapter.EntityState) (position velocity headingDeg devices effectPolicies : Json) : Fields := [
  (str "entity_id", .str e.entityId),
  (str "business_node_id", .str e.businessNodeId),
  (str "parent_entity_id", if e.hasParent then .str e.parentEntityId else .null),
  (str "position", position),
  (str "velocity", velocity),
  (str "heading_deg", headingDeg),
  (str "alive", .bool e.alive),
  (str "devices", devices),
  (str "effect_policies", effectPolicies)]

theorem writeEntity_eq_some {e : Adapter.EntityState} {j : Json} (h : Adapter.writeEntity e = some j) :
    ∃ xM yM zM vxMps vyMps vzMps headingDeg devices effectPolicies,
      j = .obj (entityFields e (.obj (positionFields xM yM zM)) (.obj (velocityFields vxMps vyMps vzMps)) headingDeg
        devices effectPolicies) := by
  simp only [Adapter.writeEntity, Adapter.writePosition, Adapter.writeVelocity, Option.bind_eq_bind,
    Option.bind_eq_some_iff, Option.some.injEq] at h
  obtain ⟨_, ⟨xM, -, yM, -, zM, -, rfl⟩, _, ⟨vx, -, vy, -, vz, -, rfl⟩, hd, -, ds, -, ps, -, rfl⟩ := h
  exact ⟨xM, yM, zM, vx, vy, vz, hd, ds, ps, rfl⟩

theorem entityFields_nodup (e : Adapter.EntityState) (p v h d c : Json) :
    ((entityFields e p v h d c).map Prod.fst).Nodup := by
  have hkeys : (entityFields e p v h d c).map Prod.fst = [str "entity_id", str "business_node_id",
    str "parent_entity_id", str "position", str "velocity", str "heading_deg", str "alive", str "devices",
    str "effect_policies"] := rfl
  rw [hkeys]
  decide

theorem mergeEntity_writer {a b : Adapter.EntityState} {o u : Fields} (ha : Adapter.writeEntity a = some (.obj o))
    (hb : Adapter.writeEntity b = some (.obj u)) : mergeEntity o u = u := by
  obtain ⟨x, y, z, vx, vy, vz, hd, ds, ps, ho⟩ := writeEntity_eq_some ha
  obtain ⟨x', y', z', vx', vy', vz', hd', ds', ps', hu⟩ := writeEntity_eq_some hb
  obtain rfl := Json.obj.inj ho
  obtain rfl := Json.obj.inj hu
  refine Assoc.mergeWith_of_keys_eq (entityFields_nodup ..) rfl fun k v w hv hw => ?_
  by_cases hp : k = str "position"
  · subst hp
    have hv' := Assoc.find?_of_mem (entityFields_nodup ..) hv
    have hw' := Assoc.find?_of_mem (entityFields_nodup ..) hw
    cases hv'
    cases hw'
    exact mergeField_merge (positionFields_nodup ..) rfl
  by_cases hvel : k = str "velocity"
  · subst hvel
    have hv' := Assoc.find?_of_mem (entityFields_nodup ..) hv
    have hw' := Assoc.find?_of_mem (entityFields_nodup ..) hw
    cases hv'
    cases hw'
    exact mergeField_merge (velocityFields_nodup ..) rfl
  · exact mergeField_eq ⟨hp, hvel⟩

/-- The object a flow is written as. -/
def flowFields (f : Adapter.FlowConfig) : Fields := [
  (str "flow_id", .str f.flowId),
  (str "source_entity_id", .str f.sourceEntityId),
  (str "target_entity_id", .str f.targetEntityId),
  (str "packet_size_bytes", .int f.packetSizeBytes.toNat),
  (str "interval_ms", .int f.intervalMs.toNat),
  (str "duration_ms", .int f.durationMs.toNat),
  (str "active", .bool f.active)]

theorem writeFlow_eq (f : Adapter.FlowConfig) : Adapter.writeFlow f = some (.obj (flowFields f)) := rfl

theorem mergedFlow_writer (a b : Adapter.FlowConfig) :
    mergedFlow (some (flowFields a)) (flowFields b) = flowFields b := by
  have hkeys : (flowFields b).map Prod.fst = [str "flow_id", str "source_entity_id", str "target_entity_id",
    str "packet_size_bytes", str "interval_ms", str "duration_ms", str "active"] := rfl
  refine Assoc.merge_of_keys_eq ?_ rfl
  rw [hkeys]
  decide

def entityKind : RecordKind Adapter.EntityState Bridge.EntityState where
  idGetter := Adapter.EntityState.entityId
  same := Adapter.EntityState.same
  writer := Adapter.writeEntity
  parse := Bridge.EntityState.ofFields
  idOf := Bridge.EntityState.entityId
  merged := mergedEntity
  upsertWhat := str "entity_upserts"
  removalWhat := str "entity_removals"
  idKey := str "entity_id"
  same_sound := Adapter.entitySame_sound
  writer_obj a j h := by
    obtain ⟨x, y, z, vx, vy, vz, hd, ds, ps, rfl⟩ := writeEntity_eq_some h
    exact ⟨_, rfl, rfl⟩
  parse_id _ _ := Bridge.EntityState.entityId_of_ofFields
  merged_none _ := rfl
  merged_writer _ _ _ _ := mergeEntity_writer

def flowKind : RecordKind Adapter.FlowConfig Bridge.FlowConfig where
  idGetter := Adapter.FlowConfig.flowId
  same := Adapter.FlowConfig.same
  writer := Adapter.writeFlow
  parse := Bridge.FlowConfig.ofFields
  idOf := Bridge.FlowConfig.flowId
  merged := mergedFlow
  upsertWhat := str "flow_upserts"
  removalWhat := str "flow_removals"
  idKey := str "flow_id"
  same_sound := Adapter.flowSame_sound
  writer_obj a j h := ⟨flowFields a, (Option.some.inj h).symm, rfl⟩
  parse_id _ _ := Bridge.FlowConfig.flowId_of_ofFields
  merged_none u := Assoc.merge_nil_left u
  merged_writer a b o u ha hb := by
    obtain rfl := Json.obj.inj (Option.some.inj ha)
    obtain rfl := Json.obj.inj (Option.some.inj hb)
    exact mergedFlow_writer a b

end AfsimNs3.System
