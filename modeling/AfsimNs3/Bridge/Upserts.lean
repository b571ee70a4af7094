import AfsimNs3.Bridge.References

/-!
# Partial upserts

A delta lists removals and upserts in any number and order, several upserts of one key among them. The records are
raw objects that are merged and then read again, so the frame condition is about the parsed fields (`Field`): a field
is named by an update when a lookup in the update finds it, and a record takes it from the last update naming it.
Positions and velocities merge one level deep, so their components are the fields.

* `Lawful`: what a merge does to one field, for both kinds of record (`entityFields_lawful`, `flowFields_lawful`);
* `Upserted`: what one key's upserts, in their order, make of its record (`upserts_upserted`);
* `delta_framed`: an accepted delta changes exactly what it names.
-/

namespace AfsimNs3.Bridge
open StateStore

/-! ## Fields -/

/-- A field of the parsed records: where an object holds it, how it reads, and its place in a record. -/
structure Field (ρ : Type) where
  Value : Type
  lookup : Fields → Option Json
  read : Fields → Except PyError Value
  value : ρ → Value

namespace Field
variable {ρ : Type}

/-- The update names the field. -/
def Names (field : Field ρ) (update : Fields) : Prop := field.lookup update ≠ none

/-- The record takes the field from the last update naming it. -/
def TakesLast (field : Field ρ) (updates : List Fields) (record : ρ) : Prop :=
  ∀ earlier update later, updates = earlier ++ update :: later → field.Names update →
    (∀ u ∈ later, ¬ field.Names u) → field.read update = .ok (field.value record)

/-- A field under a key of the object. -/
def top {Value : Type} (key : Str) (read : Fields → Except PyError Value) (value : ρ → Value) : Field ρ :=
  ⟨Value, fun o => Assoc.find? o key, read, value⟩

/-- A component of the object under `parent`. -/
def component (parent key : Str) (value : ρ → ℚ) : Field ρ :=
  ⟨ℚ, fun o => Assoc.find? (Fields.get o parent).fields key,
    fun o => number (Fields.get o parent).fields key none none, value⟩

end Field

/-- The records of an array, `[]` if it is missing. -/
def listField {α : Type} (key : Str) (fromDict : Json → Except PyError α) (o : Fields) : Except PyError (List α) :=
  match o.getD key (.arr []) with
  | .arr items => items.mapM fromDict
  | _ => .error (.protocol 1002 (str "devices and effect_policies must be arrays"))

def entityFields : List (Field EntityState) := [
  .top (str "entity_id") (fun o => requiredText o (str "entity_id")) EntityState.entityId,
  .top (str "business_node_id") (fun o => requiredText o (str "business_node_id")) EntityState.businessNodeId,
  .top (str "parent_entity_id") (fun o => optionalText o (str "parent_entity_id")) EntityState.parentEntityId,
  .component (str "position") (str "x_m") (fun e => e.position.xM),
  .component (str "position") (str "y_m") (fun e => e.position.yM),
  .component (str "position") (str "z_m") (fun e => e.position.zM),
  .component (str "velocity") (str "vx_mps") (fun e => e.velocity.vxMps),
  .component (str "velocity") (str "vy_mps") (fun e => e.velocity.vyMps),
  .component (str "velocity") (str "vz_mps") (fun e => e.velocity.vzMps),
  .top (str "heading_deg") (fun o => number o (str "heading_deg") (some zeroBound) (some degreesBound))
    EntityState.headingDeg,
  .top (str "alive") (fun o => boolean (o.get (str "alive")) (str "alive must be boolean")) EntityState.alive,
  .top (str "devices") (listField (str "devices") DeviceConfig.fromDict) EntityState.devices,
  .top (str "effect_policies") (listField (str "effect_policies") EffectPolicy.fromDict) EntityState.effectPolicies]

def flowFields : List (Field FlowConfig) := [
  .top (str "flow_id") (fun o => requiredText o (str "flow_id")) FlowConfig.flowId,
  .top (str "source_entity_id") (fun o => requiredText o (str "source_entity_id")) FlowConfig.sourceEntityId,
  .top (str "target_entity_id") (fun o => requiredText o (str "target_entity_id")) FlowConfig.targetEntityId,
  .top (str "packet_size_bytes") (fun o => integer o (str "packet_size_bytes") (some 64)) FlowConfig.packetSizeBytes,
  .top (str "interval_ms") (fun o => integer o (str "interval_ms") (some 1)) FlowConfig.intervalMs,
  .top (str "duration_ms") (fun o => integer o (str "duration_ms") (some 100)) FlowConfig.durationMs,
  .top (str "active") (fun o => boolean (o.getD (str "active") (.bool true)) (str "active must be boolean"))
    FlowConfig.active]

/-- **The fields are all there is to a record.** -/
theorem entityFields_ext {a b : EntityState} (h : ∀ field ∈ entityFields, field.value a = field.value b) : a = b := by
  rcases a with ⟨_, _, _, ⟨_, _, _⟩, ⟨_, _, _⟩, _, _, _, _⟩
  rcases b with ⟨_, _, _, ⟨_, _, _⟩, ⟨_, _, _⟩, _, _, _, _⟩
  simp only [entityFields, List.forall_mem_cons, List.not_mem_nil, false_imp_iff, implies_true, and_true, Field.top,
    Field.component] at h
  obtain ⟨rfl, rfl, rfl, rfl, rfl, rfl, rfl, rfl, rfl, rfl, rfl, rfl, rfl⟩ := h
  rfl

theorem flowFields_ext {a b : FlowConfig} (h : ∀ field ∈ flowFields, field.value a = field.value b) : a = b := by
  rcases a with ⟨_, _, _, _, _, _, _⟩
  rcases b with ⟨_, _, _, _, _, _, _⟩
  simp only [flowFields, List.forall_mem_cons, List.not_mem_nil, false_imp_iff, implies_true, and_true, Field.top] at h
  obtain ⟨rfl, rfl, rfl, rfl, rfl, rfl, rfl⟩ := h
  rfl

/-! ## What a merge does to a field -/

section Fields
variable {ρ : Type}

/-- The field reads from its lookup alone, and a merge of readable records takes it from the update where that names
it, from the current record otherwise. -/
structure Lawful (parse : Fields → Except PyError ρ) (merged : Option Fields → Fields → Fields) (field : Field ρ) :
    Prop where
  unnamed : field.lookup [] = none
  congr : ∀ {o o'}, field.lookup o = field.lookup o' → field.read o = field.read o'
  parsed : ∀ {o x}, parse o = .ok x → field.read o = .ok (field.value x)
  merge : ∀ {o u x y}, parse o = .ok x → parse (merged (some o) u) = .ok y →
    field.lookup (merged (some o) u) = (field.lookup u).or (field.lookup o)

variable {parse : Fields → Except PyError ρ} {merged : Option Fields → Fields → Fields}

/-- A top-level field of records whose merge replaces the values under its key. -/
theorem Lawful.top {Value : Type} {key : Str} {read : Fields → Except PyError Value} {value : ρ → Value}
    (hcongr : ∀ {o o'}, Assoc.find? o key = Assoc.find? o' key → read o = read o')
    (hparsed : ∀ {o x}, parse o = .ok x → read o = .ok (value x))
    (hmerge : ∀ o u, Assoc.find? (merged (some o) u) key = (Assoc.find? u key).or (Assoc.find? o key)) :
    Lawful parse merged (.top key read value) :=
  ⟨rfl, hcongr, hparsed, fun {o u _ _} _ _ => hmerge o u⟩

theorem get_congr {o o' : Fields} {key : Str} (h : Assoc.find? o key = Assoc.find? o' key) :
    Fields.get o key = Fields.get o' key := by
  rw [Fields.get, Fields.getD, h]
  rfl

theorem getD_congr {o o' : Fields} {key : Str} {default : Json} (h : Assoc.find? o key = Assoc.find? o' key) :
    Fields.getD o key default = Fields.getD o' key default := by
  rw [Fields.getD, h]
  rfl

theorem get_eq_obj_iff {o d : Fields} {key : Str} :
    Fields.get o key = .obj d ↔ Assoc.find? o key = some (.obj d) := by
  unfold Fields.get Fields.getD
  cases Assoc.find? o key <;> simp

/-! ## Entities -/

theorem Position.fromDict_ok {raw : Json} {position : Position} (h : Position.fromDict raw = .ok position) :
    ∃ data, raw = .obj data ∧ number data (str "x_m") none none = .ok position.xM ∧
      number data (str "y_m") none none = .ok position.yM ∧ number data (str "z_m") none none = .ok position.zM := by
  cases raw with
  | obj data =>
    simp only [Position.fromDict, Except.bind_ok_iff, Except.pure_ok_iff] at h
    obtain ⟨x, hx, y, hy, z, hz, rfl⟩ := h
    exact ⟨data, rfl, hx, hy, hz⟩
  | _ => cases h

theorem Velocity.fromDict_ok {raw : Json} {velocity : Velocity} (h : Velocity.fromDict raw = .ok velocity) :
    ∃ data, raw = .obj data ∧ number data (str "vx_mps") none none = .ok velocity.vxMps ∧
      number data (str "vy_mps") none none = .ok velocity.vyMps ∧
      number data (str "vz_mps") none none = .ok velocity.vzMps := by
  cases raw with
  | obj data =>
    simp only [Velocity.fromDict, Except.bind_ok_iff, Except.pure_ok_iff] at h
    obtain ⟨x, hx, y, hy, z, hz, rfl⟩ := h
    exact ⟨data, rfl, hx, hy, hz⟩
  | _ => cases h

theorem mergeField_of_ne {key : Str} (h : ¬ (key = str "position" ∨ key = str "velocity")) (old : Option Json)
    (value : Json) : mergeField key old value = value := by
  unfold mergeField
  split <;> simp [h]

/-- All fields but positions and velocities are replaced. -/
theorem find?_mergeEntity_of_ne {key : Str} (h : ¬ (key = str "position" ∨ key = str "velocity")) (o u : Fields) :
    Assoc.find? (mergedEntity (some o) u) key = (Assoc.find? u key).or (Assoc.find? o key) := by
  rw [mergedEntity, mergeEntity, Assoc.find?_mergeWith]
  cases Assoc.find? u key with
  | none => rfl
  | some w => exact congrArg some (mergeField_of_ne h _ _)

/-- A component of a position or a velocity: a record that reads holds an object there, so merges of objects are all
that a readable update can do. -/
theorem Lawful.component {parent key : Str} {value : EntityState → ℚ}
    (hparent : parent = str "position" ∨ parent = str "velocity")
    (hread : ∀ {o x}, EntityState.ofFields o = .ok x →
      ∃ d, Assoc.find? o parent = some (.obj d) ∧ number d key none none = .ok (value x)) :
    Lawful EntityState.ofFields mergedEntity (.component parent key value) := by
  have hfields : ∀ {o d : Fields}, Assoc.find? o parent = some (.obj d) → (Fields.get o parent).fields = d := by
    intro o d h
    rw [get_eq_obj_iff.mpr h]
    rfl
  refine ⟨rfl, fun {o o'} h => ?_, fun {o x} h => ?_, fun {o u x y} ho hm => ?_⟩
  · have hget : Fields.get (Fields.get o parent).fields key = Fields.get (Fields.get o' parent).fields key := get_congr h
    show number _ _ _ _ = number _ _ _ _
    rw [number, number, hget]
  · obtain ⟨d, hd, hnumber⟩ := hread h
    show number _ _ _ _ = _
    rw [hfields hd]
    exact hnumber
  · obtain ⟨d, hd, -⟩ := hread ho
    obtain ⟨d', hd', -⟩ := hread hm
    show Assoc.find? (Fields.get (mergedEntity (some o) u) parent).fields key =
      (Assoc.find? (Fields.get u parent).fields key).or (Assoc.find? (Fields.get o parent).fields key)
    rw [hfields hd, hfields hd']
    rw [mergedEntity, mergeEntity, Assoc.find?_mergeWith, hd] at hd'
    cases hu : Assoc.find? u parent with
    | none =>
      have hnull : Fields.get u parent = .null := by
        rw [Fields.get, Fields.getD, hu]
        rfl
      rw [hu] at hd'
      obtain rfl : d = d' := by simpa using hd'
      rw [hnull]
      rfl
    | some w =>
      rw [hu] at hd'
      have hmerged : mergeField parent (some (.obj d)) w = .obj d' := Option.some.inj hd'
      cases w with
      | obj v =>
        rw [mergeField, if_pos hparent, Json.obj.injEq] at hmerged
        rw [hfields hu, ← hmerged, Assoc.find?_merge]
      | _ => cases hmerged

/-- Every field of an accepted entity, by its reader. -/
structure EntityState.ReadsAs (o : Fields) (entity : EntityState) : Prop where
  entityId : requiredText o (str "entity_id") = .ok entity.entityId
  businessNodeId : requiredText o (str "business_node_id") = .ok entity.businessNodeId
  parentEntityId : optionalText o (str "parent_entity_id") = .ok entity.parentEntityId
  position : Position.fromDict (o.get (str "position")) = .ok entity.position
  velocity : Velocity.fromDict (o.get (str "velocity")) = .ok entity.velocity
  headingDeg : number o (str "heading_deg") (some zeroBound) (some degreesBound) = .ok entity.headingDeg
  alive : boolean (o.get (str "alive")) (str "alive must be boolean") = .ok entity.alive
  devices : listField (str "devices") DeviceConfig.fromDict o = .ok entity.devices
  effectPolicies : listField (str "effect_policies") EffectPolicy.fromDict o = .ok entity.effectPolicies

theorem EntityState.readsAs {o : Fields} {entity : EntityState} (h : EntityState.ofFields o = .ok entity) :
    EntityState.ReadsAs o entity := by
  rw [EntityState.ofFields, Except.bind_ok_iff] at h
  obtain ⟨alive, halive, h⟩ := h
  rw [Except.bind_ok_iff] at h
  obtain ⟨⟨devices, policies⟩, harrays, h⟩ := h
  obtain ⟨hdevices, hpolicies⟩ := arrays_ok_iff.mp harrays
  simp only [Except.bind_ok_iff, Except.pure_ok_iff] at h
  obtain ⟨_, hid, _, hnode, _, hparent, _, hposition, _, hvelocity, _, hheading, _, hd, _, hp, rfl⟩ := h
  refine ⟨hid, hnode, hparent, hposition, hvelocity, hheading, halive, ?_, ?_⟩
  · rw [listField, hdevices]
    exact hd
  · rw [listField, hpolicies]
    exact hp

theorem EntityState.ReadsAs.position_object {o : Fields} {entity : EntityState} (h : EntityState.ReadsAs o entity) :
    ∃ d, Assoc.find? o (str "position") = some (.obj d) ∧ number d (str "x_m") none none = .ok entity.position.xM ∧
      number d (str "y_m") none none = .ok entity.position.yM ∧
      number d (str "z_m") none none = .ok entity.position.zM := by
  obtain ⟨d, hd, hnumbers⟩ := Position.fromDict_ok h.position
  exact ⟨d, get_eq_obj_iff.mp hd, hnumbers⟩

theorem EntityState.ReadsAs.velocity_object {o : Fields} {entity : EntityState} (h : EntityState.ReadsAs o entity) :
    ∃ d, Assoc.find? o (str "velocity") = some (.obj d) ∧
      number d (str "vx_mps") none none = .ok entity.velocity.vxMps ∧
      number d (str "vy_mps") none none = .ok entity.velocity.vyMps ∧
      number d (str "vz_mps") none none = .ok entity.velocity.vzMps := by
  obtain ⟨d, hd, hnumbers⟩ := Velocity.fromDict_ok h.velocity
  exact ⟨d, get_eq_obj_iff.mp hd, hnumbers⟩

section Readers
variable {o o' : Fields} {key : Str} (h : Assoc.find? o key = Assoc.find? o' key)
include h

theorem requiredText_congr : requiredText o key = requiredText o' key := by
  rw [requiredText, requiredText, get_congr h]

theorem optionalText_congr : optionalText o key = optionalText o' key := by
  rw [optionalText, optionalText, get_congr h]

theorem number_congr (minimum maximum : Option Bound) :
    number o key minimum maximum = number o' key minimum maximum := by
  rw [number, number, get_congr h]

theorem integer_congr (minimum : Option ℤ) : integer o key minimum = integer o' key minimum := by
  rw [integer, integer, get_congr h]

theorem listField_congr {α : Type} (fromDict : Json → Except PyError α) :
    listField key fromDict o = listField key fromDict o' := by
  rw [listField, listField, getD_congr h]

end Readers

theorem entityFields_lawful : ∀ field ∈ entityFields, Lawful EntityState.ofFields mergedEntity field := by
  have hposition : ∀ {key : Str} {value : EntityState → ℚ},
      (∀ {o e}, EntityState.ReadsAs o e → ∃ d, Assoc.find? o (str "position") = some (.obj d) ∧
        number d key none none = .ok (value e)) →
      Lawful EntityState.ofFields mergedEntity (.component (str "position") key value) :=
    fun h => Lawful.component (Or.inl rfl) fun hread => h (EntityState.readsAs hread)
  have hvelocity : ∀ {key : Str} {value : EntityState → ℚ},
      (∀ {o e}, EntityState.ReadsAs o e → ∃ d, Assoc.find? o (str "velocity") = some (.obj d) ∧
        number d key none none = .ok (value e)) →
      Lawful EntityState.ofFields mergedEntity (.component (str "velocity") key value) :=
    fun h => Lawful.component (Or.inr rfl) fun hread => h (EntityState.readsAs hread)
  have htop : ∀ {Value : Type} {key : Str} {read : Fields → Except PyError Value} {value : EntityState → Value},
      (∀ {o o'}, Assoc.find? o key = Assoc.find? o' key → read o = read o') →
      (∀ {o e}, EntityState.ReadsAs o e → read o = .ok (value e)) → ¬ (key = str "position" ∨ key = str "velocity") →
      Lawful EntityState.ofFields mergedEntity (.top key read value) :=
    fun hcongr h hkey => Lawful.top hcongr (fun hread => h (EntityState.readsAs hread)) (find?_mergeEntity_of_ne hkey)
  unfold entityFields
  simp only [List.forall_mem_cons, List.not_mem_nil, false_imp_iff, implies_true, and_true]
  refine ⟨htop requiredText_congr (fun h => h.entityId) (by decide),
    htop requiredText_congr (fun h => h.businessNodeId) (by decide),
    htop optionalText_congr (fun h => h.parentEntityId) (by decide),
    hposition fun h => ?_, hposition fun h => ?_, hposition fun h => ?_,
    hvelocity fun h => ?_, hvelocity fun h => ?_, hvelocity fun h => ?_,
    htop (fun h => number_congr h _ _) (fun h => h.headingDeg) (by decide),
    htop (fun h => by rw [get_congr h]) (fun h => h.alive) (by decide),
    htop (fun h => listField_congr h _) (fun h => h.devices) (by decide),
    htop (fun h => listField_congr h _) (fun h => h.effectPolicies) (by decide)⟩
  · obtain ⟨d, hd, hx, -, -⟩ := h.position_object
    exact ⟨d, hd, hx⟩
  · obtain ⟨d, hd, -, hy, -⟩ := h.position_object
    exact ⟨d, hd, hy⟩
  · obtain ⟨d, hd, -, -, hz⟩ := h.position_object
    exact ⟨d, hd, hz⟩
  · obtain ⟨d, hd, hx, -, -⟩ := h.velocity_object
    exact ⟨d, hd, hx⟩
  · obtain ⟨d, hd, -, hy, -⟩ := h.velocity_object
    exact ⟨d, hd, hy⟩
  · obtain ⟨d, hd, -, -, hz⟩ := h.velocity_object
    exact ⟨d, hd, hz⟩

/-! ## Flows -/

/-- Every field of an accepted flow, by its reader. -/
structure FlowConfig.ReadsAs (o : Fields) (flow : FlowConfig) : Prop where
  flowId : requiredText o (str "flow_id") = .ok flow.flowId
  sourceEntityId : requiredText o (str "source_entity_id") = .ok flow.sourceEntityId
  targetEntityId : requiredText o (str "target_entity_id") = .ok flow.targetEntityId
  packetSizeBytes : integer o (str "packet_size_bytes") (some 64) = .ok flow.packetSizeBytes
  intervalMs : integer o (str "interval_ms") (some 1) = .ok flow.intervalMs
  durationMs : integer o (str "duration_ms") (some 100) = .ok flow.durationMs
  active : boolean (o.getD (str "active") (.bool true)) (str "active must be boolean") = .ok flow.active

theorem FlowConfig.readsAs {o : Fields} {flow : FlowConfig} (h : FlowConfig.ofFields o = .ok flow) :
    FlowConfig.ReadsAs o flow := by
  simp only [FlowConfig.ofFields, Except.bind_ok_iff, Except.pure_ok_iff] at h
  obtain ⟨_, hactive, _, hid, _, hsource, _, htarget, _, hsize, _, hinterval, _, hduration, rfl⟩ := h
  exact ⟨hid, hsource, htarget, hsize, hinterval, hduration, hactive⟩

theorem flowFields_lawful : ∀ field ∈ flowFields, Lawful FlowConfig.ofFields mergedFlow field := by
  have htop : ∀ {Value : Type} {key : Str} {read : Fields → Except PyError Value} {value : FlowConfig → Value},
      (∀ {o o'}, Assoc.find? o key = Assoc.find? o' key → read o = read o') →
      (∀ {o e}, FlowConfig.ReadsAs o e → read o = .ok (value e)) →
      Lawful FlowConfig.ofFields mergedFlow (.top key read value) :=
    fun hcongr h => Lawful.top hcongr (fun hread => h (FlowConfig.readsAs hread)) fun o u => Assoc.find?_merge o u _
  unfold flowFields
  simp only [List.forall_mem_cons, List.not_mem_nil, false_imp_iff, implies_true, and_true]
  exact ⟨htop requiredText_congr fun h => h.flowId, htop requiredText_congr fun h => h.sourceEntityId,
    htop requiredText_congr fun h => h.targetEntityId, htop (fun h => integer_congr h _) fun h => h.packetSizeBytes,
    htop (fun h => integer_congr h _) fun h => h.intervalMs, htop (fun h => integer_congr h _) fun h => h.durationMs,
    htop (fun h => by rw [getD_congr h]) fun h => h.active⟩

end Fields

/-! ## The upserts of one key -/

variable {ρ : Type} {parse : Fields → Except PyError ρ} {merged : Option Fields → Fields → Fields}

/-- The updates of an upsert list that carry the ID text. -/
def upsertsOf (idKey : Str) (updates : List Json) (key : Str) : List Fields :=
  (updates.map Json.fields).filter (fun update => (Fields.get update idKey).text? = some key)

variable (parse merged) in
/-- What the upserts of one key, in their order, make of its record; each merged record is read. -/
inductive Upserted (base : Option Fields) : List Fields → Option Fields → Prop
  | refl : Upserted base [] base
  | snoc {updates : List Fields} {current : Option Fields} {update : Fields} {record : ρ}
      (h : Upserted base updates current) (hread : parse (merged current update) = .ok record) :
      Upserted base (updates ++ [update]) (some (merged current update))

/-- The upsert loop, key by key. -/
theorem upserts_upserted {what idKey : Str} {records records' : Dict Str Fields} {updates : List Json}
    (h : updates.foldlM (upsertOne parse merged what idKey) records = .ok records') (key : Str) :
    Upserted parse merged (records.get? key) (upsertsOf idKey updates key) (records'.get? key) := by
  have hall := Except.foldlM_ok
    (fun done d => ∀ key, Upserted parse merged (records.get? key) (upsertsOf idKey done key) (d.get? key))
    (fun done d update d' hinv hd key => by
      obtain ⟨o, id, rfl, hid, -, ⟨record, hrecord⟩, rfl⟩ := upsertOne_ok_iff.mp hd
      have hsplit : upsertsOf idKey (done ++ [.obj o]) key =
          upsertsOf idKey done key ++ [o].filter (fun update => (Fields.get update idKey).text? = some key) := by
        rw [upsertsOf, List.map_append, List.filter_append]
        rfl
      rw [hsplit, List.filter_singleton, hid, Json.text?, Dict.get?_put]
      by_cases hkey : key = id
      · subst hkey
        rw [if_pos rfl, decide_eq_true rfl]
        exact (hinv key).snoc hrecord
      · have hne : (some id : Option Str) ≠ some key := fun h => hkey (Option.some.inj h).symm
        rw [if_neg hkey, decide_eq_false hne]
        simpa using hinv key)
    (fun key => .refl) h
  exact hall key

namespace Upserted
variable {base current : Option Fields} {updates : List Fields}

theorem eq_base (h : Upserted parse merged base [] current) : current = base := by
  generalize hnil : ([] : List Fields) = updates at h
  cases h with
  | refl => rfl
  | snoc => exact absurd hnil.symm (List.append_ne_nil_of_right_ne_nil _ (List.cons_ne_nil _ _))

/-- A key with an upsert holds a record that reads. -/
theorem parsed (h : Upserted parse merged base updates current) (hne : updates ≠ []) :
    ∃ o record, current = some o ∧ parse o = .ok record := by
  cases h with
  | refl => exact absurd rfl hne
  | snoc _ hread => exact ⟨_, _, rfl, hread⟩

/-- Without a record to merge with, the first upsert is a record of its own. -/
theorem complete (hfresh : ∀ u, merged none u = u) (h : Upserted parse merged none updates current)
    (hne : updates ≠ []) : ∃ first rest record, updates = first :: rest ∧ parse first = .ok record := by
  induction h with
  | refl => exact absurd rfl hne
  | @snoc updates current update record h hread ih =>
    rcases updates with _ | ⟨first, rest⟩
    · rw [h.eq_base, hfresh] at hread
      exact ⟨update, [], record, rfl, hread⟩
    · obtain ⟨first', rest', record', heq, hfirst⟩ := ih (List.cons_ne_nil _ _)
      obtain ⟨rfl, rfl⟩ := List.cons.inj heq
      exact ⟨first, rest ++ [update], record', rfl, hfirst⟩

/-- **A field is looked up in the last upsert naming it**, in the record before if none does. -/
theorem lookup_eq {field : Field ρ} (hlaw : Lawful parse merged field) (hfresh : ∀ u, merged none u = u)
    (hbase : ∀ o, base = some o → ∃ record, parse o = .ok record) (h : Upserted parse merged base updates current) :
    current.bind field.lookup = ((updates.filterMap field.lookup).getLast?).or (base.bind field.lookup) := by
  induction h with
  | refl => rfl
  | @snoc updates current update record h hread ih =>
    have hcurrent : ∀ o, current = some o → ∃ x, parse o = .ok x := by
      intro o ho
      by_cases hnil : updates = []
      · subst hnil
        exact hbase o (h.eq_base ▸ ho)
      · obtain ⟨o', x, ho', hx⟩ := h.parsed hnil
        obtain rfl := Option.some.inj (ho.symm.trans ho')
        exact ⟨x, hx⟩
    have hmerged : field.lookup (merged current update) = (field.lookup update).or (current.bind field.lookup) := by
      rcases current with _ | o
      · rw [hfresh, Option.bind_none, Option.or_none]
      · obtain ⟨x, hx⟩ := hcurrent o rfl
        exact hlaw.merge hx hread
    rw [Option.bind_some, hmerged, ih, List.filterMap_append]
    cases hu : field.lookup update with
    | none => simp [hu]
    | some v => simp [hu]

theorem filterMap_getLast? {field : Field ρ} {earlier later : List Fields} {update : Fields}
    (hnames : field.Names update) (hlater : ∀ u ∈ later, ¬ field.Names u) :
    ((earlier ++ update :: later).filterMap field.lookup).getLast? = field.lookup update := by
  have hnil : later.filterMap field.lookup = [] :=
    List.filterMap_eq_nil_iff.mpr fun u hu => not_not.mp (hlater u hu)
  obtain ⟨v, hv⟩ := Option.ne_none_iff_exists'.mp hnames
  rw [List.filterMap_append, List.filterMap_cons_some hv, hnil, List.getLast?_concat, hv]

section Fields
variable {field : Field ρ} (hlaw : Lawful parse merged field) (hfresh : ∀ u, merged none u = u)
  (hbase : ∀ o, base = some o → ∃ record, parse o = .ok record) {o : Fields} {record : ρ}
  (h : Upserted parse merged base updates (some o)) (ho : parse o = .ok record)
include hlaw hfresh hbase h ho

/-- A named field comes from the last upsert naming it. -/
theorem takesLast : field.TakesLast updates record := by
  intro earlier update later hsplit hnames hlater
  have hlookup := h.lookup_eq hlaw hfresh hbase
  rw [Option.bind_some, hsplit, filterMap_getLast? hnames hlater] at hlookup
  obtain ⟨v, hv⟩ := Option.ne_none_iff_exists'.mp hnames
  rw [hv, Option.some_or, ← hv] at hlookup
  rw [← hlaw.congr hlookup]
  exact hlaw.parsed ho

/-- A field none of the upserts names reads as it did before. -/
theorem read_unnamed (hunnamed : ∀ u ∈ updates, ¬ field.Names u) :
    field.read (base.getD []) = .ok (field.value record) := by
  have hnil : updates.filterMap field.lookup = [] :=
    List.filterMap_eq_nil_iff.mpr fun u hu => not_not.mp (hunnamed u hu)
  have hlookup := h.lookup_eq hlaw hfresh hbase
  rw [Option.bind_some, hnil, List.getLast?_nil, Option.none_or] at hlookup
  have hsame : field.lookup (base.getD []) = field.lookup o := by
    rw [hlookup]
    cases base with
    | none => exact hlaw.unnamed
    | some b => rfl
  rw [hlaw.congr hsame]
  exact hlaw.parsed ho

end Fields

end Upserted

/-! ## The frame of a delta -/

/-- What a delta does to the records of one kind. -/
structure Framed (fields : List (Field ρ)) (parse : Fields → Except PyError ρ) (removals : List Str)
    (upserts : Str → List Fields) (old new : Dict Str Fields) : Prop where
  /-- A key in neither list keeps its record. -/
  untouched : ∀ key, key ∉ removals → upserts key = [] → new.get? key = old.get? key
  removed : ∀ key ∈ removals, upserts key = [] → new.get? key = none
  /-- A record takes each field from the last upsert naming it and keeps the fields none names. -/
  merged : ∀ key, key ∉ removals → upserts key ≠ [] → ∀ o, old.get? key = some o →
    ∃ before o' after, parse o = .ok before ∧ new.get? key = some o' ∧ parse o' = .ok after ∧
      ∀ field ∈ fields, field.TakesLast (upserts key) after ∧
        ((∀ u ∈ upserts key, ¬ field.Names u) → field.value after = field.value before)
  /-- A record that is removed and upserted starts from a complete record, and each of its fields comes from an
  upsert, or is the default of a record that lacks it. -/
  replaced : ∀ key ∈ removals, upserts key ≠ [] →
    ∃ first rest complete o' after, upserts key = first :: rest ∧ parse first = .ok complete ∧
      new.get? key = some o' ∧ parse o' = .ok after ∧
      ∀ field ∈ fields, field.TakesLast (upserts key) after ∧
        ((∀ u ∈ upserts key, ¬ field.Names u) → field.read [] = .ok (field.value after))

/-- The removal loop and the upsert loop, over records that read. -/
theorem loops_framed {fields : List (Field ρ)} (hlaw : ∀ field ∈ fields, Lawful parse merged field)
    (hfresh : ∀ u, merged none u = u) {removalName upsertName idKey : Str} {removals updates : List Json}
    {old kept new : Dict Str Fields} (hold : ∀ key o, old.get? key = some o → ∃ record, parse o = .ok record)
    (hremove : removals.foldlM (removeOne removalName) old = .ok kept)
    (hupsert : updates.foldlM (upsertOne parse merged upsertName idKey) kept = .ok new) :
    Framed fields parse (removalTexts removals) (upsertsOf idKey updates) old new := by
  have hkept := removals_get? hremove
  have hnew := upserts_upserted hupsert
  refine ⟨fun key hkey hnil => ?_, fun key hkey hnil => ?_, fun key hkey hne o ho => ?_, fun key hkey hne => ?_⟩
  · have h := hnew key
    rw [hkept, if_neg hkey, hnil] at h
    exact h.eq_base
  · have h := hnew key
    rw [hkept, if_pos hkey, hnil] at h
    exact h.eq_base
  · have h := hnew key
    rw [hkept, if_neg hkey, ho] at h
    obtain ⟨before, hbefore⟩ := hold key o ho
    obtain ⟨o', after, ho', hafter⟩ := h.parsed hne
    have hbase : ∀ b, some o = some b → ∃ record, parse b = .ok record := by
      intro b hb
      obtain rfl := Option.some.inj hb
      exact ⟨before, hbefore⟩
    rw [ho'] at h
    refine ⟨before, o', after, hbefore, ho', hafter, fun field hfield => ?_⟩
    refine ⟨h.takesLast (hlaw field hfield) hfresh hbase hafter, fun hunnamed => ?_⟩
    have hread := h.read_unnamed (hlaw field hfield) hfresh hbase hafter hunnamed
    exact Except.ok.inj (hread.symm.trans ((hlaw field hfield).parsed hbefore))
  · have h := hnew key
    rw [hkept, if_pos hkey] at h
    obtain ⟨first, rest, complete, hsplit, hfirst⟩ := h.complete hfresh hne
    obtain ⟨o', after, ho', hafter⟩ := h.parsed hne
    have hbase : ∀ b, (none : Option Fields) = some b → ∃ record, parse b = .ok record := fun b hb => nomatch hb
    rw [ho'] at h
    refine ⟨first, rest, complete, o', after, hsplit, hfirst, ho', hafter, fun field hfield => ?_⟩
    exact ⟨h.takesLast (hlaw field hfield) hfresh hbase hafter,
      fun hunnamed => h.read_unnamed (hlaw field hfield) hfresh hbase hafter hunnamed⟩

/-- **Partial upserts change exactly what they name**, in every delta accepted by a store that accepted calls led
to. -/
theorem delta_framed {ops : List StoreOp} {s s' : StateStore} (hrun : Machine.run StateStore.step new ops = some s)
    {payload : Fields} {timestampMs : ℤ} (h : s.applyDelta payload timestampMs = .ok s') :
    ∃ lists, deltaLists payload = .ok lists ∧
      Framed entityFields EntityState.ofFields (removalTexts lists.entityRemovals)
        (upsertsOf (str "entity_id") lists.entityUpserts) s.entities s'.entities ∧
      Framed flowFields FlowConfig.ofFields (removalTexts lists.flowRemovals)
        (upsertsOf (str "flow_id") lists.flowUpserts) s.flows s'.flows := by
  obtain ⟨hinit, -, lists, entities, flows, hlists, happlied, -, rfl⟩ := applyDelta_ok_iff.mp h
  obtain ⟨keptEntities, hremoveEntities, hupsertEntities⟩ := happlied.entityLoops
  obtain ⟨keptFlows, hremoveFlows, hupsertFlows⟩ := happlied.flowLoops
  obtain ⟨hentities, hflows⟩ := validateReferences_ok_iff.mp (run_referenced hrun hinit)
  have hreadEntities : ∀ key o, s.entities.get? key = some o → ∃ entity, EntityState.ofFields o = .ok entity := by
    intro key o ho
    obtain ⟨entity, hentity, -⟩ := hentities o (Dict.mem_values_iff.mpr ⟨key, ho⟩)
    exact ⟨entity, hentity⟩
  have hreadFlows : ∀ key o, s.flows.get? key = some o → ∃ flow, FlowConfig.ofFields o = .ok flow := by
    intro key o ho
    obtain ⟨flow, hflow, -⟩ := hflows o (Dict.mem_values_iff.mpr ⟨key, ho⟩)
    exact ⟨flow, hflow⟩
  refine ⟨lists, hlists, ?_, ?_⟩
  · exact loops_framed entityFields_lawful (fun _ => rfl) hreadEntities hremoveEntities hupsertEntities
  · exact loops_framed flowFields_lawful (fun u => Assoc.merge_nil_left u) hreadFlows hremoveFlows hupsertFlows

/-- Two upserts of one entity, each naming some of its fields. -/
def turningDelta : Fields := [
  (str "entity_upserts", .arr [
    .obj [(str "entity_id", .str (str "A")), (str "position", .obj [(str "x_m", .int 5)]), (str "heading_deg", .int 45)],
    .obj [(str "entity_id", .str (str "A")), (str "heading_deg", .int 90)]])]

def restingRun : List StoreOp := [.init [(str "entities", .arr [restingEntity (str "A")]), (str "flows", .arr [])] 0]

theorem turning_framed : ∃ s s', Machine.run StateStore.step new restingRun = some s ∧
    s.applyDelta turningDelta 1 = .ok s' ∧
    ((s'.entities.get? (str "A")).bind (fun o => (EntityState.ofFields o).toOption)).map
      (fun entity => (entity.position, entity.headingDeg)) = some (⟨5, 0, 0⟩, 90) ∧
    ∃ lists, deltaLists turningDelta = .ok lists ∧
      Framed entityFields EntityState.ofFields (removalTexts lists.entityRemovals)
        (upsertsOf (str "entity_id") lists.entityUpserts) s.entities s'.entities ∧
      Framed flowFields FlowConfig.ofFields (removalTexts lists.flowRemovals)
        (upsertsOf (str "flow_id") lists.flowUpserts) s.flows s'.flows := by
  have hend : ((Machine.run StateStore.step new restingRun).bind (fun s => (s.applyDelta turningDelta 1).toOption)).bind
      (fun s' => ((s'.entities.get? (str "A")).bind (fun o => (EntityState.ofFields o).toOption)).map
        (fun entity => (entity.position, entity.headingDeg))) = some (⟨5, 0, 0⟩, 90) := by
    decide +kernel
  obtain ⟨s', hs', hvalues⟩ := Option.bind_eq_some_iff.mp hend
  obtain ⟨s, hs, hdelta⟩ := Option.bind_eq_some_iff.mp hs'
  have hdelta : s.applyDelta turningDelta 1 = .ok s' := Except.toOption_eq_some_iff.mp hdelta
  exact ⟨s, s', hs, hdelta, hvalues, delta_framed hs hdelta⟩

end AfsimNs3.Bridge
