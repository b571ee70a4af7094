import AfsimNs3.Bridge.Process
import AfsimNs3.Bridge.References
import AfsimNs3.Lib.Ends

/-!
# Integers beyond the range of a double

`float` raises an `OverflowError` on such an integer, and `_number` does not guard against it. The records of a request
are read in an order, and the first check that fails refuses it, so the error comes out exactly when the reading reaches
a number field that holds such an integer before anything else is wrong (`update_overflow_iff`).
-/

namespace AfsimNs3.Bridge
open Except

/-- An integer that `float` cannot convert. -/
def Huge (v : Json) : Prop := ∃ (n : ℤ) (negative : Bool), v = .int n ∧ Double.ofRat n = .inf negative

/-- The reader takes the value. -/
def Accepts {α : Type} (x : Except PyError α) : Prop := ∃ a, x = .ok a

/-- The reader converts no number. -/
abbrev NeverOverflows {α : Type} (x : Except PyError α) : Prop := Ends (fun _ => True) (· ≠ .overflow) x

theorem protocol_ne_overflow {code : ℕ} {message : Str} : PyError.protocol code message ≠ .overflow := by
  intro h
  cases h

/-! ## Fields -/

section
variable {data : Fields} {key : Str}

theorem requiredText_never : NeverOverflows (requiredText data key) := by
  unfold requiredText
  split
  · split_ifs
    · exact protocol_ne_overflow
    · exact trivial
  · exact protocol_ne_overflow

theorem optionalText_never : NeverOverflows (optionalText data key) := by
  unfold optionalText
  split
  · exact trivial
  · split_ifs
    · exact protocol_ne_overflow
    · exact trivial
  · exact protocol_ne_overflow

theorem integer_never {minimum : Option ℤ} : NeverOverflows (integer data key minimum) := by
  unfold integer
  split
  · split_ifs
    · exact protocol_ne_overflow
    · exact trivial
  · exact protocol_ne_overflow

theorem boolean_never {value : Json} {message : Str} : NeverOverflows (boolean value message) := by
  unfold boolean
  split
  · exact trivial
  · exact protocol_ne_overflow

theorem arrays_never {first second : Json} {message : Str} : NeverOverflows (arrays first second message) := by
  unfold arrays
  split
  · exact trivial
  · exact protocol_ne_overflow

theorem withinBounds_never {minimum maximum : Option Bound} {x : Double} : NeverOverflows (withinBounds key minimum maximum x) := by
  unfold withinBounds
  split
  · split_ifs
    · exact protocol_ne_overflow
    · exact protocol_ne_overflow
    · exact trivial
  · exact protocol_ne_overflow

theorem toFloat_overflow_iff {v : Json} : toFloat key v = .error .overflow ↔ Huge v := by
  constructor
  · intro h
    unfold toFloat at h
    split at h
    · rename_i n
      split at h
      · rename_i negative hinf
        exact ⟨n, negative, rfl, hinf⟩
      · cases h
    · cases h
    · cases h
  · rintro ⟨n, negative, rfl, hinf⟩
    unfold toFloat
    dsimp only
    rw [hinf]

/-- **A number field raises the error** exactly when it holds such an integer, whatever its bounds. -/
theorem number_overflow_iff {minimum maximum : Option Bound} :
    number data key minimum maximum = .error .overflow ↔ Huge (data.get key) := by
  rw [number, bind_error_iff, toFloat_overflow_iff, or_iff_left]
  rintro ⟨x, -, hbounds⟩
  exact withinBounds_never.raised hbounds rfl

end

/-- A number field of a record. -/
structure NumberField where
  key : Str
  minimum : Option Bound
  maximum : Option Bound

def NumberField.read (data : Fields) (field : NumberField) : Except PyError ℚ :=
  number data field.key field.minimum field.maximum

/-- Of the number fields, read one after another, one holds such an integer and those before it are fine. -/
def HugeAmong (data : Fields) (fields : List NumberField) : Prop :=
  Reaches (fun field => Accepts (field.read data)) (fun field => Huge (data.get field.key)) fields

theorem numbers_nil {data : Fields} {β : Type} {b : β} :
    (pure b : Except PyError β) = .error .overflow ↔ HugeAmong data [] := by
  rw [HugeAmong, Reaches, iff_false]
  intro h
  cases h

theorem numbers_cons {data : Fields} {key : Str} {minimum maximum : Option Bound} {fields : List NumberField} {β : Type}
    {f : ℚ → Except PyError β} (hf : ∀ q, f q = .error .overflow ↔ HugeAmong data fields) :
    (number data key minimum maximum >>= f) = .error .overflow ↔ HugeAmong data (⟨key, minimum, maximum⟩ :: fields) := by
  have hrest : (∃ q, number data key minimum maximum = .ok q ∧ f q = .error .overflow) ↔
      Accepts (number data key minimum maximum) ∧ HugeAmong data fields := by
    simp only [hf, exists_and_right, Accepts]
  rw [bind_error_iff, number_overflow_iff, hrest]
  exact Iff.rfl

/-! ## Records -/

/-- A position or a velocity: numbers of an object. -/
def VectorOversized (numbers : List NumberField) (v : Json) : Prop := ∃ data, v = .obj data ∧ HugeAmong data numbers

def Position.numbers : List NumberField := [⟨str "x_m", none, none⟩, ⟨str "y_m", none, none⟩, ⟨str "z_m", none, none⟩]

def Velocity.numbers : List NumberField :=
  [⟨str "vx_mps", none, none⟩, ⟨str "vy_mps", none, none⟩, ⟨str "vz_mps", none, none⟩]

theorem vectorOversized_obj {numbers : List NumberField} {data : Fields} :
    VectorOversized numbers (.obj data) ↔ HugeAmong data numbers := by
  simp [VectorOversized]

theorem position_overflow_iff {v : Json} :
    Position.fromDict v = .error .overflow ↔ VectorOversized Position.numbers v := by
  cases v with
  | obj data =>
    rw [Position.fromDict, vectorOversized_obj]
    exact numbers_cons fun _ => numbers_cons fun _ => numbers_cons fun _ => numbers_nil
  | _ => simp [Position.fromDict, VectorOversized]

theorem velocity_overflow_iff {v : Json} :
    Velocity.fromDict v = .error .overflow ↔ VectorOversized Velocity.numbers v := by
  cases v with
  | obj data =>
    rw [Velocity.fromDict, vectorOversized_obj]
    exact numbers_cons fun _ => numbers_cons fun _ => numbers_cons fun _ => numbers_nil
  | _ => simp [Velocity.fromDict, VectorOversized]

/-- What is read of a device before its numbers. -/
structure DeviceConfig.HeadAccepted (data : Fields) : Prop where
  kind : Accepts (requiredText data (str "kind") >>= Kind.parse)
  linkState : Accepts (requiredText data (str "link_state") >>= LinkState.parse)
  deviceId : Accepts (requiredText data (str "device_id"))
  peerEntityId : Accepts (requiredText data (str "peer_entity_id"))
  dataRateBps : Accepts (integer data (str "data_rate_bps") (some 1))

def DeviceConfig.numbers : List NumberField :=
  [⟨str "delay_ms", some zeroBound, none⟩, ⟨str "loss_rate", some zeroBound, some oneBound⟩]

def DeviceConfig.Oversized (v : Json) : Prop :=
  ∃ data, v = .obj data ∧ DeviceConfig.HeadAccepted data ∧ HugeAmong data DeviceConfig.numbers

theorem kind_never (text : Str) : NeverOverflows (Kind.parse text) := by
  unfold Kind.parse
  split_ifs
  · exact trivial
  · exact trivial
  · exact protocol_ne_overflow

theorem linkState_never (text : Str) : NeverOverflows (LinkState.parse text) := by
  unfold LinkState.parse
  split_ifs
  · exact trivial
  · exact trivial
  · exact protocol_ne_overflow

theorem device_overflow_iff {v : Json} : DeviceConfig.fromDict v = .error .overflow ↔ DeviceConfig.Oversized v := by
  cases v with
  | obj data =>
    have hkind : NeverOverflows (requiredText data (str "kind") >>= Kind.parse) :=
      requiredText_never.bind fun text _ => kind_never text
    have hstate : NeverOverflows (requiredText data (str "link_state") >>= LinkState.parse) :=
      requiredText_never.bind fun text _ => linkState_never text
    have hnumbers : ∀ f : ℚ → ℚ → DeviceConfig, (do
        let delayMs ← number data (str "delay_ms") (some zeroBound) none
        let lossRate ← number data (str "loss_rate") (some zeroBound) (some oneBound)
        pure (f delayMs lossRate)) = Except.error PyError.overflow ↔ HugeAmong data DeviceConfig.numbers :=
      fun _ => numbers_cons fun _ => numbers_cons fun _ => numbers_nil
    rw [DeviceConfig.fromDict]
    simp only [bind_error_iff_of_ends hkind, bind_error_iff_of_ends hstate, bind_error_iff_of_ends requiredText_never,
      bind_error_iff_of_ends integer_never, hnumbers]
    constructor
    · rintro ⟨_, hkind, _, hstate, _, hdevice, _, hpeer, _, hrate, hhuge⟩
      exact ⟨data, rfl, ⟨⟨_, hkind⟩, ⟨_, hstate⟩, ⟨_, hdevice⟩, ⟨_, hpeer⟩, ⟨_, hrate⟩⟩, hhuge⟩
    · rintro ⟨data', hsame, ⟨⟨_, hkind⟩, ⟨_, hstate⟩, ⟨_, hdevice⟩, ⟨_, hpeer⟩, ⟨_, hrate⟩⟩, hhuge⟩
      obtain rfl := Json.obj.inj hsame
      exact ⟨_, hkind, _, hstate, _, hdevice, _, hpeer, _, hrate, hhuge⟩
  | _ => simp [DeviceConfig.fromDict, DeviceConfig.Oversized]

/-- What is read of a policy before its numbers. -/
structure EffectPolicy.HeadAccepted (data : Fields) : Prop where
  subsystemType : Accepts (requiredText data (str "subsystem_type") >>= SubsystemType.parse)
  violationState : Accepts (requiredText data (str "violation_state") >>= ViolationState.parse)
  subsystemId : Accepts (requiredText data (str "subsystem_id"))
  peerEntityId : Accepts (requiredText data (str "peer_entity_id"))

def EffectPolicy.numbers : List NumberField :=
  [⟨str "max_delay_ms", some zeroBound, none⟩, ⟨str "max_loss_rate", some zeroBound, some oneBound⟩,
    ⟨str "min_throughput_bps", some zeroBound, none⟩]

def EffectPolicy.Oversized (v : Json) : Prop :=
  ∃ data, v = .obj data ∧ EffectPolicy.HeadAccepted data ∧ HugeAmong data EffectPolicy.numbers

theorem subsystemType_never (text : Str) : NeverOverflows (SubsystemType.parse text) := by
  unfold SubsystemType.parse
  split_ifs
  · exact trivial
  · exact trivial
  · exact protocol_ne_overflow

theorem violationState_never (text : Str) : NeverOverflows (ViolationState.parse text) := by
  unfold ViolationState.parse
  split_ifs
  · exact trivial
  · exact trivial
  · exact protocol_ne_overflow

theorem policy_overflow_iff {v : Json} : EffectPolicy.fromDict v = .error .overflow ↔ EffectPolicy.Oversized v := by
  cases v with
  | obj data =>
    have htype : NeverOverflows (requiredText data (str "subsystem_type") >>= SubsystemType.parse) :=
      requiredText_never.bind fun text _ => subsystemType_never text
    have hstate : NeverOverflows (requiredText data (str "violation_state") >>= ViolationState.parse) :=
      requiredText_never.bind fun text _ => violationState_never text
    have hnumbers : ∀ f : ℚ → ℚ → ℚ → EffectPolicy, (do
        let maxDelayMs ← number data (str "max_delay_ms") (some zeroBound) none
        let maxLossRate ← number data (str "max_loss_rate") (some zeroBound) (some oneBound)
        let minThroughputBps ← number data (str "min_throughput_bps") (some zeroBound) none
        pure (f maxDelayMs maxLossRate minThroughputBps)) = Except.error PyError.overflow ↔
          HugeAmong data EffectPolicy.numbers :=
      fun _ => numbers_cons fun _ => numbers_cons fun _ => numbers_cons fun _ => numbers_nil
    rw [EffectPolicy.fromDict]
    simp only [bind_error_iff_of_ends htype, bind_error_iff_of_ends hstate, bind_error_iff_of_ends requiredText_never,
      hnumbers]
    constructor
    · rintro ⟨_, htype, _, hstate, _, hsubsystem, _, hpeer, hhuge⟩
      exact ⟨data, rfl, ⟨⟨_, htype⟩, ⟨_, hstate⟩, ⟨_, hsubsystem⟩, ⟨_, hpeer⟩⟩, hhuge⟩
    · rintro ⟨data', hsame, ⟨⟨_, htype⟩, ⟨_, hstate⟩, ⟨_, hsubsystem⟩, ⟨_, hpeer⟩⟩, hhuge⟩
      obtain rfl := Json.obj.inj hsame
      exact ⟨_, htype, _, hstate, _, hsubsystem, _, hpeer, hhuge⟩
  | _ => simp [EffectPolicy.fromDict, EffectPolicy.Oversized]

/-- What is read of an entity before its position; the devices and the policies are taken out of it. -/
structure EntityState.HeadAccepted (data : Fields) (devices policies : List Json) : Prop where
  alive : Accepts (boolean (data.get (str "alive")) (str "alive must be boolean"))
  devices : data.getD (str "devices") (.arr []) = .arr devices
  policies : data.getD (str "effect_policies") (.arr []) = .arr policies
  entityId : Accepts (requiredText data (str "entity_id"))
  businessNodeId : Accepts (requiredText data (str "business_node_id"))
  parentEntityId : Accepts (optionalText data (str "parent_entity_id"))

/-- Among the position, the velocity, the heading, the devices and the policies, in this order, the first that is not
fine has come to an integer that `float` cannot convert. -/
def EntityState.BodyOversized (data : Fields) (devices policies : List Json) : Prop :=
  VectorOversized Position.numbers (data.get (str "position")) ∨
  Accepts (Position.fromDict (data.get (str "position"))) ∧
    (VectorOversized Velocity.numbers (data.get (str "velocity")) ∨
    Accepts (Velocity.fromDict (data.get (str "velocity"))) ∧
      (Huge (data.get (str "heading_deg")) ∨
      Accepts (number data (str "heading_deg") (some zeroBound) (some degreesBound)) ∧
        (Reaches (fun v => Accepts (DeviceConfig.fromDict v)) DeviceConfig.Oversized devices ∨
        Accepts (devices.mapM DeviceConfig.fromDict) ∧
          Reaches (fun v => Accepts (EffectPolicy.fromDict v)) EffectPolicy.Oversized policies)))

def EntityState.Oversized (data : Fields) : Prop :=
  ∃ devices policies, EntityState.HeadAccepted data devices policies ∧ EntityState.BodyOversized data devices policies

theorem entity_overflow_iff {data : Fields} :
    EntityState.ofFields data = .error .overflow ↔ EntityState.Oversized data := by
  have hdevices : ∀ devices : List Json, devices.mapM DeviceConfig.fromDict = .error .overflow ↔
      Reaches (fun v => Accepts (DeviceConfig.fromDict v)) DeviceConfig.Oversized devices := by
    intro devices
    rw [mapM_error_iff]
    simp only [device_overflow_iff, Accepts]
  have hpolicies : ∀ policies : List Json, policies.mapM EffectPolicy.fromDict = .error .overflow ↔
      Reaches (fun v => Accepts (EffectPolicy.fromDict v)) EffectPolicy.Oversized policies := by
    intro policies
    rw [mapM_error_iff]
    simp only [policy_overflow_iff, Accepts]
  have hpure : ∀ entity : EntityState, (pure entity : Except PyError EntityState) ≠ .error .overflow := by
    intro entity h
    cases h
  rw [EntityState.ofFields, bind_error_iff_of_ends boolean_never]
  simp only [bind_error_iff_of_ends arrays_never, bind_error_iff_of_ends requiredText_never,
    bind_error_iff_of_ends optionalText_never]
  simp only [bind_error_iff, position_overflow_iff, velocity_overflow_iff, number_overflow_iff, hdevices, hpolicies, hpure,
    and_false, exists_false, or_false, exists_and_right, StateStore.arrays_ok_iff, Prod.exists]
  constructor
  · rintro ⟨halive, devices, policies, ⟨hd, hp⟩, hid, hbusiness, hparent, hbody⟩
    exact ⟨devices, policies, ⟨halive, hd, hp, hid, hbusiness, hparent⟩, hbody⟩
  · rintro ⟨devices, policies, ⟨halive, hd, hp, hid, hbusiness, hparent⟩, hbody⟩
    exact ⟨halive, devices, policies, ⟨hd, hp⟩, hid, hbusiness, hparent, hbody⟩

theorem entity_fromDict_overflow_iff {v : Json} :
    EntityState.fromDict v = .error .overflow ↔ ∃ data, v = .obj data ∧ EntityState.Oversized data := by
  cases v with
  | obj data => simp [EntityState.fromDict, entity_overflow_iff]
  | _ => simp [EntityState.fromDict]

/-- A flow holds no number but integers. -/
theorem flow_never (data : Fields) : NeverOverflows (FlowConfig.ofFields data) := by
  rw [FlowConfig.ofFields]
  refine boolean_never.bind fun _ _ => ?_
  refine requiredText_never.bind fun _ _ => ?_
  refine requiredText_never.bind fun _ _ => ?_
  refine requiredText_never.bind fun _ _ => ?_
  refine integer_never.bind fun _ _ => ?_
  refine integer_never.bind fun _ _ => ?_
  exact integer_never.bind fun _ _ => trivial

theorem flow_fromDict_never (v : Json) : NeverOverflows (FlowConfig.fromDict v) := by
  cases v with
  | obj data => exact flow_never data
  | _ => exact protocol_ne_overflow

theorem Accepts.never {α : Type} {x : Except PyError α} (h : Accepts x) : NeverOverflows x := by
  obtain ⟨a, rfl⟩ := h
  exact trivial

/-! ## The store -/

namespace StateStore

/-- Every record of the table reads. -/
def AllAccepted (records : Dict Str Fields) : Prop := ∀ raw ∈ records.values, Accepts (EntityState.ofFields raw)

section
variable {ρ : Type} {parse : Fields → Except PyError ρ} {fromDict : Json → Except PyError ρ} {idOf : ρ → Str}
  {what idKey : Str} {merged : Option Fields → Fields → Fields} {records : Dict Str Fields}

theorem indexOne_overflow_iff {raw : Json} :
    indexOne fromDict idOf idKey records raw = .error .overflow ↔ fromDict raw = .error .overflow := by
  rw [indexOne, bind_error_iff, or_iff_left]
  rintro ⟨parsed, -, h⟩
  split_ifs at h
  cases h

theorem removals_never (removals : List Json) : NeverOverflows (removals.foldlM (removeOne what) records) := by
  refine Ends.foldlM trivial fun records _ id _ => ?_
  unfold removeOne
  split
  · split_ifs
    · exact protocol_ne_overflow
    · exact trivial
  · exact protocol_ne_overflow

theorem upsertOne_overflow_iff {update : Json} : upsertOne parse merged what idKey records update = .error .overflow ↔
    ∃ o id, update = .obj o ∧ Fields.get o idKey = .str id ∧ id ≠ [] ∧
      parse (merged (records.get? id) o) = .error .overflow := by
  constructor
  · intro h
    unfold upsertOne at h
    split at h
    · rename_i o
      split at h
      · rename_i id hid
        split_ifs at h with hempty
        · cases h
        · rw [bind_error_iff, or_iff_left] at h
          · exact ⟨o, id, rfl, hid, hempty, h⟩
          · rintro ⟨parsed, -, h⟩
            cases h
      · cases h
    · cases h
  · rintro ⟨o, id, rfl, hid, hempty, h⟩
    unfold upsertOne
    dsimp only
    rw [hid]
    dsimp only
    rw [if_neg hempty, h, error_bind]

theorem upserts_never (hparse : ∀ o, NeverOverflows (parse o)) (updates : List Json) :
    NeverOverflows (updates.foldlM (upsertOne parse merged what idKey) records) := by
  refine Ends.foldlM trivial fun records _ update _ => ?_
  unfold upsertOne
  split
  · split
    · split_ifs
      · exact protocol_ne_overflow
      · exact (hparse _).bind fun _ _ => trivial
    · exact protocol_ne_overflow
  · exact protocol_ne_overflow

theorem index_never (hread : ∀ v, NeverOverflows (fromDict v)) (raws : List Json) :
    NeverOverflows (indexRecords fromDict idOf idKey raws) := by
  refine Ends.foldlM trivial fun records _ raw _ => ?_
  refine (hread raw).bind fun parsed _ => ?_
  split_ifs
  · exact protocol_ne_overflow
  · exact trivial

end

theorem checkKnown_never (ids : List Str) (what id : Str) : NeverOverflows (checkKnown ids what id) := by
  unfold checkKnown
  split_ifs
  · exact trivial
  · exact protocol_ne_overflow

/-- Reading accepted records again raises nothing of the kind. -/
theorem validateReferences_never {entities : Dict Str Fields} (h : AllAccepted entities) (flows : Dict Str Fields) :
    NeverOverflows (validateReferences entities flows) := by
  have hentity : ∀ entity, NeverOverflows (validateEntity entities.keys entity) := by
    intro entity
    have hparent : NeverOverflows (validateParent entities.keys entity.parentEntityId) := by
      unfold validateParent
      split
      · exact checkKnown_never _ _ _
      · exact trivial
    refine hparent.bind fun _ _ => (Ends.forM fun _ _ => checkKnown_never _ _ _).bind fun _ _ => ?_
    exact Ends.forM fun _ _ => checkKnown_never _ _ _
  refine (Ends.mapM fun raw hraw => (h raw hraw).never).bind fun parsed _ => ?_
  refine (Ends.forM fun entity _ => hentity entity).bind fun _ _ => Ends.forM fun raw _ => ?_
  exact (flow_never raw).bind fun flow _ => (checkKnown_never _ _ _).bind fun _ _ => checkKnown_never _ _ _

theorem AllAccepted.put {records : Dict Str Fields} (h : AllAccepted records) (id : Str) {raw : Fields}
    (hraw : Accepts (EntityState.ofFields raw)) : AllAccepted (records.put id raw) := by
  intro raw' hmem
  obtain ⟨id', hget⟩ := Dict.mem_values_iff.mp hmem
  rw [Dict.get?_put] at hget
  split_ifs at hget
  · obtain rfl := Option.some.inj hget
    exact hraw
  · exact h raw' (Dict.mem_values_iff.mpr ⟨id', hget⟩)

theorem AllAccepted.erase {records : Dict Str Fields} (h : AllAccepted records) (id : Str) :
    AllAccepted (records.erase id) := by
  intro raw' hmem
  obtain ⟨id', hget⟩ := Dict.mem_values_iff.mp hmem
  rw [Dict.get?_erase] at hget
  split_ifs at hget
  exact h raw' (Dict.mem_values_iff.mpr ⟨id', hget⟩)

theorem index_accepted {raws : List Json} {records : Dict Str Fields}
    (h : indexRecords EntityState.fromDict EntityState.entityId (str "entity_id") raws = .ok records) :
    AllAccepted records := by
  intro raw hraw
  obtain ⟨id, hget⟩ := Dict.mem_values_iff.mp hraw
  obtain ⟨v, -, hfields, parsed, hparsed, -⟩ := (indexRecords_get? h).mp hget
  cases v with
  | obj data =>
    obtain rfl := hfields
    exact ⟨parsed, hparsed⟩
  | _ => cases hparsed

theorem removals_accepted {removals : List Json} {records records' : Dict Str Fields} (hrecords : AllAccepted records)
    (h : removals.foldlM (removeOne what) records = .ok records') : AllAccepted records' := by
  refine Except.foldlM_ok (fun _ d => AllAccepted d) (fun done d id d' hd hstep => ?_) hrecords h
  obtain ⟨text, -, -, rfl⟩ := removeOne_ok_iff.mp hstep
  exact hd.erase text

theorem upserts_accepted {updates : List Json} {records records' : Dict Str Fields} (hrecords : AllAccepted records)
    (h : updates.foldlM upsertEntity records = .ok records') : AllAccepted records' := by
  refine Except.foldlM_ok (fun _ d => AllAccepted d) (fun done d update d' hd hstep => ?_) hrecords h
  obtain ⟨o, id, -, -, -, hparse, rfl⟩ := upsertOne_ok_iff.mp hstep
  exact hd.put id hparse

/-- An `afsim_init`: one entity is oversized, and those before it are fine. -/
def InitOversized (payload : Fields) : Prop :=
  ∃ entities flows, payload.get (str "entities") = .arr entities ∧ payload.get (str "flows") = .arr flows ∧
    ∃ before data after, entities = before ++ .obj data :: after ∧
      Accepts (indexRecords EntityState.fromDict EntityState.entityId (str "entity_id") before) ∧
      EntityState.Oversized data

/-- An `afsim_delta`: the removals and the updates before one are fine, and that one, merged into the record under its
key, is oversized. -/
def DeltaOversized (s : StateStore) (payload : Fields) (timestampMs : ℤ) : Prop :=
  s.initialized = true ∧ s.timestampMs ≤ timestampMs ∧ ∃ lists kept, deltaLists payload = .ok lists ∧
    lists.entityRemovals.foldlM (removeOne (str "entity_removals")) s.entities = .ok kept ∧
    ∃ before update after records id, lists.entityUpserts = before ++ .obj update :: after ∧
      before.foldlM upsertEntity kept = .ok records ∧ Fields.get update (str "entity_id") = .str id ∧ id ≠ [] ∧
      EntityState.Oversized (mergedEntity (records.get? id) update)

theorem initializeStore_overflow_iff {s : StateStore} {payload : Fields} {timestampMs : ℤ} :
    s.initializeStore payload timestampMs = .error .overflow ↔ InitOversized payload := by
  have hentities : ∀ entities : List Json,
      indexRecords EntityState.fromDict EntityState.entityId (str "entity_id") entities = .error .overflow ↔
        ∃ before data after, entities = before ++ .obj data :: after ∧
          Accepts (indexRecords EntityState.fromDict EntityState.entityId (str "entity_id") before) ∧
          EntityState.Oversized data := by
    intro entities
    rw [indexRecords, foldlM_error_iff]
    simp only [indexOne_overflow_iff, entity_fromDict_overflow_iff]
    constructor
    · rintro ⟨before, _, after, records, hsplit, hbefore, data, rfl, hdata⟩
      exact ⟨before, data, after, hsplit, ⟨records, hbefore⟩, hdata⟩
    · rintro ⟨before, data, after, hsplit, ⟨records, hbefore⟩, hdata⟩
      exact ⟨before, _, after, records, hsplit, hbefore, data, rfl, hdata⟩
  -- nothing behind the entities raises it
  have hrest : ∀ (entities flows : List Json) (entityMap : Dict Str Fields),
      indexRecords EntityState.fromDict EntityState.entityId (str "entity_id") entities = .ok entityMap →
      NeverOverflows (do
        let flowMap ← indexRecords FlowConfig.fromDict FlowConfig.flowId (str "flow_id") flows
        validateReferences entityMap flowMap
        pure (⟨entityMap, flowMap, timestampMs, s.revision + 1, true⟩ : StateStore)) := by
    intro entities flows entityMap hindex
    refine (index_never flow_fromDict_never flows).bind fun flowMap _ => ?_
    exact (validateReferences_never (index_accepted hindex) flowMap).bind fun _ _ => trivial
  rw [initializeStore, bind_error_iff_of_ends arrays_never]
  simp only [arrays_ok_iff, Prod.exists, bind_error_iff, hentities]
  constructor
  · rintro ⟨entities, flows, ⟨he, hf⟩, hoversized | ⟨entityMap, hindex, hraised⟩⟩
    · exact ⟨entities, flows, he, hf, hoversized⟩
    · have hnever := hrest entities flows entityMap hindex
      exact absurd rfl (hnever.raised (by simpa only [bind_error_iff] using hraised))
  · rintro ⟨entities, flows, he, hf, hoversized⟩
    exact ⟨entities, flows, ⟨he, hf⟩, .inl hoversized⟩

theorem applyDelta_overflow_iff {s : StateStore} (hs : s.initialized = true → AllAccepted s.entities) {payload : Fields}
    {timestampMs : ℤ} : s.applyDelta payload timestampMs = .error .overflow ↔ DeltaOversized s payload timestampMs := by
  have hlists : NeverOverflows (deltaLists payload) := by
    unfold deltaLists
    split
    · exact trivial
    · exact protocol_ne_overflow
  unfold applyDelta DeltaOversized
  cases hi : s.initialized with
  | false => simp
  | true =>
    by_cases ht : timestampMs < s.timestampMs
    · simp [ht]
    · have hall := hs hi
      -- nothing behind the entity updates raises it
      have hrest : ∀ (lists : DeltaLists) (kept entities : Dict Str Fields),
          lists.entityRemovals.foldlM (removeOne (str "entity_removals")) s.entities = .ok kept →
          lists.entityUpserts.foldlM upsertEntity kept = .ok entities → NeverOverflows (do
            let flows ← lists.flowRemovals.foldlM (removeOne (str "flow_removals")) s.flows
            let flows ← lists.flowUpserts.foldlM upsertFlow flows
            validateReferences entities flows
            pure (⟨entities, flows, timestampMs, s.revision + 1, true⟩ : StateStore)) := by
        intro lists kept entities hkept hentities
        have haccepted := upserts_accepted (removals_accepted hall hkept) hentities
        refine (removals_never _).bind fun flows _ => ?_
        refine (upserts_never flow_never _).bind fun flows _ => ?_
        exact (validateReferences_never haccepted flows).bind fun _ _ => trivial
      simp only [Bool.not_true, Bool.false_eq_true, if_false, if_neg ht, true_and, not_lt.mp ht]
      rw [bind_error_iff_of_ends hlists]
      simp only [bind_error_iff_of_ends (removals_never _)]
      constructor
      · rintro ⟨lists, hl, kept, hkept, hraised⟩
        rw [bind_error_iff] at hraised
        rcases hraised with hraised | ⟨entities, hentities, hraised⟩
        · obtain ⟨before, _, after, records, hsplit, hbefore, hone⟩ := foldlM_error_iff.mp hraised
          obtain ⟨update, id, rfl, hid, hne, hparse⟩ := upsertOne_overflow_iff.mp hone
          exact ⟨lists, kept, hl, hkept, before, update, after, records, id, hsplit, hbefore, hid, hne,
            entity_overflow_iff.mp hparse⟩
        · exact absurd rfl ((hrest lists kept entities hkept hentities).raised hraised)
      · rintro ⟨lists, kept, hl, hkept, before, update, after, records, id, hsplit, hbefore, hid, hne, hoversized⟩
        refine ⟨lists, hl, kept, hkept, bind_error_iff.mpr (.inl (foldlM_error_iff.mpr ?_))⟩
        refine ⟨before, .obj update, after, records, hsplit, hbefore, upsertOne_overflow_iff.mpr ?_⟩
        exact ⟨update, id, rfl, hid, hne, entity_overflow_iff.mpr hoversized⟩

/-- The request's first fault is an integer that `float` cannot convert. -/
def Overflows (s : StateStore) (envelope : Envelope) (payload : Fields) : Prop :=
  if envelope.messageType = .afsimInit then InitOversized payload
  else DeltaOversized s payload envelope.timestampMs

/-- **The error of a state request**, in a store whose references were checked. -/
theorem update_overflow_iff {s : StateStore} (hs : Referenced s) {envelope : Envelope} {payload : Fields} :
    Server.update s envelope payload = .error .overflow ↔ s.Overflows envelope payload := by
  unfold Server.update Overflows
  split_ifs
  · exact initializeStore_overflow_iff
  · refine applyDelta_overflow_iff fun hi raw hraw => ?_
    obtain ⟨entity, hread, -⟩ := (validateReferences_ok_iff.mp (hs hi)).1 raw hraw
    exact ⟨entity, hread⟩

end StateStore

end AfsimNs3.Bridge
