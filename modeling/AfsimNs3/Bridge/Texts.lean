import AfsimNs3.Bridge.Digest
import AfsimNs3.Bridge.State
import AfsimNs3.Lib.Ends
import AfsimNs3.Lib.Strings

/-!
# The texts of a request come through

From a payload whose strings can be encoded the readers take texts that can be encoded, and the errors they raise say
so in such texts too (`EntityState.ofFields_ends`, `FlowConfig.ofFields_ends`); the store keeps to such records
(`StateStore.Encodable`) and so do its snapshots.
-/

namespace AfsimNs3.Bridge
open Except

/-- The text of the exception, which a reply repeats, can be encoded. -/
def PyError.Encodable : PyError → Prop
  | .protocol _ message => encodable message = true
  | _ => True

/-- A text that is read, or an error about it. -/
abbrev EndsText (x : Except PyError Str) : Prop := Ends (fun s => encodable s = true) PyError.Encodable x

/-- A result without texts of its own. -/
abbrev EndsPlain {α : Type} (x : Except PyError α) : Prop := Ends (fun _ => True) PyError.Encodable x

/-! ## Fields -/

section
variable {data : Fields} {key : Str}

theorem requiredText_ends (h : (Json.obj data).Encodable) (hkey : encodable key = true) :
    EndsText (requiredText data key) := by
  have herror : encodable (key ++ str " must be a non-empty string") = true :=
    Str.encodable_append.mpr ⟨hkey, Str.encodable_literal _⟩
  unfold requiredText
  split
  · rename_i value hvalue
    split_ifs
    · exact herror
    · exact Str.encodable_strip.mpr (Fields.encodable_of_get h hvalue)
  · exact herror

theorem optionalText_ends (h : (Json.obj data).Encodable) (hkey : encodable key = true) :
    Ends (fun s? => ∀ s ∈ s?, encodable s = true) PyError.Encodable (optionalText data key) := by
  have herror : encodable (key ++ str " must be null or a non-empty string") = true :=
    Str.encodable_append.mpr ⟨hkey, Str.encodable_literal _⟩
  unfold optionalText
  split
  · intro s hs
    cases hs
  · rename_i value hvalue
    split_ifs
    · exact herror
    · intro s hs
      obtain rfl := Option.some.inj hs
      exact Str.encodable_strip.mpr (Fields.encodable_of_get h hvalue)
  · exact herror

theorem number_ends (hkey : encodable key = true) {minimum maximum : Option Bound}
    (hmin : ∀ b ∈ minimum, encodable b.text = true) (hmax : ∀ b ∈ maximum, encodable b.text = true) :
    EndsPlain (number data key minimum maximum) := by
  have hbound : ∀ {bound : Option Bound}, (∀ b ∈ bound, encodable b.text = true) →
      encodable ((bound.map Bound.text).getD []) = true := by
    intro bound h
    cases bound with
    | none => rfl
    | some b => exact h b rfl
  have hfloat : EndsPlain (toFloat key (data.get key)) := by
    unfold toFloat
    split
    · split <;> exact trivial
    · exact trivial
    · exact Str.encodable_append.mpr ⟨hkey, Str.encodable_literal _⟩
  refine hfloat.bind fun x _ => ?_
  unfold withinBounds
  split
  · split_ifs
    · exact Str.encodable_append.mpr ⟨Str.encodable_append.mpr ⟨hkey, Str.encodable_literal _⟩, hbound hmin⟩
    · exact Str.encodable_append.mpr ⟨Str.encodable_append.mpr ⟨hkey, Str.encodable_literal _⟩, hbound hmax⟩
    · exact trivial
  · exact Str.encodable_append.mpr ⟨hkey, Str.encodable_literal _⟩

theorem integer_ends (hkey : encodable key = true) {minimum : Option ℤ}
    (hmin : ∀ m ∈ minimum, encodable (decimal m) = true) : EndsPlain (integer data key minimum) := by
  have hbound : encodable ((minimum.map decimal).getD []) = true := by
    cases minimum with
    | none => rfl
    | some m => exact hmin m rfl
  unfold integer
  split
  · split_ifs
    · exact Str.encodable_append.mpr ⟨Str.encodable_append.mpr ⟨hkey, Str.encodable_literal _⟩, hbound⟩
    · exact trivial
  · exact Str.encodable_append.mpr ⟨hkey, Str.encodable_literal _⟩

theorem zeroBound_text : ∀ b ∈ some zeroBound, encodable b.text = true := by
  rintro b hb
  obtain rfl := Option.some.inj hb
  decide

theorem oneBound_text : ∀ b ∈ some oneBound, encodable b.text = true := by
  rintro b hb
  obtain rfl := Option.some.inj hb
  decide

theorem degreesBound_text : ∀ b ∈ some degreesBound, encodable b.text = true := by
  rintro b hb
  obtain rfl := Option.some.inj hb
  decide

theorem noBound_text : ∀ b ∈ (none : Option Bound), encodable b.text = true := fun _ hb => nomatch hb

end

/-! ## Records -/

theorem position_ends (v : Json) : EndsPlain (Position.fromDict v) := by
  cases v with
  | obj data =>
    rw [Position.fromDict]
    refine (number_ends (Str.encodable_literal _) noBound_text noBound_text).bind fun _ _ => ?_
    refine (number_ends (Str.encodable_literal _) noBound_text noBound_text).bind fun _ _ => ?_
    refine (number_ends (Str.encodable_literal _) noBound_text noBound_text).bind fun _ _ => trivial
  | _ => exact Str.encodable_literal _

theorem velocity_ends (v : Json) : EndsPlain (Velocity.fromDict v) := by
  cases v with
  | obj data =>
    rw [Velocity.fromDict]
    refine (number_ends (Str.encodable_literal _) noBound_text noBound_text).bind fun _ _ => ?_
    refine (number_ends (Str.encodable_literal _) noBound_text noBound_text).bind fun _ _ => ?_
    refine (number_ends (Str.encodable_literal _) noBound_text noBound_text).bind fun _ _ => trivial
  | _ => exact Str.encodable_literal _

structure DeviceConfig.Encodable (device : DeviceConfig) : Prop where
  deviceId : encodable device.deviceId = true
  peerEntityId : encodable device.peerEntityId = true

theorem kind_ends (text : Str) : EndsPlain (Kind.parse text) := by
  have herror : encodable (str "device kind must be wired or wireless") = true := Str.encodable_literal _
  unfold Kind.parse
  split_ifs
  · exact trivial
  · exact trivial
  · exact herror

theorem linkState_ends (text : Str) : EndsPlain (LinkState.parse text) := by
  have herror : encodable (str "link_state must be UP or DOWN") = true := Str.encodable_literal _
  unfold LinkState.parse
  split_ifs
  · exact trivial
  · exact trivial
  · exact herror

theorem device_ends {v : Json} (h : v.Encodable) :
    Ends DeviceConfig.Encodable PyError.Encodable (DeviceConfig.fromDict v) := by
  cases v with
  | obj data =>
    rw [DeviceConfig.fromDict]
    refine ((requiredText_ends h (Str.encodable_literal _)).bind fun text _ => kind_ends text).bind fun _ _ => ?_
    refine ((requiredText_ends h (Str.encodable_literal _)).bind fun text _ => linkState_ends text).bind fun _ _ => ?_
    refine (requiredText_ends h (Str.encodable_literal _)).bind fun deviceId hdevice => ?_
    refine (requiredText_ends h (Str.encodable_literal _)).bind fun peerEntityId hpeer => ?_
    refine (integer_ends (Str.encodable_literal _) (by decide)).bind fun _ _ => ?_
    refine (number_ends (Str.encodable_literal _) zeroBound_text noBound_text).bind fun _ _ => ?_
    refine (number_ends (Str.encodable_literal _) zeroBound_text oneBound_text).bind fun _ _ => ?_
    exact ⟨hdevice, hpeer⟩
  | _ => exact Str.encodable_literal _

structure EffectPolicy.Encodable (policy : EffectPolicy) : Prop where
  subsystemId : encodable policy.subsystemId = true
  peerEntityId : encodable policy.peerEntityId = true

theorem subsystemType_ends (text : Str) : EndsPlain (SubsystemType.parse text) := by
  have herror : encodable (str "subsystem_type must be weapon or radar") = true := Str.encodable_literal _
  unfold SubsystemType.parse
  split_ifs
  · exact trivial
  · exact trivial
  · exact herror

theorem violationState_ends (text : Str) : EndsPlain (ViolationState.parse text) := by
  have herror : encodable (str "violation_state must be DEGRADED or BLOCKED") = true := Str.encodable_literal _
  unfold ViolationState.parse
  split_ifs
  · exact trivial
  · exact trivial
  · exact herror

theorem policy_ends {v : Json} (h : v.Encodable) :
    Ends EffectPolicy.Encodable PyError.Encodable (EffectPolicy.fromDict v) := by
  cases v with
  | obj data =>
    rw [EffectPolicy.fromDict]
    refine ((requiredText_ends h (Str.encodable_literal _)).bind fun text _ => subsystemType_ends text).bind fun _ _ => ?_
    refine ((requiredText_ends h (Str.encodable_literal _)).bind fun text _ => violationState_ends text).bind fun _ _ => ?_
    refine (requiredText_ends h (Str.encodable_literal _)).bind fun subsystemId hsubsystem => ?_
    refine (requiredText_ends h (Str.encodable_literal _)).bind fun peerEntityId hpeer => ?_
    refine (number_ends (Str.encodable_literal _) zeroBound_text noBound_text).bind fun _ _ => ?_
    refine (number_ends (Str.encodable_literal _) zeroBound_text oneBound_text).bind fun _ _ => ?_
    refine (number_ends (Str.encodable_literal _) zeroBound_text noBound_text).bind fun _ _ => ?_
    exact ⟨hsubsystem, hpeer⟩
  | _ => exact Str.encodable_literal _

structure EntityState.Encodable (entity : EntityState) : Prop where
  entityId : encodable entity.entityId = true
  businessNodeId : encodable entity.businessNodeId = true
  parentEntityId : ∀ parent ∈ entity.parentEntityId, encodable parent = true
  devices : ∀ device ∈ entity.devices, device.Encodable
  effectPolicies : ∀ policy ∈ entity.effectPolicies, policy.Encodable

theorem boolean_ends (v : Json) {message : Str} (h : encodable message = true) : EndsPlain (boolean v message) := by
  unfold boolean
  split
  · exact trivial
  · exact h

theorem arrays_ends {first second : Json} (hfirst : first.Encodable) (hsecond : second.Encodable) {message : Str}
    (h : encodable message = true) :
    Ends (fun lists => (∀ v ∈ lists.1, v.Encodable) ∧ ∀ v ∈ lists.2, v.Encodable) PyError.Encodable
      (arrays first second message) := by
  unfold arrays
  split
  · exact ⟨Json.encodable_arr.mp hfirst, Json.encodable_arr.mp hsecond⟩
  · exact h

theorem EntityState.ofFields_ends {data : Fields} (h : (Json.obj data).Encodable) :
    Ends EntityState.Encodable PyError.Encodable (EntityState.ofFields data) := by
  have hempty : (Json.arr []).Encodable := Json.encodable_arr.mpr (List.forall_mem_nil _)
  rw [EntityState.ofFields]
  refine (boolean_ends _ (Str.encodable_literal _)).bind fun _ _ => ?_
  refine (arrays_ends (Fields.encodable_getD h _ hempty) (Fields.encodable_getD h _ hempty)
    (Str.encodable_literal _)).bind ?_
  rintro ⟨devices, policies⟩ ⟨hdevices, hpolicies⟩
  refine (requiredText_ends h (Str.encodable_literal _)).bind fun entityId hentity => ?_
  refine (requiredText_ends h (Str.encodable_literal _)).bind fun businessNodeId hbusiness => ?_
  refine (optionalText_ends h (Str.encodable_literal _)).bind fun parentEntityId hparent => ?_
  refine (position_ends _).bind fun _ _ => ?_
  refine (velocity_ends _).bind fun _ _ => ?_
  refine (number_ends (Str.encodable_literal _) zeroBound_text degreesBound_text).bind fun _ _ => ?_
  refine (Ends.mapM fun v hv => device_ends (hdevices v hv)).bind fun devices hdevices => ?_
  refine (Ends.mapM fun v hv => policy_ends (hpolicies v hv)).bind fun policies hpolicies => ?_
  exact ⟨hentity, hbusiness, hparent, hdevices, hpolicies⟩

theorem EntityState.fromDict_ends {v : Json} (h : v.Encodable) :
    Ends EntityState.Encodable PyError.Encodable (EntityState.fromDict v) := by
  cases v with
  | obj data => exact EntityState.ofFields_ends h
  | _ => exact Str.encodable_literal _

structure FlowConfig.Encodable (flow : FlowConfig) : Prop where
  flowId : encodable flow.flowId = true
  sourceEntityId : encodable flow.sourceEntityId = true
  targetEntityId : encodable flow.targetEntityId = true

theorem FlowConfig.ofFields_ends {data : Fields} (h : (Json.obj data).Encodable) :
    Ends FlowConfig.Encodable PyError.Encodable (FlowConfig.ofFields data) := by
  rw [FlowConfig.ofFields]
  refine (boolean_ends _ (Str.encodable_literal _)).bind fun _ _ => ?_
  refine (requiredText_ends h (Str.encodable_literal _)).bind fun flowId hflow => ?_
  refine (requiredText_ends h (Str.encodable_literal _)).bind fun sourceEntityId hsource => ?_
  refine (requiredText_ends h (Str.encodable_literal _)).bind fun targetEntityId htarget => ?_
  refine (integer_ends (Str.encodable_literal _) (by decide)).bind fun _ _ => ?_
  refine (integer_ends (Str.encodable_literal _) (by decide)).bind fun _ _ => ?_
  refine (integer_ends (Str.encodable_literal _) (by decide)).bind fun _ _ => ?_
  exact ⟨hflow, hsource, htarget⟩

theorem FlowConfig.fromDict_ends {v : Json} (h : v.Encodable) :
    Ends FlowConfig.Encodable PyError.Encodable (FlowConfig.fromDict v) := by
  cases v with
  | obj data => exact FlowConfig.ofFields_ends h
  | _ => exact Str.encodable_literal _

/-! ## The store -/

namespace StateStore

/-- The IDs and the records of a table can be encoded. -/
def RecordsEncodable (records : Dict Str Fields) : Prop :=
  ∀ id record, records.get? id = some record → encodable id = true ∧ (Json.obj record).Encodable

theorem RecordsEncodable.empty : RecordsEncodable Dict.empty := fun _ _ h => nomatch h

theorem RecordsEncodable.put {records : Dict Str Fields} (h : RecordsEncodable records) {id : Str}
    (hid : encodable id = true) {record : Fields} (hrecord : (Json.obj record).Encodable) :
    RecordsEncodable (records.put id record) := by
  intro id' record' hget
  rw [Dict.get?_put] at hget
  split_ifs at hget with hsame
  · rw [hsame, ← Option.some.inj hget]
    exact ⟨hid, hrecord⟩
  · exact h id' record' hget

theorem RecordsEncodable.erase {records : Dict Str Fields} (h : RecordsEncodable records) (id : Str) :
    RecordsEncodable (records.erase id) := by
  intro id' record' hget
  rw [Dict.get?_erase] at hget
  split_ifs at hget
  exact h id' record' hget

theorem RecordsEncodable.values {records : Dict Str Fields} (h : RecordsEncodable records) :
    ∀ record ∈ records.values, (Json.obj record).Encodable := by
  intro record hrecord
  obtain ⟨id, hget⟩ := Dict.mem_values_iff.mp hrecord
  exact (h id record hget).2

section
variable {ρ : Type} {R : ρ → Prop}

theorem indexRecords_ends {fromDict : Json → Except PyError ρ} {idOf : ρ → Str} {idKey : Str}
    (hread : ∀ v, v.Encodable → Ends R PyError.Encodable (fromDict v)) (hid : ∀ a, R a → encodable (idOf a) = true)
    (hkey : encodable idKey = true) {raws : List Json} (h : ∀ v ∈ raws, v.Encodable) :
    Ends RecordsEncodable PyError.Encodable (indexRecords fromDict idOf idKey raws) := by
  refine Ends.foldlM RecordsEncodable.empty fun records hrecords raw hraw => ?_
  refine (hread raw (h raw hraw)).bind fun parsed hparsed => ?_
  split_ifs
  · have htext : encodable (str "duplicate ") = true ∧ encodable (str ": ") = true :=
      ⟨Str.encodable_literal _, Str.encodable_literal _⟩
    exact Str.encodable_append.mpr ⟨Str.encodable_append.mpr ⟨Str.encodable_append.mpr ⟨htext.1, hkey⟩, htext.2⟩,
      hid parsed hparsed⟩
  · exact hrecords.put (hid parsed hparsed) (h raw hraw).fields

theorem removals_ends {what : Str} (hwhat : encodable what = true) {removals : List Json} {records : Dict Str Fields}
    (h : RecordsEncodable records) :
    Ends RecordsEncodable PyError.Encodable (removals.foldlM (removeOne what) records) := by
  have herror : encodable (what ++ str " must contain IDs") = true :=
    Str.encodable_append.mpr ⟨hwhat, Str.encodable_literal _⟩
  refine Ends.foldlM h fun records hrecords id _ => ?_
  unfold removeOne
  split
  · split_ifs
    · exact herror
    · exact hrecords.erase _
  · exact herror

theorem upserts_ends {parse : Fields → Except PyError ρ} {merged : Option Fields → Fields → Fields} {what idKey : Str}
    (hread : ∀ o, (Json.obj o).Encodable → Ends R PyError.Encodable (parse o))
    (hmerged : ∀ current update, (∀ o ∈ current, (Json.obj o).Encodable) → (Json.obj update).Encodable →
      (Json.obj (merged current update)).Encodable)
    (hwhat : encodable what = true) (hkey : encodable idKey = true) {updates : List Json}
    (hupdates : ∀ v ∈ updates, v.Encodable) {records : Dict Str Fields} (h : RecordsEncodable records) :
    Ends RecordsEncodable PyError.Encodable (updates.foldlM (upsertOne parse merged what idKey) records) := by
  have herror : encodable (what ++ str " requires " ++ idKey) = true :=
    Str.encodable_append.mpr ⟨Str.encodable_append.mpr ⟨hwhat, Str.encodable_literal _⟩, hkey⟩
  refine Ends.foldlM h fun records hrecords update hupdate => ?_
  have hencodable := hupdates update hupdate
  unfold upsertOne
  split
  · rename_i update
    split
    · rename_i id hid
      split_ifs
      · exact herror
      · have hrecord := hmerged (records.get? id) update (fun o ho => (hrecords id o ho).2) hencodable
        exact (hread _ hrecord).bind fun _ _ => hrecords.put (Fields.encodable_of_get hencodable hid) hrecord
    · exact herror
  · exact Str.encodable_append.mpr ⟨hwhat, Str.encodable_literal _⟩

end

theorem mergedEntity_encodable (current : Option Fields) (update : Fields)
    (hcurrent : ∀ o ∈ current, (Json.obj o).Encodable) (hupdate : (Json.obj update).Encodable) :
    (Json.obj (mergedEntity current update)).Encodable := by
  cases current with
  | none => exact hupdate
  | some o =>
    refine Fields.encodable_mergeWith ?_ (hcurrent o rfl) hupdate
    intro key old value hold hvalue
    unfold mergeField
    split
    · split_ifs
      · exact Fields.encodable_merge (hold _ rfl) hvalue
      · exact hvalue
    · exact hvalue

theorem mergedFlow_encodable (current : Option Fields) (update : Fields) (hcurrent : ∀ o ∈ current, (Json.obj o).Encodable)
    (hupdate : (Json.obj update).Encodable) : (Json.obj (mergedFlow current update)).Encodable := by
  refine Fields.encodable_merge ?_ hupdate
  cases current with
  | none => exact Json.encodable_obj.mpr (List.forall_mem_nil _)
  | some o => exact hcurrent o rfl

theorem checkKnown_ends {ids : List Str} {what id : Str} (hwhat : encodable what = true) (hid : encodable id = true) :
    EndsPlain (checkKnown ids what id) := by
  unfold checkKnown
  split_ifs
  · exact trivial
  · exact Str.encodable_append.mpr ⟨hwhat, hid⟩

theorem validateEntity_ends (ids : List Str) {entity : EntityState} (h : entity.Encodable) :
    EndsPlain (validateEntity ids entity) := by
  have hparent : EndsPlain (validateParent ids entity.parentEntityId) := by
    unfold validateParent
    split
    · rename_i parent hparent
      exact checkKnown_ends (Str.encodable_literal _) (h.parentEntityId parent hparent)
    · exact trivial
  refine hparent.bind fun _ _ => (Ends.forM fun device hdevice => ?_).bind fun _ _ => Ends.forM fun policy hpolicy => ?_
  · exact checkKnown_ends (Str.encodable_literal _) (h.devices device hdevice).peerEntityId
  · exact checkKnown_ends (Str.encodable_literal _) (h.effectPolicies policy hpolicy).peerEntityId

theorem validateFlow_ends (ids : List Str) {flow : FlowConfig} (h : flow.Encodable) : EndsPlain (validateFlow ids flow) :=
  (checkKnown_ends (Str.encodable_literal _) h.sourceEntityId).bind fun _ _ =>
    checkKnown_ends (Str.encodable_literal _) h.targetEntityId

theorem validateReferences_ends {entities flows : Dict Str Fields} (he : RecordsEncodable entities)
    (hf : RecordsEncodable flows) : EndsPlain (validateReferences entities flows) := by
  refine (Ends.mapM fun o ho => EntityState.ofFields_ends (he.values o ho)).bind fun parsed hparsed => ?_
  refine (Ends.forM fun entity hentity => validateEntity_ends _ (hparsed entity hentity)).bind fun _ _ => ?_
  refine Ends.forM fun o ho => ?_
  exact (FlowConfig.ofFields_ends (hf.values o ho)).bind fun flow hflow => validateFlow_ends _ hflow

/-! ## The operations -/

structure Encodable (s : StateStore) : Prop where
  entities : RecordsEncodable s.entities
  flows : RecordsEncodable s.flows

theorem initializeStore_ends (s : StateStore) {payload : Fields} (h : (Json.obj payload).Encodable) (timestampMs : ℤ) :
    Ends Encodable PyError.Encodable (s.initializeStore payload timestampMs) := by
  refine (arrays_ends (Fields.encodable_get h _) (Fields.encodable_get h _) (Str.encodable_literal _)).bind ?_
  rintro ⟨entities, flows⟩ ⟨hentities, hflows⟩
  refine (indexRecords_ends (fun v hv => EntityState.fromDict_ends hv) (fun e he => he.entityId) (Str.encodable_literal _)
    hentities).bind fun entityMap he => ?_
  refine (indexRecords_ends (fun v hv => FlowConfig.fromDict_ends hv) (fun f hf => hf.flowId) (Str.encodable_literal _)
    hflows).bind fun flowMap hf => ?_
  exact (validateReferences_ends he hf).bind fun _ _ => ⟨he, hf⟩

structure DeltaLists.Encodable (lists : DeltaLists) : Prop where
  entityUpserts : ∀ v ∈ lists.entityUpserts, v.Encodable
  flowUpserts : ∀ v ∈ lists.flowUpserts, v.Encodable

theorem deltaLists_ends {payload : Fields} (h : (Json.obj payload).Encodable) :
    Ends DeltaLists.Encodable PyError.Encodable (deltaLists payload) := by
  have hempty : (Json.arr []).Encodable := Json.encodable_arr.mpr (List.forall_mem_nil _)
  have hlist : ∀ {key : Str} {items : List Json}, payload.getD key (.arr []) = .arr items →
      ∀ v ∈ items, v.Encodable := by
    intro key items hitems
    have hvalue := Fields.encodable_getD h key hempty
    rw [hitems] at hvalue
    exact Json.encodable_arr.mp hvalue
  unfold deltaLists
  split
  · rename_i eu er fu fr heu _ hfu _
    exact ⟨hlist heu, hlist hfu⟩
  · exact Str.encodable_literal _

theorem applyDelta_ends {s : StateStore} (hs : s.Encodable) {payload : Fields} (h : (Json.obj payload).Encodable)
    (timestampMs : ℤ) : Ends Encodable PyError.Encodable (s.applyDelta payload timestampMs) := by
  unfold applyDelta
  split_ifs
  · exact Str.encodable_literal _
  · exact Str.encodable_literal _
  · refine (deltaLists_ends h).bind fun lists hlists => ?_
    refine (removals_ends (Str.encodable_literal _) hs.entities).bind fun entities he => ?_
    refine (upserts_ends (fun o ho => EntityState.ofFields_ends ho) mergedEntity_encodable (Str.encodable_literal _)
      (Str.encodable_literal _) hlists.entityUpserts he).bind fun entities he => ?_
    refine (removals_ends (Str.encodable_literal _) hs.flows).bind fun flows hf => ?_
    refine (upserts_ends (fun o ho => FlowConfig.ofFields_ends ho) mergedFlow_encodable (Str.encodable_literal _)
      (Str.encodable_literal _) hlists.flowUpserts hf).bind fun flows hf => ?_
    exact (validateReferences_ends he hf).bind fun _ _ => ⟨he, hf⟩

end StateStore

structure StateSnapshot.Encodable (snapshot : StateSnapshot) : Prop where
  entities : ∀ entity ∈ snapshot.entities, entity.Encodable
  flows : ∀ flow ∈ snapshot.flows, flow.Encodable

theorem StateStore.snapshot_ends {s : StateStore} (h : s.Encodable) :
    Ends StateSnapshot.Encodable PyError.Encodable s.snapshot := by
  have hsorted : ∀ {records : Dict Str Fields}, RecordsEncodable records →
      ∀ o ∈ records.sorted.map Prod.snd, (Json.obj o).Encodable := by
    intro records hrecords o ho
    apply hrecords.values
    exact ((records.sorted_perm.map Prod.snd).mem_iff).mp ho
  unfold StateStore.snapshot
  split_ifs
  · exact Str.encodable_literal _
  · refine (Ends.mapM fun o ho => EntityState.ofFields_ends (hsorted h.entities o ho)).bind fun entities he => ?_
    exact (Ends.mapM fun o ho => FlowConfig.ofFields_ends (hsorted h.flows o ho)).bind fun flows hf => ⟨he, hf⟩

end AfsimNs3.Bridge
