import AfsimNs3.Adapter.Gates
import AfsimNs3.Adapter.Values
import AfsimNs3.Bridge.Response

/-!
# The gates' reading of the service's responses

`EveryField P message` says `P` of every field the two gates look up, in the message and in the objects of its
arrays. `gates_read_iff`: the gates find every field where it stands and take from the line what a JSON decoder gives
exactly when, for every field looked up, no string ahead of it shadows its name (`Unshadowed`), and its value is one
the gates can read (`Readable`).
-/

namespace AfsimNs3.System
open Bridge Adapter
open Ns3Runner (FlowMetric)

/-! ## The fields looked up -/

def messageNames : List Str := [str "message_type", str "revision", str "links", str "metrics", str "effects"]

def linkNames : List Str :=
  [str "state", str "delay_ms", str "configured_loss_rate", str "source_entity_id", str "target_entity_id"]

/-- `link_state` is looked up for a connected flow only. -/
def metricNames (connected : Bool) : List Str :=
  [str "source_entity_id", str "target_entity_id", str "connected", str "latency_ms"] ++
    if connected then [str "link_state"] else []

def effectNames : List Str :=
  [str "entity_id", str "subsystem_id", str "subsystem_type", str "peer_entity_id", str "state"]

/-- Every field the gates look up in a message has the property. -/
structure EveryField (P : Fields → Str → Prop) (message : MetricsMessage) : Prop where
  inMessage : ∀ name ∈ messageNames, P message.fields name
  inLinks : ∀ link ∈ message.links, ∀ name ∈ linkNames, P link.fields name
  inMetrics : ∀ metric ∈ message.metrics, ∀ name ∈ metricNames metric.values.connected, P metric.fields name
  inEffects : ∀ effect ∈ message.effects, ∀ name ∈ effectNames, P effect.fields name

instance (P : Fields → Str → Prop) [∀ fields name, Decidable (P fields name)] (message : MetricsMessage) :
    Decidable (EveryField P message) :=
  decidable_of_iff (_ ∧ _ ∧ _ ∧ _) ⟨fun ⟨h, h', h'', h'''⟩ => ⟨h, h', h'', h'''⟩,
    fun h => ⟨h.inMessage, h.inLinks, h.inMetrics, h.inEffects⟩⟩

/-! ## What a decoder gives -/

/-- The profile of a link. -/
def putLink (profiles : Profiles) (link : LinkRecord) : Profiles :=
  profiles.put (utf8 link.sourceEntityId, utf8 link.targetEntityId)
    ⟨link.state = .up, max 0 link.delayMs, max 0 (min 1 link.configuredLossRate)⟩

/-- The profile of a flow, over that of a link of the same direction. -/
def putMetric (profiles : Profiles) (metric : FlowMetric) : Profiles :=
  let key := (utf8 metric.sourceEntityId, utf8 metric.targetEntityId)
  let profile := (profiles.get? key).getD Profile.initial
  profiles.put key
    { profile with
      connected := metric.values.connected && metric.values.linkState = str "UP"
      delayMs := max profile.delayMs (max 0 metric.values.latencyMs.toRat) }

def decodedProfiles (message : MetricsMessage) : Profiles :=
  message.metrics.foldl putMetric (message.links.foldl putLink Dict.empty)

def decodedState : Bridge.EffectState → Adapter.EffectState
  | .available => .available
  | .degraded => .degraded
  | .blocked => .blocked

def decodedDecision (revision : ℕ) (effect : Effect) : EffectDecision :=
  { entityId := utf8 effect.entityId
    subsystemId := utf8 effect.policy.subsystemId
    subsystemType := utf8 effect.policy.subsystemType.text
    peerEntityId := utf8 effect.policy.peerEntityId
    state := decodedState effect.state
    revision := UInt64.ofNat revision }

section
variable (stod : Bytes → Except Bytes Double) (floatText : ℚ → Bytes)

/-- The line a message is sent as. -/
def lineOf (message : MetricsMessage) : Bytes := dumps floatText (.obj message.fields)

/-- The gates find every field where it stands, read it as a decoder does, and so take from the line what a decoder
gives. -/
structure GatesRead (message : MetricsMessage) : Prop where
  fields : EveryField (FieldRead stod floatText) message
  profiles : MessageTransportGate.readMetrics stod (lineOf floatText message) =
    .ok (some (UInt64.ofNat message.revision, decodedProfiles message))
  decisions : NetworkEffectGate.readMetrics (lineOf floatText message) =
    .ok (some (UInt64.ofNat message.revision, message.effects.map (decodedDecision message.revision)))

/-- No string ahead of the field shadows its name, and its value is one the gates can read. -/
def FieldReadable (fields : Fields) (name : Str) : Prop :=
  Unshadowed name fields ∧ Readable stod floatText (fields.get name)

instance (fields : Fields) (name : Str) : Decidable (FieldReadable stod floatText fields name) :=
  inferInstanceAs (Decidable (_ ∧ _))

end

/-! ## Where the search looks -/

section Search
variable {stod : Bytes → Except Bytes Double} {floatText : ℚ → Bytes} (hfloat : NumberText floatText)
  (hstod : StopsAtDelimiter stod floatText)
include hfloat hstod

/-- The value right before the field is loud. -/
theorem read_iff_of_loud {fields : Fields} {name : Str} (hname : FieldName name) {v : Json}
    (hv : Assoc.find? fields name = some v) {field : Str × Json} (hlast : (ahead name fields).getLast? = some field)
    (hloud : Loud floatText name field.2)
    (harray : ∀ items, v = .arr items → ∃ objects : List Fields, items = objects.map .obj) :
    FieldRead stod floatText fields name ↔ FieldReadable stod floatText fields name := by
  have hget : fields.get name = v := by
    rw [Fields.get, Fields.getD, hv]
    rfl
  rw [FieldReadable, hget]
  refine fieldRead_iff hfloat hstod hname hv (fun last hmem => ?_) harray
  rw [hlast] at hmem
  exact Option.some.inj hmem ▸ hloud

/-- Up to the field stand strings and values without strings only. -/
theorem read_iff_of_flat {before : Fields} (hflat : ∀ field ∈ before, Flat field.2) (after : Fields) {name : Str}
    (hname : FieldName name) {v : Json} (hv : Assoc.find? before name = some v) :
    FieldRead stod floatText (before ++ after) name ↔ FieldReadable stod floatText (before ++ after) name := by
  have hmem : (name, v) ∈ before := Assoc.mem_of_find? hv
  have hfind : Assoc.find? (before ++ after) name = some v := by rw [Assoc.find?_append, hv, Option.some_or]
  have hget : (before ++ after).get name = v := by
    rw [Fields.get, Fields.getD, hfind]
    rfl
  rw [FieldReadable, hget]
  refine fieldRead_iff hfloat hstod hname hfind (fun field hfield => ?_) fun items hitems => ?_
  · rw [ahead_append (List.mem_map_of_mem hmem)] at hfield
    exact loud_of_flat (hflat field ((List.takeWhile_sublist _).subset (List.mem_of_getLast? hfield)))
  · have hvalue := hflat _ hmem
    rw [hitems] at hvalue
    exact hvalue.elim

/-- The same, when the whole object is flat. -/
theorem read_iff_of_all_flat {fields : Fields} (hflat : ∀ field ∈ fields, Flat field.2) {name : Str}
    (hname : FieldName name) {v : Json} (hv : Assoc.find? fields name = some v) :
    FieldRead stod floatText fields name ↔ FieldReadable stod floatText fields name := by
  have h := read_iff_of_flat hfloat hstod hflat [] hname hv
  rwa [List.append_nil] at h

theorem link_read_iff (link : LinkRecord) : ∀ name ∈ linkNames,
    (FieldRead stod floatText link.fields name ↔ FieldReadable stod floatText link.fields name) := by
  have hflat : ∀ field ∈ link.fields, Flat field.2 := by simp [LinkRecord.fields, Flat, Json.ofRat]
  simp only [linkNames, List.forall_mem_cons]
  refine ⟨?_, ?_, ?_, ?_, ?_, List.forall_mem_nil _⟩
  all_goals exact read_iff_of_all_flat hfloat hstod hflat (by decide) rfl

theorem metric_read_iff (metric : FlowMetric) : ∀ name ∈ metricNames metric.values.connected,
    (FieldRead stod floatText metric.fields name ↔ FieldReadable stod floatText metric.fields name) := by
  have hflat : ∀ field ∈ metric.fields, Flat field.2 := by simp [FlowMetric.fields, Flat]
  have hall : ∀ name ∈ metricNames true,
      (FieldRead stod floatText metric.fields name ↔ FieldReadable stod floatText metric.fields name) := by
    simp only [metricNames, if_true, List.cons_append, List.nil_append, List.forall_mem_cons]
    refine ⟨?_, ?_, ?_, ?_, ?_, List.forall_mem_nil _⟩
    all_goals exact read_iff_of_all_flat hfloat hstod hflat (by decide) rfl
  intro name hmem
  refine hall name (List.mem_append.mpr ((List.mem_append.mp hmem).imp_right fun h => ?_))
  split_ifs at h with hconnected
  · exact h
  · exact absurd h List.not_mem_nil

theorem effect_read_iff (effect : Effect) : ∀ name ∈ effectNames,
    (FieldRead stod floatText effect.fields name ↔ FieldReadable stod floatText effect.fields name) := by
  have hflat : ∀ field ∈ effect.fields.take 6, Flat field.2 := by simp [Effect.fields, Flat]
  simp only [effectNames, List.forall_mem_cons]
  refine ⟨?_, ?_, ?_, ?_, ?_, List.forall_mem_nil _⟩
  all_goals exact read_iff_of_flat hfloat hstod hflat (effect.fields.drop 6) (by decide) rfl

/-! ## The message -/

omit hfloat hstod in
theorem objects_of_arr {α : Type} {fields : α → Fields} {items : List α} {values : List Json}
    (h : Json.objects fields items = .arr values) : ∃ objects : List Fields, values = objects.map .obj :=
  ⟨items.map fields, (Json.arr.inj h).symm⟩

omit hfloat hstod in
theorem objects_of_nil {values : List Json} (h : .arr [] = Json.arr values) :
    ∃ objects : List Fields, values = objects.map .obj := ⟨[], (Json.arr.inj h).symm⟩

omit hfloat hstod in
theorem queueState_silent (queueState : QueueState) : ¬ Mentions (str "effects") (.obj queueState.fields) := by
  have hstrings : (Json.obj queueState.fields).strings = [str "pending", str "latest_pending_revision"] := by
    obtain ⟨pending, latest⟩ := queueState
    cases latest <;> rfl
  rw [Mentions, hstrings]
  decide

omit hfloat hstod in
theorem state_silent (state : LinkState) : ¬ Mentions (str "metrics") (.str state.text) := by
  cases state <;> decide +kernel

omit hfloat hstod in
theorem bool_silent (name : Str) (b : Bool) : ¬ Mentions name (.bool b) := fun ⟨_, hs, _⟩ => absurd hs List.not_mem_nil

theorem response_read_iff (response : Response) (requestId : Str) (tail : Fields) : ∀ name ∈ messageNames,
    (FieldRead stod floatText (response.fields requestId tail) name ↔
      FieldReadable stod floatText (response.fields requestId tail) name) := by
  simp only [messageNames, List.forall_mem_cons]
  refine ⟨?_, ?_, ?_, ?_, ?_, List.forall_mem_nil _⟩
  · exact read_iff_of_loud hfloat hstod (by decide) rfl rfl (loud_of_flat trivial) fun _ => Json.noConfusion
  · exact read_iff_of_loud hfloat hstod (by decide) rfl rfl (loud_of_flat trivial) fun _ => Json.noConfusion
  · refine read_iff_of_loud hfloat hstod (by decide) rfl rfl ?_ fun _ => objects_of_arr
    have hkey : ¬ Shadows (str "links") (str "connected") := by decide
    exact loud_objects hfloat (by decide) _ _ fun node _ => ⟨node.fields.take 4, _, rfl, hkey, bool_silent _ _⟩
  · refine read_iff_of_loud hfloat hstod (by decide) rfl rfl ?_ fun _ => objects_of_arr
    have hkey : ¬ Shadows (str "metrics") (str "state") := by decide
    exact loud_objects hfloat (by decide) _ _ fun link _ => ⟨link.fields.take 7, _, rfl, hkey, state_silent _⟩
  · refine read_iff_of_loud hfloat hstod (by decide) rfl rfl ?_ fun _ => objects_of_arr
    exact loud_of_not_mentions (queueState_silent response.queueState)

theorem noMetrics_read_iff (requestId : Str) : ∀ name ∈ messageNames,
    (FieldRead stod floatText (noMetricsFields requestId) name ↔
      FieldReadable stod floatText (noMetricsFields requestId) name) := by
  simp only [messageNames, List.forall_mem_cons]
  refine ⟨?_, ?_, ?_, ?_, ?_, List.forall_mem_nil _⟩
  · exact read_iff_of_loud hfloat hstod (by decide) rfl rfl (loud_of_flat trivial) fun _ => Json.noConfusion
  · exact read_iff_of_loud hfloat hstod (by decide) rfl rfl (loud_of_flat trivial) fun _ => Json.noConfusion
  · have hsilent : ¬ Mentions (str "links") (.arr []) := by decide
    exact read_iff_of_loud hfloat hstod (by decide) rfl rfl (loud_of_not_mentions hsilent) fun _ => objects_of_nil
  · have hsilent : ¬ Mentions (str "metrics") (.obj (statusFields (str "no metrics yet"))) := by decide
    exact read_iff_of_loud hfloat hstod (by decide) rfl rfl (loud_of_not_mentions hsilent) fun _ => objects_of_nil
  · have hsilent : ¬ Mentions (str "effects") (.arr []) := by decide
    exact read_iff_of_loud hfloat hstod (by decide) rfl rfl (loud_of_not_mentions hsilent) fun _ => objects_of_nil

/-- **The search** finds and reads every field exactly if every field is readable. -/
theorem everyField_read_iff (message : MetricsMessage) :
    EveryField (FieldRead stod floatText) message ↔ EveryField (FieldReadable stod floatText) message := by
  have hmessage : ∀ name ∈ messageNames,
      (FieldRead stod floatText message.fields name ↔ FieldReadable stod floatText message.fields name) := by
    cases message with
    | broadcast response => exact response_read_iff hfloat hstod response _ _
    | answer requestId latest =>
      cases latest with
      | none => exact noMetrics_read_iff hfloat hstod requestId
      | some response => exact response_read_iff hfloat hstod response _ _
  constructor
  · intro h
    exact ⟨fun name hname => (hmessage name hname).mp (h.inMessage name hname),
      fun link hlink name hname => (link_read_iff hfloat hstod link name hname).mp (h.inLinks link hlink name hname),
      fun metric hmetric name hname =>
        (metric_read_iff hfloat hstod metric name hname).mp (h.inMetrics metric hmetric name hname),
      fun effect heffect name hname =>
        (effect_read_iff hfloat hstod effect name hname).mp (h.inEffects effect heffect name hname)⟩
  · intro h
    exact ⟨fun name hname => (hmessage name hname).mpr (h.inMessage name hname),
      fun link hlink name hname => (link_read_iff hfloat hstod link name hname).mpr (h.inLinks link hlink name hname),
      fun metric hmetric name hname =>
        (metric_read_iff hfloat hstod metric name hname).mpr (h.inMetrics metric hmetric name hname),
      fun effect heffect name hname =>
        (effect_read_iff hfloat hstod effect name hname).mpr (h.inEffects effect heffect name hname)⟩

end Search

/-! ## What the gates take from the line -/

theorem up_iff (state : LinkState) : (utf8 state.text = ascii "UP") = (state = .up) := by
  cases state <;> decide

section Gates
variable {stod : Bytes → Except Bytes Double} {floatText : ℚ → Bytes}

/-- A number read as the double it is, that is as a finite one. -/
theorem jsonDouble_of_reads {json key : Bytes} {x : Double}
    (h : ∃ q, x = .finite q ∧ jsonDouble stod json key = .ok q) : jsonDouble stod json key = .ok x.toRat := by
  obtain ⟨q, rfl, hq⟩ := h
  exact hq

theorem readLink_eq {link : LinkRecord} (h : ∀ name ∈ linkNames, FieldRead stod floatText link.fields name)
    (profiles : Profiles) :
    MessageTransportGate.readLink stod profiles (dumps floatText (.obj link.fields)) =
      .ok (putLink profiles link) := by
  simp only [linkNames, List.forall_mem_cons] at h
  obtain ⟨⟨-, hstate⟩, ⟨-, hdelay⟩, ⟨-, hloss⟩, ⟨-, hsource⟩, ⟨-, htarget⟩, -⟩ := h
  have hstate : jsonString _ (ascii "state") = .ok (utf8 link.state.text) := hstate
  have hdelay : jsonDouble stod _ (ascii "delay_ms") = .ok link.delayMs := jsonDouble_of_reads hdelay
  have hloss : jsonDouble stod _ (ascii "configured_loss_rate") = .ok link.configuredLossRate :=
    jsonDouble_of_reads hloss
  have hsource : jsonString _ (ascii "source_entity_id") = .ok (utf8 link.sourceEntityId) := hsource
  have htarget : jsonString _ (ascii "target_entity_id") = .ok (utf8 link.targetEntityId) := htarget
  simp only [MessageTransportGate.readLink, hstate, hdelay, hloss, hsource, htarget, Except.ok_bind, putLink, up_iff]
  rfl

theorem readConnected_eq {metric : FlowMetric}
    (h : ∀ name ∈ metricNames metric.values.connected, FieldRead stod floatText metric.fields name) :
    MessageTransportGate.readConnected (dumps floatText (.obj metric.fields)) =
      .ok (metric.values.connected && metric.values.linkState = str "UP") := by
  have hconnected : jsonBool _ (ascii "connected") = .ok metric.values.connected :=
    (h (str "connected") (by simp [metricNames])).2
  rw [MessageTransportGate.readConnected, hconnected, Except.ok_bind]
  cases hup : metric.values.connected with
  | false => rfl
  | true =>
    rw [hup] at h
    have hstate : jsonString _ (ascii "link_state") = .ok (utf8 metric.values.linkState) :=
      (h (str "link_state") (by simp [metricNames])).2
    have hascii : ∀ c ∈ str "UP", c.val < 128 := by simp [str]
    have htext : (utf8 metric.values.linkState = ascii "UP") = (metric.values.linkState = str "UP") :=
      propext (utf8_eq_iff hascii _)
    rw [if_pos rfl, hstate, Except.map, Bool.true_and]
    simp only [htext]

theorem readMetric_eq {metric : FlowMetric}
    (h : ∀ name ∈ metricNames metric.values.connected, FieldRead stod floatText metric.fields name)
    (profiles : Profiles) :
    MessageTransportGate.readMetric stod profiles (dumps floatText (.obj metric.fields)) =
      .ok (putMetric profiles metric) := by
  have hconnected := readConnected_eq h
  have hsource : jsonString _ (ascii "source_entity_id") = .ok (utf8 metric.sourceEntityId) :=
    (h (str "source_entity_id") (by simp [metricNames])).2
  have htarget : jsonString _ (ascii "target_entity_id") = .ok (utf8 metric.targetEntityId) :=
    (h (str "target_entity_id") (by simp [metricNames])).2
  have hlatency : jsonDouble stod _ (ascii "latency_ms") = .ok metric.values.latencyMs.toRat :=
    jsonDouble_of_reads (h (str "latency_ms") (by simp [metricNames])).2
  simp only [MessageTransportGate.readMetric, hsource, htarget, hconnected, hlatency, Except.ok_bind]
  rfl

theorem readEffect_eq {effect : Effect} (h : ∀ name ∈ effectNames, FieldRead stod floatText effect.fields name)
    (revision : ℕ) :
    NetworkEffectGate.readEffect (UInt64.ofNat revision) (dumps floatText (.obj effect.fields)) =
      .ok (decodedDecision revision effect) := by
  simp only [effectNames, List.forall_mem_cons] at h
  obtain ⟨⟨-, hentity⟩, ⟨-, hsubsystem⟩, ⟨-, htype⟩, ⟨-, hpeer⟩, ⟨-, hstate⟩, -⟩ := h
  have hentity : jsonString _ (ascii "entity_id") = .ok (utf8 effect.entityId) := hentity
  have hsubsystem : jsonString _ (ascii "subsystem_id") = .ok (utf8 effect.policy.subsystemId) := hsubsystem
  have htype : jsonString _ (ascii "subsystem_type") = .ok (utf8 effect.policy.subsystemType.text) := htype
  have hpeer : jsonString _ (ascii "peer_entity_id") = .ok (utf8 effect.policy.peerEntityId) := hpeer
  have hstate : jsonString _ (ascii "state") = .ok (utf8 effect.state.text) := hstate
  have hparse : Adapter.EffectState.parse (utf8 effect.state.text) = .ok (decodedState effect.state) := by
    cases effect.state <;> decide
  simp only [NetworkEffectGate.readEffect, hentity, hsubsystem, htype, hpeer, hstate, hparse, Except.ok_bind]
  rfl

theorem jsonUint64_of_reads {json key : Bytes} {n : ℕ}
    (h : (jsonUint64 json key).map (fun value => (value.toNat : ℤ)) = .ok (n : ℤ)) :
    jsonUint64 json key = .ok (UInt64.ofNat n) := by
  cases hread : jsonUint64 json key with
  | error e =>
    rw [hread] at h
    cases h
  | ok value =>
    rw [hread] at h
    have hvalue : (value.toNat : ℤ) = n := Except.ok.inj h
    rw [← Int.ofNat.inj hvalue, UInt64.ofNat_toNat]

/-- What a message holds under the names looked up. -/
theorem message_get (message : MetricsMessage) :
    message.fields.get (str "message_type") = .str (str "ns3_metrics") ∧
      message.fields.get (str "revision") = .int message.revision ∧
      message.fields.get (str "links") = Json.objects LinkRecord.fields message.links ∧
      message.fields.get (str "metrics") = Json.objects FlowMetric.fields message.metrics ∧
      message.fields.get (str "effects") = Json.objects Effect.fields message.effects := by
  cases message with
  | broadcast response => exact ⟨rfl, rfl, rfl, rfl, rfl⟩
  | answer requestId latest => cases latest <;> exact ⟨rfl, rfl, rfl, rfl, rfl⟩

/-- **The gates' reading**, when every field is found. -/
theorem gatesRead_of_fields {message : MetricsMessage} (h : EveryField (FieldRead stod floatText) message) :
    GatesRead stod floatText message := by
  obtain ⟨htype, hrevision, hlinks, hmetrics, heffects⟩ := message_get message
  have hfields := h.inMessage
  simp only [messageNames, List.forall_mem_cons, FieldRead, htype, hrevision, hlinks, hmetrics, heffects] at hfields
  obtain ⟨⟨-, htype⟩, ⟨-, hrevision⟩, ⟨-, hlinks⟩, ⟨-, hmetrics⟩, ⟨-, heffects⟩, -⟩ := hfields
  have htype : jsonString (lineOf floatText message) (ascii "message_type") = .ok (ascii "ns3_metrics") := htype
  have hrevision : jsonUint64 (lineOf floatText message) (ascii "revision") = .ok (UInt64.ofNat message.revision) :=
    jsonUint64_of_reads hrevision
  have hlinks : objectArray (lineOf floatText message) (ascii "links") =
      .ok (((message.links.map LinkRecord.fields).map .obj).map (dumps floatText)) := hlinks
  have hmetrics : objectArray (lineOf floatText message) (ascii "metrics") =
      .ok (((message.metrics.map FlowMetric.fields).map .obj).map (dumps floatText)) := hmetrics
  have heffects : objectArray (lineOf floatText message) (ascii "effects") =
      .ok (((message.effects.map Effect.fields).map .obj).map (dumps floatText)) := heffects
  rw [List.map_map, List.map_map] at hlinks hmetrics heffects
  have hprofiles : (message.links.map ((dumps floatText ∘ Json.obj) ∘ LinkRecord.fields)).foldlM
      (MessageTransportGate.readLink stod) Dict.empty = .ok (message.links.foldl putLink Dict.empty) :=
    Except.foldlM_eq_ok (fun link hlink => readLink_eq (h.inLinks link hlink)) Dict.empty
  have hflows : (message.metrics.map ((dumps floatText ∘ Json.obj) ∘ FlowMetric.fields)).foldlM
      (MessageTransportGate.readMetric stod) (message.links.foldl putLink Dict.empty) =
        .ok (decodedProfiles message) :=
    Except.foldlM_eq_ok (fun metric hmetric => readMetric_eq (h.inMetrics metric hmetric)) _
  have hdecisions : (message.effects.map ((dumps floatText ∘ Json.obj) ∘ Effect.fields)).mapM
      (NetworkEffectGate.readEffect (UInt64.ofNat message.revision)) =
        .ok (message.effects.map (decodedDecision message.revision)) :=
    Except.mapM_eq_ok fun effect heffect => readEffect_eq (h.inEffects effect heffect) message.revision
  refine ⟨h, ?_, ?_⟩
  · rw [MessageTransportGate.readMetrics, htype, Except.ok_bind, if_neg (not_not_intro rfl), hrevision, Except.ok_bind,
      hlinks, Except.ok_bind, hprofiles, Except.ok_bind, hmetrics, Except.ok_bind, hflows]
    rfl
  · rw [NetworkEffectGate.readMetrics, htype, Except.ok_bind, if_neg (not_not_intro rfl), hrevision, Except.ok_bind,
      heffects, Except.ok_bind, hdecisions]
    rfl

/-- **The gates read a response as JSON defines it** exactly if every field looked up is readable: no string ahead of
it shadows its name, strings need no numeric escape, the revision has 64 bits, and `std::stod` reads the numbers back
as finite ones. -/
theorem gates_read_iff (hfloat : NumberText floatText) (hstod : StopsAtDelimiter stod floatText)
    (message : MetricsMessage) :
    GatesRead stod floatText message ↔ EveryField (FieldReadable stod floatText) message := by
  rw [← everyField_read_iff hfloat hstod message]
  exact ⟨fun h => h.fields, gatesRead_of_fields⟩

end Gates

/-! ## A radar and its peer -/

/-- The text of a whole number. -/
def wholeText (q : ℚ) : Bytes := intBytes q.num ++ ascii ".0"

/-- `std::stod` on the text of a whole number. -/
def wholeStod (text : Bytes) : Except Bytes Double :=
  .ok (.finite (digitsValue ((text.takeWhile isScalar).takeWhile isDigit)))

theorem wholeText_number : NumberText wholeText := by
  constructor
  · intro q c hc
    rcases List.mem_append.mp hc with hc | hc
    · exact isScalar_intBytes _ c hc
    · have hpoint : ∀ c ∈ ascii ".0", isScalar c = true := forall_of_all (by decide)
      exact hpoint c hc
  · exact fun q => List.append_ne_nil_of_left_ne_nil (intBytes_ne_nil _) _

theorem wholeStod_stops : StopsAtDelimiter wholeStod wholeText := by
  intro x d rest hd
  have hscalar := isScalar_floatBytes wholeText_number x
  have hstop : isScalar d = false := by
    rcases hd with rfl | rfl <;> rfl
  have htake : (floatBytes wholeText x ++ d :: rest).takeWhile isScalar =
      (floatBytes wholeText x).takeWhile isScalar := by
    rw [List.takeWhile_append_of_pos hscalar, List.takeWhile_cons_of_neg (by rw [hstop]; exact Bool.false_ne_true),
      List.append_nil, List.takeWhile_eq_self_iff.mpr hscalar]
  rw [wholeStod, wholeStod, htake]

/-- A radar with a link and a flow to its peer. -/
def radarInit (id subsystemId : Str) : Fields := [
  (str "entities", .arr [
    .obj [
      (str "entity_id", .str id),
      (str "business_node_id", .str (str "N")),
      (str "position", .obj [(str "x_m", .int 0), (str "y_m", .int 0), (str "z_m", .int 0)]),
      (str "velocity", .obj [(str "vx_mps", .int 0), (str "vy_mps", .int 0), (str "vz_mps", .int 0)]),
      (str "heading_deg", .int 0),
      (str "alive", .bool true),
      (str "devices", .arr [.obj [
        (str "device_id", .str (str "d")), (str "peer_entity_id", .str (str "peer")), (str "kind", .str (str "wired")),
        (str "data_rate_bps", .int 1000), (str "delay_ms", .int 5), (str "loss_rate", .int 0),
        (str "link_state", .str (str "UP"))]]),
      (str "effect_policies", .arr [.obj [
        (str "subsystem_id", .str subsystemId), (str "subsystem_type", .str (str "radar")),
        (str "peer_entity_id", .str (str "peer")), (str "max_delay_ms", .int 9), (str "max_loss_rate", .int 1),
        (str "min_throughput_bps", .int 0), (str "violation_state", .str (str "BLOCKED"))]])],
    .obj [
      (str "entity_id", .str (str "peer")),
      (str "business_node_id", .str (str "N")),
      (str "position", .obj [(str "x_m", .int 0), (str "y_m", .int 0), (str "z_m", .int 0)]),
      (str "velocity", .obj [(str "vx_mps", .int 0), (str "vy_mps", .int 0), (str "vz_mps", .int 0)]),
      (str "heading_deg", .int 0),
      (str "alive", .bool true)]]),
  (str "flows", .arr [.obj [
    (str "flow_id", .str (str "F")), (str "source_entity_id", .str id), (str "target_entity_id", .str (str "peer")),
    (str "packet_size_bytes", .int 100), (str "interval_ms", .int 10), (str "duration_ms", .int 100)]])]

def radarSnapshot (id subsystemId : Str) : StateSnapshot :=
  { timestampMs := 7
    entities := [
      ⟨id, str "N", none, ⟨0, 0, 0⟩, ⟨0, 0, 0⟩, 0, true, [⟨str "d", str "peer", .wired, 1000, 5, 0, .up⟩],
        [⟨subsystemId, .radar, str "peer", 9, 1, 0, .blocked⟩]⟩,
      ⟨str "peer", str "N", none, ⟨0, 0, 0⟩, ⟨0, 0, 0⟩, 0, true, [], []⟩]
    flows := [⟨str "F", id, str "peer", 100, 10, 100, true⟩]
    revision := 1 }

/-- The response to the initialisation, after a run in which every packet arrived. -/
def radarMessage (id subsystemId requestId : Str) : MetricsMessage :=
  .broadcast ((Server.new : Server Unit).response ⟨requestId, radarSnapshot id subsystemId⟩
    (Ns3Runner.computeResult (radarSnapshot id subsystemId) requestId 3
      (Ns3Runner.measured [⟨0, ⟨true, .finite 6, .finite 0, .finite 8000, 10, 10, str "UP"⟩⟩])))

theorem gates_read_radar : GatesRead wholeStod wholeText (radarMessage (str "A") (str "R") (str "r1")) :=
  (gates_read_iff wholeText_number wholeStod_stops _).mpr (by decide +kernel)

/-- **A `request_id` that is a field's name** makes the gate take the time of the message for its revision; an entity
of the name `links` makes it reject the line. -/
theorem shadowing_texts_misread :
    (StateStore.new.initializeStore (radarInit (str "A") (str "R")) 7 >>= StateStore.snapshot).toOption =
      some (radarSnapshot (str "A") (str "R")) ∧
    (jsonUint64 (lineOf wholeText (radarMessage (str "A") (str "R") (str "revision"))) (ascii "revision")).toOption = some 7 ∧
    ¬ GatesRead wholeStod wholeText (radarMessage (str "A") (str "R") (str "revision")) ∧
    (StateStore.new.initializeStore (radarInit (str "links") (str "R")) 7 >>= StateStore.snapshot).toOption =
      some (radarSnapshot (str "links") (str "R")) ∧
    (MessageTransportGate.readMetrics wholeStod (lineOf wholeText (radarMessage (str "links") (str "R") (str "r1")))).toOption =
      none ∧
    ¬ GatesRead wholeStod wholeText (radarMessage (str "links") (str "R") (str "r1")) := by
  have hrevision : (jsonUint64 (lineOf wholeText (radarMessage (str "A") (str "R") (str "revision")))
      (ascii "revision")).toOption = some 7 := by decide +kernel
  have hplace : ¬ (valueStart (lineOf wholeText (radarMessage (str "A") (str "R") (str "revision")))
      (utf8 (str "revision"))).toOption =
        some (ownPosition wholeText (str "revision") (radarMessage (str "A") (str "R") (str "revision")).fields) := by
    decide +kernel
  have hrejected : (MessageTransportGate.readMetrics wholeStod
      (lineOf wholeText (radarMessage (str "links") (str "R") (str "r1")))).toOption = none := by decide +kernel
  refine ⟨by decide +kernel, hrevision, fun h => hplace ?_, by decide +kernel, hrejected, fun h => ?_⟩
  · have hfound := (h.fields.inMessage (str "revision") (by decide)).1
    exact Except.toOption_eq_some_iff.mpr hfound
  · rw [h.profiles] at hrejected
    cases hrejected

end AfsimNs3.System
