import AfsimNs3.Bridge.Handler
import AfsimNs3.Bridge.Process
import AfsimNs3.Bridge.Texts

/-!
# The texts the service holds

A request whose digest could be taken has only strings that can be encoded, so whatever the service keeps of accepted
requests can be encoded as well: the records of the store, the jobs, the cached replies and the latest response
(`Server.Encodable`, kept by every step). What the runner measures is assumed to be decoded text (`Action.Decoded`).
-/

namespace AfsimNs3.Bridge
open Except Ns3Runner

/-! ## Payloads -/

theorem sortItems_eq (items : List Json) : sortItems items = items.map sortKeys := by
  induction items with
  | nil => rfl
  | cons v items ih => rw [sortItems, List.map_cons, ih]

theorem sortValues_eq (fields : Fields) : sortValues fields = fields.map (fun field => (field.1, sortKeys field.2)) := by
  induction fields with
  | nil => rfl
  | cons field fields ih => rw [sortValues, List.map_cons, ih]

/-- Sorting the keys moves strings about, and changes none. -/
theorem encodable_sortKeys (v : Json) : (sortKeys v).Encodable ↔ v.Encodable := by
  induction v using Json.ind with
  | null => exact Iff.rfl
  | bool b => exact Iff.rfl
  | int n => exact Iff.rfl
  | float x => exact Iff.rfl
  | str s => exact Iff.rfl
  | arr items ih =>
    rw [sortKeys, sortItems_eq, Json.encodable_arr, Json.encodable_arr, List.forall_mem_map]
    exact forall₂_congr ih
  | obj fields ih =>
    have hperm : ∀ field, field ∈ sortFields (sortValues fields) ↔ field ∈ sortValues fields := fun field =>
      (List.perm_insertionSort _ _).mem_iff
    simp only [sortKeys, Json.encodable_obj, hperm]
    rw [sortValues_eq, List.forall_mem_map]
    exact forall₂_congr fun field hfield => and_congr_right fun _ => ih field hfield

section
variable {δ : Type} {floatText : ℚ → Bytes} {sha256 : Bytes → δ} {payload : Json}

theorem encodable_of_digest {digest : δ} (h : requestDigest floatText sha256 payload = .ok digest) :
    payload.Encodable := by
  rw [requestDigest, canonical] at h
  split_ifs at h with hstrings
  · exact (encodable_sortKeys payload).mp (List.all_eq_true.mp hstrings)
  · cases h

end

/-! ## The envelope -/

theorem checkVersion_error {version : Json} {e : PyError} (h : checkVersion version = .error e) :
    e = .protocol 1003 (str "protocol_version must be 0.2") := by
  unfold checkVersion at h
  split at h
  · split_ifs at h
    exact (Except.error.inj h).symm
  · exact (Except.error.inj h).symm

theorem MessageType.parse_error {text : Str} {e : PyError} (h : MessageType.parse text = .error e) :
    e = .protocol 1003 (str "unsupported message_type: " ++ text) := by
  unfold MessageType.parse at h
  split_ifs at h
  exact (Except.error.inj h).symm

theorem integer_error {data : Fields} {key : Str} {minimum : Option ℤ} {e : PyError}
    (h : integer data key minimum = .error e) : ∃ message, e = .protocol 1002 message := by
  unfold integer at h
  split at h
  · split_ifs at h
    exact ⟨_, (Except.error.inj h).symm⟩
  · exact ⟨_, (Except.error.inj h).symm⟩

theorem validateEnvelope_ends {payload : Json} (h : payload.Encodable) :
    Ends (fun envelope => encodable envelope.requestId = true) PyError.Encodable (validateEnvelope payload) := by
  cases payload with
  | obj payload =>
    rw [validateEnvelope]
    have hversion : EndsPlain (checkVersion (Fields.get payload (str "protocol_version"))) := ends_of_error fun e he => by
      rw [checkVersion_error he]
      exact Str.encodable_literal _
    refine hversion.bind fun _ _ => ?_
    have htype : ∀ text, encodable text = true → EndsPlain (MessageType.parse text) := fun text htext =>
      ends_of_error fun e he => by
        rw [MessageType.parse_error he]
        exact Str.encodable_append.mpr ⟨Str.encodable_literal _, htext⟩
    refine ((requiredText_ends h (Str.encodable_literal _)).bind htype).bind fun _ _ => ?_
    refine (requiredText_ends h (Str.encodable_literal _)).bind fun requestId hrequest => ?_
    exact (integer_ends (Str.encodable_literal _) (by decide)).bind fun _ _ => hrequest
  | _ => exact Str.encodable_literal _

/-! ## Requests -/

theorem update_ends {state : StateStore} (hs : state.Encodable) (envelope : Envelope) {payload : Json}
    (h : payload.Encodable) :
    Ends StateStore.Encodable PyError.Encodable (Server.update state envelope payload.fields) := by
  unfold Server.update
  split_ifs
  · exact StateStore.initializeStore_ends state h.fields envelope.timestampMs
  · exact StateStore.applyDelta_ends hs h.fields envelope.timestampMs

/-! ## Responses -/

theorem encodable_objects {α : Type} {fields : α → Fields} {items : List α} :
    (Json.objects fields items).Encodable ↔ ∀ item ∈ items, (Json.obj (fields item)).Encodable := by
  rw [Json.objects, Json.encodable_arr, List.forall_mem_map, List.forall_mem_map]

structure Response.Encodable (response : Response) : Prop where
  requestId : encodable response.measured.requestId = true
  fields : (Json.obj (response.fields [] [])).Encodable

theorem encodable_fields_iff {response : Response} (h : response.Encodable) {requestId : Str} {tail : Fields} :
    (Json.obj (response.fields requestId tail)).Encodable ↔
      encodable requestId = true ∧ (Json.obj tail).Encodable := by
  have hfields := h.fields
  simp only [Response.fields, Json.encodable_obj, List.forall_mem_append, List.forall_mem_cons] at hfields ⊢
  simp only [Json.encodable_str, Str.encodable_literal] at hfields ⊢
  tauto

/-- The answer to a query can be encoded when its `request_id` can. -/
theorem encodable_answer_iff {latest : Option Response} (h : ∀ response ∈ latest, response.Encodable) (requestId : Str) :
    (Json.obj (MetricsMessage.answer requestId latest).fields).Encodable ↔ encodable requestId = true := by
  cases latest with
  | none =>
    simp only [MetricsMessage.fields, noMetricsFields, statusFields, QueueState.fields, Json.encodable_obj,
      List.forall_mem_cons, List.not_mem_nil, false_implies, implies_true, and_true, Json.encodable_str,
      Str.encodable_literal, true_and, Json.encodable_int, Json.encodable_arr]
    tauto
  | some response =>
    have hresponse := h response rfl
    rw [MetricsMessage.fields, encodable_fields_iff hresponse, and_iff_left]
    split_ifs
    · exact Json.encodable_obj.mpr (List.forall_mem_nil _)
    · refine Json.encodable_obj.mpr (List.forall_mem_singleton.mpr ?_)
      exact ⟨Str.encodable_literal _, Json.encodable_str.mpr hresponse.requestId⟩

theorem node_encodable {node : NodeRecord} (hid : encodable node.entityId = true)
    (hbusiness : encodable node.businessNodeId = true) :
    (Json.obj node.mapping).Encodable ∧ (Json.obj node.fields).Encodable := by
  simp [NodeRecord.mapping, NodeRecord.fields, Json.encodable_obj, Json.encodable_str, hid, hbusiness]

theorem link_encodable {link : LinkRecord} (hid : encodable link.linkId = true)
    (hsource : encodable link.sourceEntityId = true) (htarget : encodable link.targetEntityId = true) :
    (Json.obj link.fields).Encodable := by
  have hkind : encodable link.kind.text = true := by cases link.kind <;> exact Str.encodable_literal _
  have hstate : encodable link.state.text = true := by cases link.state <;> exact Str.encodable_literal _
  simp [LinkRecord.fields, Json.encodable_obj, Json.encodable_str, Json.ofRat, hid, hsource, htarget, hkind, hstate]

theorem metric_encodable {metric : FlowMetric} (hflow : encodable metric.flowId = true)
    (hsource : encodable metric.sourceEntityId = true) (htarget : encodable metric.targetEntityId = true)
    (hstate : encodable metric.values.linkState = true) (hdirection : encodable metric.trafficDirection = true) :
    (Json.obj metric.fields).Encodable := by
  simp [FlowMetric.fields, Json.encodable_obj, Json.encodable_str, hflow, hsource, htarget, hstate, hdirection]

theorem effect_encodable {effect : Effect} (hid : encodable effect.entityId = true)
    (hbusiness : encodable effect.businessNodeId = true) (hpolicy : effect.policy.Encodable) :
    (Json.obj effect.fields).Encodable := by
  have htype : encodable effect.policy.subsystemType.text = true := by
    cases effect.policy.subsystemType <;> exact Str.encodable_literal _
  have hviolation : encodable effect.policy.violationState.text = true := by
    cases effect.policy.violationState <;> exact Str.encodable_literal _
  have hstate : encodable effect.state.text = true := by cases effect.state <;> exact Str.encodable_literal _
  have hreason : ∀ reason : Reason, encodable reason.text = true := by
    intro reason
    cases reason <;> exact Str.encodable_literal _
  simp [Effect.fields, EffectPolicy.thresholds, Json.encodable_obj, Json.encodable_arr, Json.encodable_str, Json.ofRat, hid,
    hbusiness, hpolicy.subsystemId, hpolicy.peerEntityId, htype, hviolation, hstate, hreason]

/-! ## Jobs -/

structure Job.Encodable (job : Job) : Prop where
  requestId : encodable job.requestId = true
  snapshot : job.snapshot.Encodable

/-- The texts among what the runner measures. -/
def MeasuredEncodable (measured : Dict ℕ MetricValues) : Prop :=
  ∀ index values, measured.get? index = some values → encodable values.linkState = true

theorem nodes_encodable {snapshot : StateSnapshot} (h : snapshot.Encodable) :
    ∀ node ∈ nodes snapshot, (Json.obj node.mapping).Encodable ∧ (Json.obj node.fields).Encodable := by
  refine List.forall_mem_map.mpr fun entity hentity => ?_
  exact node_encodable (h.entities entity hentity).entityId (h.entities entity hentity).businessNodeId

theorem links_encodable {snapshot : StateSnapshot} (h : snapshot.Encodable) :
    ∀ link ∈ links snapshot.entities, (Json.obj link.fields).Encodable := by
  refine List.forall_mem_flatMap.mpr fun entity hentity => List.forall_mem_map.mpr fun device hdevice => ?_
  have hdeviceTexts := (h.entities entity hentity).devices device hdevice
  have hid : encodable (entity.entityId ++ str ":" ++ device.deviceId) = true :=
    Str.encodable_append.mpr ⟨Str.encodable_append.mpr ⟨(h.entities entity hentity).entityId, Str.encodable_literal _⟩,
      hdeviceTexts.deviceId⟩
  exact link_encodable hid (h.entities entity hentity).entityId hdeviceTexts.peerEntityId

theorem metrics_encodable {snapshot : StateSnapshot} (h : snapshot.Encodable) {measured : Dict ℕ MetricValues}
    (hmeasured : MeasuredEncodable measured) :
    ∀ metric ∈ metrics snapshot.flows measured, (Json.obj metric.fields).Encodable := by
  refine List.forall_mem_map.mpr fun flow hflow => ?_
  have hmem : flow.1 ∈ snapshot.flows := (List.mem_zipIdx hflow).2.2 ▸ List.getElem_mem _
  have hids := h.flows flow.1 hmem
  have hdirection : encodable (flow.1.sourceEntityId ++ str "->" ++ flow.1.targetEntityId) = true :=
    Str.encodable_append.mpr ⟨Str.encodable_append.mpr ⟨hids.sourceEntityId, Str.encodable_literal _⟩,
      hids.targetEntityId⟩
  have hstate : encodable ((measured.get? flow.2).getD MetricValues.unmeasured).linkState = true := by
    cases hget : measured.get? flow.2 with
    | none => exact Str.encodable_literal _
    | some values => exact hmeasured _ _ hget
  exact metric_encodable hids.flowId hids.sourceEntityId hids.targetEntityId hstate hdirection

theorem effects_encodable {snapshot : StateSnapshot} (h : snapshot.Encodable) (metrics : List FlowMetric) :
    ∀ effect ∈ evaluateEffects snapshot metrics, (Json.obj effect.fields).Encodable := by
  refine List.forall_mem_flatMap.mpr fun entity hentity => List.forall_mem_map.mpr fun policy hpolicy => ?_
  exact effect_encodable (h.entities entity hentity).entityId (h.entities entity hentity).businessNodeId
    ((h.entities entity hentity).effectPolicies policy hpolicy)

namespace Server

variable {δ : Type}

theorem response_encodable (s : Server δ) {job : Job} (h : job.Encodable) {measured : Dict ℕ MetricValues}
    (hmeasured : MeasuredEncodable measured) (computeMs : ℚ) :
    (s.response job (computeResult job.snapshot job.requestId computeMs measured)).Encodable := by
  refine ⟨h.requestId, ?_⟩
  have hmappings : (Json.objects NodeRecord.mapping (nodes job.snapshot)).Encodable :=
    encodable_objects.mpr fun node hnode => (nodes_encodable h.snapshot node hnode).1
  have hnodes : (Json.objects NodeRecord.fields (nodes job.snapshot)).Encodable :=
    encodable_objects.mpr fun node hnode => (nodes_encodable h.snapshot node hnode).2
  have hlinks : (Json.objects LinkRecord.fields (links job.snapshot.entities)).Encodable :=
    encodable_objects.mpr (links_encodable h.snapshot)
  have hmetrics : (Json.objects FlowMetric.fields (metrics job.snapshot.flows measured)).Encodable :=
    encodable_objects.mpr (metrics_encodable h.snapshot hmeasured)
  have heffects : (Json.objects Effect.fields
      (evaluateEffects job.snapshot (metrics job.snapshot.flows measured))).Encodable :=
    encodable_objects.mpr (effects_encodable h.snapshot _)
  have hqueue : (Json.obj (QueueState.fields (s.response job (computeResult job.snapshot job.requestId computeMs
      measured)).queueState)).Encodable := by
    rw [QueueState.fields, Json.encodable_obj, List.forall_mem_cons, List.forall_mem_singleton]
    refine ⟨⟨Str.encodable_literal _, Json.encodable_bool _⟩, Str.encodable_literal _, ?_⟩
    dsimp only
    cases (s.response job (computeResult job.snapshot job.requestId computeMs measured)).queueState.latestPendingRevision
    · exact Json.encodable_null
    · exact Json.encodable_int _
  have hstatus : (Json.obj (statusFields (str "ok"))).Encodable := by
    simp [statusFields, Json.encodable_obj, Json.encodable_str]
  have hempty : encodable [] = true := rfl
  simp only [Response.fields, List.append_nil]
  rw [Json.encodable_obj]
  simp only [List.forall_mem_cons, Str.encodable_literal, Json.encodable_str, Json.encodable_int, Json.ofRat,
    Json.encodable_float, true_and, protocolVersion, hempty]
  exact ⟨hstatus, hmappings, hnodes, hlinks, hmetrics, hqueue, heffects, List.forall_mem_nil _⟩

/-! ## The service -/

/-- What the service keeps of accepted requests can be encoded. -/
structure Encodable (s : Server δ) : Prop where
  state : s.state.Encodable
  pending : ∀ job ∈ s.pending, job.Encodable
  computing : ∀ job, s.worker = .computing job → job.Encodable
  latest : ∀ response ∈ s.latest, response.Encodable
  replies : ∀ e ∈ s.idempotency, encodable e.2.2.requestId = true

/-- The runner's results are decoded text, which has no surrogates. -/
def Action.Decoded : Action → Prop
  | .computed (.ok measured _) _ => MeasuredEncodable measured
  | _ => True

theorem new_encodable : (new : Server δ).Encodable where
  state := ⟨StateStore.RecordsEncodable.empty, StateStore.RecordsEncodable.empty⟩
  pending := fun _ h => nomatch h
  computing := fun _ h => nomatch h
  latest := fun _ h => nomatch h
  replies := fun _ h => nomatch h

section
variable {s : Server δ}

theorem Encodable.takeJob (h : s.Encodable) : s.takeJob.Encodable := by
  unfold Server.takeJob
  split
  · exact ⟨h.state, h.pending, (fun _ hworker => nomatch hworker), h.latest, h.replies⟩
  · rename_i job hjob
    refine ⟨h.state, (fun _ hpending => nomatch hpending), ?_, h.latest, h.replies⟩
    intro job' hworker
    obtain rfl := Worker.computing.inj hworker
    exact h.pending job hjob

theorem Encodable.awaitEvent (hs : s.Unlocked) (h : s.Encodable) : s.awaitEvent.Encodable := by
  unfold Server.awaitEvent
  split_ifs
  · rw [awaitJob_eq hs.pending]
    exact h.takeJob
  · exact ⟨h.state, h.pending, (fun _ hworker => nomatch hworker), h.latest, h.replies⟩

theorem Encodable.sendNext (hs : s.Unlocked) (h : s.Encodable) (message : Broadcast) (todo failed : List Client) :
    (s.sendNext message todo failed).Encodable := by
  unfold Server.sendNext
  split
  · exact Encodable.awaitEvent (removeClients_unlocked hs failed)
      ⟨h.state, h.pending, h.computing, h.latest, h.replies⟩
  · exact ⟨h.state, h.pending, (fun _ hworker => nomatch hworker), h.latest, h.replies⟩

theorem Encodable.setLastError (h : s.Encodable) (error : Option Str) : (s.setLastError error).Encodable :=
  ⟨h.state, h.pending, h.computing, h.latest, h.replies⟩

theorem Encodable.computed (hs : s.Unlocked) (h : s.Encodable) {job : Job} (hjob : s.worker = .computing job)
    {computation : Computation} {order : List Client} (hdecoded : (Action.computed computation order).Decoded) :
    (s.computed job computation order).Encodable := by
  unfold Server.computed
  cases computation with
  | failed message => exact (h.setLastError _).sendNext (setLastError_unlocked hs _) _ _ _
  | ok measured computeMs =>
    have hclear := h.setLastError none
    have hfree := setLastError_unlocked hs none
    have hresponse := (s.setLastError none).response_encodable (h.computing job hjob) hdecoded computeMs
    dsimp only
    split_ifs
    · exact hclear.awaitEvent hfree
    · exact ⟨h.state, h.pending, (fun _ hworker => nomatch hworker), h.latest, h.replies⟩
    · refine Encodable.sendNext (record_unlocked hfree _ _) ⟨h.state, h.pending, h.computing, ?_, h.replies⟩ _ _ _
      intro response hlatest
      obtain rfl := Option.some.inj hlatest
      exact hresponse

variable {floatText : ℚ → Bytes} {sha256 : Bytes → δ}

theorem Encodable.accept (h : s.Encodable) {payload : Json} {envelope : Envelope} {digest : δ} {state : StateStore}
    {snapshot : StateSnapshot} (hrequest : StateRequest (requestDigest floatText sha256) payload envelope digest)
    (hupdate : update s.state envelope payload.fields = .ok state) (hsnapshot : state.snapshot = .ok snapshot) :
    (s.accept envelope digest state snapshot).Encodable := by
  have hpayload := encodable_of_digest hrequest.content
  have hstate := (update_ends h.state envelope hpayload).value hupdate
  have hid := (validateEnvelope_ends hpayload).value hrequest.valid
  refine ⟨hstate, ?_, h.computing, h.latest, ?_⟩
  · intro job hjob
    obtain rfl := Option.some.inj hjob
    exact ⟨hid, (StateStore.snapshot_ends hstate).value hsnapshot⟩
  · intro e he
    rw [accept_idempotency] at he
    rcases mem_rememberRequest he with he | rfl
    · exact h.replies e he
    · exact hid

variable [DecidableEq δ]

/-- Every step keeps to texts that can be encoded. -/
theorem Encodable.step (hs : s.Unlocked) (h : s.Encodable) {action : Action} (hdecoded : action.Decoded)
    {s' : Server δ} (hstep : s.step (requestDigest floatText sha256) action = some s') : s'.Encodable := by
  cases step_cases hs hstep with
  | connect client => exact ⟨h.state, h.pending, h.computing, h.latest, h.replies⟩
  | disconnect client => exact ⟨h.state, h.pending, h.computing, h.latest, h.replies⟩
  | call payload =>
    have houtcome := process_outcome (requestDigest floatText sha256) hs payload
    generalize s.process (requestDigest floatText sha256) payload = result at houtcome ⊢
    cases houtcome with
    | raised e => exact h
    | latest => exact h
    | repeated => exact ⟨h.state, h.pending, h.computing, h.latest, h.replies⟩
    | accepted envelope digest state snapshot hrequest _ hupdate hsnapshot =>
      exact h.accept hrequest hupdate hsnapshot
  | wake hwaiting => exact h.takeJob
  | computed job computation order hjob horder => exact h.computed hs hjob hdecoded
  | write ok message client todo failed hworker =>
    unfold Server.write
    split_ifs
    · refine ⟨h.state, h.pending, fun job hcomputing => ?_, h.latest, h.replies⟩
      cases hcomputing
    · exact h.sendNext hs _ _ _
  | drained ok message client todo failed hworker => exact h.sendNext hs _ _ _

end

end Server

end AfsimNs3.Bridge
