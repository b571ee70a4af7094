import AfsimNs3.Plugin.Extension
import AfsimNs3.System.Rejection

/-!
# Closed frames

A frame is `Closed` when every entity it refers to is one of its own. `validated_iff_closed` ties this to the
service: on a store that holds the frame, the reference validation passes exactly when the frame is closed.

* `collected_closed_iff`: the frame of a tick is closed, and accepted by the reference validation, exactly when every
  platform of a recorded message is in the platform list of that tick;
* `dropped_platform_dangles`: once one of them has left the list, the frame is not closed.
-/

namespace AfsimNs3.System
open AfsimNs3.Bridge (StateStore PyError requiredText optionalText)
open AfsimNs3.Bridge.StateStore
open AfsimNs3.Adapter (Frame Submission StateDeltaTracker Indexed)

/-- Every entity the frame refers to is in the frame. -/
structure Closed (f : Frame) : Prop where
  parents : ∀ e ∈ f.entities, e.hasParent = true →
    e.parentEntityId ∈ f.entities.map Adapter.EntityState.entityId
  peers : ∀ e ∈ f.entities, ∀ device ∈ e.devices,
    device.peerEntityId ∈ f.entities.map Adapter.EntityState.entityId
  policies : ∀ e ∈ f.entities, ∀ policy ∈ e.effectPolicies,
    policy.peerEntityId ∈ f.entities.map Adapter.EntityState.entityId
  flows : ∀ flow ∈ f.flows, flow.sourceEntityId ∈ f.entities.map Adapter.EntityState.entityId ∧
    flow.targetEntityId ∈ f.entities.map Adapter.EntityState.entityId

/-- The texts a frame refers to entities by carry no surrounding white space. -/
structure PlainReferences (f : Frame) : Prop where
  parents : ∀ e ∈ f.entities, e.hasParent = true → Str.Trimmed e.parentEntityId
  peers : ∀ e ∈ f.entities, ∀ device ∈ e.devices, Str.Trimmed device.peerEntityId
  policies : ∀ e ∈ f.entities, ∀ policy ∈ e.effectPolicies, Str.Trimmed policy.peerEntityId
  flows : ∀ flow ∈ f.flows, Str.Trimmed flow.sourceEntityId ∧ Str.Trimmed flow.targetEntityId

/-! ## What the service reads -/

theorem requiredText_of_str {data : Fields} {key text text' : Str} (h : data.get key = .str text)
    (hread : requiredText data key = .ok text') : text' = Str.strip text := by
  obtain ⟨value, hvalue, -, rfl⟩ := Bridge.requiredText_ok_iff.mp hread
  cases h.symm.trans hvalue
  rfl

theorem devicePeer_of_fromDict {a : Adapter.DeviceConfig} {j : Json} (hw : Adapter.writeDevice a = some j)
    {x : Bridge.DeviceConfig} (h : Bridge.DeviceConfig.fromDict j = .ok x) :
    x.peerEntityId = Str.strip a.peerEntityId := by
  simp only [Adapter.writeDevice, Option.bind_eq_bind, Option.bind_eq_some_iff, Option.some.injEq] at hw
  obtain ⟨_, -, _, -, rfl⟩ := hw
  simp only [Bridge.DeviceConfig.fromDict, Except.bind_ok_iff, Except.pure_ok_iff] at h
  obtain ⟨_, -, _, -, _, -, peer, hpeer, _, -, _, -, _, -, rfl⟩ := h
  exact requiredText_of_str rfl hpeer

theorem policyPeer_of_fromDict {a : Adapter.EffectPolicy} {j : Json} (hw : Adapter.writePolicy a = some j)
    {x : Bridge.EffectPolicy} (h : Bridge.EffectPolicy.fromDict j = .ok x) :
    x.peerEntityId = Str.strip a.peerEntityId := by
  simp only [Adapter.writePolicy, Option.bind_eq_bind, Option.bind_eq_some_iff, Option.some.injEq] at hw
  obtain ⟨_, -, _, -, _, -, rfl⟩ := hw
  simp only [Bridge.EffectPolicy.fromDict, Except.bind_ok_iff, Except.pure_ok_iff] at h
  obtain ⟨_, -, _, -, _, -, peer, hpeer, _, -, _, -, _, -, rfl⟩ := h
  exact requiredText_of_str rfl hpeer

/-- Items written and read one by one. -/
theorem map_of_written_read {α β γ : Type} {writer : α → Option Json} {reader : Json → Except PyError β} {f : α → γ}
    {g : β → γ} (h : ∀ a j x, writer a = some j → reader j = .ok x → g x = f a) {as : List α} {js : List Json}
    {xs : List β} (hw : List.Forall₂ (fun a j => writer a = some j) as js)
    (hr : List.Forall₂ (fun j x => reader j = .ok x) js xs) : xs.map g = as.map f := by
  induction hw generalizing xs with
  | nil =>
    cases hr
    rfl
  | cons hwrite _ ih =>
    obtain ⟨x, rest, hread, hrest, rfl⟩ := List.forall₂_cons_left_iff.mp hr
    rw [List.map_cons, List.map_cons, ih hrest, h _ _ _ hwrite hread]

/-- **The references of an entity** as the service reads them are the texts of the frame, trimmed. -/
theorem entityReferences_of_read {a : Adapter.EntityState} {j : Json} (hw : Adapter.writeEntity a = some j)
    {x : Bridge.EntityState} (h : Bridge.EntityState.ofFields j.fields = .ok x) :
    x.parentEntityId = (if a.hasParent then some (Str.strip a.parentEntityId) else none) ∧
      x.devices.map Bridge.DeviceConfig.peerEntityId = a.devices.map (fun d => Str.strip d.peerEntityId) ∧
      x.effectPolicies.map Bridge.EffectPolicy.peerEntityId =
        a.effectPolicies.map (fun p => Str.strip p.peerEntityId) := by
  simp only [Adapter.writeEntity, Option.bind_eq_bind, Option.bind_eq_some_iff, Option.some.injEq,
    writeArray_eq_some_iff] at hw
  obtain ⟨_, -, _, -, _, -, _, ⟨ds, hds, rfl⟩, _, ⟨ps, hps, rfl⟩, rfl⟩ := hw
  simp only [Bridge.EntityState.ofFields, Except.bind_ok_iff, Except.pure_ok_iff, Prod.exists, arrays_ok_iff,
    Except.mapM_ok_iff] at h
  obtain ⟨_, -, ds', ps', ⟨hds', hps'⟩, _, -, _, -, parent, hparent, _, -, _, -, _, -, devices, hdevices, policies,
    hpolicies, rfl⟩ := h
  cases hds'
  cases hps'
  refine ⟨?_, map_of_written_read (fun _ _ _ hw hr => devicePeer_of_fromDict hw hr) hds hdevices,
    map_of_written_read (fun _ _ _ hw hr => policyPeer_of_fromDict hw hr) hps hpolicies⟩
  cases hp : a.hasParent with
  | false =>
    simp only [hp, Bool.false_eq_true, if_false] at hparent ⊢
    exact (Except.ok.inj hparent).symm
  | true =>
    simp only [hp, if_true] at hparent ⊢
    change (if Str.strip a.parentEntityId = [] then _ else Except.ok (some (Str.strip a.parentEntityId))) = _
      at hparent
    split_ifs at hparent
    exact (Except.ok.inj hparent).symm

theorem flowReferences_of_read {a : Adapter.FlowConfig} {x : Bridge.FlowConfig}
    (h : Bridge.FlowConfig.ofFields (flowFields a) = .ok x) :
    x.sourceEntityId = Str.strip a.sourceEntityId ∧ x.targetEntityId = Str.strip a.targetEntityId := by
  simp only [Bridge.FlowConfig.ofFields, Except.bind_ok_iff, Except.pure_ok_iff] at h
  obtain ⟨_, -, _, -, source, hsource, target, htarget, _, -, _, -, _, -, rfl⟩ := h
  exact ⟨requiredText_of_str rfl hsource, requiredText_of_str rfl htarget⟩

/-! ## The reference validation of a frame -/

/-- The service can read every record of the frame. -/
structure Readable (f : Frame) : Prop where
  entities : ∀ e ∈ f.entities, ∃ j x, Adapter.writeEntity e = some j ∧ Bridge.EntityState.ofFields j.fields = .ok x
  flows : ∀ flow ∈ f.flows, ∃ x, Bridge.FlowConfig.ofFields (flowFields flow) = .ok x

theorem mem_keys_of_holds {f : Frame} {t : StateDeltaTracker} {s : StateStore} (hi : Indexed f t) (hh : Holds s t)
    {key : Str} : key ∈ s.entities.keys ↔ key ∈ f.entities.map Adapter.EntityState.entityId := by
  rw [Dict.mem_keys_iff, hh.entities]
  simp only [RecordKind.table, Option.map_eq_some_iff, List.mem_map]
  constructor
  · rintro ⟨_, a, ha, -⟩
    exact ⟨a, (Adapter.index_get? hi.entities).mp ha⟩
  · rintro ⟨a, ha⟩
    exact ⟨_, a, (Adapter.index_get? hi.entities).mpr ha, rfl⟩

theorem mem_values_of_table {α ρ : Type} {K : RecordKind α ρ} {records : Dict Str Fields} {values : List α}
    {d : Dict Str α} (hi : Adapter.index K.idGetter values = .ok d) (h : records.get? = K.table d) {raw : Fields} :
    raw ∈ records.values ↔ ∃ a ∈ values, K.wire a = raw := by
  rw [Dict.mem_values_iff, h]
  simp only [RecordKind.table, Option.map_eq_some_iff]
  constructor
  · rintro ⟨key, a, ha, hraw⟩
    exact ⟨a, ((Adapter.index_get? hi).mp ha).1, hraw⟩
  · rintro ⟨a, ha, hraw⟩
    exact ⟨K.idGetter a, a, (Adapter.index_get? hi).mpr ⟨ha, rfl⟩, hraw⟩

theorem forall_mem_of_map_eq {α β : Type} {xs : List α} {ys : List β} {f : α → Str} {g : β → Str} {ids : List Str}
    (h : xs.map f = ys.map g) : (∀ x ∈ xs, f x ∈ ids) ↔ ∀ y ∈ ys, g y ∈ ids := by
  rw [← List.forall_mem_map (f := f) (P := fun id => id ∈ ids), h, List.forall_mem_map]

/-- One entity, read by the service. -/
theorem entityClosed_iff {e : Adapter.EntityState} {j : Json} (hw : Adapter.writeEntity e = some j)
    {x : Bridge.EntityState} (hread : Bridge.EntityState.ofFields j.fields = .ok x) (ids : List Str)
    (hparent : e.hasParent = true → Str.Trimmed e.parentEntityId)
    (hpeers : ∀ d ∈ e.devices, Str.Trimmed d.peerEntityId)
    (hpolicies : ∀ p ∈ e.effectPolicies, Str.Trimmed p.peerEntityId) :
    EntityClosed ids x ↔ (e.hasParent = true → e.parentEntityId ∈ ids) ∧ (∀ d ∈ e.devices, d.peerEntityId ∈ ids) ∧
      ∀ p ∈ e.effectPolicies, p.peerEntityId ∈ ids := by
  obtain ⟨hp, hd, hq⟩ := entityReferences_of_read hw hread
  rw [List.map_congr_left hpeers] at hd
  rw [List.map_congr_left hpolicies] at hq
  have hparent' : (∀ parent, x.parentEntityId = some parent → parent ∈ ids) ↔
      (e.hasParent = true → e.parentEntityId ∈ ids) := by
    rw [hp]
    cases he : e.hasParent with
    | false => simp
    | true =>
      have htrim : Str.strip e.parentEntityId = e.parentEntityId := hparent he
      simp [htrim]
  rw [← hparent', ← forall_mem_of_map_eq hd, ← forall_mem_of_map_eq hq]
  exact ⟨fun ⟨h₁, h₂, h₃⟩ => ⟨h₁, h₂, h₃⟩, fun ⟨h₁, h₂, h₃⟩ => ⟨h₁, h₂, h₃⟩⟩

/-- **The reference validation** passes on a store that holds the frame exactly when the frame is closed. -/
theorem validated_iff_closed {f : Frame} (hplain : PlainReferences f) (hreadable : Readable f) {s : StateStore}
    (hs : Shows s f) : validateReferences s.entities s.flows = .ok ⟨⟩ ↔ Closed f := by
  obtain ⟨t, hi, hh⟩ := hs
  have hids : ∀ key, key ∈ s.entities.keys ↔ key ∈ f.entities.map Adapter.EntityState.entityId :=
    fun key => mem_keys_of_holds hi hh
  have hentities : (∀ raw ∈ s.entities.values, ∃ x, Bridge.EntityState.ofFields raw = .ok x ∧
      EntityClosed s.entities.keys x) ↔ ∀ e ∈ f.entities,
        (e.hasParent = true → e.parentEntityId ∈ f.entities.map Adapter.EntityState.entityId) ∧
        (∀ d ∈ e.devices, d.peerEntityId ∈ f.entities.map Adapter.EntityState.entityId) ∧
        ∀ p ∈ e.effectPolicies, p.peerEntityId ∈ f.entities.map Adapter.EntityState.entityId := by
    simp only [mem_values_of_table (K := entityKind) hi.entities hh.entities, forall_exists_index, and_imp,
      forall_apply_eq_imp_iff₂]
    refine forall_congr' fun e => forall_congr' fun he => ?_
    obtain ⟨j, x, hw, hread⟩ := hreadable.entities e he
    obtain rfl := entityKind.writer_eq_some hw
    have hclosed := entityClosed_iff hw hread s.entities.keys (hplain.parents e he) (hplain.peers e he)
      (hplain.policies e he)
    simp only [hids] at hclosed
    rw [← hclosed]
    constructor
    · rintro ⟨x', hread', hc⟩
      cases hread.symm.trans hread'
      exact hc
    · exact fun hc => ⟨x, hread, hc⟩
  have hflows : (∀ raw ∈ s.flows.values, ∃ x, Bridge.FlowConfig.ofFields raw = .ok x ∧
      FlowClosed s.entities.keys x) ↔ ∀ flow ∈ f.flows,
        flow.sourceEntityId ∈ f.entities.map Adapter.EntityState.entityId ∧
          flow.targetEntityId ∈ f.entities.map Adapter.EntityState.entityId := by
    simp only [mem_values_of_table (K := flowKind) hi.flows hh.flows, forall_exists_index, and_imp,
      forall_apply_eq_imp_iff₂]
    refine forall_congr' fun flow => forall_congr' fun hflow => ?_
    obtain ⟨x, hread⟩ := hreadable.flows flow hflow
    obtain ⟨hsource, htarget⟩ := flowReferences_of_read hread
    obtain ⟨hps, hpt⟩ := hplain.flows flow hflow
    have hclosed : FlowClosed s.entities.keys x ↔
        flow.sourceEntityId ∈ f.entities.map Adapter.EntityState.entityId ∧
          flow.targetEntityId ∈ f.entities.map Adapter.EntityState.entityId := by
      rw [← hids, ← hids, ← hps, ← hpt, ← hsource, ← htarget]
      exact ⟨fun ⟨h₁, h₂⟩ => ⟨h₁, h₂⟩, fun ⟨h₁, h₂⟩ => ⟨h₁, h₂⟩⟩
    rw [← hclosed]
    constructor
    · rintro ⟨x', hread', hc⟩
      cases hread.symm.trans hread'
      exact hc
    · exact fun hc => ⟨x, hread, hc⟩
  rw [validateReferences_ok_iff, hentities, hflows]
  constructor
  · rintro ⟨he, hf⟩
    exact ⟨fun e h => (he e h).1, fun e h => (he e h).2.1, fun e h => (he e h).2.2, hf⟩
  · rintro ⟨h₁, h₂, h₃, h₄⟩
    exact ⟨fun e h => ⟨h₁ e h, h₂ e h, h₃ e h⟩, h₄⟩

/-! ## The frames of the plugin -/

section Collected
open AfsimNs3.Plugin
variable {quality : Comm → Option Comm → LinkQuality} {ext : Extension} {platforms : List (Option Platform)}
  {intervalSeconds : Double} {log : List Observed}

/-- Every platform of the message is in the list, when the message is one that is recorded. -/
def Listed (platforms : List (Option Platform)) (o : Observed) : Prop :=
  ∀ source target, o.ends = some (source, target) →
    toText source ∈ listedIds platforms ∧ toText target ∈ listedIds platforms

theorem closed_iff_listed (h : Records log ext) :
    Closed (collectState quality ext platforms) ↔ ∀ o ∈ log, Listed platforms o := by
  constructor
  · intro hc o ho source target hends
    obtain ⟨key, observed, hget, hs, ht⟩ := h.complete o ho source target hends
    obtain ⟨flow, hflow, hs', ht'⟩ := collected_of_observed platforms hget
    have hends := hc.flows flow hflow
    rwa [collectState_ids, hs', ht', hs, ht] at hends
  · intro hl
    refine ⟨fun e he hparent => ?_, fun e he device hd => ?_, fun e he policy hp => ?_, fun flow hflow => ?_⟩
    · obtain ⟨r, -, rfl⟩ := List.mem_map.mp he
      cases hparent
    · rw [collectState_ids]
      exact device_peer_listed he hd
    · obtain ⟨r, -, rfl⟩ := List.mem_map.mp he
      cases hp
    · obtain ⟨key, observed, hget, hs, ht⟩ := mem_collected_flows hflow
      obtain ⟨o, ho, source, target, hends, hs', ht'⟩ := h.sound key observed hget
      rw [collectState_ids, hs, ht, hs', ht']
      exact hl o ho source target hends

/-- The plugin refers to entities by decimal numbers. -/
theorem collected_plain (h : Records log ext) : PlainReferences (collectState quality ext platforms) := by
  have hids : ∀ id ∈ listedIds platforms, Str.Trimmed id := fun id hid => by
    obtain ⟨platform, -, rfl⟩ := List.mem_map.mp hid
    exact Str.trimmed_natText platform.index
  refine ⟨fun e he hparent => ?_, fun e he device hd => ?_, fun e he policy hp => ?_, fun flow hflow => ?_⟩
  · obtain ⟨r, -, rfl⟩ := List.mem_map.mp he
    cases hparent
  · exact hids _ (device_peer_listed he hd)
  · obtain ⟨r, -, rfl⟩ := List.mem_map.mp he
    cases hp
  · obtain ⟨key, observed, hget, hs, ht⟩ := mem_collected_flows hflow
    obtain ⟨o, -, source, target, -, hs', ht'⟩ := h.sound key observed hget
    rw [hs, ht, hs', ht']
    exact ⟨Str.trimmed_natText source, Str.trimmed_natText target⟩

/-- **The frame of a tick is closed** exactly when every platform of a message recorded so far is in the platform list
of that tick; and exactly then it passes the reference validation of a service whose store holds it. -/
theorem collected_closed_iff (h : Machine.run Extension.step (Extension.new intervalSeconds) log = some ext) :
    (Closed (collectState quality ext platforms) ↔ ∀ o ∈ log, Listed platforms o) ∧
      ∀ s : StateStore, Shows s (collectState quality ext platforms) → Readable (collectState quality ext platforms) →
        (validateReferences s.entities s.flows = .ok ⟨⟩ ↔ ∀ o ∈ log, Listed platforms o) := by
  have hrecords := run_records h
  refine ⟨closed_iff_listed hrecords, fun s hs hreadable => ?_⟩
  rw [validated_iff_closed (collected_plain hrecords) hreadable hs, closed_iff_listed hrecords]

/-- A platform without devices. -/
def parked (index : ℕ) (name : Str) : Platform where
  index := index
  name := name
  isBroken := false
  isDeleted := false
  position := ⟨.finite 0, .finite 0, .finite 0⟩
  velocity := ⟨.finite 0, .finite 0, .finite 0⟩
  headingDeg := .finite 0
  comms := []

def goodLink (_ : Comm) (_ : Option Comm) : LinkQuality := ⟨str "wireless", 1000000, .finite 1, .finite 0⟩

/-- One message from the first platform to the second. -/
def oneMessage : List Observed :=
  [⟨1, some ⟨str "radio", some 0⟩, some ⟨str "radio", some 1⟩, ⟨str "REPORT", [], 7, 128⟩⟩]

theorem oneMessage_ends : ∀ o ∈ oneMessage, o.ends = some (0, 1) := by decide

theorem oneMessage_closed : ∃ ext, Machine.run Extension.step (Extension.new (.finite 1)) oneMessage = some ext ∧
    Closed (collectState goodLink ext [some (parked 0 (str "tower")), some (parked 1 (str "plane"))]) := by
  obtain ⟨ext, hrun⟩ : ∃ ext, Machine.run Extension.step (Extension.new (.finite 1)) oneMessage = some ext := ⟨_, rfl⟩
  refine ⟨ext, hrun, (collected_closed_iff hrun).1.mpr fun o ho source target hends => ?_⟩
  rw [oneMessage_ends o ho] at hends
  cases hends
  decide

/-- **A platform that has left the list** leaves its flow behind: the frame is not closed, and the service does not
accept it. -/
theorem dropped_platform_dangles : ∃ ext,
    Machine.run Extension.step (Extension.new (.finite 1)) oneMessage = some ext ∧
      ¬ Closed (collectState goodLink ext [some (parked 0 (str "tower"))]) ∧
      fresh ⟨str "run-1", 1000, collectState goodLink ext [some (parked 0 (str "tower"))]⟩ = none := by
  refine ⟨_, rfl, fun hc => ?_, ?_⟩
  · have hlisted := (closed_iff_listed (run_records rfl)).mp hc _ (List.mem_singleton_self _) 0 1 (by decide)
    exact absurd hlisted.2 (by decide)
  · rw [← Option.not_isSome_iff_eq_none]
    decide +kernel

end Collected

end AfsimNs3.System
