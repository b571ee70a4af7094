import AfsimNs3.Lib.Ranges
import AfsimNs3.System.Closure

/-!
# Records that the service reads

When a record of the adapter reads: its numbers are within their bounds before fifteen digits are written of them, and
so are within them after (`number_within`), and its texts are not blank.

* `device_reads`, `entity_reads`, `flow_reads`: the three records of the plugin;
* `valid_of_readable`: a frame of records that read, closed and with distinct plain IDs, is valid.
-/

namespace AfsimNs3.System
open AfsimNs3.Bridge (StateStore PyError requiredText number integer toFloat withinBounds Bound zeroBound oneBound
  degreesBound)
open AfsimNs3.Bridge.StateStore
open AfsimNs3.Adapter (Frame Submission StateDeltaTracker writeDouble)

/-! ## Numbers -/

/-- A finite number far from the largest double. -/
def Moderate (x : Double) : Prop := ∃ q, x = .finite q ∧ |q| ≤ 10 ^ 300

/-- Fifteen digits of a number, read back. -/
def reread (q : ℚ) : Double := Double.ofRat (Double.roundDigits 10 15 (-400) q)

theorem reread_finite {q : ℚ} (h : |q| ≤ 10 ^ 300) : ∃ r, reread q = .finite r := by
  refine ⟨_, Double.ofRat_eq ?_⟩
  have hround := Double.abs_roundDigits_le (show 1 < 10 by norm_num) (show 0 < 15 by norm_num)
    (show (-400 : ℤ) ≤ 0 by norm_num) q
  have hten : (10 : ℚ) ^ 300 ≤ 2 ^ 1000 := by
    have hpow := pow_le_pow_left₀ (show (0 : ℚ) ≤ 10 ^ 3 by norm_num) (show (10 : ℚ) ^ 3 ≤ 2 ^ 10 by norm_num) 100
    rwa [← pow_mul, ← pow_mul] at hpow
  have htwo : (2 : ℚ) ^ 1022 = 2 ^ 22 * 2 ^ 1000 := pow_add 2 22 1000
  have hone : (1 : ℚ) ≤ 2 ^ 1000 := one_le_pow₀ (by norm_num)
  rw [htwo]
  generalize (2 : ℚ) ^ 1000 = bound at hten hone
  generalize (10 : ℚ) ^ 300 = limit at h hten
  linarith

theorem reread_within {q : ℚ} {bound : ℕ} (hnonneg : 0 ≤ q) (hle : q ≤ bound) (hbound : bound < 10 ^ 15) :
    Double.Within 0 bound (reread q) :=
  Double.ofRat_within (Double.roundDigits_nonneg hnonneg)
    (Double.roundDigits_le (by norm_num) (by norm_num) hnonneg hle hbound) (hbound.trans (by norm_num))

/-- A number is written, and `float` reads its fifteen digits. -/
theorem toFloat_written {q : ℚ} (h : |q| ≤ 10 ^ 300) : ∃ j, writeDouble (.finite q) = some j ∧
    ∀ key, toFloat key j = .ok (reread q) := by
  unfold writeDouble
  dsimp only
  split_ifs with hint
  · refine ⟨_, rfl, fun key => ?_⟩
    have hnum : ((Double.roundDigits 10 15 (-400) q).num : ℚ) = Double.roundDigits 10 15 (-400) q :=
      Rat.coe_int_num_of_den_eq_one hint.1
    obtain ⟨r, hr⟩ := reread_finite h
    unfold reread at hr ⊢
    unfold toFloat
    dsimp only
    rw [hnum, hr]
  · exact ⟨_, rfl, fun key => rfl⟩

theorem number_ok {data : Fields} {key : Str} {minimum maximum : Option Bound} {r : ℚ}
    (h : toFloat key (data.get key) = .ok (.finite r)) (hmin : ∀ b, minimum = some b → b.value ≤ r)
    (hmax : ∀ b, maximum = some b → r ≤ b.value) : number data key minimum maximum = .ok r := by
  have hlow : minimum.any (fun b => r < b.value) = false := by
    cases minimum with
    | none => rfl
    | some b => exact decide_eq_false (not_lt.mpr (hmin b rfl))
  have hhigh : maximum.any (fun b => b.value < r) = false := by
    cases maximum with
    | none => rfl
    | some b => exact decide_eq_false (not_lt.mpr (hmax b rfl))
  unfold number
  rw [h]
  show withinBounds key minimum maximum (.finite r) = _
  unfold withinBounds
  dsimp only
  rw [hlow, hhigh]
  rfl

/-- A number that has no bounds. -/
theorem number_moderate {x : Double} (h : Moderate x) : ∃ j, writeDouble x = some j ∧
    ∀ (data : Fields) (key : Str), data.get key = j → ∃ r, number data key none none = .ok r := by
  obtain ⟨q, rfl, hq⟩ := h
  obtain ⟨j, hj, hread⟩ := toFloat_written hq
  obtain ⟨r, hr⟩ := reread_finite hq
  refine ⟨j, hj, fun data key hget => ⟨r, number_ok ?_ nofun nofun⟩⟩
  rw [hget, hread, hr]

/-- A number that is not below zero. -/
theorem number_nonneg {x : Double} (h : Moderate x) (hlow : Double.AtLeast 0 x) : ∃ j, writeDouble x = some j ∧
    ∀ (data : Fields) (key : Str), data.get key = j → ∃ r, number data key (some zeroBound) none = .ok r := by
  obtain ⟨q, rfl, hq⟩ := h
  obtain ⟨j, hj, hread⟩ := toFloat_written hq
  obtain ⟨r, hr⟩ := reread_finite hq
  have hnonneg : Double.AtLeast 0 (reread q) :=
    Double.ofRat_atLeast (Double.roundDigits_nonneg (Double.atLeast_finite_iff.mp hlow))
  rw [hr, Double.atLeast_finite_iff] at hnonneg
  refine ⟨j, hj, fun data key hget => ⟨r, number_ok ?_ ?_ nofun⟩⟩
  · rw [hget, hread, hr]
  · rintro b hb
    obtain rfl := Option.some.inj hb
    exact hnonneg

/-- A number between zero and another bound. -/
theorem number_within {x : Double} (bound : ℕ) (h : Double.Within 0 bound x) (hbound : bound < 10 ^ 15) :
    ∃ j, writeDouble x = some j ∧ ∀ (maximum : Bound) (data : Fields) (key : Str), maximum.value = bound →
      data.get key = j → ∃ r, number data key (some zeroBound) (some maximum) = .ok r := by
  obtain ⟨q, rfl, hlow, hhigh⟩ := h
  have hq : |q| ≤ 10 ^ 300 := by
    have hcast : (bound : ℚ) ≤ ((10 ^ 15 : ℕ) : ℚ) := Nat.cast_le.mpr hbound.le
    rw [Nat.cast_pow] at hcast
    rw [abs_of_nonneg hlow]
    exact (hhigh.trans hcast).trans (pow_le_pow_right₀ (by norm_num) (by norm_num))
  obtain ⟨j, hj, hread⟩ := toFloat_written hq
  obtain ⟨r, hr, hrlow, hrhigh⟩ := reread_within hlow hhigh hbound
  refine ⟨j, hj, fun maximum data key hmaximum hget => ⟨r, number_ok ?_ ?_ ?_⟩⟩
  · rw [hget, hread, hr]
  · rintro b hb
    obtain rfl := Option.some.inj hb
    exact hrlow
  · rintro b hb
    obtain rfl := Option.some.inj hb
    exact hmaximum ▸ hrhigh

theorem integer_ok {data : Fields} {key : Str} {n minimum : ℤ} (h : data.get key = .int n) (hle : minimum ≤ n) :
    integer data key (some minimum) = .ok n := by
  unfold integer
  rw [h]
  exact if_neg (by simpa using hle)

/-! ## Texts -/

/-- The text is not blank. -/
def Named (text : Str) : Prop := Str.strip text ≠ []

instance Named.decidable (text : Str) : Decidable (Named text) := inferInstanceAs (Decidable (Str.strip text ≠ []))

theorem requiredText_named {data : Fields} {key text : Str} (h : data.get key = .str text) (hnamed : Named text) :
    requiredText data key = .ok (Str.strip text) :=
  Bridge.requiredText_ok_iff.mpr ⟨text, h, hnamed, rfl⟩

theorem named_of_trimmed {text : Str} (h : Str.Trimmed text) (hne : text ≠ []) : Named text := by
  unfold Named
  rw [h]
  exact hne

/-! ## Records -/

/-- A device that the service reads. -/
structure SoundDevice (device : Adapter.DeviceConfig) : Prop where
  deviceId : Named device.deviceId
  peerEntityId : Named device.peerEntityId
  kind : device.kind = str "wired" ∨ device.kind = str "wireless"
  dataRateBps : 1 ≤ device.dataRateBps
  delayMs : Double.AtLeast 0 device.delayMs
  moderateDelay : Moderate device.delayMs
  lossRate : Double.Within 0 1 device.lossRate
  linkState : device.linkState = str "UP" ∨ device.linkState = str "DOWN"

/-- The object a device is written as. -/
def deviceFields (device : Adapter.DeviceConfig) (delayMs lossRate : Json) : Fields := [
  (str "device_id", .str device.deviceId),
  (str "peer_entity_id", .str device.peerEntityId),
  (str "kind", .str device.kind),
  (str "data_rate_bps", .int device.dataRateBps.toNat),
  (str "delay_ms", delayMs),
  (str "loss_rate", lossRate),
  (str "link_state", .str device.linkState)]

theorem device_reads {device : Adapter.DeviceConfig} (h : SoundDevice device) :
    ∃ j, Adapter.writeDevice device = some j ∧ ∃ x, Bridge.DeviceConfig.fromDict j = .ok x := by
  obtain ⟨delay, hdelay, hreadDelay⟩ := number_nonneg h.moderateDelay h.delayMs
  obtain ⟨loss, hloss, hreadLoss⟩ := number_within 1 (by exact_mod_cast h.lossRate) (by norm_num)
  have hkind : Named device.kind ∧ ∃ kind, Bridge.Kind.parse (Str.strip device.kind) = .ok kind := by
    rcases h.kind with hk | hk
    · rw [hk]
      exact ⟨by decide, _, rfl⟩
    · rw [hk]
      exact ⟨by decide, _, rfl⟩
  have hstate : Named device.linkState ∧ ∃ state, Bridge.LinkState.parse (Str.strip device.linkState) = .ok state := by
    rcases h.linkState with hs | hs
    · rw [hs]
      exact ⟨by decide, _, rfl⟩
    · rw [hs]
      exact ⟨by decide, _, rfl⟩
  obtain ⟨hkindNamed, kind, hkind⟩ := hkind
  obtain ⟨hstateNamed, state, hstate⟩ := hstate
  refine ⟨.obj (deviceFields device delay loss), by rw [Adapter.writeDevice, hdelay, hloss]; rfl, ?_⟩
  have hrate : (1 : ℤ) ≤ (device.dataRateBps.toNat : ℤ) := by
    exact_mod_cast UInt64.le_iff_toNat_le.mp h.dataRateBps
  simp only [Bridge.DeviceConfig.fromDict, Except.bind_ok_iff, Except.pure_ok_iff]
  obtain ⟨delayMs, hdelayMs⟩ := hreadDelay (deviceFields device delay loss) (str "delay_ms") rfl
  obtain ⟨lossRate, hlossRate⟩ := hreadLoss oneBound (deviceFields device delay loss) (str "loss_rate")
    (by norm_num [oneBound]) rfl
  exact ⟨_, kind, ⟨_, requiredText_named rfl hkindNamed, hkind⟩, state, ⟨_, requiredText_named rfl hstateNamed, hstate⟩,
    _, requiredText_named rfl h.deviceId, _, requiredText_named rfl h.peerEntityId, _, integer_ok rfl hrate,
    delayMs, hdelayMs, lossRate, hlossRate, rfl⟩

/-- An entity that the service reads. The plugin gives no parents and no policies. -/
structure SoundEntity (e : Adapter.EntityState) : Prop where
  entityId : Named e.entityId
  businessNodeId : Named e.businessNodeId
  noParent : e.hasParent = false
  position : Moderate e.position.xM ∧ Moderate e.position.yM ∧ Moderate e.position.zM
  velocity : Moderate e.velocity.vxMps ∧ Moderate e.velocity.vyMps ∧ Moderate e.velocity.vzMps
  headingDeg : Double.Within 0 360 e.headingDeg
  devices : ∀ device ∈ e.devices, SoundDevice device
  noPolicies : e.effectPolicies = []

theorem position_reads {position : Adapter.Position}
    (h : Moderate position.xM ∧ Moderate position.yM ∧ Moderate position.zM) :
    ∃ j, Adapter.writePosition position = some j ∧ ∃ x, Bridge.Position.fromDict j = .ok x := by
  obtain ⟨x, hx, hreadX⟩ := number_moderate h.1
  obtain ⟨y, hy, hreadY⟩ := number_moderate h.2.1
  obtain ⟨z, hz, hreadZ⟩ := number_moderate h.2.2
  obtain ⟨xM, hxM⟩ := hreadX (positionFields x y z) (str "x_m") rfl
  obtain ⟨yM, hyM⟩ := hreadY (positionFields x y z) (str "y_m") rfl
  obtain ⟨zM, hzM⟩ := hreadZ (positionFields x y z) (str "z_m") rfl
  refine ⟨.obj (positionFields x y z), by rw [Adapter.writePosition, hx, hy, hz]; rfl, ⟨xM, yM, zM⟩, ?_⟩
  simp only [Bridge.Position.fromDict, Except.bind_ok_iff, Except.pure_ok_iff]
  exact ⟨xM, hxM, yM, hyM, zM, hzM, rfl⟩

theorem velocity_reads {velocity : Adapter.Velocity}
    (h : Moderate velocity.vxMps ∧ Moderate velocity.vyMps ∧ Moderate velocity.vzMps) :
    ∃ j, Adapter.writeVelocity velocity = some j ∧ ∃ x, Bridge.Velocity.fromDict j = .ok x := by
  obtain ⟨x, hx, hreadX⟩ := number_moderate h.1
  obtain ⟨y, hy, hreadY⟩ := number_moderate h.2.1
  obtain ⟨z, hz, hreadZ⟩ := number_moderate h.2.2
  obtain ⟨vxMps, hvx⟩ := hreadX (velocityFields x y z) (str "vx_mps") rfl
  obtain ⟨vyMps, hvy⟩ := hreadY (velocityFields x y z) (str "vy_mps") rfl
  obtain ⟨vzMps, hvz⟩ := hreadZ (velocityFields x y z) (str "vz_mps") rfl
  refine ⟨.obj (velocityFields x y z), by rw [Adapter.writeVelocity, hx, hy, hz]; rfl, ⟨vxMps, vyMps, vzMps⟩, ?_⟩
  simp only [Bridge.Velocity.fromDict, Except.bind_ok_iff, Except.pure_ok_iff]
  exact ⟨vxMps, hvx, vyMps, hvy, vzMps, hvz, rfl⟩

theorem devices_read {devices : List Adapter.DeviceConfig} (h : ∀ device ∈ devices, SoundDevice device) :
    ∃ js, Adapter.writeArray Adapter.writeDevice devices = some (.arr js) ∧
      ∃ xs, js.mapM Bridge.DeviceConfig.fromDict = .ok xs := by
  induction devices with
  | nil => exact ⟨[], rfl, [], rfl⟩
  | cons device devices ih =>
    rw [List.forall_mem_cons] at h
    obtain ⟨j, hj, x, hx⟩ := device_reads h.1
    obtain ⟨js, hjs, xs, hxs⟩ := ih h.2
    obtain ⟨js', hjs', heq⟩ := writeArray_eq_some_iff.mp hjs
    obtain rfl := Json.arr.inj heq
    refine ⟨j :: js, writeArray_eq_some_iff.mpr ⟨j :: js, .cons hj hjs', rfl⟩, x :: xs, ?_⟩
    rw [Except.mapM_ok_iff] at hxs ⊢
    exact .cons hx hxs

theorem entity_reads {e : Adapter.EntityState} (h : SoundEntity e) :
    ∃ j x, Adapter.writeEntity e = some j ∧ Bridge.EntityState.ofFields j.fields = .ok x := by
  obtain ⟨position, hposition, x, hx⟩ := position_reads h.position
  obtain ⟨velocity, hvelocity, v, hv⟩ := velocity_reads h.velocity
  obtain ⟨heading, hheading, hreadHeading⟩ := number_within 360 (by exact_mod_cast h.headingDeg) (by norm_num)
  obtain ⟨devices, hdevices, ds, hds⟩ := devices_read h.devices
  have hpolicies : Adapter.writeArray Adapter.writePolicy e.effectPolicies = some (.arr []) := by
    rw [h.noPolicies]
    rfl
  obtain ⟨headingDeg, hheadingDeg⟩ := hreadHeading degreesBound
    (entityFields e position velocity heading (.arr devices) (.arr [])) (str "heading_deg") (by norm_num [degreesBound]) rfl
  have hparent : Bridge.optionalText (entityFields e position velocity heading (.arr devices) (.arr []))
      (str "parent_entity_id") = .ok none := by
    have hnull : Fields.get (entityFields e position velocity heading (.arr devices) (.arr []))
        (str "parent_entity_id") = if e.hasParent then .str e.parentEntityId else .null := rfl
    unfold Bridge.optionalText
    rw [hnull, h.noParent]
    rfl
  have hread : ∃ x, Bridge.EntityState.ofFields
      (entityFields e position velocity heading (.arr devices) (.arr [])) = .ok x := by
    simp only [Bridge.EntityState.ofFields, Except.bind_ok_iff, Except.pure_ok_iff, Prod.exists, arrays_ok_iff]
    exact ⟨_, _, rfl, devices, [], ⟨rfl, rfl⟩, _, requiredText_named rfl h.entityId, _,
      requiredText_named rfl h.businessNodeId, _, hparent, x, hx, v, hv, headingDeg, hheadingDeg, ds, hds, [], rfl, rfl⟩
  obtain ⟨entity, hentity⟩ := hread
  refine ⟨.obj (entityFields e position velocity heading (.arr devices) (.arr [])), entity, ?_, hentity⟩
  rw [Adapter.writeEntity, hposition, hvelocity, hheading, hdevices, hpolicies]
  rfl

/-- A flow that the service reads. -/
structure SoundFlow (flow : Adapter.FlowConfig) : Prop where
  flowId : Named flow.flowId
  sourceEntityId : Named flow.sourceEntityId
  targetEntityId : Named flow.targetEntityId
  packetSizeBytes : 64 ≤ flow.packetSizeBytes
  intervalMs : 1 ≤ flow.intervalMs
  durationMs : 100 ≤ flow.durationMs

theorem flow_reads {flow : Adapter.FlowConfig} (h : SoundFlow flow) :
    ∃ x, Bridge.FlowConfig.ofFields (flowFields flow) = .ok x := by
  have hsize : (64 : ℤ) ≤ (flow.packetSizeBytes.toNat : ℤ) := by
    exact_mod_cast UInt32.le_iff_toNat_le.mp h.packetSizeBytes
  have hinterval : (1 : ℤ) ≤ (flow.intervalMs.toNat : ℤ) := by exact_mod_cast UInt32.le_iff_toNat_le.mp h.intervalMs
  have hduration : (100 : ℤ) ≤ (flow.durationMs.toNat : ℤ) := by exact_mod_cast UInt32.le_iff_toNat_le.mp h.durationMs
  simp only [Bridge.FlowConfig.ofFields, Except.bind_ok_iff, Except.pure_ok_iff]
  exact ⟨_, _, rfl, _, requiredText_named rfl h.flowId, _, requiredText_named rfl h.sourceEntityId, _,
    requiredText_named rfl h.targetEntityId, _, integer_ok rfl hsize, _, integer_ok rfl hinterval, _,
    integer_ok rfl hduration, rfl⟩

theorem readable_of_sound {f : Frame} (hentities : ∀ e ∈ f.entities, SoundEntity e)
    (hflows : ∀ flow ∈ f.flows, SoundFlow flow) : Readable f :=
  ⟨fun e he => entity_reads (hentities e he), fun flow hflow => flow_reads (hflows flow hflow)⟩

/-! ## Frames -/

/-- **The initialisation loop accepts** written records that read, under plain IDs no two of which are the same. -/
theorem RecordKind.init_accepted {α ρ : Type} (K : RecordKind α ρ) {fromDict : Json → Except PyError ρ}
    (hfrom : ∀ o, fromDict (.obj o) = K.parse o) {values : List α} {js : List Json}
    (hj : List.Forall₂ (fun a j => K.writer a = some j) values js)
    (hread : ∀ a ∈ values, ∃ x, K.parse (K.wire a) = .ok x) (htrim : ∀ a ∈ values, Str.Trimmed (K.idGetter a))
    (hnodup : (values.map K.idGetter).Nodup) :
    ∃ records, indexRecords fromDict K.idOf K.idKey js = .ok records := by
  have hloop : ∀ d : Dict Str Fields, (∀ a ∈ values, K.idGetter a ∉ d.keys) →
      ∃ records, js.foldlM (indexOne fromDict K.idOf K.idKey) d = .ok records := by
    induction hj with
    | nil => exact fun d _ => ⟨d, rfl⟩
    | @cons a j values js hw _ ih =>
      intro d hnew
      rw [List.forall_mem_cons] at hread htrim hnew
      rw [List.map_cons, List.nodup_cons] at hnodup
      obtain ⟨x, hx⟩ := hread.1
      obtain ⟨text, htext, -, hstrip⟩ := Bridge.requiredText_ok_iff.mp (K.parse_id _ x hx)
      have hid : K.idOf x = K.idGetter a := by
        cases (K.wire_id hw).symm.trans htext
        exact hstrip.symm.trans htrim.1
      have hstep : indexOne fromDict K.idOf K.idKey d j = .ok (d.put (K.idGetter a) (K.wire a)) := by
        rw [indexOne_ok_iff, K.writer_eq_some hw]
        exact ⟨x, (hfrom _).trans hx, hid ▸ hnew.1, hid ▸ rfl⟩
      obtain ⟨records, hrest⟩ := ih hread.2 htrim.2 hnodup.2 (d.put (K.idGetter a) (K.wire a)) fun b hb hkey => by
        rcases Dict.mem_keys_put.mp hkey with heq | hold
        · exact hnodup.1 (heq ▸ List.mem_map_of_mem hb)
        · exact hnew.2 b hb hold
      exact ⟨records, Except.foldlM_cons_ok_iff.mpr ⟨_, hstep, hrest⟩⟩
  exact hloop Dict.empty fun _ _ => List.not_mem_nil

/-- IDs are distinct, not empty and without surrounding white space. -/
structure PlainIds {α : Type} (idGetter : α → Str) (values : List α) : Prop where
  nodup : (values.map idGetter).Nodup
  named : ∀ a ∈ values, idGetter a ≠ [] ∧ Str.Trimmed (idGetter a)

/-- **A readable and closed frame with plain IDs and references is valid**: the service accepts it. -/
theorem valid_of_readable {sub : Submission} (hentities : PlainIds Adapter.EntityState.entityId sub.frame.entities)
    (hflows : PlainIds Adapter.FlowConfig.flowId sub.frame.flows) (hread : Readable sub.frame)
    (hplain : PlainReferences sub.frame) (hclosed : Closed sub.frame) : Valid sub := by
  refine ⟨hentities.nodup, hflows.nodup, hentities.named, hflows.named, ?_⟩
  obtain ⟨mEntities, hes⟩ := Adapter.index_ok hentities.nodup fun e he => (hentities.named e he).1
  obtain ⟨mFlows, hfs⟩ := Adapter.index_ok hflows.nodup fun f hf => (hflows.named f hf).1
  have hindexed : Adapter.Indexed sub.frame ⟨mEntities, mFlows, true⟩ := ⟨hes, hfs, rfl⟩
  have hwritten : ∀ e ∈ sub.frame.entities, entityKind.writer e = some (.obj (entityKind.wire e)) := by
    intro e he
    obtain ⟨j, -, hj, -⟩ := hread.entities e he
    exact entityKind.writer_eq_some hj ▸ hj
  have hjs : List.Forall₂ (fun e j => entityKind.writer e = some j) sub.frame.entities
      (sub.frame.entities.map fun e => .obj (entityKind.wire e)) := by
    rw [List.forall₂_map_right_iff, List.forall₂_same]
    exact hwritten
  have hks : List.Forall₂ (fun flow j => flowKind.writer flow = some j) sub.frame.flows
      (sub.frame.flows.map fun flow => .obj (flowFields flow)) := by
    rw [List.forall₂_map_right_iff, List.forall₂_same]
    exact fun flow _ => writeFlow_eq flow
  obtain ⟨entityMap, hentityMap⟩ := RecordKind.init_accepted entityKind
    (show ∀ o, Bridge.EntityState.fromDict (.obj o) = _ from fun _ => rfl) hjs (fun e he => by
      obtain ⟨j, x, hj, hx⟩ := hread.entities e he
      exact ⟨x, by rw [entityKind.writer_eq_some hj] at hx; exact hx⟩) (fun e he => (hentities.named e he).2)
    hentities.nodup
  obtain ⟨flowMap, hflowMap⟩ := RecordKind.init_accepted flowKind
    (show ∀ o, Bridge.FlowConfig.fromDict (.obj o) = _ from fun _ => rfl) hks hread.flows (fun f hf => (hflows.named f hf).2) hflows.nodup
  have hholds : Holds ⟨entityMap, flowMap, sub.timestampMs.toNat, 1, true⟩ ⟨mEntities, mFlows, true⟩ :=
    ⟨RecordKind.init_table (fun _ => rfl) hjs hes hentityMap fun e he => (hentities.named e he).2,
      RecordKind.init_table (fun _ => rfl) hks hfs hflowMap fun f hf => (hflows.named f hf).2⟩
  have hvalidated := (validated_iff_closed hplain hread ⟨_, hindexed, hholds⟩).mpr hclosed
  have hmessage : ∃ message, sub.initMessage = some message ∧
      Fields.get message.fields (str "entities") = .arr (sub.frame.entities.map fun e => .obj (entityKind.wire e)) ∧
      Fields.get message.fields (str "flows") = .arr (sub.frame.flows.map fun flow => .obj (flowFields flow)) := by
    have hes : Adapter.writeArray Adapter.writeEntity sub.frame.entities = _ := writeArray_eq_some_iff.mpr ⟨_, hjs, rfl⟩
    have hfs : Adapter.writeArray Adapter.writeFlow sub.frame.flows = _ := writeArray_eq_some_iff.mpr ⟨_, hks, rfl⟩
    unfold Submission.initMessage Adapter.buildInitMessage
    rw [hes, hfs]
    exact ⟨_, rfl, rfl, rfl⟩
  obtain ⟨message, hm, hget, hget'⟩ := hmessage
  unfold fresh
  rw [hm, Option.bind_some, initializeStore_ok_iff.mpr ⟨_, _, entityMap, flowMap, hget, hget', hentityMap, hflowMap,
    hvalidated, rfl⟩]
  rfl

end AfsimNs3.System
