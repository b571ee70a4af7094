import AfsimNs3.Adapter.Encoder
import AfsimNs3.Lib.Except

/-!
# Messages read back

Of records whose strings are UTF-8 and whose doubles are finite, `BuildInitMessage` and `BuildDeltaMessage` make a text
of printable characters, so `Normalize` ends it in the one newline of its line, and a JSON parser reads from it the value
of the message (`messages_read_back`). `initDoc_value` and `deltaDoc_value` say that this is the value `Protocol` gives
the message, once the numbers printed are the ones `writeDouble` takes them for.
-/

namespace AfsimNs3.Adapter
open Loads (Doc Numeral)

/-! ## Records that can be written -/

structure DeviceConfig.Writable (device : DeviceConfig) : Prop where
  texts : ∀ s ∈ [device.deviceId, device.peerEntityId, device.kind, device.linkState], encodable s = true
  numbers : ∀ x ∈ [device.delayMs, device.lossRate], Double.isFinite x = true

structure EffectPolicy.Writable (policy : EffectPolicy) : Prop where
  texts : ∀ s ∈ [policy.subsystemId, policy.subsystemType, policy.peerEntityId, policy.violationState], encodable s = true
  numbers : ∀ x ∈ [policy.maxDelayMs, policy.maxLossRate, policy.minThroughputBps], Double.isFinite x = true

structure EntityState.Writable (entity : EntityState) : Prop where
  texts : ∀ s ∈ [entity.entityId, entity.businessNodeId, entity.parentEntityId], encodable s = true
  numbers : ∀ x ∈ [entity.position.xM, entity.position.yM, entity.position.zM, entity.velocity.vxMps,
    entity.velocity.vyMps, entity.velocity.vzMps, entity.headingDeg], Double.isFinite x = true
  devices : ∀ device ∈ entity.devices, device.Writable
  effectPolicies : ∀ policy ∈ entity.effectPolicies, policy.Writable

structure FlowConfig.Writable (flow : FlowConfig) : Prop where
  texts : ∀ s ∈ [flow.flowId, flow.sourceEntityId, flow.targetEntityId], encodable s = true

structure DeltaState.Writable (delta : DeltaState) : Prop where
  entityUpserts : ∀ entity ∈ delta.entityUpserts, entity.Writable
  entityRemovals : ∀ id ∈ delta.entityRemovals, encodable id = true
  flowUpserts : ∀ flow ∈ delta.flowUpserts, flow.Writable
  flowRemovals : ∀ id ∈ delta.flowRemovals, encodable id = true

/-! ## Faithful texts -/

/-- How doubles are printed: at every precision, a finite one as a number literal. -/
def PrintsNumbers (literal : ℕ → Double → Numeral) : Prop := ∀ precision q, (literal precision (.finite q)).Valid

section
variable {literal : ℕ → Double → Numeral} (hliteral : PrintsNumbers literal)

include hliteral

theorem number_faithful {x : Double} (h : x.isFinite = true) : (Doc.numeral (literal 15 x)).Faithful := by
  cases x with
  | finite q => exact Loads.Doc.numeral_faithful (hliteral 15 q)
  | inf negative => cases h
  | nan => cases h

theorem deviceDoc_faithful {device : DeviceConfig} (h : device.Writable) : (deviceDoc literal device).Faithful := by
  have htexts := h.texts
  have hnumbers := h.numbers
  simp only [List.forall_mem_cons, List.not_mem_nil, false_imp_iff, implies_true, and_true] at htexts hnumbers
  obtain ⟨hdevice, hpeer, hkind, hlink⟩ := htexts
  obtain ⟨hdelay, hloss⟩ := hnumbers
  refine Loads.Doc.obj_faithful ?_ ?_ ?_
  · simp only [List.forall_mem_cons, List.not_mem_nil, false_imp_iff, implies_true, and_true]
    decide
  · simp only [List.map_cons, List.map_nil]
    decide
  · simp only [List.forall_mem_cons, List.not_mem_nil, false_imp_iff, implies_true, and_true]
    exact ⟨Loads.Doc.string_faithful hdevice, Loads.Doc.string_faithful hpeer, Loads.Doc.string_faithful hkind,
      Loads.Doc.nat_faithful _, number_faithful hliteral hdelay, number_faithful hliteral hloss,
      Loads.Doc.string_faithful hlink⟩

theorem policyDoc_faithful {policy : EffectPolicy} (h : policy.Writable) : (policyDoc literal policy).Faithful := by
  have htexts := h.texts
  have hnumbers := h.numbers
  simp only [List.forall_mem_cons, List.not_mem_nil, false_imp_iff, implies_true, and_true] at htexts hnumbers
  obtain ⟨hsubsystem, htype, hpeer, hviolation⟩ := htexts
  obtain ⟨hdelay, hloss, hthroughput⟩ := hnumbers
  refine Loads.Doc.obj_faithful ?_ ?_ ?_
  · simp only [List.forall_mem_cons, List.not_mem_nil, false_imp_iff, implies_true, and_true]
    decide
  · simp only [List.map_cons, List.map_nil]
    decide
  · simp only [List.forall_mem_cons, List.not_mem_nil, false_imp_iff, implies_true, and_true]
    exact ⟨Loads.Doc.string_faithful hsubsystem, Loads.Doc.string_faithful htype, Loads.Doc.string_faithful hpeer,
      number_faithful hliteral hdelay, number_faithful hliteral hloss, number_faithful hliteral hthroughput,
      Loads.Doc.string_faithful hviolation⟩

theorem positionDoc_faithful {position : Position}
    (h : position.xM.isFinite = true ∧ position.yM.isFinite = true ∧ position.zM.isFinite = true) :
    (positionDoc literal position).Faithful := by
  refine Loads.Doc.obj_faithful ?_ ?_ ?_
  · simp only [List.forall_mem_cons, List.not_mem_nil, false_imp_iff, implies_true, and_true]
    decide
  · simp only [List.map_cons, List.map_nil]
    decide
  · simp only [List.forall_mem_cons, List.not_mem_nil, false_imp_iff, implies_true, and_true]
    exact ⟨number_faithful hliteral h.1, number_faithful hliteral h.2.1, number_faithful hliteral h.2.2⟩

theorem velocityDoc_faithful {velocity : Velocity}
    (h : velocity.vxMps.isFinite = true ∧ velocity.vyMps.isFinite = true ∧ velocity.vzMps.isFinite = true) :
    (velocityDoc literal velocity).Faithful := by
  refine Loads.Doc.obj_faithful ?_ ?_ ?_
  · simp only [List.forall_mem_cons, List.not_mem_nil, false_imp_iff, implies_true, and_true]
    decide
  · simp only [List.map_cons, List.map_nil]
    decide
  · simp only [List.forall_mem_cons, List.not_mem_nil, false_imp_iff, implies_true, and_true]
    exact ⟨number_faithful hliteral h.1, number_faithful hliteral h.2.1, number_faithful hliteral h.2.2⟩

omit hliteral in
theorem parentDoc_faithful {entity : EntityState} (h : encodable entity.parentEntityId = true) :
    (parentDoc entity).Faithful := by
  unfold parentDoc
  split_ifs
  · exact Loads.Doc.string_faithful h
  · exact Loads.Doc.null_faithful

theorem entityDoc_faithful {entity : EntityState} (h : entity.Writable) : (entityDoc literal entity).Faithful := by
  have htexts := h.texts
  have hnumbers := h.numbers
  simp only [List.forall_mem_cons, List.not_mem_nil, false_imp_iff, implies_true, and_true] at htexts hnumbers
  obtain ⟨hentity, hnode, hparent⟩ := htexts
  obtain ⟨hx, hy, hz, hvx, hvy, hvz, hheading⟩ := hnumbers
  have hdevices : (Doc.arr (entity.devices.map (deviceDoc literal))).Faithful :=
    Loads.Doc.arr_faithful (List.forall_mem_map.mpr fun device hdevice => deviceDoc_faithful hliteral (h.devices device hdevice))
  have hpolicies : (Doc.arr (entity.effectPolicies.map (policyDoc literal))).Faithful :=
    Loads.Doc.arr_faithful
      (List.forall_mem_map.mpr fun policy hpolicy => policyDoc_faithful hliteral (h.effectPolicies policy hpolicy))
  refine Loads.Doc.obj_faithful ?_ ?_ ?_
  · simp only [List.forall_mem_cons, List.not_mem_nil, false_imp_iff, implies_true, and_true]
    decide
  · simp only [List.map_cons, List.map_nil]
    decide
  · simp only [List.forall_mem_cons, List.not_mem_nil, false_imp_iff, implies_true, and_true]
    exact ⟨Loads.Doc.string_faithful hentity, Loads.Doc.string_faithful hnode, parentDoc_faithful hparent,
      positionDoc_faithful hliteral ⟨hx, hy, hz⟩, velocityDoc_faithful hliteral ⟨hvx, hvy, hvz⟩,
      number_faithful hliteral hheading, Loads.Doc.bool_faithful _, hdevices, hpolicies⟩

omit hliteral in
theorem flowDoc_faithful {flow : FlowConfig} (h : flow.Writable) : (flowDoc flow).Faithful := by
  have htexts := h.texts
  simp only [List.forall_mem_cons, List.not_mem_nil, false_imp_iff, implies_true, and_true] at htexts
  obtain ⟨hflow, hsource, htarget⟩ := htexts
  refine Loads.Doc.obj_faithful ?_ ?_ ?_
  · simp only [List.forall_mem_cons, List.not_mem_nil, false_imp_iff, implies_true, and_true]
    decide
  · simp only [List.map_cons, List.map_nil]
    decide
  · simp only [List.forall_mem_cons, List.not_mem_nil, false_imp_iff, implies_true, and_true]
    exact ⟨Loads.Doc.string_faithful hflow, Loads.Doc.string_faithful hsource, Loads.Doc.string_faithful htarget,
      Loads.Doc.nat_faithful _, Loads.Doc.nat_faithful _, Loads.Doc.nat_faithful _, Loads.Doc.bool_faithful _⟩

omit hliteral in
/-- A message is faithful with the members that follow the envelope. -/
theorem messageDoc_faithful {messageType requestId : Str} (htype : encodable messageType = true)
    (hrequest : encodable requestId = true) (timestampMs : UInt64) {members : List (Str × Doc)}
    (hkeys : ∀ m ∈ members, encodable m.1 = true)
    (hnodup : ((envelopeMembers messageType requestId timestampMs ++ members).map Prod.fst).Nodup)
    (h : ∀ m ∈ members, m.2.Faithful) :
    (Doc.obj (envelopeMembers messageType requestId timestampMs ++ members)).Faithful := by
  refine Loads.Doc.obj_faithful ?_ hnodup ?_
  · rw [List.forall_mem_append]
    refine ⟨?_, hkeys⟩
    simp only [envelopeMembers, List.forall_mem_cons, List.not_mem_nil, false_imp_iff, implies_true, and_true]
    decide
  · rw [List.forall_mem_append]
    refine ⟨?_, h⟩
    simp only [envelopeMembers, List.forall_mem_cons, List.not_mem_nil, false_imp_iff, implies_true, and_true]
    exact ⟨Loads.Doc.string_faithful (by decide), Loads.Doc.string_faithful htype, Loads.Doc.string_faithful hrequest,
      Loads.Doc.nat_faithful _⟩

theorem initDoc_faithful {requestId : Str} (hrequest : encodable requestId = true) (timestampMs : UInt64)
    {entities : List EntityState} (hentities : ∀ entity ∈ entities, entity.Writable) {flows : List FlowConfig}
    (hflows : ∀ flow ∈ flows, flow.Writable) :
    (initDoc literal requestId timestampMs entities flows).Faithful := by
  refine messageDoc_faithful (by decide) hrequest timestampMs ?_ ?_ ?_
  · simp only [List.forall_mem_cons, List.not_mem_nil, false_imp_iff, implies_true, and_true]
    decide
  · simp only [envelopeMembers, List.cons_append, List.nil_append, List.map_cons, List.map_nil]
    decide
  · simp only [List.forall_mem_cons, List.not_mem_nil, false_imp_iff, implies_true, and_true]
    exact ⟨Loads.Doc.arr_faithful (List.forall_mem_map.mpr fun e he => entityDoc_faithful hliteral (hentities e he)),
      Loads.Doc.arr_faithful (List.forall_mem_map.mpr fun f hf => flowDoc_faithful (hflows f hf))⟩

theorem deltaDoc_faithful {requestId : Str} (hrequest : encodable requestId = true) (timestampMs : UInt64)
    {delta : DeltaState} (h : delta.Writable) : (deltaDoc literal requestId timestampMs delta).Faithful := by
  refine messageDoc_faithful (by decide) hrequest timestampMs ?_ ?_ ?_
  · simp only [List.forall_mem_cons, List.not_mem_nil, false_imp_iff, implies_true, and_true]
    decide
  · simp only [envelopeMembers, List.cons_append, List.nil_append, List.map_cons, List.map_nil]
    decide
  · simp only [List.forall_mem_cons, List.not_mem_nil, false_imp_iff, implies_true, and_true]
    exact ⟨Loads.Doc.arr_faithful (List.forall_mem_map.mpr fun e he => entityDoc_faithful hliteral (h.entityUpserts e he)),
      Loads.Doc.arr_faithful (List.forall_mem_map.mpr fun id hid => Loads.Doc.string_faithful (h.entityRemovals id hid)),
      Loads.Doc.arr_faithful (List.forall_mem_map.mpr fun f hf => flowDoc_faithful (h.flowUpserts f hf)),
      Loads.Doc.arr_faithful (List.forall_mem_map.mpr fun id hid => Loads.Doc.string_faithful (h.flowRemovals id hid))⟩

end

/-! ## The line on the wire -/

/-- A JSON parser for the octets of a text. -/
def parse (text : Bytes) : Option Json := (decode text).bind (Loads.loads (fun n => some n.value))

/-- The text is one JSON object, without control characters; it goes out as one line; it is read as the value. -/
structure Transmits (text : Bytes) (v : Json) : Prop where
  object : ∃ fields, v = .obj fields
  printable : ∀ b ∈ text, 0x20 ≤ b.toNat
  line : normalize text = text ++ [10] ∧ (normalize text).count 10 = 1
  read : parse text = some v

theorem normalize_of_printable {text : Bytes} (h : ∀ b ∈ text, 0x20 ≤ b.toNat) :
    normalize text = text ++ [10] ∧ (normalize text).count 10 = 1 := by
  have hend : text.rdropWhile (fun c => c = 13 || c = 10) = text := by
    rw [List.rdropWhile_eq_self_iff]
    intro hne hlast
    have hlow := h _ (List.getLast_mem hne)
    simp only [Bool.or_eq_true, decide_eq_true_eq] at hlast
    rcases hlast with hlast | hlast <;> rw [hlast] at hlow <;> exact absurd hlow (by decide)
  have hnone : (10 : UInt8) ∉ text := fun hmem => absurd (h 10 hmem) (by decide)
  have hline : normalize text = text ++ [10] := by rw [normalize, hend]
  refine ⟨hline, ?_⟩
  rw [hline, List.count_append, List.count_eq_zero_of_not_mem hnone]
  rfl

theorem Transmits.of_faithful {d : Doc} (h : d.Faithful) (hobject : ∃ fields, d.value = .obj fields) :
    Transmits (utf8 d.text) d.value := by
  refine ⟨hobject, h.octets, normalize_of_printable h.octets, ?_⟩
  rw [parse, h.loads.1, Option.bind_some, h.loads.2]

/-- **Every message of valid records is one line that is read back as the message.** -/
theorem messages_read_back (literal : ℕ → Double → Numeral) (hliteral : PrintsNumbers literal) :
    (∀ (requestId : Str) (timestampMs : UInt64) (entities : List EntityState) (flows : List FlowConfig),
      encodable requestId = true → (∀ entity ∈ entities, entity.Writable) → (∀ flow ∈ flows, flow.Writable) →
      Transmits (Encoder.buildInitMessage literal requestId timestampMs entities flows)
        (initDoc literal requestId timestampMs entities flows).value) ∧
    ∀ (requestId : Str) (timestampMs : UInt64) (delta : DeltaState), encodable requestId = true → delta.Writable →
      Transmits (Encoder.buildDeltaMessage literal requestId timestampMs delta)
        (deltaDoc literal requestId timestampMs delta).value := by
  constructor
  · intro requestId timestampMs entities flows hrequest hentities hflows
    rw [buildInitMessage_text]
    exact .of_faithful (initDoc_faithful hliteral hrequest timestampMs hentities hflows) ⟨_, rfl⟩
  · intro requestId timestampMs delta hrequest hdelta
    rw [buildDeltaMessage_text]
    exact .of_faithful (deltaDoc_faithful hliteral hrequest timestampMs hdelta) ⟨_, rfl⟩

/-- The text of one half and of the integers below `10 ^ 15`. -/
def shortLiteral (_ : ℕ) : Double → Numeral
  | .finite q =>
    if q = 1 / 2 then ⟨false, str "0", some (str "5"), none⟩ else { Numeral.ofNat q.num.natAbs with negative := q < 0 }
  | _ => Numeral.ofNat 0

theorem shortLiteral_numbers : PrintsNumbers shortLiteral := by
  intro precision q
  unfold shortLiteral
  dsimp only
  split_ifs
  · refine ⟨List.all_eq_true.mp rfl, by decide, fun _ _ _ => rfl, fun digits h => ?_, fun _ h => (nomatch h)⟩
    obtain rfl := Option.some.inj h
    exact ⟨by decide, List.all_eq_true.mp rfl⟩
  · have hvalid := Numeral.ofNat_valid q.num.natAbs
    exact ⟨hvalid.whole, hvalid.nonempty, hvalid.leading, hvalid.fraction, hvalid.exponent⟩

def leadJet : EntityState where
  entityId := str "jet \"lead\""
  businessNodeId := [0x9f3c, 9, 0x1f]
  parentEntityId := []
  hasParent := false
  position := ⟨.finite 1200, .finite (-3), .finite (1 / 2)⟩
  velocity := ⟨.finite 0, .finite 250, .finite 0⟩
  headingDeg := .finite 90
  alive := true
  devices := [⟨str "radio", str "wing", str "wireless", 2000000, .finite 5, .finite (1 / 2), str "UP"⟩]
  effectPolicies := []

theorem leadJet_writable : leadJet.Writable := by
  refine ⟨?_, ?_, ?_, fun _ h => (nomatch h)⟩
  · simp only [List.forall_mem_cons, List.not_mem_nil, false_imp_iff, implies_true, and_true]
    decide
  · simp only [List.forall_mem_cons, List.not_mem_nil, false_imp_iff, implies_true, and_true]
    exact ⟨rfl, rfl, rfl, rfl, rfl, rfl, rfl⟩
  · intro device hdevice
    obtain rfl := List.mem_singleton.mp hdevice
    constructor
    · simp only [List.forall_mem_cons, List.not_mem_nil, false_imp_iff, implies_true, and_true]
      decide
    · simp only [List.forall_mem_cons, List.not_mem_nil, false_imp_iff, implies_true, and_true]
      exact ⟨rfl, rfl⟩

theorem leadJet_read_back :
    Transmits (Encoder.buildInitMessage shortLiteral (str "init-1") 1000 [leadJet] [])
      (initDoc shortLiteral (str "init-1") 1000 [leadJet] []).value ∧
    Transmits (Encoder.buildDeltaMessage shortLiteral (str "delta-2") 2000 ⟨[leadJet], [str "wing"], [], []⟩)
      (deltaDoc shortLiteral (str "delta-2") 2000 ⟨[leadJet], [str "wing"], [], []⟩).value := by
  have hjet : ∀ entity ∈ [leadJet], entity.Writable := fun entity h => List.mem_singleton.mp h ▸ leadJet_writable
  have hwing : ∀ id ∈ [str "wing"], encodable id = true := fun id h => List.mem_singleton.mp h ▸ by decide
  have hread := messages_read_back shortLiteral shortLiteral_numbers
  exact ⟨hread.1 _ _ _ _ (by decide) hjet fun _ h => (nomatch h),
    hread.2 _ _ _ (by decide) ⟨hjet, hwing, fun _ h => (nomatch h), fun _ h => (nomatch h)⟩⟩

/-! ## The value of a message -/

/-- What is printed of a double is the number `writeDouble` takes it for. -/
def PrintsAs (literal : ℕ → Double → Numeral) (x : Double) : Prop := writeDouble x = some (literal 15 x).value

theorem writeArray_eq {α : Type} {writer : α → Option Json} {doc : α → Doc} {values : List α}
    (h : ∀ v ∈ values, writer v = some (doc v).value) : writeArray writer values = some (Doc.arr (values.map doc)).value := by
  have hvalues : values.mapM writer = some (values.map (fun v => (doc v).value)) := by
    rw [Option.mapM_eq_some_iff, List.forall₂_map_right_iff, List.forall₂_same]
    exact h
  rw [writeArray, hvalues, Option.map_some]
  show _ = some (Json.arr ((values.map doc).map Doc.value))
  rw [List.map_map]
  rfl

theorem writeFlow_eq (flow : FlowConfig) : writeFlow flow = some (flowDoc flow).value := by
  rw [writeFlow, ← Loads.Doc.nat_value, ← Loads.Doc.nat_value, ← Loads.Doc.nat_value]
  rfl

theorem writeEnvelope_eq (messageType requestId : Str) (timestampMs : UInt64) :
    writeEnvelope messageType requestId timestampMs =
      (envelopeMembers messageType requestId timestampMs).map (fun m => (m.1, m.2.value)) := by
  rw [writeEnvelope, ← Loads.Doc.nat_value]
  rfl

section
variable {literal : ℕ → Double → Numeral} (hprints : ∀ x : Double, x.isFinite = true → PrintsAs literal x)

include hprints

theorem writeDevice_eq {device : DeviceConfig} (h : device.Writable) :
    writeDevice device = some (deviceDoc literal device).value := by
  have hnumbers := h.numbers
  simp only [List.forall_mem_cons, List.not_mem_nil, false_imp_iff, implies_true, and_true] at hnumbers
  obtain ⟨hdelay, hloss⟩ := hnumbers
  rw [writeDevice, hprints _ hdelay, hprints _ hloss, ← Loads.Doc.nat_value]
  rfl

theorem writePolicy_eq {policy : EffectPolicy} (h : policy.Writable) :
    writePolicy policy = some (policyDoc literal policy).value := by
  have hnumbers := h.numbers
  simp only [List.forall_mem_cons, List.not_mem_nil, false_imp_iff, implies_true, and_true] at hnumbers
  obtain ⟨hdelay, hloss, hthroughput⟩ := hnumbers
  rw [writePolicy, hprints _ hdelay, hprints _ hloss, hprints _ hthroughput]
  rfl

theorem writeEntity_eq {entity : EntityState} (h : entity.Writable) :
    writeEntity entity = some (entityDoc literal entity).value := by
  have hnumbers := h.numbers
  simp only [List.forall_mem_cons, List.not_mem_nil, false_imp_iff, implies_true, and_true] at hnumbers
  obtain ⟨hx, hy, hz, hvx, hvy, hvz, hheading⟩ := hnumbers
  have hposition : writePosition entity.position = some (positionDoc literal entity.position).value := by
    rw [writePosition, hprints _ hx, hprints _ hy, hprints _ hz]
    rfl
  have hvelocity : writeVelocity entity.velocity = some (velocityDoc literal entity.velocity).value := by
    rw [writeVelocity, hprints _ hvx, hprints _ hvy, hprints _ hvz]
    rfl
  have hparent : (parentDoc entity).value = if entity.hasParent then .str entity.parentEntityId else .null := by
    unfold parentDoc
    split_ifs
    · rfl
    · rfl
  rw [writeEntity, hposition, hvelocity, hprints _ hheading,
    writeArray_eq fun device hdevice => writeDevice_eq hprints (h.devices device hdevice),
    writeArray_eq fun policy hpolicy => writePolicy_eq hprints (h.effectPolicies policy hpolicy)]
  show _ = some (Json.obj _)
  simp only [Option.bind_eq_bind, Option.bind_some, ← hparent]
  rfl

/-- **The value of the text is the message `Protocol` builds.** -/
theorem initDoc_value {entities : List EntityState} (hentities : ∀ entity ∈ entities, entity.Writable)
    (requestId : Str) (timestampMs : UInt64) (flows : List FlowConfig) :
    buildInitMessage requestId timestampMs entities flows =
      some (initDoc literal requestId timestampMs entities flows).value := by
  rw [buildInitMessage, writeArray_eq fun entity hentity => writeEntity_eq hprints (hentities entity hentity),
    writeArray_eq fun flow _ => writeFlow_eq flow, writeEnvelope_eq]
  rfl

theorem deltaDoc_value {delta : DeltaState} (h : delta.Writable) (requestId : Str) (timestampMs : UInt64) :
    buildDeltaMessage requestId timestampMs delta = some (deltaDoc literal requestId timestampMs delta).value := by
  have hstrings : ∀ ids : List Str, writeStrings ids = (Doc.arr (ids.map Doc.string)).value := by
    intro ids
    show Json.arr (ids.map Json.str) = Json.arr ((ids.map Doc.string).map Doc.value)
    rw [List.map_map]
    rfl
  rw [buildDeltaMessage, writeArray_eq fun entity hentity => writeEntity_eq hprints (h.entityUpserts entity hentity),
    writeArray_eq fun flow _ => writeFlow_eq flow, hstrings, hstrings, writeEnvelope_eq]
  rfl

end

end AfsimNs3.Adapter
