import AfsimNs3.Adapter.Protocol
import AfsimNs3.Adapter.TcpClient
import AfsimNs3.Lib.Doc

/-!
# The text of a message (`AfsimNs3Protocol`)

`Protocol` gives a message as the value that is read from it; here is the text as the writers put it on a stream, with
the formatting state they set and restore. How a stream prints a double is a parameter: the pieces of a number literal,
at the stream's precision.

`Emits` is what a writer does to a stream in its usual state: it adds one text and keeps the state. Every writer emits
the text of a `Doc` that has the record's value, so a message is one JSON text that is read back as the message.
-/

namespace AfsimNs3.Adapter
open Loads (Doc Numeral)

/-- An `std::ostream` with the formatting state the writers touch. -/
structure Ostream where
  text : Bytes
  precision : ℕ
  hex : Bool
  width : ℕ
  fill : UInt8

namespace Ostream

def new : Ostream := ⟨[], 6, false, 0, 32⟩

/-- `output << item`: padded to the width, which is zero from then on. -/
def put (o : Ostream) (item : Bytes) : Ostream :=
  { o with text := o.text ++ (List.replicate (o.width - item.length) o.fill ++ item), width := 0 }

def hexBytes (n : ℕ) : Bytes := (Nat.toDigits 16 n).map (fun c => UInt8.ofNat c.toNat)

def putNat (o : Ostream) (n : ℕ) : Ostream := o.put (if o.hex then hexBytes n else natBytes n)

def setHex (o : Ostream) : Ostream := { o with hex := true }

def setDec (o : Ostream) : Ostream := { o with hex := false }

def setw (o : Ostream) (width : ℕ) : Ostream := { o with width := width }

def setfill (o : Ostream) (fill : UInt8) : Ostream := { o with fill := fill }

def setprecision (o : Ostream) (precision : ℕ) : Ostream := { o with precision := precision }

/-- A text added to what was written. -/
def append (o : Ostream) (text : Bytes) : Ostream := { o with text := o.text ++ text }

/-- The usual state: decimal, no width, blanks. -/
structure Plain (o : Ostream) : Prop where
  hex : o.hex = false
  width : o.width = 0
  fill : o.fill = 32

theorem new_plain : new.Plain := ⟨rfl, rfl, rfl⟩

theorem Plain.append {o : Ostream} (h : o.Plain) (text : Bytes) : (o.append text).Plain := ⟨h.hex, h.width, h.fill⟩

theorem append_append (o : Ostream) (text text' : Bytes) : (o.append text).append text' = o.append (text ++ text') := by
  rw [append, append, append, List.append_assoc]

theorem append_nil (o : Ostream) : o.append [] = o := by rw [append, List.append_nil]

theorem put_plain {o : Ostream} (h : o.Plain) (item : Bytes) : o.put item = o.append item := by
  rw [put, append, h.width, Nat.zero_sub, List.replicate_zero, List.nil_append, ← h.width]

theorem putNat_plain {o : Ostream} (h : o.Plain) (n : ℕ) : o.putNat n = o.append (natBytes n) := by
  rw [putNat, h.hex, if_neg Bool.false_ne_true, put_plain h]

end Ostream

/-! ## Strings -/

/-- One turn of the loop of `Quote`. -/
def quoteChar (output : Ostream) (character : UInt8) : Ostream :=
  if character = 34 then output.put (ascii "\\\"")
  else if character = 92 then output.put (ascii "\\\\")
  else if character = 8 then output.put (ascii "\\b")
  else if character = 12 then output.put (ascii "\\f")
  else if character = 10 then output.put (ascii "\\n")
  else if character = 13 then output.put (ascii "\\r")
  else if character = 9 then output.put (ascii "\\t")
  else if character < 0x20 then
    (((((output.put (ascii "\\u")).setHex.setw 4).setfill 48).putNat character.toNat).setDec).setfill 32
  else output.put [character]

def quote (value : Bytes) : Bytes := ((value.foldl quoteChar (Ostream.new.put [34])).put [34]).text

/-- The number of a control character, in four digits. -/
theorem put_control {o : Ostream} (h : o.Plain) {n : ℕ} (hn : n < 32) :
    ((((((o.put (ascii "\\u")).setHex.setw 4).setfill 48).putNat n).setDec).setfill 32) =
      o.append (utf8 (Loads.controlText n)) := by
  have hdigits : List.replicate (4 - (Ostream.hexBytes n).length) 48 ++ Ostream.hexBytes n =
      utf8 ((Loads.controlText n).drop 2) := by
    revert n
    decide
  have hhead : Loads.controlText n = 92 :: 117 :: (Loads.controlText n).drop 2 := rfl
  have htext : utf8 (Loads.controlText n) = ascii "\\u" ++ utf8 ((Loads.controlText n).drop 2) := by
    rw [hhead, utf8_cons, utf8_cons, List.drop_succ_cons, List.drop_succ_cons, List.drop_zero]
    rfl
  rw [Ostream.put_plain h, htext, ← hdigits, ← Ostream.append_append]
  obtain ⟨text, precision, hex, width, fill⟩ := o
  obtain ⟨rfl, rfl, rfl⟩ := h
  rfl

/-- Octets above ASCII are written as they are. -/
theorem foldl_quoteChar_high {o : Ostream} (h : o.Plain) {text : Bytes} (htext : ∀ b ∈ text, 128 ≤ b.toNat) :
    text.foldl quoteChar o = o.append text := by
  induction text generalizing o with
  | nil => exact o.append_nil.symm
  | cons b text ih =>
    rw [List.forall_mem_cons] at htext
    have hne : ∀ k : UInt8, k.toNat < 128 → b ≠ k := by
      rintro k hk rfl
      omega
    have hlow : ¬b < 0x20 := by
      rw [UInt8.lt_iff_toNat_lt]
      exact not_lt.mpr ((by decide : (0x20 : UInt8).toNat ≤ 128).trans htext.1)
    have hturn : quoteChar o b = o.append [b] := by
      rw [quoteChar, if_neg (hne 34 (by decide)), if_neg (hne 92 (by decide)), if_neg (hne 8 (by decide)),
        if_neg (hne 12 (by decide)), if_neg (hne 10 (by decide)), if_neg (hne 13 (by decide)),
        if_neg (hne 9 (by decide)), if_neg hlow, Ostream.put_plain h]
    rw [List.foldl_cons, hturn, ih (h.append _) htext.2, Ostream.append_append, List.singleton_append]

theorem quoteChar_utf8 {o : Ostream} (h : o.Plain) (c : CodePoint) :
    (utf8Char c).foldl quoteChar o = o.append (utf8 (Loads.escapeText c)) := by
  rcases toNat_utf8Char c with ⟨hc, heq⟩ | hhigh
  · have hval : (UInt8.ofNat c.val).toNat = c.val := by rw [UInt8.toNat_ofNat', Nat.mod_eq_of_lt (by omega)]
    have hchar : ∀ (k : UInt8) (n : ℕ) (a b : Ostream), k.toNat = n →
        (if UInt8.ofNat c.val = k then a else b) = if c.val = n then a else b := by
      intro k n a b hk
      refine if_congr ?_ rfl rfl
      rw [← UInt8.toNat_inj, hval, hk]
    have hcontrol : UInt8.ofNat c.val < 0x20 ↔ c.val < 32 := by
      rw [UInt8.lt_iff_toNat_lt, hval]
      exact Iff.rfl
    have hplain : utf8 [c] = [UInt8.ofNat c.val] := by rw [utf8_cons, heq]; rfl
    rw [heq, List.foldl_cons, List.foldl_nil, quoteChar, Loads.escapeText]
    rw [hchar 34 34 _ _ rfl, hchar 92 92 _ _ rfl, hchar 8 8 _ _ rfl, hchar 12 12 _ _ rfl, hchar 10 10 _ _ rfl,
      hchar 13 13 _ _ rfl, hchar 9 9 _ _ rfl, if_congr hcontrol rfl rfl, hval]
    split_ifs with h1 h2 h3 h4 h5 h6 h7 h8
    · exact Ostream.put_plain h _
    · exact Ostream.put_plain h _
    · exact Ostream.put_plain h _
    · exact Ostream.put_plain h _
    · exact Ostream.put_plain h _
    · exact Ostream.put_plain h _
    · exact Ostream.put_plain h _
    · exact put_control h h8
    · rw [Ostream.put_plain h, hplain]
  · have hc : 128 ≤ c.val := by
      by_contra hlow
      have hchar := utf8Char_of_lt (not_le.mp hlow)
      have hbig := hhigh (UInt8.ofNat c.val) (hchar ▸ List.mem_singleton_self _)
      rw [UInt8.toNat_ofNat', Nat.mod_eq_of_lt (by omega)] at hbig
      exact hlow hbig
    have hplain : Loads.escapeText c = [c] := by
      unfold Loads.escapeText
      rw [if_neg (by omega), if_neg (by omega), if_neg (by omega), if_neg (by omega), if_neg (by omega),
        if_neg (by omega), if_neg (by omega), if_neg (by omega)]
    rw [foldl_quoteChar_high h hhigh, hplain, utf8_cons]
    exact congrArg o.append (List.append_nil _).symm

/-- **`Quote` escapes the characters**, though it goes through the octets. -/
theorem quote_utf8 (s : Str) : quote (utf8 s) = utf8 (Loads.quotedText s) := by
  have hfold : ∀ {o : Ostream}, o.Plain → (utf8 s).foldl quoteChar o = o.append (utf8 (s.flatMap Loads.escapeText)) := by
    induction s with
    | nil => exact fun _ => (Ostream.append_nil _).symm
    | cons c s ih =>
      intro o h
      rw [utf8_cons, List.foldl_append, quoteChar_utf8 h, ih (h.append _), Ostream.append_append, List.flatMap_cons,
        utf8_append]
  have hopen := Ostream.new_plain.append [34]
  rw [quote, Ostream.put_plain Ostream.new_plain, hfold hopen, Ostream.put_plain (hopen.append _), Loads.quotedText,
    utf8_cons, utf8_append]
  rfl

/-! ## Writers -/

/-- What stands between `<<` and `<<`. -/
inductive Operand where
  | literal (text : Bytes)
  | quoted (s : Str)
  | integer (n : ℕ)
  | boolean (b : Bool)
  | double (x : Double)

section
variable (literal : ℕ → Double → Numeral)

def Ostream.write (output : Ostream) : Operand → Ostream
  | .literal text => output.put text
  | .quoted s => output.put (quote (utf8 s))
  | .integer n => output.putNat n
  | .boolean b => output.put (if b then ascii "true" else ascii "false")
  | .double x => output.put (utf8 (literal output.precision x).text)

/-- `output << a << b << …`. -/
def Ostream.writeAll (output : Ostream) (operands : List Operand) : Ostream := operands.foldl (Ostream.write literal) output

namespace Encoder

def writeDevice (output : Ostream) (device : DeviceConfig) : Ostream :=
  output.writeAll literal [
    .literal (ascii "\x7b\"device_id\":"), .quoted device.deviceId,
    .literal (ascii ",\"peer_entity_id\":"), .quoted device.peerEntityId,
    .literal (ascii ",\"kind\":"), .quoted device.kind,
    .literal (ascii ",\"data_rate_bps\":"), .integer device.dataRateBps.toNat,
    .literal (ascii ",\"delay_ms\":"), .double device.delayMs,
    .literal (ascii ",\"loss_rate\":"), .double device.lossRate,
    .literal (ascii ",\"link_state\":"), .quoted device.linkState,
    .literal (ascii "\x7d")]

def writePolicy (output : Ostream) (policy : EffectPolicy) : Ostream :=
  output.writeAll literal [
    .literal (ascii "\x7b\"subsystem_id\":"), .quoted policy.subsystemId,
    .literal (ascii ",\"subsystem_type\":"), .quoted policy.subsystemType,
    .literal (ascii ",\"peer_entity_id\":"), .quoted policy.peerEntityId,
    .literal (ascii ",\"max_delay_ms\":"), .double policy.maxDelayMs,
    .literal (ascii ",\"max_loss_rate\":"), .double policy.maxLossRate,
    .literal (ascii ",\"min_throughput_bps\":"), .double policy.minThroughputBps,
    .literal (ascii ",\"violation_state\":"), .quoted policy.violationState,
    .literal (ascii "\x7d")]

/-- One turn of the loop of `WriteArray`. -/
def writeItem {α : Type} (writer : Ostream → α → Ostream) (output : Ostream) (item : α × ℕ) : Ostream :=
  writer (if item.2 ≠ 0 then output.put [44] else output) item.1

def writeArray {α : Type} (output : Ostream) (values : List α) (writer : Ostream → α → Ostream) : Ostream :=
  (values.zipIdx.foldl (writeItem writer) (output.put [91])).put [93]

def writeParent (output : Ostream) (entity : EntityState) : Ostream :=
  if entity.hasParent then output.write literal (.quoted entity.parentEntityId) else output.put (ascii "null")

def writeEntity (output : Ostream) (entity : EntityState) : Ostream :=
  let output := output.writeAll literal [
    .literal (ascii "\x7b\"entity_id\":"), .quoted entity.entityId,
    .literal (ascii ",\"business_node_id\":"), .quoted entity.businessNodeId,
    .literal (ascii ",\"parent_entity_id\":")]
  let output := writeParent literal output entity
  let output := output.writeAll literal [
    .literal (ascii ",\"position\":\x7b\"x_m\":"), .double entity.position.xM,
    .literal (ascii ",\"y_m\":"), .double entity.position.yM,
    .literal (ascii ",\"z_m\":"), .double entity.position.zM, .literal (ascii "\x7d"),
    .literal (ascii ",\"velocity\":\x7b\"vx_mps\":"), .double entity.velocity.vxMps,
    .literal (ascii ",\"vy_mps\":"), .double entity.velocity.vyMps,
    .literal (ascii ",\"vz_mps\":"), .double entity.velocity.vzMps, .literal (ascii "\x7d"),
    .literal (ascii ",\"heading_deg\":"), .double entity.headingDeg,
    .literal (ascii ",\"alive\":"), .boolean entity.alive,
    .literal (ascii ",\"devices\":")]
  let output := writeArray output entity.devices (writeDevice literal)
  let output := output.put (ascii ",\"effect_policies\":")
  let output := writeArray output entity.effectPolicies (writePolicy literal)
  output.put (ascii "\x7d")

def writeFlow (output : Ostream) (flow : FlowConfig) : Ostream :=
  output.writeAll literal [
    .literal (ascii "\x7b\"flow_id\":"), .quoted flow.flowId,
    .literal (ascii ",\"source_entity_id\":"), .quoted flow.sourceEntityId,
    .literal (ascii ",\"target_entity_id\":"), .quoted flow.targetEntityId,
    .literal (ascii ",\"packet_size_bytes\":"), .integer flow.packetSizeBytes.toNat,
    .literal (ascii ",\"interval_ms\":"), .integer flow.intervalMs.toNat,
    .literal (ascii ",\"duration_ms\":"), .integer flow.durationMs.toNat,
    .literal (ascii ",\"active\":"), .boolean flow.active, .literal (ascii "\x7d")]

def writeStrings (output : Ostream) (values : List Str) : Ostream :=
  writeArray output values (fun target value => target.write literal (.quoted value))

def writeEnvelope (output : Ostream) (messageType requestId : Str) (timestampMs : UInt64) : Ostream :=
  output.writeAll literal [
    .literal (ascii "\x7b\"protocol_version\":\"0.2\",\"message_type\":"), .quoted messageType,
    .literal (ascii ",\"request_id\":"), .quoted requestId,
    .literal (ascii ",\"timestamp_ms\":"), .integer timestampMs.toNat]

def buildInitMessage (requestId : Str) (timestampMs : UInt64) (entities : List EntityState)
    (flows : List FlowConfig) : Bytes :=
  let output := Ostream.new.setprecision 15
  let output := writeEnvelope literal output (str "afsim_init") requestId timestampMs
  let output := output.put (ascii ",\"entities\":")
  let output := writeArray output entities (writeEntity literal)
  let output := output.put (ascii ",\"flows\":")
  let output := writeArray output flows (writeFlow literal)
  (output.put (ascii "\x7d")).text

def buildDeltaMessage (requestId : Str) (timestampMs : UInt64) (delta : DeltaState) : Bytes :=
  let output := Ostream.new.setprecision 15
  let output := writeEnvelope literal output (str "afsim_delta") requestId timestampMs
  let output := output.put (ascii ",\"entity_upserts\":")
  let output := writeArray output delta.entityUpserts (writeEntity literal)
  let output := output.put (ascii ",\"entity_removals\":")
  let output := writeStrings literal output delta.entityRemovals
  let output := output.put (ascii ",\"flow_upserts\":")
  let output := writeArray output delta.flowUpserts (writeFlow literal)
  let output := output.put (ascii ",\"flow_removals\":")
  let output := writeStrings literal output delta.flowRemovals
  (output.put (ascii "\x7d")).text

end Encoder

/-! ## The values of the records, with their texts -/

def positionDoc (position : Position) : Doc := .obj [
  (str "x_m", .numeral (literal 15 position.xM)),
  (str "y_m", .numeral (literal 15 position.yM)),
  (str "z_m", .numeral (literal 15 position.zM))]

def velocityDoc (velocity : Velocity) : Doc := .obj [
  (str "vx_mps", .numeral (literal 15 velocity.vxMps)),
  (str "vy_mps", .numeral (literal 15 velocity.vyMps)),
  (str "vz_mps", .numeral (literal 15 velocity.vzMps))]

def deviceDoc (device : DeviceConfig) : Doc := .obj [
  (str "device_id", .string device.deviceId),
  (str "peer_entity_id", .string device.peerEntityId),
  (str "kind", .string device.kind),
  (str "data_rate_bps", .nat device.dataRateBps.toNat),
  (str "delay_ms", .numeral (literal 15 device.delayMs)),
  (str "loss_rate", .numeral (literal 15 device.lossRate)),
  (str "link_state", .string device.linkState)]

def policyDoc (policy : EffectPolicy) : Doc := .obj [
  (str "subsystem_id", .string policy.subsystemId),
  (str "subsystem_type", .string policy.subsystemType),
  (str "peer_entity_id", .string policy.peerEntityId),
  (str "max_delay_ms", .numeral (literal 15 policy.maxDelayMs)),
  (str "max_loss_rate", .numeral (literal 15 policy.maxLossRate)),
  (str "min_throughput_bps", .numeral (literal 15 policy.minThroughputBps)),
  (str "violation_state", .string policy.violationState)]

def parentDoc (entity : EntityState) : Doc := if entity.hasParent then .string entity.parentEntityId else .null

def entityDoc (entity : EntityState) : Doc := .obj [
  (str "entity_id", .string entity.entityId),
  (str "business_node_id", .string entity.businessNodeId),
  (str "parent_entity_id", parentDoc entity),
  (str "position", positionDoc literal entity.position),
  (str "velocity", velocityDoc literal entity.velocity),
  (str "heading_deg", .numeral (literal 15 entity.headingDeg)),
  (str "alive", .bool entity.alive),
  (str "devices", .arr (entity.devices.map (deviceDoc literal))),
  (str "effect_policies", .arr (entity.effectPolicies.map (policyDoc literal)))]

def flowDoc (flow : FlowConfig) : Doc := .obj [
  (str "flow_id", .string flow.flowId),
  (str "source_entity_id", .string flow.sourceEntityId),
  (str "target_entity_id", .string flow.targetEntityId),
  (str "packet_size_bytes", .nat flow.packetSizeBytes.toNat),
  (str "interval_ms", .nat flow.intervalMs.toNat),
  (str "duration_ms", .nat flow.durationMs.toNat),
  (str "active", .bool flow.active)]

def envelopeMembers (messageType requestId : Str) (timestampMs : UInt64) : List (Str × Doc) := [
  (str "protocol_version", .string (str "0.2")),
  (str "message_type", .string messageType),
  (str "request_id", .string requestId),
  (str "timestamp_ms", .nat timestampMs.toNat)]

def initDoc (requestId : Str) (timestampMs : UInt64) (entities : List EntityState) (flows : List FlowConfig) : Doc :=
  .obj (envelopeMembers (str "afsim_init") requestId timestampMs ++ [
    (str "entities", .arr (entities.map (entityDoc literal))),
    (str "flows", .arr (flows.map flowDoc))])

def deltaDoc (requestId : Str) (timestampMs : UInt64) (delta : DeltaState) : Doc :=
  .obj (envelopeMembers (str "afsim_delta") requestId timestampMs ++ [
    (str "entity_upserts", .arr (delta.entityUpserts.map (entityDoc literal))),
    (str "entity_removals", .arr (delta.entityRemovals.map Doc.string)),
    (str "flow_upserts", .arr (delta.flowUpserts.map flowDoc)),
    (str "flow_removals", .arr (delta.flowRemovals.map Doc.string))])

/-! ## What the writers emit -/

/-- The state of a message's stream between two writers. -/
structure Ostream.Ready (output : Ostream) : Prop where
  plain : output.Plain
  precision : output.precision = 15

theorem Ostream.Ready.append {output : Ostream} (h : output.Ready) (text : Bytes) : (output.append text).Ready :=
  ⟨h.plain.append text, h.precision⟩

/-- The writer adds the text and nothing else. -/
def Emits (writer : Ostream → Ostream) (text : Bytes) : Prop :=
  ∀ output : Ostream, output.Ready → writer output = output.append text

theorem Emits.comp {writer writer' : Ostream → Ostream} {text text' : Bytes} (h : Emits writer text)
    (h' : Emits writer' text') : Emits (fun output => writer' (writer output)) (text ++ text') := by
  intro output hready
  dsimp only
  rw [h output hready, h' _ (hready.append text), Ostream.append_append]

theorem emits_put (text : Bytes) : Emits (fun output => output.put text) text :=
  fun _ hready => Ostream.put_plain hready.plain text

def operandText : Operand → Bytes
  | .literal text => text
  | .quoted s => utf8 (Doc.string s).text
  | .integer n => utf8 (Doc.nat n).text
  | .boolean b => utf8 (Doc.bool b).text
  | .double x => utf8 (Doc.numeral (literal 15 x)).text

theorem emits_write (operand : Operand) :
    Emits (fun output => output.write literal operand) (operandText literal operand) := by
  intro output hready
  cases operand with
  | literal text => exact Ostream.put_plain hready.plain text
  | quoted s => exact (Ostream.put_plain hready.plain _).trans (congrArg output.append (quote_utf8 s))
  | integer n => exact (Ostream.putNat_plain hready.plain n).trans (congrArg output.append (Doc.utf8_nat n).symm)
  | boolean b =>
    have htext : utf8 (Doc.bool b).text = if b then ascii "true" else ascii "false" := by cases b <;> rfl
    exact (Ostream.put_plain hready.plain _).trans (congrArg output.append htext.symm)
  | double x =>
    show output.put (utf8 (literal output.precision x).text) = _
    rw [Ostream.put_plain hready.plain, hready.precision]
    rfl

theorem emits_writeAll (operands : List Operand) :
    Emits (fun output => output.writeAll literal operands) (operands.flatMap (operandText literal)) := by
  induction operands with
  | nil => exact fun output _ => output.append_nil.symm
  | cons operand operands ih =>
    rw [List.flatMap_cons]
    exact (emits_write literal operand).comp ih

/-! ### Objects -/

theorem utf8_flatMap {α : Type} (f : α → Str) (xs : List α) : utf8 (xs.flatMap f) = xs.flatMap (fun x => utf8 (f x)) :=
  List.flatMap_assoc

/-- The text of an object, name by name. -/
theorem utf8_obj (key : Str) (d : Doc) (members : List (Str × Doc)) : utf8 (Doc.obj ((key, d) :: members)).text =
    utf8 (123 :: (Loads.quotedText key ++ [58])) ++ (utf8 d.text ++
      (members.flatMap (fun m => utf8 (44 :: (Loads.quotedText m.1 ++ [58])) ++ utf8 m.2.text) ++ [125])) := by
  have htail : utf8 (((members.map (fun m => (m.1, m.2.text))).map Loads.memberText).flatMap (fun t => 44 :: t)) =
      members.flatMap (fun m => utf8 (44 :: (Loads.quotedText m.1 ++ [58])) ++ utf8 m.2.text) := by
    rw [utf8_flatMap, List.map_map, List.flatMap_map]
    refine List.flatMap_congr fun m _ => ?_
    rw [← utf8_append, List.cons_append, List.append_assoc]
    rfl
  show utf8 (123 :: (Loads.commaText (Loads.memberText (key, d.text) ::
    (members.map (fun m => (m.1, m.2.text))).map Loads.memberText) ++ [125])) = _
  rw [Loads.commaText_cons, ← htail, Loads.memberText]
  simp only [utf8_append, utf8_cons, List.append_assoc]
  rfl

theorem Emits.of_eq {writer : Ostream → Ostream} {text text' : Bytes} (h : Emits writer text) (heq : text = text') :
    Emits writer text' := heq ▸ h

theorem emits_writeDevice (device : DeviceConfig) :
    Emits (fun output => Encoder.writeDevice literal output device) (utf8 (deviceDoc literal device).text) := by
  refine (emits_writeAll literal _).of_eq ?_
  rw [deviceDoc, utf8_obj]
  simp only [List.flatMap_cons, List.flatMap_nil, List.append_assoc, List.nil_append]
  repeat refine congrArg₂ HAppend.hAppend rfl ?_
  rfl

theorem emits_writePolicy (policy : EffectPolicy) :
    Emits (fun output => Encoder.writePolicy literal output policy) (utf8 (policyDoc literal policy).text) := by
  refine (emits_writeAll literal _).of_eq ?_
  rw [policyDoc, utf8_obj]
  simp only [List.flatMap_cons, List.flatMap_nil, List.append_assoc, List.nil_append]
  repeat refine congrArg₂ HAppend.hAppend rfl ?_
  rfl

theorem emits_writeFlow (flow : FlowConfig) :
    Emits (fun output => Encoder.writeFlow literal output flow) (utf8 (flowDoc flow).text) := by
  refine (emits_writeAll literal _).of_eq ?_
  rw [flowDoc, utf8_obj]
  simp only [List.flatMap_cons, List.flatMap_nil, List.append_assoc, List.nil_append]
  repeat refine congrArg₂ HAppend.hAppend rfl ?_
  rfl

/-! ### Arrays -/

section
variable {α : Type} {writer : Ostream → α → Ostream} {doc : α → Doc}

/-- The turns of the loop from the second on. -/
theorem foldl_writeItem {values : List α} (h : ∀ v ∈ values, Emits (fun output => writer output v) (utf8 (doc v).text))
    (n : ℕ) : Emits (fun output => (values.zipIdx (n + 1)).foldl (Encoder.writeItem writer) output)
      (values.flatMap (fun v => utf8 (44 :: (doc v).text))) := by
  induction values generalizing n with
  | nil => exact fun output _ => output.append_nil.symm
  | cons v values ih =>
    rw [List.forall_mem_cons] at h
    intro output hready
    have hturn : Encoder.writeItem writer output (v, n + 1) = output.append (utf8 (44 :: (doc v).text)) := by
      rw [Encoder.writeItem, if_pos (Nat.succ_ne_zero n)]
      exact ((emits_put [44]).comp h.1) output hready
    show ((values.zipIdx (n + 1 + 1)).foldl (Encoder.writeItem writer) (Encoder.writeItem writer output (v, n + 1))) = _
    rw [hturn, List.flatMap_cons, ← Ostream.append_append]
    exact ih h.2 (n + 1) _ (hready.append _)

theorem utf8_arr (d : Doc) (docs : List Doc) : utf8 (Doc.arr (d :: docs)).text =
    [91] ++ (utf8 d.text ++ (docs.flatMap (fun d => utf8 (44 :: d.text)) ++ [93])) := by
  show utf8 (91 :: (Loads.commaText (d.text :: docs.map Doc.text) ++ [93])) = _
  rw [Loads.commaText_cons, utf8_cons, utf8_append, utf8_append, utf8_flatMap, List.flatMap_map, List.append_assoc]
  rfl

theorem emits_writeArray {values : List α} (h : ∀ v ∈ values, Emits (fun output => writer output v) (utf8 (doc v).text)) :
    Emits (fun output => Encoder.writeArray output values writer) (utf8 (Doc.arr (values.map doc)).text) := by
  cases values with
  | nil => exact (emits_put [91]).comp (emits_put [93])
  | cons v values =>
    rw [List.forall_mem_cons] at h
    have hloop := (((emits_put [91]).comp h.1).comp (foldl_writeItem h.2 0)).comp (emits_put [93])
    refine hloop.of_eq ?_
    rw [List.map_cons, utf8_arr, List.flatMap_map]
    simp only [List.append_assoc]

end

theorem emits_writeStrings (values : List Str) :
    Emits (fun output => Encoder.writeStrings literal output values) (utf8 (Doc.arr (values.map Doc.string)).text) :=
  emits_writeArray fun s _ => emits_write literal (.quoted s)

theorem emits_writeParent (entity : EntityState) :
    Emits (fun output => Encoder.writeParent literal output entity) (utf8 (parentDoc entity).text) := by
  unfold Encoder.writeParent parentDoc
  split_ifs
  · exact emits_write literal (.quoted entity.parentEntityId)
  · exact emits_put (ascii "null")

theorem emits_writeEntity (entity : EntityState) :
    Emits (fun output => Encoder.writeEntity literal output entity) (utf8 (entityDoc literal entity).text) := by
  have hdevices : Emits (fun output => Encoder.writeArray output entity.devices (Encoder.writeDevice literal))
      (utf8 (Doc.arr (entity.devices.map (deviceDoc literal))).text) :=
    emits_writeArray fun device _ => emits_writeDevice literal device
  have hpolicies : Emits (fun output => Encoder.writeArray output entity.effectPolicies (Encoder.writePolicy literal))
      (utf8 (Doc.arr (entity.effectPolicies.map (policyDoc literal))).text) :=
    emits_writeArray fun policy _ => emits_writePolicy literal policy
  have hwrite := ((((((emits_writeAll literal [
    .literal (ascii "\x7b\"entity_id\":"), .quoted entity.entityId,
    .literal (ascii ",\"business_node_id\":"), .quoted entity.businessNodeId,
    .literal (ascii ",\"parent_entity_id\":")]).comp (emits_writeParent literal entity)).comp (emits_writeAll literal [
    .literal (ascii ",\"position\":\x7b\"x_m\":"), .double entity.position.xM,
    .literal (ascii ",\"y_m\":"), .double entity.position.yM,
    .literal (ascii ",\"z_m\":"), .double entity.position.zM, .literal (ascii "\x7d"),
    .literal (ascii ",\"velocity\":\x7b\"vx_mps\":"), .double entity.velocity.vxMps,
    .literal (ascii ",\"vy_mps\":"), .double entity.velocity.vyMps,
    .literal (ascii ",\"vz_mps\":"), .double entity.velocity.vzMps, .literal (ascii "\x7d"),
    .literal (ascii ",\"heading_deg\":"), .double entity.headingDeg,
    .literal (ascii ",\"alive\":"), .boolean entity.alive,
    .literal (ascii ",\"devices\":")])).comp hdevices).comp
    (emits_put (ascii ",\"effect_policies\":"))).comp hpolicies).comp (emits_put (ascii "\x7d"))
  refine hwrite.of_eq ?_
  -- One literal closes a name and opens the object behind it.
  have hopen : ∀ (name inner : Str) (text rest : Bytes),
      utf8 (44 :: (Loads.quotedText name ++ [58])) ++ utf8 (123 :: (Loads.quotedText inner ++ [58])) = text →
      utf8 (44 :: (Loads.quotedText name ++ [58])) ++ (utf8 (123 :: (Loads.quotedText inner ++ [58])) ++ rest) =
        text ++ rest := fun name inner text rest h => by rw [← List.append_assoc, h]
  have hposition := fun rest => hopen (str "position") (str "x_m") (ascii ",\"position\":\x7b\"x_m\":") rest rfl
  have hvelocity := fun rest => hopen (str "velocity") (str "vx_mps") (ascii ",\"velocity\":\x7b\"vx_mps\":") rest rfl
  rw [entityDoc, utf8_obj]
  simp only [List.flatMap_cons, List.flatMap_nil, List.append_assoc, List.nil_append, positionDoc, velocityDoc, utf8_obj]
  rw [hposition, hvelocity]
  repeat refine congrArg₂ HAppend.hAppend rfl ?_
  rfl

/-! ### Messages -/

/-- What `WriteEnvelope` writes. -/
def envelopeText (messageType requestId : Str) (timestampMs : UInt64) : Bytes :=
  ([.literal (ascii "\x7b\"protocol_version\":\"0.2\",\"message_type\":"), .quoted messageType,
    .literal (ascii ",\"request_id\":"), .quoted requestId,
    .literal (ascii ",\"timestamp_ms\":"), .integer timestampMs.toNat] : List Operand).flatMap (operandText literal)

theorem emits_writeEnvelope (messageType requestId : Str) (timestampMs : UInt64) :
    Emits (fun output => Encoder.writeEnvelope literal output messageType requestId timestampMs)
      (envelopeText literal messageType requestId timestampMs) :=
  emits_writeAll literal _

/-- The object the envelope opens, closed behind the members that follow. -/
theorem utf8_message (messageType requestId : Str) (timestampMs : UInt64) (members : List (Str × Doc)) :
    utf8 (Doc.obj (envelopeMembers messageType requestId timestampMs ++ members)).text =
      envelopeText literal messageType requestId timestampMs ++
        (members.flatMap (fun m => utf8 (44 :: (Loads.quotedText m.1 ++ [58])) ++ utf8 m.2.text) ++ [125]) := by
  have hopen : ∀ rest : Bytes, utf8 (123 :: (Loads.quotedText (str "protocol_version") ++ [58])) ++
      (utf8 (Doc.string (str "0.2")).text ++ (utf8 (44 :: (Loads.quotedText (str "message_type") ++ [58])) ++ rest)) =
        ascii "\x7b\"protocol_version\":\"0.2\",\"message_type\":" ++ rest := by
    intro rest
    rw [← List.append_assoc, ← List.append_assoc]
    exact congrArg (· ++ rest) rfl
  rw [envelopeMembers, envelopeText, List.cons_append, utf8_obj]
  simp only [List.cons_append, List.nil_append, List.flatMap_cons, List.flatMap_nil, List.append_assoc]
  rw [hopen]
  repeat refine congrArg₂ HAppend.hAppend rfl ?_
  rfl

theorem ready_new : (Ostream.new.setprecision 15).Ready := ⟨⟨rfl, rfl, rfl⟩, rfl⟩

theorem Emits.message {writer : Ostream → Ostream} {text : Bytes} (h : Emits writer text) :
    (writer (Ostream.new.setprecision 15)).text = text := by
  rw [h _ ready_new]
  rfl

/-- **`BuildInitMessage` builds the text of the message's value.** -/
theorem buildInitMessage_text (requestId : Str) (timestampMs : UInt64) (entities : List EntityState)
    (flows : List FlowConfig) : Encoder.buildInitMessage literal requestId timestampMs entities flows =
      utf8 (initDoc literal requestId timestampMs entities flows).text := by
  have hentities : Emits (fun output => Encoder.writeArray output entities (Encoder.writeEntity literal))
      (utf8 (Doc.arr (entities.map (entityDoc literal))).text) :=
    emits_writeArray fun entity _ => emits_writeEntity literal entity
  have hflows : Emits (fun output => Encoder.writeArray output flows (Encoder.writeFlow literal))
      (utf8 (Doc.arr (flows.map flowDoc)).text) :=
    emits_writeArray fun flow _ => emits_writeFlow literal flow
  have hwrite := (((((emits_writeEnvelope literal (str "afsim_init") requestId timestampMs).comp
    (emits_put (ascii ",\"entities\":"))).comp hentities).comp (emits_put (ascii ",\"flows\":"))).comp hflows).comp
      (emits_put (ascii "\x7d"))
  refine hwrite.message.trans ?_
  rw [initDoc, utf8_message]
  simp only [List.flatMap_cons, List.flatMap_nil, List.append_assoc, List.nil_append]
  repeat refine congrArg₂ HAppend.hAppend rfl ?_
  rfl

theorem buildDeltaMessage_text (requestId : Str) (timestampMs : UInt64) (delta : DeltaState) :
    Encoder.buildDeltaMessage literal requestId timestampMs delta =
      utf8 (deltaDoc literal requestId timestampMs delta).text := by
  have hentities : Emits (fun output => Encoder.writeArray output delta.entityUpserts (Encoder.writeEntity literal))
      (utf8 (Doc.arr (delta.entityUpserts.map (entityDoc literal))).text) :=
    emits_writeArray fun entity _ => emits_writeEntity literal entity
  have hflows : Emits (fun output => Encoder.writeArray output delta.flowUpserts (Encoder.writeFlow literal))
      (utf8 (Doc.arr (delta.flowUpserts.map flowDoc)).text) :=
    emits_writeArray fun flow _ => emits_writeFlow literal flow
  have hwrite := (((((((((emits_writeEnvelope literal (str "afsim_delta") requestId timestampMs).comp
    (emits_put (ascii ",\"entity_upserts\":"))).comp hentities).comp
    (emits_put (ascii ",\"entity_removals\":"))).comp (emits_writeStrings literal delta.entityRemovals)).comp
    (emits_put (ascii ",\"flow_upserts\":"))).comp hflows).comp (emits_put (ascii ",\"flow_removals\":"))).comp
    (emits_writeStrings literal delta.flowRemovals)).comp (emits_put (ascii "\x7d"))
  refine hwrite.message.trans ?_
  rw [deltaDoc, utf8_message]
  simp only [List.flatMap_cons, List.flatMap_nil, List.append_assoc, List.nil_append]
  repeat refine congrArg₂ HAppend.hAppend rfl ?_
  rfl

end

end AfsimNs3.Adapter
