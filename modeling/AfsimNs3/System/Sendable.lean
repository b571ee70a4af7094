import AfsimNs3.Bridge.Oversized
import AfsimNs3.Bridge.ServiceTexts

/-!
# What can be sent

The handler gets a reply out unless an exception gets past its `except` clauses. There are two ways: a reply
repeats a text of the payload that cannot be encoded, so that `send` raises (`EchoEncodable` rules it out), or reading a
new request meets an integer beyond the range of a double, whose `OverflowError` is not listed (`Oversized`).
`handle_replied_iff`: in a sound state of the service (`Sound`) these are the only ones.
-/

namespace AfsimNs3.System
open Bridge Bridge.Server Except

/-- The texts a reply repeats although the payload's strings need not have passed an encoding. -/
structure EchoEncodable (payload : Fields) : Prop where
  messageType : checkVersion (payload.get (str "protocol_version")) = .ok () → ∀ text,
    payload.get (str "message_type") = .str text → encodable text = true
  /-- A state request of such an ID fails on its digest, and the reply to that repeats nothing. -/
  requestId : ∀ text, payload.get (str "request_id") = .str text → encodable text = true ∨
    ∃ envelope, validateEnvelope (.obj payload) = .ok envelope ∧ envelope.messageType ≠ .metricsQuery

section
variable {δ : Type}

/-- The payload is a request new to the service, and the first thing wrong with it, if anything is, is an integer that
`float` cannot convert. -/
def Oversized (digestOf : Json → Except PyError δ) (s : Server δ) (payload : Json) : Prop :=
  ∃ envelope digest, StateRequest digestOf payload envelope digest ∧
    Assoc.find? s.idempotency envelope.requestId = none ∧
    s.state.Overflows envelope payload.fields

/-- What holds of the service in every reachable state. -/
structure Sound (s : Server δ) : Prop where
  unlocked : s.Unlocked
  encodable : s.Encodable
  referenced : Referenced s.state

/-- The line is of neither kind. -/
structure Answerable (py : Interpreter) (digestOf : Json → Except PyError δ) (s : Server δ) (line : Bytes) : Prop where
  echo : ∀ text payload, decode line = some text → Loads.loads py.parseNumber text = some (.obj payload) →
    EchoEncodable payload
  sized : ∀ text payload, decode line = some text → Loads.loads py.parseNumber text = some payload →
    ¬ Oversized digestOf s payload

/-! ## What is sent -/

/-- The response can be sent. -/
def Sendable (r : Responded) : Prop := ∃ fields, r = .response fields ∧ (Json.obj fields).Encodable

theorem sent_of_encodable {floatText : ℚ → Bytes} {fields : Fields} (h : (Json.obj fields).Encodable) :
    sent floatText (.response fields) = .replied (dumps floatText (.obj fields) ++ [10]) := by
  have hreply : encodeReply floatText fields = .ok (dumps floatText (.obj fields) ++ [10]) :=
    if_pos (List.all_eq_true.mpr h)
  rw [sent, hreply]

theorem sent_of_not_encodable {floatText : ℚ → Bytes} {fields : Fields} (h : ¬ (Json.obj fields).Encodable) :
    sent floatText (.response fields) = .escaped .unicode := by
  have hreply : encodeReply floatText fields = .error .unicode := if_neg fun hall => h (List.all_eq_true.mp hall)
  rw [sent, hreply]

theorem sent_replied_iff {floatText : ℚ → Bytes} {r : Responded} {reply : Bytes} :
    sent floatText r = .replied reply ↔ ∃ fields, r = .response fields ∧ (Json.obj fields).Encodable ∧
      reply = dumps floatText (.obj fields) ++ [10] := by
  constructor
  · intro hsent
    cases r with
    | response fields =>
      by_cases h : (Json.obj fields).Encodable
      · rw [sent_of_encodable h] at hsent
        exact ⟨fields, rfl, h, (Handled.replied.inj hsent).symm⟩
      · rw [sent_of_not_encodable h] at hsent
        cases hsent
    | escaped e => cases hsent
    | suspended => cases hsent
  · rintro ⟨fields, rfl, h, rfl⟩
    exact sent_of_encodable h

theorem sendable_response {fields : Fields} : Sendable (.response fields) ↔ (Json.obj fields).Encodable := by
  constructor
  · rintro ⟨fields', h, hencodable⟩
    obtain rfl := Responded.response.inj h
    exact hencodable
  · intro h
    exact ⟨fields, rfl, h⟩

theorem ack_encodable {ack : Ack} (h : encodable ack.requestId = true) : (Json.obj ack.fields).Encodable := by
  have hcoalesced : (ack.coalescedRevision.elim Json.null (fun revision => .int revision)).Encodable := by
    cases ack.coalescedRevision
    · exact Json.encodable_null
    · exact Json.encodable_int _
  simp [Ack.fields, statusFields, Json.encodable_obj, Json.encodable_str, protocolVersion, h, hcoalesced]

theorem errorResponse_encodable_iff {message requestId : Str} {timestampMs : Json} (h : timestampMs.Encodable)
    {code : ℕ} : (Json.obj (errorResponse message requestId timestampMs code)).Encodable ↔
      encodable requestId = true ∧ encodable message = true := by
  simp [errorResponse, Json.encodable_obj, Json.encodable_str, protocolVersion, h]

theorem echoedTimestamp_encodable (payload : Json) : (echoedTimestamp payload).Encodable := by
  unfold echoedTimestamp
  split
  · split <;> simp
  · simp

theorem echoedId_encodable_iff (py : Interpreter) (payload : Fields) : encodable (echoedId py (.obj payload)) = true ↔
    ∀ text, payload.get (str "request_id") = .str text → encodable text = true := by
  cases hfind : Assoc.find? payload (str "request_id") with
  | none =>
    have hget : payload.get (str "request_id") = .null := by rw [Fields.get, Fields.getD, hfind]; rfl
    have hid : echoedId py (.obj payload) = [] := by simp only [echoedId, Fields.getD, hfind, Option.getD_none]
    rw [hid, hget]
    refine iff_of_true rfl fun text htext => ?_
    cases htext
  | some v =>
    have hget : payload.get (str "request_id") = v := by rw [Fields.get, Fields.getD, hfind]; rfl
    rw [hget]
    cases v with
    | str text =>
      have hid : echoedId py (.obj payload) = text := by simp only [echoedId, Fields.getD, hfind, Option.getD_some]
      rw [hid]
      exact ⟨fun h _ htext => Json.str.inj htext ▸ h, fun h => h text rfl⟩
    | _ =>
      refine iff_of_true ?_ fun text htext => ?_
      · simp only [echoedId, Fields.getD, hfind, Option.getD_some]
        exact py.repr_encodable _
      · cases htext

end

/-! ## The envelope -/

theorem parse_encodable {text : Str} {messageType : MessageType} (h : MessageType.parse text = .ok messageType) :
    encodable text = true := by
  unfold MessageType.parse at h
  split_ifs at h with h1 h2 h3
  · rw [h1]
    exact Str.encodable_literal _
  · rw [h2]
    exact Str.encodable_literal _
  · rw [h3]
    exact Str.encodable_literal _

/-- The parts of an envelope that is accepted. -/
structure Enveloped (payload : Fields) (envelope : Envelope) : Prop where
  messageType : ∃ text, payload.get (str "message_type") = .str text ∧ encodable text = true
  requestId : ∃ text, payload.get (str "request_id") = .str text ∧ Str.strip text = envelope.requestId

theorem Enveloped.encodable_of_messageType {payload : Fields} {envelope : Envelope} (h : Enveloped payload envelope)
    {text : Str} (htext : payload.get (str "message_type") = .str text) : encodable text = true := by
  obtain ⟨text', htext', henc⟩ := h.messageType
  rw [htext'] at htext
  obtain rfl := Json.str.inj htext
  exact henc

theorem enveloped_of_ok {payload : Json} {envelope : Envelope} (h : validateEnvelope payload = .ok envelope) :
    ∃ fields, payload = .obj fields ∧ Enveloped fields envelope := by
  cases payload with
  | obj fields =>
    simp only [validateEnvelope, bind_ok_iff, pure_ok_iff] at h
    obtain ⟨-, -, messageType, ⟨text, htext, hparse⟩, requestId, hrequest, timestampMs, -, rfl⟩ := h
    obtain ⟨value, hvalue, -, rfl⟩ := requiredText_ok_iff.mp htext
    obtain ⟨value', hvalue', -, rfl⟩ := requiredText_ok_iff.mp hrequest
    exact ⟨fields, rfl, ⟨value, hvalue, Str.encodable_strip.mp (parse_encodable hparse)⟩, value', hvalue', rfl⟩
  | _ => cases h

theorem requiredText_error {data : Fields} {key : Str} {e : PyError} (h : requiredText data key = .error e) :
    e = .protocol 1002 (key ++ str " must be a non-empty string") ∧
      ∀ text, data.get key = .str text → encodable text = true := by
  unfold requiredText at h
  split at h
  · rename_i value hvalue
    split_ifs at h with hempty
    obtain rfl := Except.error.inj h
    refine ⟨rfl, fun text htext => ?_⟩
    rw [hvalue] at htext
    obtain rfl := Json.str.inj htext
    rw [← Str.encodable_strip, hempty]
    rfl
  · rename_i hother
    obtain rfl := Except.error.inj h
    exact ⟨rfl, fun text htext => absurd htext (hother text)⟩

/-- An envelope is refused with a `ProtocolError`, whose text repeats nothing but a `message_type`. -/
theorem envelope_error {payload : Json} {e : PyError} (h : validateEnvelope payload = .error e) :
    ∃ code message, e = .protocol code message ∧ (encodable message = true ↔ ∀ fields, payload = .obj fields →
      checkVersion (Fields.get fields (str "protocol_version")) = .ok () →
        ∀ text, Fields.get fields (str "message_type") = .str text → encodable text = true) := by
  cases payload with
  | obj fields =>
    -- the conclusion at this payload
    suffices hfields : ∃ code message, e = .protocol code message ∧ (encodable message = true ↔
        (checkVersion (Fields.get fields (str "protocol_version")) = .ok () →
          ∀ text, Fields.get fields (str "message_type") = .str text → encodable text = true)) by
      obtain ⟨code, message, he, hiff⟩ := hfields
      refine ⟨code, message, he, hiff.trans ⟨?_, fun hall => hall fields rfl⟩⟩
      rintro hversion fields' hsame
      obtain rfl := Json.obj.inj hsame
      exact hversion
    have hliteral : ∀ {key : Str} (text : String), encodable key = true → encodable (key ++ str text) = true :=
      fun text hkey => Str.encodable_append.mpr ⟨hkey, Str.encodable_literal text⟩
    rw [validateEnvelope] at h
    cases hversion : checkVersion (Fields.get fields (str "protocol_version")) with
    | error e' =>
      rw [hversion] at h
      obtain rfl := Except.error.inj h
      refine ⟨_, _, checkVersion_error hversion, iff_of_true (Str.encodable_literal _) fun hok => ?_⟩
      cases hok
    | ok _ =>
      rw [hversion, ok_bind] at h
      cases htype : requiredText fields (str "message_type") with
      | error e' =>
        rw [htype] at h
        obtain rfl := Except.error.inj h
        obtain ⟨rfl, htexts⟩ := requiredText_error htype
        exact ⟨_, _, rfl, iff_of_true (hliteral _ (Str.encodable_literal _)) fun _ => htexts⟩
      | ok text =>
        obtain ⟨value, hvalue, -, rfl⟩ := requiredText_ok_iff.mp htype
        have hsame : (∀ text, Fields.get fields (str "message_type") = .str text → encodable text = true) ↔
            encodable (Str.strip value) = true := by
          rw [hvalue, Str.encodable_strip]
          exact ⟨fun hall => hall value rfl, fun henc text htext => Json.str.inj htext ▸ henc⟩
        rw [htype, ok_bind] at h
        cases hparse : MessageType.parse (Str.strip value) with
        | error e' =>
          rw [hparse] at h
          obtain rfl := Except.error.inj h
          refine ⟨_, _, MessageType.parse_error hparse, ?_⟩
          rw [Str.encodable_append, and_iff_right (Str.encodable_literal _), hsame]
          exact ⟨fun henc _ => henc, fun henc => henc rfl⟩
        | ok messageType =>
          have htexts := hsame.mpr (parse_encodable hparse)
          rw [hparse, ok_bind] at h
          cases hrequest : requiredText fields (str "request_id") with
          | error e' =>
            rw [hrequest] at h
            obtain rfl := Except.error.inj h
            obtain ⟨rfl, -⟩ := requiredText_error hrequest
            exact ⟨_, _, rfl, iff_of_true (hliteral _ (Str.encodable_literal _)) fun _ => htexts⟩
          | ok requestId =>
            rw [hrequest, ok_bind] at h
            cases htime : integer fields (str "timestamp_ms") (some 0) with
            | error e' =>
              rw [htime] at h
              obtain rfl := Except.error.inj h
              obtain ⟨message, rfl⟩ := integer_error htime
              have hmessage := (integer_ends (Str.encodable_literal _) (by decide)).raised htime
              exact ⟨_, _, rfl, iff_of_true hmessage fun _ => htexts⟩
            | ok n =>
              rw [htime] at h
              cases h
  | _ =>
    obtain rfl := Except.error.inj h
    refine ⟨_, _, rfl, iff_of_true (Str.encodable_literal _) fun fields hobj => ?_⟩
    cases hobj

/-! ## A payload -/

section
variable {δ : Type} [DecidableEq δ] {py : Interpreter} {floatText : ℚ → Bytes} {sha256 : Bytes → δ} {s : Server δ}

/-- A state request of strings that can be encoded: only an oversized integer escapes. -/
theorem request_sendable_iff (hs : Sound s) {payload : Json} {envelope : Envelope} {digest : δ}
    (h : StateRequest (requestDigest floatText sha256) payload envelope digest) :
    Sendable (responded py payload (s.process (requestDigest floatText sha256) payload).2) ↔
      ¬ Oversized (requestDigest floatText sha256) s payload := by
  have hpayload := encodable_of_digest h.content
  have hid := (validateEnvelope_ends hpayload).value h.valid
  have hecho : encodable (echoedId py payload) = true := by
    obtain ⟨fields, rfl, -⟩ := enveloped_of_ok h.valid
    exact (echoedId_encodable_iff py fields).mpr fun text htext => Fields.encodable_of_get hpayload htext
  have herror : ∀ {code : ℕ} {message : Str}, encodable message = true →
      Sendable (responded py payload (.raised (.protocol code message))) := fun hmessage =>
    sendable_response.mpr ((errorResponse_encodable_iff (echoedTimestamp_encodable payload)).mpr ⟨hecho, hmessage⟩)
  -- the envelope and the digest of an oversized request are those at hand
  have hsized : Oversized (requestDigest floatText sha256) s payload →
      Assoc.find? s.idempotency envelope.requestId = none ∧
        update s.state envelope payload.fields = .error .overflow := by
    rintro ⟨envelope', digest', h', hnew, hoverflows⟩
    obtain rfl := Except.ok.inj (h.valid.symm.trans h'.valid)
    exact ⟨hnew, (StateStore.update_overflow_iff hs.referenced).mpr hoverflows⟩
  cases hcached : Assoc.find? s.idempotency envelope.requestId with
  | some entry =>
    have hnot : ¬ Oversized (requestDigest floatText sha256) s payload := by
      intro hoversized
      rw [(hsized hoversized).1] at hcached
      cases hcached
    refine iff_of_true ?_ hnot
    obtain ⟨cachedDigest, ack⟩ := entry
    by_cases hsame : cachedDigest = digest
    · subst hsame
      rw [process_of_cached hs.unlocked h hcached]
      exact sendable_response.mpr (ack_encodable (hs.encodable.replies _ (Assoc.mem_of_find? hcached)))
    · rw [process_of_reused hs.unlocked h hcached hsame]
      exact herror (Str.encodable_literal _)
  | none =>
    have hends := update_ends hs.encodable.state envelope hpayload
    cases hupdate : update s.state envelope payload.fields with
    | error e =>
      have hnot : e ≠ .overflow → ¬ Oversized (requestDigest floatText sha256) s payload := by
        intro hne hoversized
        rw [(hsized hoversized).2] at hupdate
        exact hne (Except.error.inj hupdate).symm
      rw [process_of_refused hs.unlocked h hcached hupdate]
      cases e with
      | protocol code message => exact iff_of_true (herror (hends.raised hupdate)) (hnot PyError.noConfusion)
      | unicode =>
        refine iff_of_true (sendable_response.mpr ?_) (hnot PyError.noConfusion)
        exact (errorResponse_encodable_iff (Json.encodable_int _)).mpr ⟨rfl, py.encodeError_encodable payload⟩
      | overflow =>
        have hoverflows := (StateStore.update_overflow_iff hs.referenced).mp hupdate
        refine iff_of_false ?_ (not_not.mpr ⟨envelope, digest, h, hcached, hoverflows⟩)
        rintro ⟨fields, hfields, -⟩
        cases hfields
    | ok state =>
      have hnot : ¬ Oversized (requestDigest floatText sha256) s payload := by
        intro hoversized
        rw [(hsized hoversized).2] at hupdate
        cases hupdate
      obtain ⟨snapshot, -, hprocess⟩ := process_of_update hs.unlocked h hcached hupdate
      rw [hprocess]
      exact iff_of_true (sendable_response.mpr (ack_encodable hid)) hnot

/-- A payload without a valid envelope: the reply repeats what it was refused for, and its `request_id`. -/
theorem refused_sendable_iff {payload : Json} {e : PyError} (henvelope : validateEnvelope payload = .error e) :
    Sendable (responded py payload (s.process (requestDigest floatText sha256) payload).2) ↔
      ∀ fields, payload = .obj fields → EchoEncodable fields := by
  obtain ⟨code, message, rfl, hmessage⟩ := envelope_error henvelope
  have hprocess : s.process (requestDigest floatText sha256) payload = (s, .raised (.protocol code message)) := by
    rw [process, henvelope]
  rw [hprocess]
  refine sendable_response.trans ((errorResponse_encodable_iff (echoedTimestamp_encodable payload)).trans ?_)
  rw [hmessage]
  constructor
  · rintro ⟨hid, htype⟩ fields rfl
    exact ⟨htype fields rfl, fun text htext => .inl ((echoedId_encodable_iff py fields).mp hid text htext)⟩
  · intro hecho
    refine ⟨?_, fun fields hfields => (hecho fields hfields).messageType⟩
    cases payload with
    | obj fields =>
      refine (echoedId_encodable_iff py fields).mpr fun text htext => ?_
      rcases (hecho fields rfl).requestId text htext with henc | ⟨envelope, hok, -⟩
      · exact henc
      · rw [henvelope] at hok
        cases hok
    | _ => rfl

section
variable {fields : Fields} {envelope : Envelope}

/-- A query: the answer repeats its `request_id`. -/
theorem query_sendable_iff (hs : Sound s) (henvelope : validateEnvelope (.obj fields) = .ok envelope)
    (henveloped : Enveloped fields envelope) (hquery : envelope.messageType = .metricsQuery) :
    Sendable (responded py (.obj fields) (s.process (requestDigest floatText sha256) (.obj fields)).2) ↔
      EchoEncodable fields := by
  have hprocess : s.process (requestDigest floatText sha256) (.obj fields) = (s, .latest envelope.requestId s.latest) := by
    rw [process, henvelope]
    exact if_pos hquery
  obtain ⟨value, hvalue, hstrip⟩ := henveloped.requestId
  rw [hprocess]
  refine sendable_response.trans ((encodable_answer_iff hs.encodable.latest envelope.requestId).trans ?_)
  rw [← hstrip, Str.encodable_strip]
  constructor
  · intro henc
    refine ⟨fun _ text => henveloped.encodable_of_messageType, fun text htext => .inl ?_⟩
    rw [hvalue] at htext
    obtain rfl := Json.str.inj htext
    exact henc
  · intro hecho
    rcases hecho.requestId value hvalue with henc | ⟨envelope', hok, hkind⟩
    · exact henc
    · obtain rfl := Except.ok.inj (henvelope.symm.trans hok)
      exact absurd hquery hkind

/-- A state request of which no digest can be taken: the reply repeats nothing of it. -/
theorem undigested_sendable (henvelope : validateEnvelope (.obj fields) = .ok envelope)
    (hkind : envelope.messageType ≠ .metricsQuery) {e : PyError}
    (hdigest : requestDigest floatText sha256 (.obj fields) = .error e) :
    Sendable (responded py (.obj fields) (s.process (requestDigest floatText sha256) (.obj fields)).2) := by
  have hunicode : e = .unicode := by
    rw [requestDigest, canonical] at hdigest
    split_ifs at hdigest
    · cases hdigest
    · exact (Except.error.inj hdigest).symm
  have hprocess : s.process (requestDigest floatText sha256) (.obj fields) = (s, .raised e) := by
    rw [process, henvelope]
    dsimp only
    rw [if_neg hkind, hdigest]
  rw [hprocess, hunicode]
  refine sendable_response.mpr ?_
  exact (errorResponse_encodable_iff (Json.encodable_int _)).mpr ⟨rfl, py.encodeError_encodable _⟩

end

/-- What becomes of a payload. -/
theorem payload_sendable_iff (hs : Sound s) (payload : Json) :
    Sendable (responded py payload (s.process (requestDigest floatText sha256) payload).2) ↔
      (∀ fields, payload = .obj fields → EchoEncodable fields) ∧
        ¬ Oversized (requestDigest floatText sha256) s payload := by
  cases henvelope : validateEnvelope payload with
  | error e =>
    have hnot : ¬ Oversized (requestDigest floatText sha256) s payload := by
      rintro ⟨envelope, digest, h, -⟩
      have hvalid := h.valid
      rw [henvelope] at hvalid
      cases hvalid
    rw [and_iff_left hnot]
    exact refused_sendable_iff henvelope
  | ok envelope =>
    obtain ⟨fields, rfl, henveloped⟩ := enveloped_of_ok henvelope
    have hfields : (∀ fields', Json.obj fields = .obj fields' → EchoEncodable fields') ↔ EchoEncodable fields := by
      constructor
      · exact fun hall => hall fields rfl
      · rintro hecho fields' hsame
        obtain rfl := Json.obj.inj hsame
        exact hecho
    rw [hfields]
    by_cases hquery : envelope.messageType = .metricsQuery
    · have hnot : ¬ Oversized (requestDigest floatText sha256) s (.obj fields) := by
        rintro ⟨envelope', digest, h, -⟩
        obtain rfl := Except.ok.inj (henvelope.symm.trans h.valid)
        exact h.kind hquery
      rw [and_iff_left hnot]
      exact query_sendable_iff hs henvelope henveloped hquery
    · have hecho : EchoEncodable fields :=
        ⟨fun _ _ => henveloped.encodable_of_messageType, fun _ _ => .inr ⟨envelope, henvelope, hquery⟩⟩
      rw [and_iff_right hecho]
      cases hdigest : requestDigest floatText sha256 (.obj fields) with
      | ok digest => exact request_sendable_iff hs ⟨henvelope, hquery, hdigest⟩
      | error e =>
        refine iff_of_true (undigested_sendable henvelope hquery hdigest) ?_
        rintro ⟨envelope', digest, h, -⟩
        have hcontent := h.content
        rw [hdigest] at hcontent
        cases hcontent

/-! ## A line -/

theorem handle_replied_iff (hs : Sound s) (line : Bytes) :
    (∃ reply, (s.handle py floatText (requestDigest floatText sha256) line).2 = .replied reply) ↔
      Answerable py (requestDigest floatText sha256) s line := by
  have hsent : (∃ reply, (s.handle py floatText (requestDigest floatText sha256) line).2 = .replied reply) ↔
      Sendable (s.respond py (requestDigest floatText sha256) line).2 := by
    simp only [Server.handle, sent_replied_iff]
    constructor
    · rintro ⟨reply, fields, hfields, hencodable, -⟩
      exact ⟨fields, hfields, hencodable⟩
    · rintro ⟨fields, hfields, hencodable⟩
      exact ⟨_, fields, hfields, hencodable, rfl⟩
  rw [hsent, respond]
  cases hdecode : decode line with
  | none =>
    refine iff_of_true (sendable_response.mpr ?_) ⟨fun _ _ h => ?_, fun _ _ h => ?_⟩
    · exact (errorResponse_encodable_iff (Json.encodable_int _)).mpr ⟨rfl, py.decodeError_encodable line⟩
    · rw [hdecode] at h
      cases h
    · rw [hdecode] at h
      cases h
  | some text =>
    dsimp only
    cases hloads : Loads.loads py.parseNumber text with
    | none =>
      refine iff_of_true (sendable_response.mpr ?_) ⟨fun text' _ h h' => ?_, fun text' _ h h' => ?_⟩
      · exact (errorResponse_encodable_iff (Json.encodable_int _)).mpr ⟨rfl, py.jsonError_encodable text⟩
      · obtain rfl := Option.some.inj (hdecode.symm.trans h)
        rw [hloads] at h'
        cases h'
      · obtain rfl := Option.some.inj (hdecode.symm.trans h)
        rw [hloads] at h'
        cases h'
    | some payload =>
      refine (payload_sendable_iff hs payload).trans ⟨?_, ?_⟩
      · rintro ⟨hecho, hsized⟩
        constructor
        · intro text' fields h h'
          obtain rfl := Option.some.inj (hdecode.symm.trans h)
          exact hecho fields (Option.some.inj (hloads.symm.trans h'))
        · intro text' payload' h h'
          obtain rfl := Option.some.inj (hdecode.symm.trans h)
          obtain rfl := Option.some.inj (hloads.symm.trans h')
          exact hsized
      · intro h
        refine ⟨fun fields hfields => ?_, h.sized text payload hdecode hloads⟩
        rw [hfields] at hloads
        exact h.echo text fields hdecode hloads

/-! ## The kinds of replies -/

/-- An ack, a metrics answer or an error. -/
def IsReply (fields : Fields) : Prop :=
  ∃ messageType ∈ [str "ns3_ack", str "ns3_metrics", str "ns3_error"],
    fields.get (str "message_type") = .str messageType

theorem isReply_error (message requestId : Str) (timestampMs : Json) (code : ℕ) :
    IsReply (errorResponse message requestId timestampMs code) :=
  ⟨str "ns3_error", by simp, rfl⟩

theorem isReply_responded {payload : Json} {answer : Answer} {fields : Fields}
    (h : responded py payload answer = .response fields) : IsReply fields := by
  cases answer with
  | ack ack =>
    obtain rfl := Responded.response.inj h
    exact ⟨str "ns3_ack", by simp, rfl⟩
  | latest requestId latest =>
    obtain rfl := Responded.response.inj h
    refine ⟨str "ns3_metrics", by simp, ?_⟩
    cases latest with
    | none => rfl
    | some response => rfl
  | raised e =>
    cases e with
    | protocol code message =>
      obtain rfl := Responded.response.inj h
      exact isReply_error _ _ _ _
    | overflow => cases h
    | unicode =>
      obtain rfl := Responded.response.inj h
      exact isReply_error _ _ _ _
  | suspended => cases h

theorem isReply_respond {line : Bytes} {fields : Fields}
    (h : (s.respond py (requestDigest floatText sha256) line).2 = .response fields) : IsReply fields := by
  unfold respond at h
  split at h
  · obtain rfl := Responded.response.inj h
    exact isReply_error _ _ _ _
  · split at h
    · obtain rfl := Responded.response.inj h
      exact isReply_error _ _ _ _
    · exact isReply_responded h

end

end AfsimNs3.System
