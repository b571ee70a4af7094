import AfsimNs3.System.Sendable
import AfsimNs3.Lib.Doc
import AfsimNs3.Lib.Rounding

/-!
# A reply to every line

Every state the service and a connection can reach is sound (`connection_sound`), so a line is answered exactly when
nothing in it gets past the handler (`line_answered_iff`). Two lines do: one whose reply would repeat a lone surrogate,
and one with a coordinate that `float` cannot convert.
-/

namespace AfsimNs3.System
open Bridge Bridge.Server Except

/-! ## The connection -/

section
variable {δ : Type}

def Decoded : Connection.Action → Prop
  | .other action => action.Decoded
  | _ => True

variable [DecidableEq δ] {py : Interpreter} {floatText : ℚ → Bytes} {sha256 : Bytes → δ}

omit [DecidableEq δ] in
theorem new_sound : Sound (new : Server δ) := ⟨new_unlocked, new_encodable, fun h => absurd h Bool.false_ne_true⟩

omit [DecidableEq δ] in
/-- The references of an updated store were checked. -/
theorem update_referenced {state state' : StateStore} {envelope : Envelope} {payload : Fields}
    (h : update state envelope payload = .ok state') : Referenced state' := by
  unfold update at h
  split_ifs at h
  · have hstep : state.step (.init payload envelope.timestampMs) = some state' := StateStore.step_eq_some_iff.mpr h
    exact step_referenced hstep
  · have hstep : state.step (.delta payload envelope.timestampMs) = some state' := StateStore.step_eq_some_iff.mpr h
    exact step_referenced hstep

theorem Sound.step {s s' : Server δ} (h : Sound s) {action : Server.Action} (hdecoded : action.Decoded)
    (hstep : s.step (requestDigest floatText sha256) action = some s') : Sound s' := by
  refine ⟨(step_move h.unlocked hstep).unlocked h.unlocked, h.encodable.step h.unlocked hdecoded hstep, ?_⟩
  rcases step_kept_or_accepted h.unlocked hstep with hkept | ⟨payload, -, haccepted⟩
  · rw [hkept.1]
    exact h.referenced
  · obtain ⟨envelope, digest, state, snapshot, -, -, hupdate, -, rfl⟩ := haccepted.request
    exact update_referenced hupdate

theorem run_sound {actions : List Server.Action} {s : Server δ} (hdecoded : ∀ action ∈ actions, action.Decoded)
    (hrun : Machine.run (Server.step (requestDigest floatText sha256)) new actions = some s) : Sound s :=
  Machine.along_invariant Sound (fun _ _ _ h hok hstep => h.step hok hstep) new_sound
    (Machine.along_of_forall hdecoded _) hrun

/-- The handler of a line leaves the service as it was, or makes one call. -/
theorem handle_server (s : Server δ) (line : Bytes) :
    (s.handle py floatText (requestDigest floatText sha256) line).1 = s ∨
      ∃ payload, s.step (requestDigest floatText sha256) (.call payload) =
        some (s.handle py floatText (requestDigest floatText sha256) line).1 := by
  unfold Server.handle Server.respond
  split
  · exact .inl rfl
  · split
    · exact .inl rfl
    · rename_i payload _
      exact .inr ⟨payload, rfl⟩

theorem Sound.handle {s : Server δ} (h : Sound s) (line : Bytes) :
    Sound (s.handle py floatText (requestDigest floatText sha256) line).1 := by
  rcases handle_server s line with hsame | ⟨payload, hstep⟩
  · rw [hsame]
    exact h
  · have hdecoded : (Server.Action.call payload).Decoded := trivial
    exact h.step hdecoded hstep

omit [DecidableEq δ] in
theorem Sound.close {c : Connection δ} (h : Sound c.server) : Sound c.close.server where
  unlocked := ⟨h.unlocked.state, h.unlocked.pending, h.unlocked.calls, h.unlocked.worker⟩
  encodable := ⟨h.encodable.state, h.encodable.pending, h.encodable.computing, h.encodable.latest, h.encodable.replies⟩
  referenced := h.referenced

omit [DecidableEq δ] in
theorem Sound.refuse {c : Connection δ} (h : Sound c.server) (message : Str) :
    Sound (c.refuse floatText message).server := by
  unfold Connection.refuse
  split
  · exact Sound.close h
  · exact h.close

theorem Sound.connection {c c' : Connection δ} (h : Sound c.server) {action : Connection.Action}
    (hdecoded : Decoded action)
    (hstep : c.step py floatText (requestDigest floatText sha256) action = some c') : Sound c'.server := by
  cases action with
  | line line =>
    have hserver : Sound (c.server.handle py floatText (requestDigest floatText sha256) line).1 := h.handle line
    rw [Connection.step, Connection.handleLine] at hstep
    split_ifs at hstep
    · obtain rfl := Option.some.inj hstep
      exact h.close
    · obtain rfl := Option.some.inj hstep
      exact h.refuse _
    · rcases hhandle : c.server.handle py floatText (requestDigest floatText sha256) line with ⟨server, handled⟩
      rw [hhandle] at hstep hserver
      cases handled with
      | replied reply =>
        obtain rfl := Option.some.inj hstep
        exact hserver
      | escaped e =>
        obtain rfl := Option.some.inj hstep
        exact Sound.close hserver
      | suspended => cases hstep
  | overrun =>
    rw [Connection.step] at hstep
    split_ifs at hstep
    obtain rfl := Option.some.inj hstep
    exact h.refuse _
  | other action =>
    rw [Connection.step, Option.map_eq_some_iff] at hstep
    obtain ⟨server, hserver, rfl⟩ := hstep
    exact h.step hdecoded hserver

/-- A line is answered: one reply object is sent, and the handler goes on. -/
def Answered (py : Interpreter) (floatText : ℚ → Bytes) (digestOf : Json → Except PyError δ) (c : Connection δ)
    (line : Bytes) : Prop :=
  ∃ c' fields, c.step py floatText digestOf (.line line) = some c' ∧ c'.isOpen = true ∧ IsReply fields ∧
    c'.replies = c.replies ++ [dumps floatText (.obj fields) ++ [10]]

/-- In a sound service, a line within the limit. -/
theorem answered_of_sound {c : Connection δ} (h : Sound c.server) (hopen : c.isOpen = true) {line : Bytes}
    (hline : line ≠ []) (hlimit : line.length ≤ maxJsonlBytes) :
    Answered py floatText (requestDigest floatText sha256) c line ↔
      Answerable py (requestDigest floatText sha256) c.server line := by
  have hstep : c.step py floatText (requestDigest floatText sha256) (.line line) =
      c.handleLine py floatText (requestDigest floatText sha256) line := if_pos hopen
  rw [← handle_replied_iff h, Answered, hstep]
  have hreply : ∀ {reply : Bytes}, (c.server.handle py floatText (requestDigest floatText sha256) line).2 =
      .replied reply → ∃ fields, IsReply fields ∧ reply = dumps floatText (.obj fields) ++ [10] := by
    intro reply hsent
    obtain ⟨fields, hfields, -, rfl⟩ := sent_replied_iff.mp hsent
    exact ⟨fields, isReply_respond hfields, rfl⟩
  rcases hhandle : c.server.handle py floatText (requestDigest floatText sha256) line with ⟨server, handled⟩
  rw [hhandle] at hreply
  simp only [Connection.handleLine, if_neg hline, if_neg (not_lt.mpr hlimit), hhandle]
  cases handled with
  | replied reply =>
    obtain ⟨fields, hkind, rfl⟩ := hreply rfl
    exact iff_of_true ⟨_, fields, rfl, hopen, hkind, rfl⟩ ⟨_, rfl⟩
  | escaped e =>
    apply iff_of_false
    · rintro ⟨c', fields, hc', hstays, -⟩
      obtain rfl := Option.some.inj hc'
      cases hstays
    · rintro ⟨reply, hsent⟩
      cases hsent
  | suspended =>
    apply iff_of_false
    · rintro ⟨c', fields, hc', -⟩
      cases hc'
    · rintro ⟨reply, hsent⟩
      cases hsent

/-! ## Runs -/

omit [DecidableEq δ] in
theorem Sound.opened {s : Server δ} (h : Sound s) (client : Client) : Sound (Connection.opened s client).server where
  unlocked := ⟨h.unlocked.state, h.unlocked.pending, h.unlocked.calls, h.unlocked.worker⟩
  encodable := ⟨h.encodable.state, h.encodable.pending, h.encodable.computing, h.encodable.latest, h.encodable.replies⟩
  referenced := h.referenced

/-- The service stays sound along a connection. -/
theorem connection_sound {actions : List Connection.Action} (hdecoded : ∀ action ∈ actions, Decoded action)
    {c c' : Connection δ} (h : Sound c.server)
    (hrun : Machine.run (Connection.step py floatText (requestDigest floatText sha256)) c actions = some c') :
    Sound c'.server :=
  Machine.along_invariant (fun c => Sound c.server) (fun _ _ _ h hok hstep => h.connection hok hstep) h
    (Machine.along_of_forall hdecoded _) hrun

def isLine : Connection.Action → Bool
  | .line _ => true
  | _ => false

/-- What the client sends meets the condition, line by line. -/
def Orderly (py : Interpreter) (digestOf : Json → Except PyError δ) (c : Connection δ) : Connection.Action → Prop
  | .line line => line ≠ [] ∧ line.length ≤ maxJsonlBytes ∧ Answerable py digestOf c.server line
  | .overrun => False
  | .other _ => True

/-- An orderly step adds the reply to its line, and nothing else. -/
theorem orderly_step {c c' : Connection δ} (h : Sound c.server) (hopen : c.isOpen = true) {action : Connection.Action}
    (horderly : Orderly py (requestDigest floatText sha256) c action)
    (hstep : c.step py floatText (requestDigest floatText sha256) action = some c') :
    c'.isOpen = true ∧ c'.replies.length = c.replies.length + if isLine action then 1 else 0 := by
  cases action with
  | line line =>
    obtain ⟨hline, hlimit, hanswerable⟩ := horderly
    obtain ⟨c'', fields, hc'', hstays, -, hreplies⟩ := (answered_of_sound h hopen hline hlimit).mpr hanswerable
    obtain rfl := Option.some.inj (hc''.symm.trans hstep)
    refine ⟨hstays, ?_⟩
    rw [hreplies, List.length_append]
    rfl
  | overrun => exact horderly.elim
  | other action =>
    rw [Connection.step, Option.map_eq_some_iff] at hstep
    obtain ⟨server, -, rfl⟩ := hstep
    exact ⟨hopen, rfl⟩

/-- Every line of an orderly run gets its reply, and the connection stays open. -/
theorem orderly_run {actions : List Connection.Action} (hdecoded : ∀ action ∈ actions, Decoded action)
    {c c' : Connection δ} (h : Sound c.server) (hopen : c.isOpen = true)
    (horderly : Machine.Along (Connection.step py floatText (requestDigest floatText sha256))
      (Orderly py (requestDigest floatText sha256)) c actions)
    (hrun : Machine.run (Connection.step py floatText (requestDigest floatText sha256)) c actions = some c') :
    c'.isOpen = true ∧ c'.replies.length = c.replies.length + actions.countP isLine := by
  induction actions generalizing c with
  | nil =>
    obtain rfl := Option.some.inj hrun
    exact ⟨hopen, rfl⟩
  | cons action actions ih =>
    rw [List.forall_mem_cons] at hdecoded
    obtain ⟨t, ht, hrun⟩ := Machine.run_cons.mp hrun
    obtain ⟨hstays, hlength⟩ := orderly_step h hopen horderly.1 ht
    obtain ⟨hend, htotal⟩ := ih hdecoded.2 (h.connection hdecoded.1 ht) hstays (horderly.2 t ht) hrun
    refine ⟨hend, ?_⟩
    rw [htotal, hlength, List.countP_cons]
    omega

/-- **A line is answered exactly when nothing in it gets past the handler.** In every reachable state of the service and
of the connection this is `Answerable`; a client all of whose lines are gets a reply to every one. -/
theorem line_answered_iff (py : Interpreter) (floatText : ℚ → Bytes) (sha256 : Bytes → δ)
    {before : List Server.Action} (hbefore : ∀ action ∈ before, action.Decoded) {server : Server δ}
    (hserver : Machine.run (Server.step (requestDigest floatText sha256)) new before = some server) (client : Client)
    {actions : List Connection.Action} (hdecoded : ∀ action ∈ actions, Decoded action) {c : Connection δ}
    (hrun : Machine.run (Connection.step py floatText (requestDigest floatText sha256)) (.opened server client) actions =
      some c) :
    (c.isOpen = true → ∀ line, line ≠ [] → line.length ≤ maxJsonlBytes →
      (Answered py floatText (requestDigest floatText sha256) c line ↔
        Answerable py (requestDigest floatText sha256) c.server line)) ∧
    (Machine.Along (Connection.step py floatText (requestDigest floatText sha256))
        (Orderly py (requestDigest floatText sha256)) (.opened server client) actions →
      c.isOpen = true ∧ c.replies.length = actions.countP isLine) := by
  have hopened := (run_sound hbefore hserver).opened client
  constructor
  · intro hopen line hline hlimit
    exact answered_of_sound (connection_sound hdecoded hopened hrun) hopen hline hlimit
  · intro horderly
    obtain ⟨hend, htotal⟩ := orderly_run hdecoded hopened rfl horderly hrun
    exact ⟨hend, htotal.trans (Nat.zero_add _)⟩

end

/-! ## A query is answered -/

/-- An interpreter without a limit on the digits of an integer. -/
def python : Interpreter where
  maxDigits := none
  repr := fun _ => str "None"
  decodeError := fun _ => str "invalid start byte"
  jsonError := fun _ => str "Expecting value"
  encodeError := fun _ => str "surrogates not allowed"
  overrunError := str "chunk is longer than limit"
  repr_encodable := fun _ => Str.encodable_literal _
  decodeError_encodable := fun _ => Str.encodable_literal _
  jsonError_encodable := fun _ => Str.encodable_literal _
  encodeError_encodable := fun _ => Str.encodable_literal _
  overrunError_encodable := Str.encodable_literal _

theorem python_parseNumber : python.parseNumber = fun n => some n.value := by
  funext n
  exact if_neg fun h => nomatch h.2

/-- The digest is the canonical text itself, in which every float is written alike. -/
def textDigest : Json → Except PyError Bytes := requestDigest (fun _ => ascii "0.5") id

open Loads in
def queryDoc : Doc := .obj [
  (str "protocol_version", .string protocolVersion),
  (str "message_type", .string (str "metrics_query")),
  (str "request_id", .string (str "q")),
  (str "timestamp_ms", .nat 0)]

def query : Fields := [
  (str "protocol_version", .str protocolVersion),
  (str "message_type", .str (str "metrics_query")),
  (str "request_id", .str (str "q")),
  (str "timestamp_ms", .int 0)]

def queryLine : Bytes := utf8 queryDoc.text

theorem queryDoc_faithful : queryDoc.Faithful := by
  have hliteral : ∀ text : String, (Loads.Doc.string (str text)).Faithful := fun text =>
    Loads.Doc.string_faithful (Str.encodable_literal text)
  refine Loads.Doc.obj_faithful ?_ ?_ ?_
  · simp only [List.forall_mem_cons, Str.encodable_literal, List.not_mem_nil, false_imp_iff, implies_true, and_true]
  · simp only [List.map_cons, List.map_nil]
    decide +kernel
  · simp only [List.forall_mem_cons, protocolVersion, hliteral, Loads.Doc.nat_faithful, List.not_mem_nil, false_imp_iff,
      implies_true, and_true]

theorem queryLine_read : decode queryLine = some queryDoc.text ∧
    Loads.loads python.parseNumber queryDoc.text = some (.obj query) := by
  have hvalue : queryDoc.value = .obj query := by
    simp only [queryDoc, query, Loads.Doc.obj, List.map_cons, List.map_nil, Loads.Doc.nat_value]
    rfl
  rw [python_parseNumber, ← hvalue]
  exact queryDoc_faithful.loads

theorem query_answerable (s : Server Bytes) : Answerable python textDigest s queryLine := by
  obtain ⟨hdecode, hloads⟩ := queryLine_read
  have henvelope : validateEnvelope (.obj query) = .ok ⟨.metricsQuery, str "q", 0⟩ := rfl
  constructor
  · intro text payload h h'
    obtain rfl := Option.some.inj (hdecode.symm.trans h)
    obtain rfl := Json.obj.inj (Option.some.inj (hloads.symm.trans h'))
    constructor
    · intro _ text htext
      obtain rfl := Json.str.inj htext
      exact Str.encodable_literal _
    · intro text htext
      obtain rfl := Json.str.inj htext
      exact .inl (Str.encodable_literal _)
  · intro text payload h h'
    obtain rfl := Option.some.inj (hdecode.symm.trans h)
    obtain rfl := Option.some.inj (hloads.symm.trans h')
    rintro ⟨envelope, digest, hrequest, -⟩
    obtain rfl := Except.ok.inj (henvelope.symm.trans hrequest.valid)
    exact hrequest.kind rfl

/-- A fresh service answers a query, and the connection stays open. -/
theorem query_answered : ∃ c, Machine.run (Connection.step python (fun _ => ascii "0.5") textDigest)
    (.opened Server.new 0) [.line queryLine] = some c ∧ c.isOpen = true ∧ c.replies.length = 1 := by
  have hne : queryLine ≠ [] := by decide +kernel
  have hlimit : queryLine.length ≤ maxJsonlBytes := by decide +kernel
  have hanswered := ((line_answered_iff python (fun _ => ascii "0.5") id (List.forall_mem_nil _) rfl 0
    (List.forall_mem_nil _) rfl).1 rfl queryLine hne hlimit).mpr (query_answerable _)
  obtain ⟨c, -, hstep, -⟩ := hanswered
  have hrun : Machine.run (Connection.step python (fun _ => ascii "0.5") textDigest) (.opened Server.new 0)
      [.line queryLine] = some c := Machine.run_cons.mpr ⟨c, hstep, rfl⟩
  have hdecoded : ∀ action ∈ [Connection.Action.line queryLine], Decoded action :=
    List.forall_mem_singleton.mpr trivial
  exact ⟨c, hrun, (line_answered_iff python (fun _ => ascii "0.5") id (List.forall_mem_nil _) rfl 0 hdecoded hrun).2
    ⟨⟨hne, hlimit, query_answerable _⟩, fun _ _ => trivial⟩⟩

/-! ## Two lines that are not answered -/

def surrogateText : Str := str "\x7b\"request_id\":\"\\ud800\"\x7d"

/-- A line whose reply would repeat a lone surrogate. -/
def surrogateLine : Bytes := utf8 surrogateText

open Loads in
theorem reads_surrogate {parse : Numeral → Option Json} : Reads parse (str "\"\\ud800\"") (.str [0xd800]) := by
  intro fuel hfuel rest _
  have htext : str "\"\\ud800\"" = [34, 92, 117, 100, 56, 48, 48, 34] := by decide +kernel
  have hscan : scanString (92 :: 117 :: 100 :: 56 :: 48 :: 48 :: 34 :: rest) = some ([0xd800], rest) := by
    have hend : scanPieces (34 :: rest) = some ([], rest) := by
      rw [scanPieces.eq_def]
      rfl
    have hpieces : scanPieces (92 :: 117 :: 100 :: 56 :: 48 :: 48 :: 34 :: rest) = some ([.unit 0xd800], rest) := by
      simp [scanPieces, hexDigit, hend]
    rw [scanString, hpieces]
    rfl
  rw [htext] at hfuel ⊢
  cases fuel with
  | zero => exact absurd hfuel (by decide)
  | succ fuel =>
    rw [List.cons_append, value_quote]
    simp only [List.cons_append, List.nil_append, hscan]
    rfl

theorem surrogateLine_read : decode surrogateLine = some surrogateText ∧
    Loads.loads python.parseNumber surrogateText = some (.obj [(str "request_id", .str [0xd800])]) := by
  have hencodable : encodable surrogateText = true := by decide +kernel
  have htext : surrogateText = Loads.objectText [(str "request_id", str "\"\\ud800\"")] := by decide +kernel
  refine ⟨decode_utf8 hencodable, ?_⟩
  rw [htext]
  exact (Loads.reads_obj (.cons ⟨rfl, reads_surrogate⟩ .nil) (List.nodup_singleton _)).loads

open Loads in
def farEntityDoc (n : ℕ) : Doc := .obj [
  (str "entity_id", .string (str "ship")),
  (str "business_node_id", .string (str "ship")),
  (str "alive", .bool true),
  (str "position", .obj [(str "x_m", .nat n)])]

open Loads in
/-- The text of a request for an entity at the coordinate. -/
def farDoc (n : ℕ) : Doc := .obj [
  (str "protocol_version", .string protocolVersion),
  (str "message_type", .string (str "afsim_init")),
  (str "request_id", .string (str "init")),
  (str "timestamp_ms", .nat 0),
  (str "entities", .arr [farEntityDoc n]),
  (str "flows", .arr [])]

def farEntity (x : ℤ) : Fields := [
  (str "entity_id", .str (str "ship")),
  (str "business_node_id", .str (str "ship")),
  (str "alive", .bool true),
  (str "position", .obj [(str "x_m", .int x)])]

def farInit (x : ℤ) : Fields := [
  (str "protocol_version", .str protocolVersion),
  (str "message_type", .str (str "afsim_init")),
  (str "request_id", .str (str "init")),
  (str "timestamp_ms", .int 0),
  (str "entities", .arr [.obj (farEntity x)]),
  (str "flows", .arr [])]

theorem farDoc_value (n : ℕ) : (farDoc n).value = .obj (farInit n) := by
  have hentity : (farEntityDoc n).value = .obj (farEntity n) := by
    simp only [farEntityDoc, farEntity, Loads.Doc.obj, List.map_cons, List.map_nil, Loads.Doc.nat_value]
    rfl
  simp only [farDoc, farInit, Loads.Doc.obj, Loads.Doc.arr, List.map_cons, List.map_nil, Loads.Doc.nat_value, hentity]
  rfl

theorem farDoc_faithful (n : ℕ) : (farDoc n).Faithful := by
  have hliteral : ∀ text : String, (Loads.Doc.string (str text)).Faithful := fun text =>
    Loads.Doc.string_faithful (Str.encodable_literal text)
  have hposition : (Loads.Doc.obj [(str "x_m", .nat n)]).Faithful := by
    refine Loads.Doc.obj_faithful ?_ (List.nodup_singleton _) ?_
    · exact List.forall_mem_singleton.mpr (Str.encodable_literal _)
    · exact List.forall_mem_singleton.mpr (Loads.Doc.nat_faithful n)
  have hentity : (farEntityDoc n).Faithful := by
    refine Loads.Doc.obj_faithful ?_ ?_ ?_
    · simp only [List.forall_mem_cons, Str.encodable_literal, List.not_mem_nil, false_imp_iff, implies_true, and_true]
    · simp only [List.map_cons, List.map_nil]
      decide +kernel
    · simp only [List.forall_mem_cons, hliteral, Loads.Doc.bool_faithful, hposition, List.not_mem_nil, false_imp_iff,
        implies_true, and_true]
  have hentities : (Loads.Doc.arr [farEntityDoc n]).Faithful :=
    Loads.Doc.arr_faithful (List.forall_mem_singleton.mpr hentity)
  have hflows : (Loads.Doc.arr []).Faithful := Loads.Doc.arr_faithful (List.forall_mem_nil _)
  refine Loads.Doc.obj_faithful ?_ ?_ ?_
  · simp only [List.forall_mem_cons, Str.encodable_literal, List.not_mem_nil, false_imp_iff, implies_true, and_true]
  · simp only [List.map_cons, List.map_nil]
    decide +kernel
  · simp only [List.forall_mem_cons, protocolVersion, hliteral, Loads.Doc.nat_faithful, hentities, hflows,
      List.not_mem_nil, false_imp_iff, implies_true, and_true]

section
variable {x : ℤ} (h : (2 : ℚ) ^ 1025 ≤ x)
include h

theorem far_position : Position.fromDict (.obj [(str "x_m", .int x)]) = .error .overflow := by
  have hfloat : toFloat (str "x_m") (.int x) = .error .overflow := by
    unfold toFloat
    dsimp only
    rw [Double.ofRat_of_le h]
  have hget : Fields.get [(str "x_m", .int x)] (str "x_m") = .int x := by
    simp [Fields.get, Fields.getD, Assoc.find?]
  have hnumber : number [(str "x_m", .int x)] (str "x_m") none none = .error .overflow := by
    rw [number, hget, hfloat, error_bind]
  rw [Position.fromDict, hnumber, error_bind]

/-- The checks before the position pass. -/
theorem far_entity : EntityState.ofFields (farEntity x) = .error .overflow := by
  have halive : boolean (Fields.get (farEntity x) (str "alive")) (str "alive must be boolean") = .ok true := rfl
  have harrays : arrays (Fields.getD (farEntity x) (str "devices") (.arr []))
      (Fields.getD (farEntity x) (str "effect_policies") (.arr []))
      (str "devices and effect_policies must be arrays") = .ok ([], []) := rfl
  have hid : requiredText (farEntity x) (str "entity_id") = .ok (str "ship") := rfl
  have hbusiness : requiredText (farEntity x) (str "business_node_id") = .ok (str "ship") := rfl
  have hparent : optionalText (farEntity x) (str "parent_entity_id") = .ok none := rfl
  have hposition : Fields.get (farEntity x) (str "position") = .obj [(str "x_m", .int x)] := rfl
  rw [EntityState.ofFields, halive, ok_bind, harrays, ok_bind]
  dsimp only
  rw [hid, ok_bind, hbusiness, ok_bind, hparent, ok_bind, hposition, far_position h, error_bind]

theorem far_update (state : StateStore) :
    update state ⟨.afsimInit, str "init", 0⟩ (farInit x) = .error .overflow := by
  have harrays : arrays (Fields.get (farInit x) (str "entities")) (Fields.get (farInit x) (str "flows"))
      (str "afsim_init requires entities and flows") = .ok ([.obj (farEntity x)], []) := rfl
  have hindex : StateStore.indexRecords EntityState.fromDict EntityState.entityId (str "entity_id")
      [.obj (farEntity x)] = .error .overflow := by
    rw [StateStore.indexRecords, List.foldlM_cons, StateStore.indexOne, EntityState.fromDict, far_entity h]
    rfl
  rw [update, if_pos rfl, StateStore.initializeStore, harrays, ok_bind]
  dsimp only
  rw [hindex, error_bind]

/-- Wherever the request is new. -/
theorem farInit_oversized {δ : Type} (floatText : ℚ → Bytes) (sha256 : Bytes → δ) {s : Server δ}
    (hnew : Assoc.find? s.idempotency (str "init") = none) :
    Oversized (requestDigest floatText sha256) s (.obj (farInit x)) := by
  have hencodable : (Json.obj (farInit x)).Encodable := by
    simp [farInit, farEntity, Json.encodable_obj, Json.encodable_arr, Json.encodable_str, protocolVersion]
  have hstrings : (sortKeys (.obj (farInit x))).strings.all encodable = true :=
    List.all_eq_true.mpr ((encodable_sortKeys _).mpr hencodable)
  have hdigest : requestDigest floatText sha256 (.obj (farInit x)) =
      .ok (sha256 (dumps floatText (sortKeys (.obj (farInit x))))) := by
    rw [requestDigest, canonical, if_pos hstrings]
    rfl
  refine ⟨⟨.afsimInit, str "init", 0⟩, _, ⟨rfl, by decide, hdigest⟩, hnew, ?_⟩
  exact StateStore.initializeStore_overflow_iff.mp (far_update h s.state)

end

/-- A line with a coordinate beyond the range of a double. -/
def farLine : Bytes := utf8 (farDoc (10 ^ 400)).text

/-- The line gets no reply from a fresh service, or the handler does not go on. -/
def Unanswered (line : Bytes) : Prop :=
  line ≠ [] ∧ line.length ≤ maxJsonlBytes ∧
    ¬ Answered python (fun _ => ascii "0.5") textDigest (.opened Server.new 0) line

theorem unanswered_of_not_answerable {line : Bytes} (hne : line ≠ []) (hlimit : line.length ≤ maxJsonlBytes)
    (h : ¬ Answerable python textDigest (Connection.opened Server.new 0).server line) : Unanswered line := by
  have hsound : Sound (Connection.opened (Server.new : Server Bytes) 0).server :=
    Sound.opened new_sound 0
  refine ⟨hne, hlimit, fun hanswered => h ?_⟩
  exact (answered_of_sound hsound rfl hne hlimit).mp hanswered

theorem lines_unanswered : Unanswered surrogateLine ∧ Unanswered farLine := by
  constructor
  · refine unanswered_of_not_answerable (by decide +kernel) (by decide +kernel) fun h => ?_
    obtain ⟨hdecode, hloads⟩ := surrogateLine_read
    rcases (h.echo _ _ hdecode hloads).requestId [0xd800] rfl with henc | ⟨envelope, hok, -⟩
    · cases henc
    · cases hok
  · refine unanswered_of_not_answerable (by decide +kernel) (by decide +kernel) fun h => ?_
    obtain ⟨hdecode, hloads⟩ := (farDoc_faithful (10 ^ 400)).loads
    rw [← python_parseNumber, farDoc_value] at hloads
    have hbeyond : (2 : ℚ) ^ 1025 ≤ ((10 ^ 400 : ℕ) : ℤ) := by
      rw [Int.cast_natCast, Nat.cast_pow, Nat.cast_ofNat]
      calc (2 : ℚ) ^ 1025 ≤ 2 ^ (3 * 400) := pow_le_pow_right₀ (by norm_num) (by norm_num)
        _ = (2 ^ 3) ^ 400 := pow_mul 2 3 400
        _ ≤ 10 ^ 400 := pow_le_pow_left₀ (by norm_num) (by norm_num) 400
    exact h.sized _ _ hdecode hloads (farInit_oversized hbeyond _ _ rfl)

end AfsimNs3.System
