import AfsimNs3.Adapter.RoundTrip
import AfsimNs3.Adapter.SendAll
import AfsimNs3.Bridge.StreamReader
import AfsimNs3.Lib.Cut
import AfsimNs3.System.Replies

/-!
# Messages over a connection that breaks

The client writes lines in pieces and may give up inside of one; what has been written arrives up to some octet; the
service reads what arrives line by line, and takes the octets behind the last line feed for a line. A `Channel` is what
this comes to: messages are taken whole and in their order, and after the last of them there is at most one line that
is no message, to which the service replies with an error and which changes nothing.

* `follows_step`: every step of the service on the octets is a step of the channel;
* `cut_connection`: for every run of both sides, wherever the connection breaks.
-/

namespace AfsimNs3.System
open Bridge Loads
open Adapter (normalize normalize_of_printable Outgoing SocketTurn)

/-! ## The channel -/

/-- A connection that takes messages whole: the payloads taken and those it may still take. -/
structure Channel (δ : Type) where
  connection : Connection δ
  taken : List Json
  queue : List Json

namespace Channel

inductive Action where
  /-- The next message is taken and replied to. -/
  | take
  /-- A line that is no message is replied to with an error, and nothing follows it. -/
  | garbled (message : Str)
  /-- The connection ends. -/
  | finish
  /-- Something else happens in the service. -/
  | other (action : Server.Action)

def Action.other? : Action → Option Server.Action
  | .other action => some action
  | _ => none

variable {δ : Type} [DecidableEq δ] (py : Interpreter) (floatText : ℚ → Bytes) (digestOf : Json → Except PyError δ)

/-- `process` and the reply to a message. -/
def handle (c : Connection δ) (payload : Json) : Option (Connection δ) :=
  match sent floatText (responded py payload (c.server.process digestOf payload).2) with
  | .replied reply => some ({ c with server := (c.server.process digestOf payload).1 }.reply reply)
  | .escaped _ => some { c with server := (c.server.process digestOf payload).1 }.close
  | .suspended => none

def step (c : Channel δ) : Action → Option (Channel δ)
  | .take =>
    match c.queue with
    | [] => none
    | payload :: queue =>
      if c.connection.isOpen then
        (handle py floatText digestOf c.connection payload).map (fun next => ⟨next, c.taken ++ [payload], queue⟩)
      else none
  | .garbled message =>
    if c.connection.isOpen ∧ c.queue ≠ [] then
      match encodeReply floatText (errorResponse message [] (.int 0) 1001) with
      | .ok reply => some ⟨c.connection.reply reply, c.taken, []⟩
      | .error _ => none
    else none
  | .finish => if c.connection.isOpen then some ⟨c.connection.close, c.taken, []⟩ else none
  | .other action =>
    (c.connection.step py floatText digestOf (.other action)).map (fun next => { c with connection := next })

end Channel

def wireOther? : Wire.Action → Option Server.Action
  | .other action => some action
  | _ => none

/-! ## Messages and their lines -/

/-- A message of the client that the service reads. -/
structure Deliverable (py : Interpreter) (m : Doc) : Prop where
  faithful : m.Faithful
  object : ∃ fields, m.value = .obj fields
  read : Loads.loads py.parseNumber m.text = some m.value
  limit : (utf8 m.text).length < maxJsonlBytes

/-- What the client writes of a message. -/
def writtenLine (m : Doc) : Bytes := normalize (utf8 m.text)

section
variable {δ : Type} [DecidableEq δ] {py : Interpreter} {floatText : ℚ → Bytes} {digestOf : Json → Except PyError δ}
  {m : Doc}

theorem writtenLine_eq (hm : Deliverable py m) : writtenLine m = utf8 m.text ++ [10] :=
  (normalize_of_printable hm.faithful.octets).1

theorem lineFeed_notMem (hm : Deliverable py m) : (10 : UInt8) ∉ utf8 m.text := fun hmem =>
  absurd (hm.faithful.octets 10 hmem) (by decide)

theorem parseNumber_value (n : Numeral) (v : Json) (h : py.parseNumber n = some v) : some n.value = some v := by
  unfold Interpreter.parseNumber at h
  split_ifs at h
  exact h

theorem text_eq (hm : Deliverable py m) : ∃ t, m.text = 123 :: t := by
  obtain ⟨fields, hfields⟩ := hm.object
  have hreads := hm.faithful.reads
  rw [hfields] at hreads
  exact head_of_obj hreads

omit [DecidableEq δ] in
theorem deliverable_ne_nil (hm : Deliverable py m) : utf8 m.text ≠ [] := by
  obtain ⟨t, ht⟩ := text_eq hm
  intro h
  rw [ht, utf8_cons] at h
  exact nomatch (List.append_eq_nil_iff.mp h).1

/-- **A whole message is processed**, with its line feed or without. -/
theorem step_whole (hm : Deliverable py m) {c : Connection δ} (hopen : c.isOpen = true) {line : Bytes}
    (hline : line = utf8 m.text ++ [10] ∨ line = utf8 m.text) :
    c.step py floatText digestOf (.line line) = Channel.handle py floatText digestOf c m.value := by
  obtain ⟨t, ht⟩ := text_eq hm
  have hread := hm.read
  have hdecode := hm.faithful.loads.1
  have hbounds : line ≠ [] ∧ line.length ≤ maxJsonlBytes := by
    have hne := deliverable_ne_nil hm
    have hlimit := hm.limit
    rcases hline with rfl | rfl
    · refine ⟨List.append_ne_nil_of_left_ne_nil hne _, ?_⟩
      rw [List.length_append]
      exact hlimit
    · exact ⟨hne, hlimit.le⟩
  have hrespond : c.server.respond py digestOf line = ((c.server.process digestOf m.value).1,
      responded py m.value (c.server.process digestOf m.value).2) := by
    rcases hline with rfl | rfl
    · have hdecode' : decode (utf8 m.text ++ [10]) = some (m.text ++ [10]) := by
        rw [decode_append hdecode]
        rfl
      have hread' : Loads.loads py.parseNumber (m.text ++ [10]) = some m.value := by
        rw [ht] at hread ⊢
        exact loads_append_space hread rfl
      rw [Server.respond, hdecode']
      dsimp only
      rw [hread']
    · rw [Server.respond, hdecode]
      dsimp only
      rw [hread]
  have hhandle : c.server.handle py floatText digestOf line = ((c.server.process digestOf m.value).1,
      sent floatText (responded py m.value (c.server.process digestOf m.value).2)) := by
    rw [Server.handle, hrespond]
  rw [Connection.step, if_pos hopen, Connection.handleLine, if_neg hbounds.1, if_neg (not_lt.mpr hbounds.2), hhandle,
    Channel.handle]
  cases sent floatText (responded py m.value (c.server.process digestOf m.value).2) <;> rfl

/-- **A part of a message changes nothing**, and is replied to with an error. -/
theorem step_part (hm : Deliverable py m) {c : Connection δ} (hopen : c.isOpen = true) {line more : Bytes}
    (hcut : utf8 m.text = line ++ more) (hline : line ≠ []) (hmore : more ≠ []) :
    ∃ message reply, encodeReply floatText (errorResponse message [] (.int 0) 1001) = .ok reply ∧
      c.step py floatText digestOf (.line line) = some (c.reply reply) := by
  obtain ⟨t, ht⟩ := text_eq hm
  obtain ⟨hdecoded, -⟩ := hm.faithful.loads
  have hencodable : encodable m.text = true := encodable_iff.mpr fun d hd => (hm.faithful.printable d hd).2
  have hreads := hm.faithful.reads
  have hnone : (decode line).bind (Loads.loads py.parseNumber) = none := by
    rw [ht] at hreads hencodable hcut
    exact cut_octets parseNumber_value hreads hencodable hcut hmore
  have hrespond : ∃ message, encodable message = true ∧
      c.server.respond py digestOf line = (c.server, .response (errorResponse message [] (.int 0) 1001)) := by
    cases hdecode : decode line with
    | none =>
      refine ⟨py.decodeError line, py.decodeError_encodable line, ?_⟩
      rw [Server.respond, hdecode]
    | some text =>
      rw [hdecode, Option.bind_some] at hnone
      refine ⟨py.jsonError text, py.jsonError_encodable text, ?_⟩
      rw [Server.respond, hdecode]
      dsimp only
      rw [hnone]
  obtain ⟨message, hmessage, hrespond⟩ := hrespond
  have hreply : encodeReply floatText (errorResponse message [] (.int 0) 1001) =
      .ok (dumps floatText (.obj (errorResponse message [] (.int 0) 1001)) ++ [10]) :=
    if_pos (List.all_eq_true.mpr ((errorResponse_encodable_iff (Json.encodable_int 0)).mpr ⟨rfl, hmessage⟩))
  refine ⟨message, _, hreply, ?_⟩
  have hlimit : line.length ≤ maxJsonlBytes := by
    have hlength := hm.limit
    rw [hcut, List.length_append] at hlength
    omega
  have hhandle : c.server.handle py floatText digestOf line = (c.server,
      .replied (dumps floatText (.obj (errorResponse message [] (.int 0) 1001)) ++ [10])) := by
    rw [Server.handle, hrespond]
    dsimp only [sent]
    rw [hreply]
  rw [Connection.step, if_pos hopen, Connection.handleLine, if_neg hline, if_neg (not_lt.mpr hlimit), hhandle]

/-! ## The service reads what arrives -/

/-- The octets of some messages. -/
def writtenLines (messages : List Doc) : Bytes := (messages.map writtenLine).flatten

/-- The octets that arrived and the messages they were taken for. -/
structure Tracks (stream : Bytes) (done rest : List Doc) (aborted : Prop) (w : Wire δ) (c : Channel δ) : Prop where
  connection : c.connection = w.connection
  taken : c.taken = done.map Doc.value
  arrived : (writtenLines done).length ≤ stream.length + 1
  state : (c.queue = rest.map Doc.value ∧ stream = writtenLines done ++ w.unread ∧ w.unread <+: writtenLines rest) ∨
    (w.unread = [] ∧
      (aborted ∨ ∀ m ∈ rest.head?, stream.length < (writtenLines done).length + (utf8 m.text).length))

omit [DecidableEq δ] in
/-- The octets left are used up. -/
theorem Tracks.exhausted {stream : Bytes} {done rest : List Doc} {aborted : Prop} {w : Wire δ} {c : Channel δ}
    (h : Tracks stream done rest aborted w c) (hrest : ∀ m ∈ rest, Deliverable py m) (hunread : w.unread = []) :
    aborted ∨ ∀ m ∈ rest.head?, stream.length < (writtenLines done).length + (utf8 m.text).length := by
  rcases h.state with ⟨-, hstream, -⟩ | ⟨-, hcomplete⟩
  · right
    intro m hm
    have hpos : 0 < (utf8 m.text).length :=
      List.length_pos_iff.mpr (deliverable_ne_nil (hrest m (List.mem_of_head? hm)))
    rw [hstream, hunread, List.append_nil]
    omega
  · exact hcomplete

theorem writtenLines_cons (m : Doc) (rest : List Doc) : writtenLines (m :: rest) = writtenLine m ++ writtenLines rest := rfl

theorem writtenLines_append (done rest : List Doc) : writtenLines (done ++ rest) = writtenLines done ++ writtenLines rest := by
  rw [writtenLines, List.map_append, List.flatten_append]
  rfl

theorem writtenLines_append_singleton (done : List Doc) (m : Doc) :
    writtenLines (done ++ [m]) = writtenLines done ++ writtenLine m := by
  rw [writtenLines_append, writtenLines_cons]
  exact congrArg _ (List.append_nil _)

theorem length_writtenLine (hm : Deliverable py m) : (writtenLine m).length = (utf8 m.text).length + 1 := by
  rw [writtenLine_eq hm, List.length_append]
  rfl

/-- Octets that begin like a message and others behind it: a part of the message, all of it, or more. -/
theorem prefix_cases (hm : Deliverable py m) {unread others : Bytes} (h : unread <+: writtenLine m ++ others) :
    (∃ more, more ≠ [] ∧ utf8 m.text = unread ++ more) ∨ unread = utf8 m.text ∨
      ∃ u, unread = utf8 m.text ++ 10 :: u ∧ u <+: others := by
  rw [writtenLine_eq hm, List.append_assoc, List.singleton_append] at h
  rcases Nat.lt_trichotomy unread.length (utf8 m.text).length with hlt | heq | hgt
  · left
    obtain ⟨more, hmore⟩ := List.prefix_of_prefix_length_le h (List.prefix_append _ _) hlt.le
    refine ⟨more, ?_, hmore.symm⟩
    rintro rfl
    rw [← hmore, List.append_nil] at hlt
    exact absurd hlt (lt_irrefl _)
  · right
    left
    have hpre := List.prefix_of_prefix_length_le h (List.prefix_append _ _) heq.le
    exact hpre.eq_of_length heq
  · right
    right
    obtain ⟨u, hu⟩ := List.prefix_of_prefix_length_le (List.prefix_append _ _) h hgt.le
    rw [← hu, List.prefix_append_right_inj] at h
    cases u with
    | nil =>
      rw [← hu, List.append_nil] at hgt
      exact absurd hgt (lt_irrefl _)
    | cons b u =>
      obtain ⟨rfl, hu'⟩ := List.cons_prefix_cons.mp h
      exact ⟨u, hu.symm, hu'⟩

/-- The channel makes a step of its own to follow. -/
def Follows (py : Interpreter) (floatText : ℚ → Bytes) (digestOf : Json → Except PyError δ) (stream : Bytes)
    (messages : List Doc) (aborted : Prop) (action : Option Server.Action) (w : Wire δ) (c : Channel δ) : Prop :=
  ∃ step c' done rest, c.step py floatText digestOf step = some c' ∧ step.other? = action ∧
    messages = done ++ rest ∧ Tracks stream done rest aborted w c'

section Steps
variable {stream : Bytes} {done rest : List Doc} {aborted : Prop} {w w' : Wire δ} {c : Channel δ}

/-- The end of the input. -/
theorem follows_end (h : Tracks stream done rest aborted w c) (hrest : ∀ m ∈ rest, Deliverable py m)
    (hunread : w.unread = []) (hstep : w.step py floatText digestOf .read = some w') :
    Follows py floatText digestOf stream (done ++ rest) aborted none w' c := by
  have hline : readline w.unread = some ([], []) := by
    rw [hunread]
    rfl
  rw [Wire.step, hline] at hstep
  obtain ⟨next, hnext, rfl⟩ := Option.map_eq_some_iff.mp hstep
  rw [Connection.step] at hnext
  split_ifs at hnext with hopen
  obtain rfl := Option.some.inj hnext
  rw [← h.connection] at hopen ⊢
  refine ⟨.finish, ⟨c.connection.close, c.taken, []⟩, done, rest, if_pos hopen, rfl, rfl, rfl, h.taken, h.arrived, ?_⟩
  exact .inr ⟨rfl, h.exhausted hrest hunread⟩

/-- A part of the next message. -/
theorem follows_part {m : Doc} (h : Tracks stream done (m :: rest) aborted w c) (hm : Deliverable py m)
    (hqueue : c.queue = (m :: rest).map Doc.value) (hstream : stream = writtenLines done ++ w.unread)
    (hunread : w.unread ≠ []) {more : Bytes} (hmore : more ≠ []) (hcut : utf8 m.text = w.unread ++ more)
    (hstep : w.step py floatText digestOf .read = some w') :
    Follows py floatText digestOf stream (done ++ m :: rest) aborted none w' c := by
  have hlength : (utf8 m.text).length = w.unread.length + more.length := by rw [hcut, List.length_append]
  have hpos : 0 < more.length := List.length_pos_iff.mpr hmore
  have hlimit := hm.limit
  have hline : readline w.unread = some (w.unread, []) := by
    refine readline_last (fun hmem => lineFeed_notMem hm ?_) ?_
    · rw [hcut]
      exact List.mem_append_left _ hmem
    · unfold readerLimit
      omega
  rw [Wire.step, hline] at hstep
  obtain ⟨next, hnext, rfl⟩ := Option.map_eq_some_iff.mp hstep
  rw [← h.connection] at hnext
  by_cases hopen : c.connection.isOpen = true
  · have hpart : ∃ message reply, encodeReply floatText (errorResponse message [] (.int 0) 1001) = .ok reply ∧
        c.connection.step py floatText digestOf (.line w.unread) = some (c.connection.reply reply) :=
      step_part hm hopen hcut hunread hmore
    obtain ⟨message, reply, hreply, hreplied⟩ := hpart
    rw [hreplied] at hnext
    obtain rfl := Option.some.inj hnext
    refine ⟨.garbled message, ⟨c.connection.reply reply, c.taken, []⟩, done, m :: rest, ?_, rfl, rfl, rfl, h.taken,
      h.arrived, .inr ⟨rfl, .inr fun m' hm' => ?_⟩⟩
    · have hguard : c.connection.isOpen = true ∧ c.queue ≠ [] := ⟨hopen, hqueue ▸ List.cons_ne_nil _ _⟩
      rw [Channel.step, if_pos hguard, hreply]
    · obtain rfl := Option.some.inj hm'
      rw [hstream, List.length_append]
      omega
  · rw [Connection.step, if_neg hopen] at hnext
    cases hnext

/-- A whole message, with its line feed or at the end of the input. -/
theorem follows_whole {m : Doc} (h : Tracks stream done (m :: rest) aborted w c) (hm : Deliverable py m)
    (hqueue : c.queue = (m :: rest).map Doc.value) {line unread : Bytes}
    (hread : readline w.unread = some (line, unread)) (hline : line = utf8 m.text ++ [10] ∨ line = utf8 m.text)
    (harrived : (writtenLines (done ++ [m])).length ≤ stream.length + 1)
    (hstate : (stream = writtenLines (done ++ [m]) ++ unread ∧ unread <+: writtenLines rest) ∨
      (unread = [] ∧ ∀ m' ∈ rest.head?, stream.length < (writtenLines (done ++ [m])).length + (utf8 m'.text).length))
    (hstep : w.step py floatText digestOf .read = some w') :
    Follows py floatText digestOf stream (done ++ m :: rest) aborted none w' c := by
  rw [Wire.step, hread] at hstep
  obtain ⟨next, hnext, rfl⟩ := Option.map_eq_some_iff.mp hstep
  rw [← h.connection] at hnext
  by_cases hopen : c.connection.isOpen = true
  · rw [step_whole hm hopen hline] at hnext
    refine ⟨.take, ⟨next, c.taken ++ [m.value], rest.map Doc.value⟩, done ++ [m], rest, ?_, rfl, ?_, rfl, ?_,
      harrived, ?_⟩
    · rw [Channel.step, hqueue, List.map_cons]
      dsimp only
      rw [if_pos hopen, hnext]
      rfl
    · rw [List.append_assoc]
      rfl
    · rw [h.taken, List.map_append]
      rfl
    · rcases hstate with ⟨hstream, hpre⟩ | ⟨hnil, hcomplete⟩
      · exact .inl ⟨rfl, hstream, hpre⟩
      · exact .inr ⟨hnil, .inr hcomplete⟩
  · rw [Connection.step, if_neg hopen] at hnext
    cases hnext

/-- **A line is read**: the end of the input, a message, or a part of one. -/
theorem follows_read (h : Tracks stream done rest aborted w c) (hrest : ∀ m ∈ rest, Deliverable py m)
    (hstep : w.step py floatText digestOf .read = some w') :
    Follows py floatText digestOf stream (done ++ rest) aborted none w' c := by
  by_cases hunread : w.unread = []
  · exact follows_end h hrest hunread hstep
  · rcases h.state with ⟨hqueue, hstream, hpre⟩ | ⟨hnil, -⟩
    · cases rest with
      | nil => exact absurd (List.prefix_nil.mp hpre) hunread
      | cons m rest =>
        have hm := hrest m List.mem_cons_self
        have hlimit := hm.limit
        have hreader : (utf8 m.text).length ≤ readerLimit := by
          unfold readerLimit
          omega
        have hlength := length_writtenLine hm
        have hstreamLength : stream.length = (writtenLines done).length + w.unread.length := by
          rw [hstream, List.length_append]
        have hdone : (writtenLines (done ++ [m])).length = (writtenLines done).length + ((utf8 m.text).length + 1) := by
          rw [writtenLines_append_singleton, List.length_append, hlength]
        rw [writtenLines_cons] at hpre
        rcases prefix_cases hm hpre with ⟨more, hmore, hcut⟩ | hwhole | ⟨u, hu, hu'⟩
        · exact follows_part h hm hqueue hstream hunread hmore hcut hstep
        · have hread : readline w.unread = some (utf8 m.text, []) := by
            rw [hwhole]
            exact readline_last (lineFeed_notMem hm) hreader
          rw [hwhole] at hstreamLength
          refine follows_whole h hm hqueue hread (.inr rfl) (by omega) (.inr ⟨rfl, fun m' hm' => ?_⟩) hstep
          omega
        · have hread : readline w.unread = some (utf8 m.text ++ [10], u) := by
            rw [hu]
            exact readline_line (lineFeed_notMem hm) hreader
          rw [hu, List.length_append, List.length_cons] at hstreamLength
          refine follows_whole h hm hqueue hread (.inl rfl) (by omega) (.inl ⟨?_, hu'⟩) hstep
          rw [hstream, hu, writtenLines_append_singleton, writtenLine_eq hm, List.append_assoc, List.append_assoc]
          rfl
    · exact absurd hnil hunread

omit [DecidableEq δ] in
theorem Tracks.imp {aborted' : Prop} (h : Tracks stream done rest aborted w c) (himp : aborted → aborted') :
    Tracks stream done rest aborted' w c :=
  ⟨h.connection, h.taken, h.arrived, h.state.imp id fun hstate => ⟨hstate.1, hstate.2.imp himp id⟩⟩

/-- **Every step on the octets is a step of the channel.** -/
theorem follows_step (h : Tracks stream done rest aborted w c) (hrest : ∀ m ∈ rest, Deliverable py m)
    {action : Wire.Action} (hstep : w.step py floatText digestOf action = some w') :
    Follows py floatText digestOf stream (done ++ rest) (aborted ∨ action = .reset) (wireOther? action) w' c := by
  cases action with
  | read =>
    obtain ⟨step, c', done', rest', hstep', hother, hmessages, htracks⟩ := follows_read h hrest hstep
    exact ⟨step, c', done', rest', hstep', hother, hmessages, htracks.imp Or.inl⟩
  | reset =>
    rw [Wire.step] at hstep
    split_ifs at hstep with hopen
    obtain rfl := Option.some.inj hstep
    rw [← h.connection] at hopen ⊢
    exact ⟨.finish, ⟨c.connection.close, c.taken, []⟩, done, rest, if_pos hopen, rfl, rfl, rfl, h.taken, h.arrived,
      .inr ⟨rfl, .inl (.inr rfl)⟩⟩
  | other action =>
    rw [Wire.step] at hstep
    obtain ⟨next, hnext, rfl⟩ := Option.map_eq_some_iff.mp hstep
    rw [← h.connection] at hnext
    refine ⟨.other action, { c with connection := next }, done, rest, ?_, rfl, rfl, rfl, h.taken, h.arrived,
      h.state.imp id fun hstate => ⟨hstate.1, hstate.2.imp Or.inl id⟩⟩
    rw [Channel.step, hnext]
    rfl

/-- A run on the octets is a run of the channel, with the same steps of the rest of the service. -/
theorem follows_run (h : Tracks stream done rest aborted w c) (hall : ∀ m ∈ done ++ rest, Deliverable py m)
    {actions : List Wire.Action} (hrun : Machine.run (Wire.step py floatText digestOf) w actions = some w') :
    ∃ steps c' done' rest', Machine.run (Channel.step py floatText digestOf) c steps = some c' ∧
      steps.filterMap Channel.Action.other? = actions.filterMap wireOther? ∧ done ++ rest = done' ++ rest' ∧
      Tracks stream done' rest' (aborted ∨ .reset ∈ actions) w' c' := by
  induction actions generalizing done rest aborted w c with
  | nil =>
    obtain rfl := Option.some.inj hrun
    exact ⟨[], c, done, rest, rfl, rfl, rfl, h.imp Or.inl⟩
  | cons action actions ih =>
    obtain ⟨t, ht, hrun⟩ := Machine.run_cons.mp hrun
    obtain ⟨step, c₁, done₁, rest₁, hstep, hother, hmessages, h₁⟩ :=
      follows_step h (fun m hm => hall m (List.mem_append_right _ hm)) ht
    rw [hmessages] at hall
    obtain ⟨steps, c', done', rest', hsteps, hothers, hmessages', h'⟩ := ih h₁ hall hrun
    refine ⟨step :: steps, c', done', rest', Machine.run_cons.mpr ⟨c₁, hstep, hsteps⟩, ?_,
      hmessages.trans hmessages', h'.imp ?_⟩
    · rw [List.filterMap_cons, List.filterMap_cons, hother, hothers]
    · rintro ((haborted | rfl) | hmem)
      · exact .inl haborted
      · exact .inr List.mem_cons_self
      · exact .inr (List.mem_cons_of_mem _ hmem)

end Steps

/-- What has been written are the confirmed messages, and then at most a part of the one given up. -/
theorem written_prefix {messages : List Doc} {sends : List (Bytes × List SocketTurn)}
    (hsends : sends.map Prod.fst = messages.map writtenLine) {o : Outgoing}
    (hsend : Machine.run Outgoing.send Outgoing.new sends = some o) :
    o.written <+: writtenLines messages ∧ messages.length ≤ o.confirmed.length + 1 ∧
      (writtenLines (messages.take o.confirmed.length)).length ≤ o.written.length ∧
      o.confirmed.length ≤ messages.length := by
  obtain ⟨hmessages, part, hwritten, hpart, -⟩ := Outgoing.run_written hsend
  rw [hsends] at hmessages
  have hlines : writtenLines messages = o.confirmed.flatten ++ o.givenUp.toList.flatten := by
    rw [writtenLines, hmessages, List.flatten_append]
  have hlength := congrArg List.length hmessages
  rw [List.length_map, List.length_append] at hlength
  have hconfirmed : (messages.take o.confirmed.length).map writtenLine = o.confirmed := by
    rw [List.map_take, hmessages, List.take_left]
  refine ⟨?_, ?_, ?_, ?_⟩
  · rw [hwritten, hlines, List.prefix_append_right_inj]
    cases hgiven : o.givenUp with
    | none =>
      rw [hgiven] at hpart
      exact hpart
    | some message =>
      rw [hgiven] at hpart
      rwa [Option.toList_some, List.flatten_singleton]
  · have hle : o.givenUp.toList.length ≤ 1 := by
      cases o.givenUp <;> simp
    omega
  · rw [writtenLines, hconfirmed, hwritten, List.length_append]
    omega
  · omega

/-- **Wherever a connection breaks, messages are taken whole, in order, from the first on.** For every run of the
client's sends on a connection, every beginning of the octets that arrives, and every run of the service: what the
service does is what a channel of whole messages does. Only the last message the client tried may be in doubt: at most
one more message is taken than `SendAll` confirmed, and no fewer when everything written arrives and is read. -/
theorem cut_connection (py : Interpreter) (floatText : ℚ → Bytes) (digestOf : Json → Except PyError δ)
    {messages : List Doc} (hmessages : ∀ m ∈ messages, Deliverable py m)
    {sends : List (Bytes × List SocketTurn)} (hsends : sends.map Prod.fst = messages.map writtenLine) {o : Outgoing}
    (hsend : Machine.run Outgoing.send Outgoing.new sends = some o) {stream : Bytes} (hstream : stream <+: o.written)
    (server : Server δ) (client : Client) {actions : List Wire.Action} {w : Wire δ}
    (hrun : Machine.run (Wire.step py floatText digestOf) ⟨.opened server client, stream⟩ actions = some w) :
    ∃ k steps c, Machine.run (Channel.step py floatText digestOf)
        ⟨.opened server client, [], messages.map Doc.value⟩ steps = some c ∧
      steps.filterMap Channel.Action.other? = actions.filterMap wireOther? ∧
      c.connection = w.connection ∧ c.taken = (messages.take k).map Doc.value ∧
      (writtenLines (messages.take k)).length ≤ stream.length + 1 ∧ k ≤ o.confirmed.length + 1 ∧
      (stream = o.written → w.unread = [] → .reset ∉ actions → o.confirmed.length ≤ k) := by
  obtain ⟨hwritten, hdoubt, hconfirmed, hle⟩ := written_prefix hsends hsend
  have hstart : Tracks stream [] messages False (⟨.opened server client, stream⟩ : Wire δ)
      ⟨.opened server client, [], messages.map Doc.value⟩ :=
    ⟨rfl, rfl, Nat.zero_le _, .inl ⟨rfl, rfl, hstream.trans hwritten⟩⟩
  obtain ⟨steps, c, done, rest, hsteps, hothers, hsplit, h⟩ := follows_run hstart hmessages hrun
  have hdone : messages.take done.length = done := by
    rw [← List.nil_append messages, hsplit, List.take_left]
  rw [List.nil_append] at hsplit
  refine ⟨done.length, steps, c, hsteps, hothers, h.connection, ?_, ?_, ?_, fun hall hunread hreset => ?_⟩
  · rw [hdone]
    exact h.taken
  · rw [hdone]
    exact h.arrived
  · have hlength := congrArg List.length hsplit
    rw [List.length_append] at hlength
    omega
  · by_contra hlt
    rw [not_le] at hlt
    cases rest with
    | nil =>
      have hlength := congrArg List.length hsplit
      rw [List.append_nil] at hlength
      omega
    | cons m rest =>
      have hm : Deliverable py m := hmessages m (hsplit ▸ List.mem_append_right _ List.mem_cons_self)
      have hmore := (h.exhausted (fun m' hm' => hmessages m' (hsplit ▸ List.mem_append_right _ hm')) hunread).resolve_left
        (fun hor => hor.elim id hreset) m rfl
      have hsplit' : messages = (done ++ [m]) ++ rest := by rw [hsplit, List.append_assoc]; rfl
      have htake : done ++ [m] <+: messages.take o.confirmed.length := by
        rw [List.prefix_take_iff]
        refine ⟨⟨rest, hsplit'.symm⟩, ?_⟩
        rw [List.length_append, List.length_singleton]
        omega
      obtain ⟨others, hothers⟩ := htake
      have hlength : (writtenLines (messages.take o.confirmed.length)).length =
          (writtenLines done).length + ((utf8 m.text).length + 1) + (writtenLines others).length := by
        rw [← hothers, writtenLines_append, writtenLines_append_singleton, List.length_append, List.length_append,
          length_writtenLine hm]
      rw [hall] at hmore
      omega

end

/-! ## A connection that breaks in the second of two messages -/

theorem queryDoc_deliverable : Deliverable python queryDoc := by
  have hobject : ∃ fields, queryDoc.value = .obj fields := ⟨_, rfl⟩
  refine ⟨queryDoc_faithful, hobject, ?_, ?_⟩
  · rw [python_parseNumber]
    exact queryDoc_faithful.loads.2
  · show queryLine.length < maxJsonlBytes
    decide +kernel

/-- The first message is sent in one piece, five octets of the second. -/
def querySends : List (Bytes × List SocketTurn) :=
  [(writtenLine queryDoc, [.written (writtenLine queryDoc).length]), (writtenLine queryDoc, [.wouldBlock, .written 5, .failed])]

theorem querySends_written : Machine.run Outgoing.send Outgoing.new querySends =
    some ⟨writtenLine queryDoc ++ queryLine.take 5, [writtenLine queryDoc], some (writtenLine queryDoc)⟩ := by
  have hlength : (writtenLine queryDoc).length = queryLine.length + 1 := length_writtenLine queryDoc_deliverable
  have hlong : 5 < queryLine.length := by decide +kernel
  have hfirst : Adapter.sendAll (writtenLine queryDoc) [.written (writtenLine queryDoc).length] =
      some (true, writtenLine queryDoc) := by
    simp [Adapter.sendAll, Adapter.sendLoop, hlength]
  have hsecond : Adapter.sendAll (writtenLine queryDoc) [.wouldBlock, .written 5, .failed] =
      some (false, queryLine.take 5) := by
    have htake : (writtenLine queryDoc).take 5 = queryLine.take 5 := by
      rw [writtenLine_eq queryDoc_deliverable, List.take_append_of_le_length (by show 5 ≤ queryLine.length; omega)]
      rfl
    have hfive : 5 ≤ queryLine.length + 1 ∧ 5 < queryLine.length + 1 := by omega
    simp [Adapter.sendAll, Adapter.sendLoop, hlength, htake, hfive.1, hfive.2]
  simp only [querySends, Machine.run, Outgoing.send, Outgoing.new, hfirst, hsecond, Option.bind_some]
  rfl

theorem query_cut : ∃ w : Wire Bytes, Machine.run (Wire.step python (fun _ => ascii "0.5") textDigest)
      ⟨.opened Server.new 0, writtenLine queryDoc ++ queryLine.take 5⟩ [.read, .read, .read] = some w ∧
    ∃ k steps c, Machine.run (Channel.step python (fun _ => ascii "0.5") textDigest)
        ⟨.opened Server.new 0, [], [queryDoc.value, queryDoc.value]⟩ steps = some c ∧
      c.connection = w.connection ∧ c.taken = ([queryDoc, queryDoc].take k).map Loads.Doc.value ∧ 1 ≤ k ∧ k ≤ 2 := by
  have hm := queryDoc_deliverable
  have hlong : 5 < queryLine.length := by decide +kernel
  have hline : writtenLine queryDoc = queryLine ++ [10] := writtenLine_eq hm
  have hnotMem : (10 : UInt8) ∉ queryLine := lineFeed_notMem hm
  have hlimit : queryLine.length < maxJsonlBytes := hm.limit
  have hopened : Sound (Connection.opened (Server.new : Server Bytes) 0).server := new_sound.opened 0
  have hanswered : Answered python (fun _ => ascii "0.5") textDigest (.opened Server.new 0) queryLine :=
    (answered_of_sound hopened rfl (deliverable_ne_nil hm) hlimit.le).mpr (query_answerable _)
  obtain ⟨c₁, fields, hfirst, hopen₁, -, -⟩ := hanswered
  have hwhole : Connection.step python (fun _ => ascii "0.5") textDigest (.opened Server.new 0)
      (.line (queryLine ++ [10])) = some c₁ := by
    have hopen : (Connection.opened (Server.new : Server Bytes) 0).isOpen = true := rfl
    rw [← hfirst]
    exact (step_whole hm hopen (.inl rfl)).trans (step_whole hm hopen (.inr rfl)).symm
  have hpart : ∃ message reply, encodeReply (fun _ => ascii "0.5") (errorResponse message [] (.int 0) 1001) = .ok reply ∧
      c₁.step python (fun _ => ascii "0.5") textDigest (.line (queryLine.take 5)) = some (c₁.reply reply) := by
    refine step_part hm hopen₁ (List.take_append_drop 5 queryLine).symm ?_ ?_
    · rw [Ne, List.take_eq_nil_iff, ← List.length_eq_zero_iff]
      omega
    · rw [Ne, List.drop_eq_nil_iff]
      omega
  obtain ⟨message, reply, -, hsecond⟩ := hpart
  have hread₁ : readline (writtenLine queryDoc ++ queryLine.take 5) = some (queryLine ++ [10], queryLine.take 5) := by
    rw [hline, List.append_assoc]
    refine readline_line hnotMem ?_
    unfold readerLimit
    omega
  have hread₂ : readline (queryLine.take 5) = some (queryLine.take 5, []) := by
    refine readline_last (fun hmem => hnotMem (List.mem_of_mem_take hmem)) ?_
    rw [List.length_take]
    unfold readerLimit
    omega
  have hrun : Machine.run (Wire.step python (fun _ => ascii "0.5") textDigest)
      ⟨.opened Server.new 0, writtenLine queryDoc ++ queryLine.take 5⟩ [.read, .read, .read] =
      some ⟨(c₁.reply reply).close, []⟩ := by
    have hend : (c₁.reply reply).step python (fun _ => ascii "0.5") textDigest (.line []) =
        some (c₁.reply reply).close := if_pos hopen₁
    simp only [Machine.run, Wire.step, hread₁, hwhole, Option.map_some, Option.bind_some, hread₂, hsecond,
      show readline [] = some ([], []) from rfl, hend]
  have hmessages : ∀ m ∈ [queryDoc, queryDoc], Deliverable python m := by
    simp only [List.forall_mem_cons, List.not_mem_nil, false_imp_iff, implies_true, and_true]
    exact ⟨hm, hm⟩
  obtain ⟨k, steps, c, hsteps, -, hconnection, htaken, -, hmost, hleast⟩ := cut_connection python
    (fun _ => ascii "0.5") textDigest hmessages rfl querySends_written List.prefix_rfl Server.new 0 hrun
  exact ⟨_, hrun, k, steps, c, hsteps, hconnection, htaken, hleast rfl rfl (by simp), hmost⟩

end AfsimNs3.System
