import AfsimNs3.Lib.Lines
import AfsimNs3.System.Coalescing
import AfsimNs3.System.Messages

/-!
# Late lines of an old connection

A client that loses connections and makes new ones, and the service, which handles the lines of every connection in
their order but those of several connections in any order. A connection's last lines may be lost with it.

A step is `Orderly` when the line the service handles is for a frame no older than those handled before, or is
answered from the cache, or is a delta older than the store. In a run of orderly steps the store always is the newest
frame of which a line was handled (`never_rolled_back`). An `afsim_init` has no such check: `late_init_rolls_back`.
-/

namespace AfsimNs3.System
open AfsimNs3.Bridge (StateStore Server PyError validateEnvelope)
open AfsimNs3.Bridge.Server (Kept StateRequest)
open AfsimNs3.Adapter (Submission Submitted StateDeltaTracker Indexed TcpJsonlClient LineKind submitCurrentState)

/-! ## The system -/

/-- The client and the service. `lines` are those written on each connection and not handled or lost yet. -/
structure Relay (δ : Type) where
  tracker : StateDeltaTracker
  client : TcpJsonlClient Message
  queued : List Submission
  connections : ℕ
  lines : ℕ → List Message
  handled : List Message
  service : Server δ

namespace Relay
variable {δ : Type}

def new (maxPendingMessages : ℕ) : Relay δ :=
  ⟨StateDeltaTracker.new, TcpJsonlClient.new maxPendingMessages, [], 0, fun _ => [], [], Server.new⟩

inductive Action where
  /-- A call of `SubmitCurrentState`. -/
  | submit (sub : Submission)
  | connect
  | takeNext
  | sendSuccess
  /-- `SendAll` fails, possibly after all but the line end has arrived. -/
  | sendFailure (arrived : Bool)
  | disconnect
  /-- The end of a closed connection's lines is lost. -/
  | lose (connection kept : ℕ)
  /-- The service handles the next line of a connection. -/
  | handle (connection : ℕ)
  /-- The service does something else. -/
  | work (action : Server.Action)

/-- What a call of `SubmitCurrentState` hands to the client. -/
def handOver (w : Relay δ) (sub : Submission) : Submitted → Relay δ
  | .initial message =>
    { w with
      client := w.client.queueInitial ⟨.full, w.queued.length, message⟩
      queued := w.queued ++ [sub] }
  | .delta message resync =>
    { w with
      client := (w.client.queueDelta ⟨.delta, w.queued.length, message⟩ ⟨.full, w.queued.length, resync⟩).1
      queued := w.queued ++ [sub] }
  | .noChange => w
  | .thrown _ => w

def submit (w : Relay δ) (sub : Submission) : Relay δ :=
  let (tracker, submitted) := submitCurrentState w.tracker sub
  { w with tracker := tracker }.handOver sub submitted

/-- The message in the worker's hand. -/
def current (w : Relay δ) : Option Message := w.client.connection.bind Adapter.Connection.current

/-- A message arrives on the newest connection. -/
def arrive (w : Relay δ) (messages : List Message) : Relay δ :=
  { w with lines := Function.update w.lines (w.connections - 1) (w.lines (w.connections - 1) ++ messages) }

/-- The connection is open. -/
def Open (w : Relay δ) (connection : ℕ) : Prop := w.client.connection.isSome = true ∧ connection + 1 = w.connections

instance (w : Relay δ) (connection : ℕ) : Decidable (w.Open connection) := inferInstanceAs (Decidable (_ ∧ _))

section
variable [DecidableEq δ] (digestOf : Json → Except PyError δ)

def handleNext (w : Relay δ) (connection : ℕ) : Option (Relay δ) :=
  match w.lines connection with
  | [] => none
  | message :: rest =>
    some { w with
      lines := Function.update w.lines connection rest
      handled := w.handled ++ [message]
      service := receive digestOf w.service message }

def step (w : Relay δ) : Action → Option (Relay δ)
  | .submit sub => some (w.submit sub)
  | .connect => w.client.connect.map (fun client => { w with client := client, connections := w.connections + 1 })
  | .takeNext => w.client.takeNext.map (fun client => { w with client := client })
  | .sendSuccess => w.client.sendSuccess.map (fun client => { w.arrive w.current.toList with client := client })
  | .sendFailure arrived =>
    w.client.sendFailure.map
      (fun client => { w.arrive (if arrived then w.current.toList else []) with client := client })
  | .disconnect => w.client.disconnect.map (fun client => { w with client := client })
  | .lose connection kept =>
    if w.Open connection then none
    else some { w with lines := Function.update w.lines connection ((w.lines connection).take kept) }
  | .handle connection => w.handleNext digestOf connection
  | .work action =>
    match action with
    | .call _ => none
    | action => (w.service.step digestOf action).map (fun service => { w with service := service })

end

end Relay

/-! ## What is claimed -/

namespace Relay
variable {δ : Type}

/-- Every message is sent and every line handled. -/
structure Idle (w : Relay δ) : Prop where
  lines : ∀ connection < w.connections, w.lines connection = []
  sent : ∃ sent, w.client.connection = some ⟨none, sent⟩
  pending : w.client.mPending = []

/-- The store is the newest frame of which a line was handled, and in the end the newest frame queued. -/
structure UpToDate (w : Relay δ) : Prop where
  newest : w.handled ≠ [] → ∃ m ∈ w.handled, (∀ m' ∈ w.handled, m'.frame ≤ m.frame) ∧
    ∃ sub, w.queued[m.frame]? = some sub ∧ Mirrors w.service.state sub
  idle : w.Idle → ∀ sub, w.queued.getLast? = some sub → Mirrors w.service.state sub

/-! ## Orderly steps -/

def messagesOf : Submitted → List (Option Json)
  | .initial message => [message]
  | .delta message resync => [message, resync]
  | .noChange => []
  | .thrown _ => []

section
variable (digestOf : Json → Except PyError δ)

/-- The client submits a valid frame under new IDs, no older than the frames before. -/
structure Acceptable (w : Relay δ) (sub : Submission) : Prop where
  valid : Valid sub
  named : ∀ id ∈ requestIds sub, id ≠ []
  unused : ∀ q ∈ w.queued, ∀ id ∈ requestIds q, id ∉ requestIds sub
  later : ∀ q ∈ w.queued, q.timestampMs ≤ sub.timestampMs
  digested : ∀ payload ∈ (messagesOf (submitCurrentState w.tracker sub).2).filterMap id,
    (digestOf payload).isOk = true

/-- The line is for a frame no older than those handled before, or it is ignored. -/
def InOrder (w : Relay δ) (message : Message) : Prop :=
  (∀ m ∈ w.handled, m.frame ≤ message.frame) ∨ ∃ payload ∈ message.payload, Ignored w.service payload

def Orderly (w : Relay δ) : Action → Prop
  | .submit sub => w.Acceptable digestOf sub
  | .handle connection => ∀ message ∈ (w.lines connection).head?, w.InOrder message
  | _ => True

instance (w : Relay δ) (sub : Submission) : Decidable (w.Acceptable digestOf sub) :=
  decidable_of_iff (_ ∧ _ ∧ _ ∧ _ ∧ _) ⟨fun ⟨h₁, h₂, h₃, h₄, h₅⟩ => ⟨h₁, h₂, h₃, h₄, h₅⟩,
    fun h => ⟨h.valid, h.named, h.unused, h.later, h.digested⟩⟩

instance (w : Relay δ) (message : Message) : Decidable (w.InOrder message) :=
  inferInstanceAs (Decidable ((∀ m ∈ w.handled, m.frame ≤ message.frame) ∨
    ∃ payload ∈ message.payload, Ignored w.service payload))

instance (w : Relay δ) : (action : Action) → Decidable (w.Orderly digestOf action)
  | .submit sub => inferInstanceAs (Decidable (w.Acceptable digestOf sub))
  | .handle connection => inferInstanceAs (Decidable (∀ message ∈ (w.lines connection).head?, w.InOrder message))
  | .connect => .isTrue trivial
  | .takeNext => .isTrue trivial
  | .sendSuccess => .isTrue trivial
  | .sendFailure _ => .isTrue trivial
  | .disconnect => .isTrue trivial
  | .lose _ _ => .isTrue trivial
  | .work _ => .isTrue trivial

end

end Relay

/-! ## The invariant -/

namespace Relay
variable {δ : Type}

/-- What the client has for the open connection. -/
def inHand (w : Relay δ) : List Message := w.current.toList ++ w.client.mPending

/-- The lines of a connection that are still to be handled, with what the client has for it. -/
def tail (w : Relay δ) (connection : ℕ) : List Message :=
  if w.Open connection then w.lines connection ++ w.inHand else w.lines connection

/-- The frames up to the last of these messages. -/
def reach (messages : List Message) : ℕ := messages.getLast?.elim 0 (fun m => m.frame + 1)

section
variable (digestOf : Json → Except PyError δ)

/-- `front` is the newest connection a line of which was handled, `shown` the last line handled of it. -/
structure Inv (w : Relay δ) (front : ℕ) (shown : Option Message) : Prop where
  ordered : Lines.Ordered Message.frame (fun m => m.kind = .full) w.tail front shown
  fresh : ∀ i, w.connections ≤ i → w.lines i = []
  within : front < w.connections ∨ shown = none
  unstarted : shown = none → front = 0
  opened : w.client.connection.isSome = true → 0 < w.connections ∧
    reach (Lines.context front shown (w.connections - 1) ++ w.tail (w.connections - 1)) = w.queued.length
  genuine : ∀ i, ∀ m ∈ w.tail i, Genuine digestOf w.queued m
  resync : reach w.client.mResync.toList = w.queued.length ∧
    ∀ m ∈ w.client.mResync, m.kind = .full ∧ Genuine digestOf w.queued m
  handled : (∀ m ∈ w.handled, ∃ a ∈ shown, m.frame ≤ a.frame) ∧ ∀ a ∈ shown, a ∈ w.handled
  proper : Proper w.queued
  tracks : w.queued = [] ∧ w.tracker = StateDeltaTracker.new ∨
    ∃ sub, w.queued.getLast? = some sub ∧ Baseline w.tracker sub
  unlocked : w.service.Unlocked
  remembers : Remembers w.queued shown w.service
  presents : ∀ m ∈ shown, PresentsFrame w.queued m.frame w.service.state

end

theorem tail_of_not_open {w : Relay δ} {i : ℕ} (h : ¬ w.Open i) : w.tail i = w.lines i := if_neg h

theorem lines_isPrefix (w : Relay δ) (i : ℕ) : w.lines i <+: w.tail i := by
  unfold tail
  split_ifs
  · exact List.prefix_append _ _
  · exact List.prefix_refl _

section
variable {digestOf : Json → Except PyError δ} {w : Relay δ} {front : ℕ} {shown : Option Message}

theorem inv_new (maxPendingMessages : ℕ) : Inv digestOf (new maxPendingMessages : Relay δ) 0 none := by
  have htail : (new maxPendingMessages : Relay δ).tail = fun _ => [] := by
    funext i
    exact tail_of_not_open fun h => Bool.false_ne_true h.1
  refine
    { ordered := ?_
      fresh := fun _ _ => rfl
      within := .inr rfl
      unstarted := fun _ => rfl
      opened := fun h => absurd h Bool.false_ne_true
      genuine := fun i m hm => ?_
      resync := ⟨rfl, fun m hm => absurd hm (Option.not_mem_none m)⟩
      handled := ⟨fun m hm => absurd hm List.not_mem_nil, fun m hm => absurd hm (Option.not_mem_none m)⟩
      proper := ⟨?_, ?_, ?_, ?_⟩
      tracks := .inl ⟨rfl, rfl⟩
      unlocked := Server.new_unlocked
      remembers := fun e he => absurd he List.not_mem_nil
      presents := fun m hm => absurd hm (Option.not_mem_none m) }
  · rw [htail]
    exact Lines.ordered_new
  · rw [htail] at hm
    exact absurd hm List.not_mem_nil
  · exact fun sub hsub => absurd hsub List.not_mem_nil
  · exact fun sub hsub => absurd hsub List.not_mem_nil
  · exact fun n n' sub sub' hsub => nomatch hsub
  · exact fun n n' sub sub' _ hsub => nomatch hsub

/-- The client and the lines replaced. -/
def exchange (w : Relay δ) (client : TcpJsonlClient Message) (lines : ℕ → List Message) : Relay δ :=
  { w with client := client, lines := lines }

theorem tail_of_connected {c : Adapter.Connection Message} (hc : w.client.connection = some c)
    (hpos : 0 < w.connections) : w.tail = Function.update w.lines (w.connections - 1)
      (w.lines (w.connections - 1) ++ (c.current.toList ++ w.client.mPending)) := by
  funext i
  unfold tail
  rcases eq_or_ne i (w.connections - 1) with rfl | hne
  · have hopen : w.Open (w.connections - 1) := ⟨by rw [hc]; rfl, by omega⟩
    rw [if_pos hopen, Function.update_self, inHand, current, hc]
    rfl
  · rw [if_neg fun h => hne (by have := h.2; omega), Function.update_of_ne hne]

theorem tail_of_closed (hclosed : w.client.connection = none) : w.tail = w.lines := by
  funext i
  refine tail_of_not_open fun h => ?_
  have hsome := h.1
  rw [hclosed] at hsome
  exact Bool.false_ne_true hsome

/-- A step of the connection that moves messages along, or loses the last of them. -/
theorem Inv.shrink (h : Inv digestOf w front shown) {client : TcpJsonlClient Message} {lines : ℕ → List Message}
    (htail : ∀ i, (w.exchange client lines).tail i <+: w.tail i) (hfresh : ∀ i, w.connections ≤ i → lines i = [])
    (hresync : client.mResync = w.client.mResync)
    (hopen : client.connection.isSome = true → w.client.connection.isSome = true ∧
      (w.exchange client lines).tail (w.connections - 1) = w.tail (w.connections - 1)) :
    Inv digestOf (w.exchange client lines) front shown := by
  refine
    { ordered := h.ordered.shrink htail
      fresh := hfresh
      within := h.within
      unstarted := h.unstarted
      opened := fun hsome => ?_
      genuine := fun i m hm => h.genuine i m ((htail i).subset hm)
      resync := ?_
      handled := h.handled
      proper := h.proper
      tracks := h.tracks
      unlocked := h.unlocked
      remembers := h.remembers
      presents := h.presents }
  · obtain ⟨hwas, heq⟩ := hopen hsome
    have hreach := h.opened hwas
    rw [← heq] at hreach
    exact hreach
  · show reach client.mResync.toList = _ ∧ ∀ m ∈ client.mResync, _
    rw [hresync]
    exact h.resync

/-! ## Steps of the connection -/

theorem isSome_of_some {c : Adapter.Connection Message} (hc : w.client.connection = some c) :
    w.client.connection.isSome = true := by
  rw [hc]
  rfl

theorem inv_takeNext (h : Inv digestOf w front shown) {client : TcpJsonlClient Message}
    (hstep : w.client.takeNext = some client) : Inv digestOf { w with client := client } front shown := by
  unfold TcpJsonlClient.takeNext at hstep
  split at hstep
  · rename_i sent json rest hconnection hpending
    have hopen := isSome_of_some hconnection
    have hpos := (h.opened hopen).1
    have hc : client.connection = some ⟨some json, sent⟩ := by rw [← Option.some.inj hstep]
    have htail : (w.exchange client w.lines).tail = w.tail := by
      rw [tail_of_connected (w := w.exchange client w.lines) hc hpos, tail_of_connected hconnection hpos, hpending,
        ← Option.some.inj hstep]
      rfl
    exact h.shrink (fun i => htail ▸ List.prefix_refl _) h.fresh (by rw [← Option.some.inj hstep])
      fun _ => ⟨hopen, congrFun htail _⟩
  · cases hstep

theorem arrive_fresh (h : Inv digestOf w front shown) (hpos : 0 < w.connections) (messages : List Message) :
    ∀ i, w.connections ≤ i → (w.arrive messages).lines i = [] := by
  intro i hi
  show Function.update w.lines (w.connections - 1) _ i = []
  rw [Function.update_of_ne (by omega)]
  exact h.fresh i hi

theorem inv_sendSuccess (h : Inv digestOf w front shown) {client : TcpJsonlClient Message}
    (hstep : w.client.sendSuccess = some client) :
    Inv digestOf { w.arrive w.current.toList with client := client } front shown := by
  unfold TcpJsonlClient.sendSuccess at hstep
  split at hstep
  · rename_i json sent hconnection
    have hopen := isSome_of_some hconnection
    have hpos := (h.opened hopen).1
    have hc : client.connection = some ⟨none, sent ++ [json]⟩ := by rw [← Option.some.inj hstep]
    have hpending : client.mPending = w.client.mPending := by rw [← Option.some.inj hstep]
    have hcurrent : w.current = some json := by rw [current, hconnection]; rfl
    have htail : (w.exchange client (w.arrive w.current.toList).lines).tail = w.tail := by
      rw [tail_of_connected (w := w.exchange client _) hc hpos, tail_of_connected hconnection hpos, hcurrent]
      show Function.update (Function.update w.lines _ (w.lines (w.connections - 1) ++ [json])) (w.connections - 1)
        (Function.update w.lines _ (w.lines (w.connections - 1) ++ [json]) (w.connections - 1) ++
          ([] ++ client.mPending)) = _
      rw [Function.update_idem, Function.update_self, List.append_assoc, hpending]
      rfl
    exact h.shrink (fun i => htail ▸ List.prefix_refl _) (arrive_fresh h hpos _) (by rw [← Option.some.inj hstep])
      fun _ => ⟨hopen, congrFun htail _⟩
  · cases hstep

theorem inv_sendFailure (h : Inv digestOf w front shown) {arrived : Bool} {client : TcpJsonlClient Message}
    (hstep : w.client.sendFailure = some client) :
    Inv digestOf { w.arrive (if arrived then w.current.toList else []) with client := client } front shown := by
  unfold TcpJsonlClient.sendFailure at hstep
  split at hstep
  · rename_i json sent hconnection
    have hpos := (h.opened (isSome_of_some hconnection)).1
    have hc : client.connection = none := by rw [← Option.some.inj hstep]
    have hcurrent : w.current = some json := by rw [current, hconnection]; rfl
    refine h.shrink (fun i => ?_) (arrive_fresh h hpos _) (by rw [← Option.some.inj hstep]) fun hsome => ?_
    · rw [tail_of_closed (w := w.exchange client _) hc, tail_of_connected hconnection hpos, hcurrent]
      show Function.update w.lines _ (w.lines _ ++ _) i <+: _
      rcases eq_or_ne i (w.connections - 1) with rfl | hne
      · rw [Function.update_self, Function.update_self, List.prefix_append_right_inj]
        cases arrived with
        | false => exact List.nil_prefix
        | true => exact List.prefix_append _ _
      · rw [Function.update_of_ne hne, Function.update_of_ne hne]
    · rw [hc] at hsome
      exact absurd hsome Bool.false_ne_true
  · cases hstep

theorem inv_disconnect (h : Inv digestOf w front shown) {client : TcpJsonlClient Message}
    (hstep : w.client.disconnect = some client) : Inv digestOf { w with client := client } front shown := by
  unfold TcpJsonlClient.disconnect at hstep
  split at hstep
  · have hc : client.connection = none := by rw [← Option.some.inj hstep]
    refine h.shrink (fun i => ?_) h.fresh (by rw [← Option.some.inj hstep]) fun hsome => ?_
    · rw [tail_of_closed (w := w.exchange client w.lines) hc]
      exact lines_isPrefix w i
    · rw [hc] at hsome
      exact absurd hsome Bool.false_ne_true
  · cases hstep

theorem inv_lose (h : Inv digestOf w front shown) {i : ℕ} (hclosed : ¬ w.Open i) (kept : ℕ) :
    Inv digestOf { w with lines := Function.update w.lines i ((w.lines i).take kept) } front shown := by
  have hother : ∀ j, j ≠ i →
      (w.exchange w.client (Function.update w.lines i ((w.lines i).take kept))).tail j = w.tail j := by
    intro j hj
    show (if w.Open j then Function.update w.lines i _ j ++ w.inHand else Function.update w.lines i _ j) = _
    rw [Function.update_of_ne hj]
    rfl
  refine h.shrink (fun j => ?_) (fun j hj => ?_) rfl fun hsome => ⟨hsome, hother _ fun heq => hclosed ⟨hsome, ?_⟩⟩
  · rcases eq_or_ne j i with rfl | hne
    · have hopen : ¬ (w.exchange w.client (Function.update w.lines j ((w.lines j).take kept))).Open j := hclosed
      have hkept : (w.exchange w.client (Function.update w.lines j ((w.lines j).take kept))).lines j =
          (w.lines j).take kept := Function.update_self ..
      rw [tail_of_not_open hopen, hkept, tail_of_not_open hclosed]
      exact List.take_prefix _ _
    · rw [hother j hne]
  · rcases eq_or_ne j i with rfl | hne
    · rw [Function.update_self, h.fresh j hj, List.take_nil]
    · rw [Function.update_of_ne hne]
      exact h.fresh j hj
  · have hpos := (h.opened hsome).1
    omega

theorem Inv.frame_lt (h : Inv digestOf w front shown) {i : ℕ} {m : Message} (hm : m ∈ w.tail i) :
    m.frame < w.queued.length := (h.genuine i m hm).frame_lt

theorem Inv.shown_lt (h : Inv digestOf w front shown) {m : Message} (hm : m ∈ shown) : m.frame < w.queued.length := by
  obtain ⟨sub, hsub, -⟩ := h.presents m hm
  exact (List.getElem?_eq_some_iff.mp hsub).choose

theorem Inv.context_next (h : Inv digestOf w front shown) : Lines.context front shown w.connections = [] := by
  unfold Lines.context
  rcases h.within with hlt | rfl
  · rw [if_neg (by omega)]
  · exact ite_self _

theorem inv_connect (h : Inv digestOf w front shown) {client : TcpJsonlClient Message}
    (hstep : w.client.connect = some client) :
    Inv digestOf { w with client := client, connections := w.connections + 1 } front shown := by
  unfold TcpJsonlClient.connect at hstep
  split at hstep
  · rename_i hclosed
    have hc : client.connection = some ⟨w.client.mResync, []⟩ := by rw [← Option.some.inj hstep]
    have hpending : client.mPending = [] := by rw [← Option.some.inj hstep]
    have hresync : client.mResync = w.client.mResync := by rw [← Option.some.inj hstep]
    have hwas : w.tail = w.lines := tail_of_closed hclosed
    have htail : ({ w with client := client, connections := w.connections + 1 } : Relay δ).tail =
        Function.update w.tail w.connections w.client.mResync.toList := by
      refine (tail_of_connected (w := { w with client := client, connections := w.connections + 1 }) hc
        (Nat.succ_pos _)).trans ?_
      show Function.update w.lines w.connections (w.lines w.connections ++ (_ ++ client.mPending)) = _
      rw [h.fresh _ le_rfl, hpending, List.append_nil, hwas]
      rfl
    have hempty : ∀ j, w.connections ≤ j → w.tail j = [] := fun j hj => (congrFun hwas j).trans (h.fresh j hj)
    refine
      { ordered := ?_
        fresh := fun i hi => h.fresh i (by have : w.connections + 1 ≤ i := hi; omega)
        within := h.within.imp_left fun hlt => Nat.lt_succ_of_lt hlt
        unstarted := h.unstarted
        opened := fun _ => ⟨Nat.succ_pos _, ?_⟩
        genuine := fun i m hm => ?_
        resync := ?_
        handled := h.handled
        proper := h.proper
        tracks := h.tracks
        unlocked := h.unlocked
        remembers := h.remembers
        presents := h.presents }
    · rw [htail]
      cases hm : w.client.mResync with
      | none =>
        have hsame : Function.update w.tail w.connections [] = w.tail := by
          rw [← hempty _ le_rfl, Function.update_eq_self]
        show Lines.Ordered _ _ (Function.update w.tail w.connections []) front shown
        rw [hsame]
        exact h.ordered
      | some m =>
        obtain ⟨hreach, hfull⟩ := h.resync
        rw [hm] at hreach hfull
        have hframe : m.frame + 1 = w.queued.length := hreach
        have hpush : Lines.Ordered Message.frame (fun m => m.kind = .full)
            (Function.update w.tail w.connections ([] ++ [m])) front shown := by
          refine h.ordered.push ?_ (fun j hj => hempty j hj.le) List.nil_prefix (fun j a ha => ?_) (fun a ha => ?_)
            ?_ (.inl (hfull m rfl).1)
          · rcases h.within with hlt | hnone
            · omega
            · have hzero := h.unstarted hnone
              omega
          · have hlt := h.frame_lt ha
            omega
          · have hlt := h.shown_lt ha
            omega
          · rw [h.context_next]
            exact List.forall_mem_nil _
        exact hpush
    · show reach (Lines.context front shown w.connections ++ _) = _
      rw [h.context_next, htail, List.nil_append]
      show reach (Function.update w.tail w.connections _ w.connections) = _
      rw [Function.update_self]
      exact h.resync.1
    · rw [htail] at hm
      rcases eq_or_ne i w.connections with rfl | hne
      · rw [Function.update_self] at hm
        exact (h.resync.2 m (Option.mem_toList.mp hm)).2
      · rw [Function.update_of_ne hne] at hm
        exact h.genuine i m hm
    · show reach client.mResync.toList = _ ∧ ∀ m ∈ client.mResync, _
      rw [hresync]
      exact h.resync
  · cases hstep

/-! ## Frames that are queued -/

theorem reach_append_singleton (messages : List Message) (m : Message) : reach (messages ++ [m]) = m.frame + 1 := by
  rw [reach, List.getLast?_append, List.getLast?_singleton]
  rfl

theorem queued_isPrefix (w : Relay δ) (sub : Submission) : w.queued <+: w.queued ++ [sub] := List.prefix_append _ _

theorem presents_grown {queued queued' : List Submission} (hgrown : queued <+: queued') {n : ℕ} {s : StateStore}
    (h : PresentsFrame queued n s) : PresentsFrame queued' n s := by
  obtain ⟨sub, hsub, hpresents⟩ := h
  exact ⟨sub, getElem?_of_grown hgrown hsub, hpresents⟩

theorem remembers_grown {queued queued' : List Submission} (hgrown : queued <+: queued') {s : Server δ}
    (h : Remembers queued shown s) : Remembers queued' shown s := by
  intro e he
  obtain ⟨n, sub, hsub, hid, hle⟩ := h e he
  exact ⟨n, sub, getElem?_of_grown hgrown hsub, hid, hle⟩

/-- What a call queues: a message for the frame behind what stays in the queue, and its full snapshot. -/
structure Enqueued (digestOf : Json → Except PyError δ) (w : Relay δ) (sub : Submission)
    (client : TcpJsonlClient Message) (kept : List Message) (m resync : Message) : Prop where
  connection : client.connection = w.client.connection
  pending : client.mPending = kept ++ [m]
  stays : kept <+: w.client.mPending
  resynced : client.mResync = some resync
  frame : m.frame = w.queued.length
  genuine : Genuine digestOf (w.queued ++ [sub]) m
  resyncFull : resync.kind = .full ∧ resync.frame = w.queued.length
  resyncGenuine : Genuine digestOf (w.queued ++ [sub]) resync
  link : m.kind = .full ∨ kept = w.client.mPending ∧ w.queued ≠ []

theorem inv_enqueue (h : Inv digestOf w front shown) {sub : Submission} {tracker : StateDeltaTracker}
    {client : TcpJsonlClient Message} {kept : List Message} {m resync : Message}
    (henqueued : Enqueued digestOf w sub client kept m resync) (hproper : Proper (w.queued ++ [sub]))
    (hbase : Baseline tracker sub) :
    Inv digestOf { w with tracker := tracker, client := client, queued := w.queued ++ [sub] } front shown := by
  have hframe := henqueued.frame
  have hlength : (w.queued ++ [sub]).length = w.queued.length + 1 := by rw [List.length_append, List.length_singleton]
  have hgrown : ∀ {a : Message}, Genuine digestOf w.queued a → Genuine digestOf (w.queued ++ [sub]) a :=
    fun ha => ha.grown (queued_isPrefix w sub)
  have hresync : reach client.mResync.toList = (w.queued ++ [sub]).length ∧
      ∀ a ∈ client.mResync, a.kind = .full ∧ Genuine digestOf (w.queued ++ [sub]) a := by
    rw [henqueued.resynced]
    refine ⟨?_, fun a ha => ?_⟩
    · rw [hlength, ← henqueued.resyncFull.2]
      rfl
    · obtain rfl := Option.some.inj ha
      exact ⟨henqueued.resyncFull.1, henqueued.resyncGenuine⟩
  have hrest : ∀ {tail'}, ({ w with tracker := tracker, client := client, queued := w.queued ++ [sub] } : Relay δ).tail =
      tail' → Lines.Ordered Message.frame (fun m => m.kind = .full) tail' front shown →
      (client.connection.isSome = true → 0 < w.connections ∧
        reach (Lines.context front shown (w.connections - 1) ++ tail' (w.connections - 1)) = (w.queued ++ [sub]).length) →
      (∀ i, ∀ a ∈ tail' i, Genuine digestOf (w.queued ++ [sub]) a) →
      Inv digestOf { w with tracker := tracker, client := client, queued := w.queued ++ [sub] } front shown := by
    rintro tail' rfl hordered hopened hgenuine
    exact
      { ordered := hordered
        fresh := h.fresh
        within := h.within
        unstarted := h.unstarted
        opened := hopened
        genuine := hgenuine
        resync := hresync
        handled := h.handled
        proper := hproper
        tracks := .inr ⟨sub, List.getLast?_concat, hbase⟩
        unlocked := h.unlocked
        remembers := remembers_grown (queued_isPrefix w sub) h.remembers
        presents := fun a ha => presents_grown (queued_isPrefix w sub) (h.presents a ha) }
  cases hc : w.client.connection with
  | none =>
    have hc' : client.connection = none := henqueued.connection.trans hc
    have htail : ({ w with tracker := tracker, client := client, queued := w.queued ++ [sub] } : Relay δ).tail = w.tail :=
      (tail_of_closed hc').trans (tail_of_closed hc).symm
    refine hrest htail h.ordered (fun hsome => ?_) fun i a ha => hgrown (h.genuine i a ha)
    rw [hc'] at hsome
    exact absurd hsome Bool.false_ne_true
  | some c =>
    have hc' : client.connection = some c := henqueued.connection.trans hc
    obtain ⟨hpos, hreach⟩ := h.opened (isSome_of_some hc)
    have hwas := tail_of_connected hc hpos
    have hlast : w.tail (w.connections - 1) =
        w.lines (w.connections - 1) ++ (c.current.toList ++ w.client.mPending) := by
      rw [hwas, Function.update_self]
    have htail : ({ w with tracker := tracker, client := client, queued := w.queued ++ [sub] } : Relay δ).tail =
        Function.update w.tail (w.connections - 1)
          ((w.lines (w.connections - 1) ++ (c.current.toList ++ kept)) ++ [m]) := by
      refine (tail_of_connected (w := { w with tracker := tracker, client := client, queued := w.queued ++ [sub] })
        hc' hpos).trans ?_
      rw [hwas, Function.update_idem, henqueued.pending]
      simp only [List.append_assoc]
    have hkept : w.lines (w.connections - 1) ++ (c.current.toList ++ kept) <+: w.tail (w.connections - 1) := by
      rw [hlast, List.prefix_append_right_inj, List.prefix_append_right_inj]
      exact henqueued.stays
    have hbelow : ∀ a ∈ Lines.context front shown (w.connections - 1), a.frame < m.frame := by
      intro a ha
      unfold Lines.context at ha
      split_ifs at ha
      · rw [hframe]
        exact h.shown_lt (Option.mem_toList.mp ha)
      · exact absurd ha List.not_mem_nil
    refine hrest htail ?_ (fun _ => ⟨hpos, ?_⟩) fun i a ha => ?_
    · refine h.ordered.push ?_ (fun j hj => ?_) hkept (fun j a ha => ?_) (fun a ha => ?_) (fun a ha => ?_) ?_
      · rcases h.within with hlt | hnone
        · omega
        · have hzero := h.unstarted hnone
          omega
      · rw [hwas, Function.update_of_ne (by omega)]
        exact h.fresh j (by omega)
      · have hlt := h.frame_lt ha
        omega
      · have hlt := h.shown_lt ha
        omega
      · rcases List.mem_append.mp ha with ha | ha
        · exact hbelow a ha
        · rw [hframe]
          exact h.frame_lt (hkept.subset ha)
      · refine henqueued.link.imp id ?_
        rintro ⟨hall, hne⟩
        refine ⟨by rw [hlast, hall], ?_⟩
        have hlen : 0 < w.queued.length := List.length_pos_iff.mpr hne
        rw [reach] at hreach
        cases hget : (Lines.context front shown (w.connections - 1) ++ w.tail (w.connections - 1)).getLast? with
        | none =>
          rw [hget] at hreach
          exact absurd hreach hlen.ne
        | some a =>
          rw [hget] at hreach
          exact ⟨a, rfl, hreach.trans hframe.symm⟩
    · rw [Function.update_self, ← List.append_assoc, reach_append_singleton, hlength, hframe]
    · rcases eq_or_ne i (w.connections - 1) with rfl | hne
      · rw [Function.update_self, List.mem_append, List.mem_singleton] at ha
        rcases ha with ha | rfl
        · exact hgrown (h.genuine _ a (hkept.subset ha))
        · exact henqueued.genuine
      · rw [Function.update_of_ne hne] at ha
        exact hgrown (h.genuine i a ha)

theorem getElem?_concat_eq_some {queued : List Submission} {sub x : Submission} {n : ℕ}
    (h : (queued ++ [sub])[n]? = some x) : queued[n]? = some x ∨ n = queued.length ∧ x = sub := by
  rcases lt_trichotomy n queued.length with hlt | rfl | hgt
  · rw [List.getElem?_append_left hlt] at h
    exact .inl h
  · rw [List.getElem?_concat_length] at h
    exact .inr ⟨rfl, (Option.some.inj h).symm⟩
  · rw [List.getElem?_eq_none (by rw [List.length_append, List.length_singleton]; omega)] at h
    cases h

theorem Acceptable.proper {sub : Submission} (h : w.Acceptable digestOf sub) (hproper : Proper w.queued) :
    Proper (w.queued ++ [sub]) := by
  have hlt : ∀ {n : ℕ} {x : Submission}, w.queued[n]? = some x → n < w.queued.length := fun hn =>
    (List.getElem?_eq_some_iff.mp hn).choose
  refine ⟨?_, ?_, fun n n' x x' hn hn' id hid hid' => ?_, fun n n' x x' hle hn hn' => ?_⟩
  · exact List.forall_mem_append.mpr ⟨hproper.valid, List.forall_mem_singleton.mpr h.valid⟩
  · exact List.forall_mem_append.mpr ⟨hproper.named, List.forall_mem_singleton.mpr h.named⟩
  · rcases getElem?_concat_eq_some hn with hx | ⟨rfl, rfl⟩
    · rcases getElem?_concat_eq_some hn' with hx' | ⟨rfl, rfl⟩
      · exact hproper.apart n n' x x' hx hx' id hid hid'
      · exact absurd hid' (h.unused x (List.mem_of_getElem? hx) id hid)
    · rcases getElem?_concat_eq_some hn' with hx' | ⟨rfl, rfl⟩
      · exact absurd hid (h.unused x' (List.mem_of_getElem? hx') id hid')
      · rfl
  · rcases getElem?_concat_eq_some hn with hx | ⟨rfl, rfl⟩
    · rcases getElem?_concat_eq_some hn' with hx' | ⟨rfl, rfl⟩
      · exact hproper.times n n' x x' hle hx hx'
      · exact h.later x (List.mem_of_getElem? hx)
    · rcases getElem?_concat_eq_some hn' with hx' | ⟨rfl, rfl⟩
      · have hbelow := hlt hx'
        omega
      · exact UInt64.le_refl x'.timestampMs

theorem exists_digest {payload : Json} (h : (digestOf payload).isOk = true) : ∃ digest, digestOf payload = .ok digest := by
  cases hd : digestOf payload with
  | ok digest => exact ⟨digest, rfl⟩
  | error e =>
    rw [hd] at h
    exact absurd h Bool.false_ne_true

theorem Valid.initMessage {sub : Submission} (h : Valid sub) (requestId : Str) : ∃ message,
    Adapter.buildInitMessage requestId sub.timestampMs sub.frame.entities sub.frame.flows = some message := by
  obtain ⟨s, hs⟩ := Option.isSome_iff_exists.mp h.accepted
  obtain ⟨message, js, ks, -, hj, hk, -⟩ := fresh_eq_some hs
  have hentities : Adapter.writeArray Adapter.writeEntity sub.frame.entities = some (.arr js) :=
    writeArray_eq_some_iff.mpr ⟨js, hj, rfl⟩
  have hflows : Adapter.writeArray Adapter.writeFlow sub.frame.flows = some (.arr ks) :=
    writeArray_eq_some_iff.mpr ⟨ks, hk, rfl⟩
  rw [Adapter.buildInitMessage, hentities, hflows]
  exact ⟨_, rfl⟩

theorem getElem?_queued (w : Relay δ) (sub : Submission) : (w.queued ++ [sub])[w.queued.length]? = some sub :=
  List.getElem?_concat_length

/-- **A valid frame is queued**, or nothing changed since the last. -/
theorem inv_submit (h : Inv digestOf w front shown) {sub : Submission} (hsub : w.Acceptable digestOf sub) :
    Inv digestOf (w.submit sub) front shown := by
  obtain ⟨t', hi⟩ := hsub.valid.indexed
  have hdigested := hsub.digested
  have hself : Baseline t' sub := ⟨sub.frame, t', hi, hi, rfl, rfl⟩
  unfold submit
  rcases h.tracks with ⟨hnone, htracker⟩ | ⟨last, hlast, hbase⟩
  · have hcall := Adapter.submitCurrentState_of_new (t := w.tracker) (by rw [htracker]; rfl) hi
    obtain ⟨message, hm⟩ := Valid.initMessage hsub.valid sub.requestId
    have hinit : sub.initMessage = some message := hm
    rw [hcall] at hdigested ⊢
    obtain ⟨digest, hdigest⟩ := exists_digest (hdigested message (by simp [messagesOf, hinit]))
    have hgenuine : Genuine digestOf (w.queued ++ [sub]) ⟨.full, w.queued.length, sub.initMessage⟩ :=
      ⟨sub, message, digest, getElem?_queued w sub, hinit, hdigest, .full List.mem_cons_self hm⟩
    have henqueued : Enqueued digestOf w sub (w.client.queueInitial ⟨.full, w.queued.length, sub.initMessage⟩) []
        ⟨.full, w.queued.length, sub.initMessage⟩ ⟨.full, w.queued.length, sub.initMessage⟩ :=
      ⟨rfl, rfl, List.nil_prefix, rfl, rfl, hgenuine, ⟨rfl, rfl⟩, hgenuine, .inl rfl⟩
    exact inv_enqueue h henqueued (hsub.proper h.proper) hself
  · have hbaseline := hbase
    obtain ⟨f, tp, hif, hip, hsame⟩ := hbase
    have hcall := Adapter.submitCurrentState_of_indexed hif.initialized hi
    have hne : w.queued ≠ [] := by
      intro hnil
      rw [hnil] at hlast
      cases hlast
    cases hempty : (w.tracker.deltaTo t').empty with
    | true =>
      rw [hempty, if_pos rfl] at hcall
      rw [hcall]
      have htables := tables_of_empty hempty
      have hkept : Baseline t' last :=
        ⟨sub.frame, tp, hi, hip, htables.1.symm.trans hsame.entities, htables.2.symm.trans hsame.flows⟩
      exact { h with tracks := .inr ⟨last, hlast, hkept⟩ }
    | false =>
      rw [hempty, if_neg Bool.false_ne_true] at hcall
      obtain ⟨message, hm⟩ := hsub.valid.deltaMessage (t := w.tracker) hi
      obtain ⟨resync, hr⟩ := Valid.initMessage hsub.valid (sub.requestId ++ str "-resync")
      have hresync : sub.resyncMessage = some resync := hr
      rw [hcall] at hdigested ⊢
      rw [hm, hresync] at hdigested ⊢
      obtain ⟨digest, hdigest⟩ := exists_digest (hdigested message (by simp [messagesOf]))
      obtain ⟨digest', hdigest'⟩ := exists_digest (hdigested resync (by simp [messagesOf]))
      have hid : Str.strip (sub.requestId ++ str "-resync") ∈ requestIds sub :=
        List.mem_cons_of_mem _ List.mem_cons_self
      have hprev : (w.queued ++ [sub])[w.queued.length - 1]? = some last := by
        rw [List.getLast?_eq_getElem?] at hlast
        exact getElem?_of_grown (queued_isPrefix w sub) hlast
      have hlength : w.queued.length - 1 + 1 = w.queued.length := Nat.sub_add_cancel (List.length_pos_iff.mpr hne)
      have hdelta : Genuine digestOf (w.queued ++ [sub]) ⟨.delta, w.queued.length, some message⟩ :=
        ⟨sub, message, digest, getElem?_queued w sub, rfl, hdigest, .delta hlength hprev hbaseline hi hm⟩
      have hfull : Genuine digestOf (w.queued ++ [sub]) ⟨.full, w.queued.length, some resync⟩ :=
        ⟨sub, resync, digest', getElem?_queued w sub, rfl, hdigest', .full hid hr⟩
      by_cases hoverflow : w.client.maxPendingMessages ≤ w.client.mPending.length
      · have henqueued : Enqueued digestOf w sub
            (w.client.queueDelta ⟨.delta, w.queued.length, some message⟩ ⟨.full, w.queued.length, some resync⟩).1 []
            ⟨.full, w.queued.length, some resync⟩ ⟨.full, w.queued.length, some resync⟩ := by
          rw [TcpJsonlClient.queueDelta, if_pos hoverflow]
          exact ⟨rfl, rfl, List.nil_prefix, rfl, rfl, hfull, ⟨rfl, rfl⟩, hfull, .inl rfl⟩
        exact inv_enqueue h henqueued (hsub.proper h.proper) hself
      · have henqueued : Enqueued digestOf w sub
            (w.client.queueDelta ⟨.delta, w.queued.length, some message⟩ ⟨.full, w.queued.length, some resync⟩).1
            w.client.mPending ⟨.delta, w.queued.length, some message⟩ ⟨.full, w.queued.length, some resync⟩ := by
          rw [TcpJsonlClient.queueDelta, if_neg hoverflow]
          exact ⟨rfl, rfl, List.prefix_refl _, rfl, rfl, hdelta, ⟨rfl, rfl⟩, hfull, .inr ⟨rfl, hne⟩⟩
        exact inv_enqueue h henqueued (hsub.proper h.proper) hself

end

/-! ## Lines that are handled -/

section
variable [DecidableEq δ] {digestOf : Json → Except PyError δ} {w : Relay δ} {front : ℕ} {shown : Option Message}

omit [DecidableEq δ] in
theorem tail_of_taken {i : ℕ} {m : Message} {rest : List Message} (hlines : w.lines i = m :: rest) :
    ∃ rest', w.tail i = m :: rest' ∧
      ({ w with lines := Function.update w.lines i rest } : Relay δ).tail = Function.update w.tail i rest' := by
  refine ⟨if w.Open i then rest ++ w.inHand else rest, ?_, ?_⟩
  · unfold tail
    rw [hlines]
    split_ifs
    · rfl
    · rfl
  · funext j
    show (if w.Open j then Function.update w.lines i rest j ++ w.inHand else Function.update w.lines i rest j) = _
    rcases eq_or_ne j i with rfl | hne
    · rw [Function.update_self, Function.update_self]
    · rw [Function.update_of_ne hne, Function.update_of_ne hne]
      rfl

/-- **A line is handled** in order or late. -/
theorem inv_handle (h : Inv digestOf w front shown) {i : ℕ} {m : Message} {rest : List Message}
    (hlines : w.lines i = m :: rest) (horder : w.InOrder m) : ∃ front' shown', Inv digestOf
      { w with
        lines := Function.update w.lines i rest
        handled := w.handled ++ [m]
        service := receive digestOf w.service m } front' shown' := by
  obtain ⟨rest', htaken, htail⟩ := tail_of_taken hlines
  have hm : m ∈ w.tail i := by
    rw [htaken]
    exact List.mem_cons_self
  have hgenuine := h.genuine i m hm
  have hlt : i < w.connections := by
    by_contra hge
    rw [h.fresh i (not_lt.mp hge)] at hlines
    cases hlines
  have hfresh : ∀ j, w.connections ≤ j → Function.update w.lines i rest j = [] := fun j hj => by
    rw [Function.update_of_ne (by omega)]
    exact h.fresh j hj
  have hrest : ∀ j, ∀ a ∈ Function.update w.tail i rest' j, Genuine digestOf w.queued a := fun j a ha =>
    h.genuine j a (Lines.mem_of_update htaken ha)
  rcases le_or_gt front i with hfront | hlate
  · have hle : ∀ a ∈ shown, a.frame ≤ m.frame := fun a ha => h.ordered.take_le htaken hfront ha
    refine ⟨i, some m,
      { ordered := htail ▸ h.ordered.take htaken hfront
        fresh := hfresh
        within := .inl hlt
        unstarted := fun hnone => absurd hnone (Option.some_ne_none m)
        opened := fun hopen => ⟨(h.opened hopen).1, ?_⟩
        genuine := htail ▸ hrest
        resync := h.resync
        handled := ⟨fun a ha => ?_, fun a ha => ?_⟩
        proper := h.proper
        tracks := h.tracks
        unlocked := receive_unlocked h.unlocked m
        remembers := ?_
        presents := fun a ha => ?_ }⟩
    · show reach (Lines.context i (some m) (w.connections - 1) ++
        ({ w with lines := Function.update w.lines i rest } : Relay δ).tail (w.connections - 1)) = _
      rw [htail, ← (h.opened hopen).2]
      rcases eq_or_ne (w.connections - 1) i with heq | hne
      · rw [heq, Lines.context_self, Function.update_self, htaken, reach, reach, List.getLast?_append_cons]
        rfl
      · rw [Lines.context_of_ne hne, Lines.context_of_ne (by omega), Function.update_of_ne hne]
    · rcases List.mem_append.mp ha with ha | ha
      · obtain ⟨b, hb, hab⟩ := h.handled.1 a ha
        exact ⟨m, rfl, hab.trans (hle b hb)⟩
      · rw [List.mem_singleton.mp ha]
        exact ⟨m, rfl, le_rfl⟩
    · obtain rfl := Option.some.inj ha
      exact List.mem_append_right _ List.mem_cons_self
    · exact receive_remembers h.unlocked h.proper hgenuine h.remembers (fun a ha => ⟨m, rfl, hle a ha⟩)
        ⟨m, rfl, le_rfl⟩
    · obtain rfl := Option.some.inj ha
      exact receive_in_order h.unlocked h.proper hgenuine h.remembers h.presents hle (h.ordered.take_cases htaken hfront)
  · have hshown : ∃ a, shown = some a := by
      cases shown with
      | some a => exact ⟨a, rfl⟩
      | none =>
        have hzero := h.unstarted rfl
        omega
    obtain ⟨a, rfl⟩ := hshown
    have hle : m.frame ≤ a.frame := h.ordered.older a rfl i hlate m hm
    have hafter : PresentsFrame w.queued a.frame (receive digestOf w.service m).state := by
      rcases horder with hnewest | ⟨payload, hpayload, hignored⟩
      · have hframe : m.frame = a.frame := le_antisymm hle (hnewest a (h.handled.2 a rfl))
        exact receive_same h.unlocked h.proper hgenuine h.presents rfl hframe
      · rw [(receive_ignored h.unlocked hpayload hignored).1]
        exact h.presents a rfl
    refine ⟨front, some a,
      { ordered := htail ▸ h.ordered.late htaken hlate
        fresh := hfresh
        within := h.within
        unstarted := h.unstarted
        opened := fun hopen => ⟨(h.opened hopen).1, ?_⟩
        genuine := htail ▸ hrest
        resync := h.resync
        handled := ⟨fun b hb => ?_, fun b hb => List.mem_append_left _ (h.handled.2 b hb)⟩
        proper := h.proper
        tracks := h.tracks
        unlocked := receive_unlocked h.unlocked m
        remembers := ?_
        presents := fun b hb => ?_ }⟩
    · show reach (Lines.context front (some a) (w.connections - 1) ++
        ({ w with lines := Function.update w.lines i rest } : Relay δ).tail (w.connections - 1)) = _
      have hne : w.connections - 1 ≠ i := by
        rcases h.within with hin | hnone
        · omega
        · cases hnone
      rw [htail, Function.update_of_ne hne]
      exact (h.opened hopen).2
    · rcases List.mem_append.mp hb with hb | hb
      · exact h.handled.1 b hb
      · rw [List.mem_singleton.mp hb]
        exact ⟨a, rfl, hle⟩
    · exact receive_remembers h.unlocked h.proper hgenuine h.remembers (fun b hb => ⟨b, hb, le_rfl⟩) ⟨a, rfl, hle⟩
    · obtain rfl := Option.some.inj hb
      exact hafter

theorem inv_work (h : Inv digestOf w front shown) {action : Server.Action} {service : Server δ}
    (hcall : ∀ payload, action ≠ .call payload) (hstep : w.service.step digestOf action = some service) :
    Inv digestOf { w with service := service } front shown := by
  have hkept : Kept w.service service := by
    rcases Server.step_kept_or_accepted h.unlocked hstep with hkept | ⟨payload, hpayload, -⟩
    · exact hkept
    · exact absurd hpayload (hcall payload)
  have hpresents : ∀ m ∈ shown, PresentsFrame w.queued m.frame service.state := by
    rw [hkept.1]
    exact h.presents
  exact
    { h with
      unlocked := (Server.step_move h.unlocked hstep).unlocked h.unlocked
      remembers := h.remembers.mono hkept.2 fun m hm => ⟨m, hm, le_rfl⟩
      presents := hpresents }

/-- **An orderly step** keeps the store at the newest frame handled. -/
theorem step_inv {w' : Relay δ} {action : Action} (h : Inv digestOf w front shown) (hok : w.Orderly digestOf action)
    (hstep : w.step digestOf action = some w') : ∃ front' shown', Inv digestOf w' front' shown' := by
  cases action with
  | submit sub =>
    obtain rfl := Option.some.inj hstep
    exact ⟨front, shown, inv_submit h hok⟩
  | connect =>
    obtain ⟨client, hclient, rfl⟩ := Option.map_eq_some_iff.mp hstep
    exact ⟨front, shown, inv_connect h hclient⟩
  | takeNext =>
    obtain ⟨client, hclient, rfl⟩ := Option.map_eq_some_iff.mp hstep
    exact ⟨front, shown, inv_takeNext h hclient⟩
  | sendSuccess =>
    obtain ⟨client, hclient, rfl⟩ := Option.map_eq_some_iff.mp hstep
    exact ⟨front, shown, inv_sendSuccess h hclient⟩
  | sendFailure arrived =>
    obtain ⟨client, hclient, rfl⟩ := Option.map_eq_some_iff.mp hstep
    exact ⟨front, shown, inv_sendFailure h hclient⟩
  | disconnect =>
    obtain ⟨client, hclient, rfl⟩ := Option.map_eq_some_iff.mp hstep
    exact ⟨front, shown, inv_disconnect h hclient⟩
  | lose connection kept =>
    rw [step] at hstep
    split_ifs at hstep with hopen
    obtain rfl := Option.some.inj hstep
    exact ⟨front, shown, inv_lose h hopen kept⟩
  | handle connection =>
    rw [step, handleNext] at hstep
    cases hlines : w.lines connection with
    | nil =>
      rw [hlines] at hstep
      cases hstep
    | cons m rest =>
      rw [hlines] at hstep
      obtain rfl := Option.some.inj hstep
      exact inv_handle h hlines (hok m (by rw [hlines]; rfl))
  | work action =>
    have hcall : ∀ payload, action ≠ .call payload := by
      rintro payload rfl
      cases hstep
    have hwork : (w.service.step digestOf action).map (fun service => { w with service := service }) = some w' := by
      cases action with
      | call payload => exact absurd rfl (hcall payload)
      | _ => exact hstep
    obtain ⟨service, hservice, rfl⟩ := Option.map_eq_some_iff.mp hwork
    exact ⟨front, shown, inv_work h hcall hservice⟩

omit [DecidableEq δ] in
theorem Inv.upToDate (h : Inv digestOf w front shown) : w.UpToDate := by
  have hmirrors : ∀ {n : ℕ} {sub : Submission}, w.queued[n]? = some sub → PresentsFrame w.queued n w.service.state →
      Mirrors w.service.state sub := by
    rintro n sub hsub ⟨sub', hsub', hpresents⟩
    obtain rfl := Option.some.inj (hsub.symm.trans hsub')
    exact hpresents.mirrors (h.proper.valid sub (List.mem_of_getElem? hsub))
  refine ⟨fun hne => ?_, fun hidle sub hlast => ?_⟩
  · obtain ⟨m, hm⟩ := List.exists_mem_of_ne_nil _ hne
    obtain ⟨a, ha, -⟩ := h.handled.1 m hm
    refine ⟨a, h.handled.2 a ha, fun m' hm' => ?_, ?_⟩
    · obtain ⟨b, hb, hle⟩ := h.handled.1 m' hm'
      obtain rfl := Option.some.inj (Eq.trans (Eq.symm hb) ha)
      exact hle
    · obtain ⟨sub, hsub, hpresents⟩ := h.presents a ha
      exact ⟨sub, hsub, hmirrors hsub ⟨sub, hsub, hpresents⟩⟩
  · obtain ⟨sent, hconnection⟩ := hidle.sent
    obtain ⟨hpos, hreach⟩ := h.opened (isSome_of_some hconnection)
    have hempty : w.tail (w.connections - 1) = [] := by
      rw [tail_of_connected hconnection hpos, Function.update_self, hidle.lines _ (by omega), hidle.pending]
      rfl
    rw [hempty, List.append_nil, reach] at hreach
    have hqueued : w.queued.length ≠ 0 := fun hzero => by
      rw [List.length_eq_zero_iff.mp hzero] at hlast
      cases hlast
    obtain ⟨a, ha, hframe⟩ : ∃ a ∈ shown, a.frame + 1 = w.queued.length := by
      unfold Lines.context at hreach
      split_ifs at hreach
      · cases shown with
        | none => exact absurd hreach.symm hqueued
        | some a => exact ⟨a, rfl, hreach⟩
      · exact absurd hreach.symm hqueued
    rw [List.getLast?_eq_getElem?, ← hframe, Nat.add_sub_cancel] at hlast
    exact hmirrors hlast (h.presents a ha)

/-- **Late lines do not roll the state back** in a run of orderly steps: after every step the store is the newest
frame of which a line was handled, and once everything is sent and handled the newest frame queued. -/
theorem never_rolled_back {maxPendingMessages : ℕ} {actions : List Action}
    (horderly : Machine.Along (step digestOf) (Orderly digestOf) (new maxPendingMessages) actions)
    (hrun : Machine.run (step digestOf) (new maxPendingMessages) actions = some w) : w.UpToDate := by
  obtain ⟨front, shown, h⟩ := Machine.along_invariant (fun w => ∃ front shown, Inv digestOf w front shown)
    (fun w action w' h hok hstep => by
      obtain ⟨front, shown, h⟩ := h
      exact step_inv h hok hstep) ⟨0, none, inv_new maxPendingMessages⟩ horderly hrun
  exact h.upToDate

end

/-! ## A late delta and a late initialisation -/

/-- Two frames, and a connection lost after both are sent on it. The service handles the first frame, the snapshot
sent on the second connection, and then the delta of the first. -/
def lateDelta : List Action := [.submit growingFrames[0], .connect, .sendSuccess, .handle 0, .submit growingFrames[1],
  .takeNext, .sendSuccess, .disconnect, .connect, .sendSuccess, .handle 1, .handle 0]

/-- The same, but the first frame too is handled after the snapshot of the second. -/
def lateInit : List Action := [.submit growingFrames[0], .connect, .sendSuccess, .disconnect, .submit growingFrames[1],
  .connect, .sendSuccess, .handle 1, .handle 0]

/-- What `Idle` asks, after a run with two connections. -/
def settled (w : Relay δ) : Bool :=
  w.connections = 2 && (w.lines 0).isEmpty && (w.lines 1).isEmpty && w.client.mPending.isEmpty &&
    w.client.connection.isSome && w.current.isNone

theorem idle_of_settled {w : Relay δ} (h : settled w = true) : w.Idle := by
  simp only [settled, Bool.and_eq_true, decide_eq_true_eq, List.isEmpty_iff] at h
  obtain ⟨⟨⟨⟨⟨hcount, hfirst⟩, hsecond⟩, hpending⟩, hopen⟩, hcurrent⟩ := h
  refine ⟨fun i hi => ?_, ?_, hpending⟩
  · have hcases : i = 0 ∨ i = 1 := by omega
    rcases hcases with rfl | rfl
    · exact hfirst
    · exact hsecond
  · obtain ⟨⟨current, sent⟩, hc⟩ := Option.isSome_iff_exists.mp hopen
    rw [Relay.current, hc, Option.bind_some, Option.isNone_iff_eq_none] at hcurrent
    obtain rfl : current = none := hcurrent
    exact ⟨sent, hc⟩

theorem lateDelta_not_rolled_back : ∃ w, Machine.run (step digestById) (new 8) lateDelta = some w ∧ w.Idle ∧
    w.queued.length = 2 ∧ w.UpToDate := by
  have hend : (Machine.run (step digestById) (new 8) lateDelta).map (fun w => (settled w, w.queued.length)) =
      some (true, 2) := by decide +kernel
  obtain ⟨w, hrun, hw⟩ := Option.map_eq_some_iff.mp hend
  obtain ⟨hsettled, hqueued⟩ := Prod.mk.inj hw
  exact ⟨w, hrun, idle_of_settled hsettled, hqueued, never_rolled_back (by decide +kernel) hrun⟩

def entityCount (s : StateStore) : Option ℕ := s.snapshot.toOption.map (fun snap => snap.entities.length)

/-- **A late `afsim_init`** of the old connection is accepted, whatever its timestamp: every line is handled, the newest
frame has two entities, and the store has the one of the frame before. -/
theorem late_init_rolls_back : ∃ w, Machine.run (step digestById) (new 8) lateInit = some w ∧ w.Idle ∧
    w.queued.map Submission.timestampMs = [0, 1] ∧ (w.queued.getLast?.bind fresh).bind entityCount = some 2 ∧
    entityCount w.service.state = some 1 ∧ ¬ w.UpToDate := by
  have hend : (Machine.run (step digestById) (new 8) lateInit).map (fun w => (settled w,
      w.queued.map Submission.timestampMs, (w.queued.getLast?.bind fresh).bind entityCount,
      entityCount w.service.state)) = some (true, [0, 1], some 2, some 1) := by decide +kernel
  obtain ⟨w, hrun, hw⟩ := Option.map_eq_some_iff.mp hend
  obtain ⟨hsettled, hw⟩ := Prod.mk.inj hw
  obtain ⟨htimes, hw⟩ := Prod.mk.inj hw
  obtain ⟨hnewest, hstore⟩ := Prod.mk.inj hw
  have hidle := idle_of_settled hsettled
  refine ⟨w, hrun, hidle, htimes, hnewest, hstore, fun h => ?_⟩
  obtain ⟨f, hf, hcount⟩ := Option.bind_eq_some_iff.mp hnewest
  obtain ⟨sub, hlast, hfresh⟩ := Option.bind_eq_some_iff.mp hf
  obtain ⟨f', snap, snap', hfresh', hsnap, hsnap', hentities, -⟩ := h.idle hidle sub hlast
  obtain rfl := Option.some.inj (hfresh.symm.trans hfresh')
  rw [entityCount, hsnap'] at hcount
  rw [entityCount, hsnap] at hstore
  have htwo : snap'.entities.length = 2 := Option.some.inj hcount
  have hone : snap.entities.length = 1 := Option.some.inj hstore
  rw [hentities, htwo] at hone
  exact absurd hone (by decide)

end Relay

end AfsimNs3.System
