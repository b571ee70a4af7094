import AfsimNs3.System.Coalescing

/-!
# No stale result is published

Between the staleness check and the recording of a result no other coroutine runs, so the result recorded is the one
of the newest accepted revision. `Published` keeps the revisions recorded, and those broadcast to each client, in
order: whatever is still to be computed or sent is above all that was (`Below`).
-/

namespace AfsimNs3.System
open Bridge Bridge.Server

/-! ## Reading the log -/

def recordedRevisions (log : List Event) : List ℕ :=
  log.filterMap fun event => match event with | .recorded revision _ => some revision | _ => none

/-- The revisions of the `ns3_metrics` broadcasts written to a client. -/
def sentRevisions (client : Client) (log : List Event) : List ℕ :=
  log.filterMap fun event => match event with
    | .sent c revision => if c = client then some revision else none
    | _ => none

@[simp] theorem recordedRevisions_append (log events : List Event) :
    recordedRevisions (log ++ events) = recordedRevisions log ++ recordedRevisions events := List.filterMap_append

@[simp] theorem sentRevisions_append (client : Client) (log events : List Event) :
    sentRevisions client (log ++ events) = sentRevisions client log ++ sentRevisions client events :=
  List.filterMap_append

theorem sentRevisions_self (client : Client) (revision : ℕ) :
    sentRevisions client [.sent client revision] = [revision] := by
  simp [sentRevisions]

theorem sentRevisions_of_ne {client client' : Client} (h : client' ≠ client) (revision : ℕ) :
    sentRevisions client [.sent client' revision] = [] := by
  rw [sentRevisions, List.filterMap_cons]
  simp only [if_neg h, List.filterMap_nil]

/-! ## The invariant -/

/-- Everything recorded or broadcast is below the revision. -/
def Below (log : List Event) (revision : ℕ) : Prop :=
  (∀ r ∈ recordedRevisions log, r < revision) ∧ ∀ client, ∀ r ∈ sentRevisions client log, r < revision

theorem Below.mono {log : List Event} {revision revision' : ℕ} (h : Below log revision) (hle : revision ≤ revision') :
    Below log revision' :=
  ⟨fun r hr => (h.1 r hr).trans_le hle, fun client r hr => (h.2 client r hr).trans_le hle⟩

/-- Events that record and broadcast nothing. -/
def Unpublished (events : List Event) : Prop := recordedRevisions events = [] ∧ ∀ client, sentRevisions client events = []

theorem Below.append {log events : List Event} {revision : ℕ} (h : Below log revision) (hevents : Below events revision) :
    Below (log ++ events) revision := by
  constructor
  · intro r hr
    rw [recordedRevisions_append, List.mem_append] at hr
    exact hr.elim (h.1 r) (hevents.1 r)
  · intro client r hr
    rw [sentRevisions_append, List.mem_append] at hr
    exact hr.elim (h.2 client r) (hevents.2 client r)

theorem Unpublished.below {events : List Event} (h : Unpublished events) (revision : ℕ) : Below events revision := by
  constructor
  · intro r hr
    rw [h.1] at hr
    exact absurd hr List.not_mem_nil
  · intro client r hr
    rw [h.2 client] at hr
    exact absurd hr List.not_mem_nil

/-- The pending job, if there is one, is above the revision. -/
def Newer (pending : Option Job) (revision : ℕ) : Prop := ∀ job, pending = some job → revision < job.snapshot.revision

/-- What is published of a service at `revision`. -/
structure Published (revision : ℕ) (pending : Option Job) (clients : List Client) (log : List Event) : Prop where
  current : ∀ r t, .recorded r t ∈ log → r = t
  recorded : (recordedRevisions log).Pairwise (· < ·)
  sent : ∀ client, (sentRevisions client log).Pairwise (· < ·)
  clients : clients.Nodup
  below : Below log (revision + 1)
  pending : ∀ job, pending = some job → Below log job.snapshot.revision

/-- The result of `r` is being broadcast, and the clients in `todo` have not been sent it. -/
structure Sending (revision : ℕ) (pending : Option Job) (log : List Event) (r : ℕ) (todo : List Client) : Prop where
  nodup : todo.Nodup
  accepted : r ≤ revision
  newer : Newer pending r
  below : Below log (r + 1)
  unsent : ∀ client ∈ todo, ∀ q ∈ sentRevisions client log, q < r

/-- What the worker is about to publish. -/
def WorkerAhead (revision : ℕ) (pending : Option Job) (log : List Event) : Worker → Prop
  | .computing job =>
    job.snapshot.revision ≤ revision ∧ Newer pending job.snapshot.revision ∧ Below log job.snapshot.revision
  | .sending (.metrics response) todo _ | .draining (.metrics response) _ todo _ =>
    Sending revision pending log response.measured.revision todo
  | _ => True

def InOrder {δ : Type} (s : Server δ) : Prop := Published s.state.revision s.pending s.clients s.log

def Ahead {δ : Type} (s : Server δ) : Prop := WorkerAhead s.state.revision s.pending s.log s.worker

/-! ## Steps -/

section Components
variable {revision : ℕ} {pending : Option Job} {clients : List Client} {log events : List Event}

theorem Published.unpublished (h : Published revision pending clients log) (hevents : Unpublished events)
    (hrecorded : ∀ r t, .recorded r t ∉ events) : Published revision pending clients (log ++ events) := by
  refine ⟨fun r t hr => ?_, ?_, fun client => ?_, h.clients, h.below.append (hevents.below _),
    fun job hjob => (h.pending job hjob).append (hevents.below _)⟩
  · exact h.current r t ((List.mem_append.mp hr).resolve_right (hrecorded r t))
  · rw [recordedRevisions_append, hevents.1, List.append_nil]
    exact h.recorded
  · rw [sentRevisions_append, hevents.2, List.append_nil]
    exact h.sent client

theorem Sending.unpublished {r : ℕ} {todo : List Client} (h : Sending revision pending log r todo)
    (hevents : Unpublished events) : Sending revision pending (log ++ events) r todo := by
  refine ⟨h.nodup, h.accepted, h.newer, h.below.append (hevents.below _), fun client hclient q hq => ?_⟩
  rw [sentRevisions_append, hevents.2, List.append_nil] at hq
  exact h.unsent client hclient q hq

theorem WorkerAhead.unpublished {worker : Worker} (h : WorkerAhead revision pending log worker)
    (hevents : Unpublished events) : WorkerAhead revision pending (log ++ events) worker := by
  match worker with
  | .waiting | .wantsJob | .wantsQueueState .. | .sending (.error _) .. | .draining (.error _) .. => trivial
  | .computing job => exact ⟨h.1, h.2.1, h.2.2.append (hevents.below _)⟩
  | .sending (.metrics response) todo _ => exact Sending.unpublished h hevents
  | .draining (.metrics response) _ todo _ => exact Sending.unpublished h hevents

/-- A newer job becomes the pending one. -/
theorem Published.accept (h : Published revision pending clients log) {job : Job}
    (hjob : job.snapshot.revision = revision + 1) : Published (revision + 1) (some job) clients log := by
  refine ⟨h.current, h.recorded, h.sent, h.clients, h.below.mono (Nat.le_succ _), fun job' hjob' => ?_⟩
  rw [← Option.some.inj hjob', hjob]
  exact h.below

theorem newer_accept {r : ℕ} {job : Job} (hjob : job.snapshot.revision = revision + 1) (hr : r ≤ revision) :
    Newer (some job) r := by
  intro job' hjob'
  rw [← Option.some.inj hjob', hjob]
  omega

theorem Sending.accept {r : ℕ} {todo : List Client} (h : Sending revision pending log r todo) {job : Job}
    (hjob : job.snapshot.revision = revision + 1) : Sending (revision + 1) (some job) log r todo :=
  ⟨h.nodup, h.accepted.trans (Nat.le_succ _), newer_accept hjob h.accepted, h.below, h.unsent⟩

theorem WorkerAhead.accept {worker : Worker} (h : WorkerAhead revision pending log worker) {job : Job}
    (hjob : job.snapshot.revision = revision + 1) : WorkerAhead (revision + 1) (some job) log worker := by
  match worker with
  | .waiting | .wantsJob | .wantsQueueState .. | .sending (.error _) .. | .draining (.error _) .. => trivial
  | .computing job' => exact ⟨h.1.trans (Nat.le_succ _), newer_accept hjob h.1, h.2.2⟩
  | .sending (.metrics response) todo _ => exact Sending.accept h hjob
  | .draining (.metrics response) _ todo _ => exact Sending.accept h hjob

/-- A result of the store's own revision is recorded. -/
theorem Published.record (h : Published revision pending clients log) (hnewer : Newer pending revision)
    (hbelow : Below log revision) : Published revision pending clients (log ++ [.recorded revision revision]) := by
  have hevent : ∀ n, revision < n → Below [.recorded revision revision] n := fun n hn =>
    ⟨fun r hr => by rwa [List.mem_singleton.mp hr], fun client r hr => absurd hr List.not_mem_nil⟩
  refine ⟨fun r t hr => ?_, ?_, fun client => ?_, h.clients, h.below.append (hevent _ (Nat.lt_succ_self _)),
    fun job hjob => (h.pending job hjob).append (hevent _ (hnewer job hjob))⟩
  · rcases List.mem_append.mp hr with hr | hr
    · exact h.current r t hr
    · obtain ⟨rfl, rfl⟩ := Event.recorded.inj (List.mem_singleton.mp hr)
      rfl
  · rw [recordedRevisions_append]
    refine List.pairwise_append.mpr ⟨h.recorded, List.pairwise_singleton _ _, fun a ha b hb => ?_⟩
    rw [List.mem_singleton.mp hb]
    exact hbelow.1 a ha
  · rw [sentRevisions_append]
    exact (List.append_nil _).symm ▸ h.sent client

theorem Sending.start {order : List Client} (horder : order.Nodup) (hnewer : Newer pending revision)
    (hbelow : Below log revision) : Sending revision pending (log ++ [.recorded revision revision]) revision order := by
  refine ⟨horder, Nat.le_refl _, hnewer, (hbelow.mono (Nat.le_succ _)).append ?_, fun client _ q hq => ?_⟩
  · exact ⟨fun r hr => by rw [List.mem_singleton.mp hr]; exact Nat.lt_succ_self _,
      fun client r hr => absurd hr List.not_mem_nil⟩
  · rw [sentRevisions_append] at hq
    exact hbelow.2 client q ((List.append_nil (sentRevisions client log)) ▸ hq)

/-- The broadcast is written to the next client. -/
theorem Published.send (h : Published revision pending clients log) {r : ℕ} {client : Client} {todo : List Client}
    (hsending : Sending revision pending log r (client :: todo)) :
    Published revision pending clients (log ++ [.sent client r]) := by
  have hevent : ∀ n, r < n → Below [.sent client r] n := fun n hn => by
    refine ⟨fun r hr => absurd hr List.not_mem_nil, fun client' q hq => ?_⟩
    by_cases hc : client = client'
    · rw [hc, sentRevisions_self, List.mem_singleton] at hq
      rwa [hq]
    · rw [sentRevisions_of_ne hc] at hq
      exact absurd hq List.not_mem_nil
  refine ⟨fun q t hq => ?_, ?_, fun client' => ?_, h.clients,
    h.below.append (hevent _ (Nat.lt_succ_of_le hsending.accepted)),
    fun job hjob => (h.pending job hjob).append (hevent _ (hsending.newer job hjob))⟩
  · exact h.current q t ((List.mem_append.mp hq).resolve_right fun hq => Event.noConfusion (List.mem_singleton.mp hq))
  · rw [recordedRevisions_append]
    exact (List.append_nil _).symm ▸ h.recorded
  · rw [sentRevisions_append]
    by_cases hc : client = client'
    · rw [← hc, sentRevisions_self]
      refine List.pairwise_append.mpr ⟨h.sent client, List.pairwise_singleton _ _, fun a ha b hb => ?_⟩
      rw [List.mem_singleton.mp hb]
      exact hsending.unsent client List.mem_cons_self a ha
    · rw [sentRevisions_of_ne hc, List.append_nil]
      exact h.sent client'

theorem Sending.tail {r : ℕ} {client : Client} {todo : List Client}
    (h : Sending revision pending log r (client :: todo)) : Sending revision pending log r todo :=
  ⟨(List.nodup_cons.mp h.nodup).2, h.accepted, h.newer, h.below,
    fun c hc => h.unsent c (List.mem_cons_of_mem client hc)⟩

theorem Sending.send {r : ℕ} {client : Client} {todo : List Client}
    (h : Sending revision pending log r (client :: todo)) :
    Sending revision pending (log ++ [.sent client r]) r todo := by
  obtain ⟨hclient, hnodup⟩ := List.nodup_cons.mp h.nodup
  refine ⟨hnodup, h.accepted, h.newer, h.below.append ⟨fun r hr => absurd hr List.not_mem_nil, fun client' q hq => ?_⟩,
    fun client' hclient' q hq => ?_⟩
  · by_cases hc : client = client'
    · rw [hc, sentRevisions_self, List.mem_singleton] at hq
      omega
    · rw [sentRevisions_of_ne hc] at hq
      exact absurd hq List.not_mem_nil
  · have hc : client ≠ client' := fun hc => hclient (hc ▸ hclient')
    rw [sentRevisions_append, sentRevisions_of_ne hc, List.append_nil] at hq
    exact h.unsent client' (List.mem_cons_of_mem client hclient') q hq

end Components

/-! ## Moves and runs -/

section Runs
variable {δ : Type} {s : Server δ}

theorem takeJob_inOrder (haccounted : Accounted s) (h : InOrder s) : InOrder s.takeJob ∧ Ahead s.takeJob := by
  unfold takeJob
  cases hp : s.pending with
  | none =>
    refine ⟨?_, trivial⟩
    have hpublished : Published s.state.revision none s.clients s.log := hp ▸ h
    exact hpublished
  | some job =>
    have htaken : Unpublished [.taken job.snapshot.revision] := ⟨rfl, fun _ => rfl⟩
    have hnone : ∀ n, Newer none n := fun n job hjob => absurd hjob (Option.some_ne_none job).symm
    have hpublished : Published s.state.revision none s.clients s.log :=
      ⟨h.current, h.recorded, h.sent, h.clients, h.below, fun job hjob => absurd hjob (Option.some_ne_none job).symm⟩
    refine ⟨?_, (haccounted.newest job hp).1.le, hnone _, (h.pending job hp).append (htaken.below _)⟩
    exact hpublished.unpublished htaken fun r t hr => Event.noConfusion (List.mem_singleton.mp hr)

theorem awaitEvent_inOrder (hs : s.Unlocked) (haccounted : Accounted s) (h : InOrder s) :
    InOrder s.awaitEvent ∧ Ahead s.awaitEvent := by
  unfold awaitEvent
  split_ifs
  · rw [awaitJob_eq hs.pending]
    exact takeJob_inOrder haccounted h
  · exact ⟨h, trivial⟩

theorem sendNext_inOrder (hs : s.Unlocked) (haccounted : Accounted s) (h : InOrder s) {message : Broadcast}
    {todo : List Client} (failed : List Client)
    (hsending : ∀ response, message = .metrics response →
      Sending s.state.revision s.pending s.log response.measured.revision todo) :
    InOrder (s.sendNext message todo failed) ∧ Ahead (s.sendNext message todo failed) := by
  unfold sendNext
  cases todo with
  | nil =>
    have hclients : InOrder (s.removeClients failed) :=
      ⟨h.current, h.recorded, h.sent, h.clients.filter _, h.below, h.pending⟩
    exact awaitEvent_inOrder (removeClients_unlocked hs failed) haccounted hclients
  | cons client todo =>
    refine ⟨h, ?_⟩
    cases message with
    | metrics response => exact hsending response rfl
    | error => trivial

theorem report_inOrder (hs : s.Unlocked) (haccounted : Accounted s) (h : InOrder s) {job : Job}
    {measured : Ns3Runner.ComputeResult} {order : List Client} (horder : order.Perm s.clients)
    (hjob : measured.revision = s.state.revision) (hnewer : Newer s.pending s.state.revision)
    (hbelow : Below s.log s.state.revision) :
    InOrder (s.report job measured order) ∧ Ahead (s.report job measured order) := by
  unfold report
  have hlog : (s.record job (s.response job measured)).log =
      s.log ++ [.recorded s.state.revision s.state.revision] := by
    show s.log ++ [.recorded measured.revision s.state.revision] = _
    rw [hjob]
  have hrecorded : InOrder (s.record job (s.response job measured)) := by
    unfold InOrder
    rw [hlog]
    exact Published.record h hnewer hbelow
  have haccounted' : Accounted (s.record job (s.response job measured)) :=
    JobLedger.silent haccounted ⟨rfl, rfl, rfl, fun ack hack => Event.noConfusion (List.mem_singleton.mp hack)⟩
  refine sendNext_inOrder (record_unlocked hs job _) haccounted' hrecorded [] fun response hresponse => ?_
  rw [← Broadcast.metrics.inj hresponse, hlog]
  show Sending s.state.revision s.pending _ measured.revision order
  rw [hjob]
  exact Sending.start (horder.nodup_iff.mpr h.clients) hnewer hbelow

theorem write_inOrder (hs : s.Unlocked) (haccounted : Accounted s) (h : InOrder s) {message : Broadcast}
    {client : Client} {todo failed : List Client} (hworker : s.worker = .sending message (client :: todo) failed)
    (hahead : Ahead s) (ok : Bool) :
    InOrder (s.write ok message client todo failed) ∧ Ahead (s.write ok message client todo failed) := by
  have hsending : ∀ response, message = .metrics response →
      Sending s.state.revision s.pending s.log response.measured.revision (client :: todo) := by
    rintro response rfl
    unfold Ahead at hahead
    rwa [hworker] at hahead
  cases ok with
  | false => exact sendNext_inOrder hs haccounted h _ fun response hresponse => (hsending response hresponse).tail
  | true =>
    cases message with
    | metrics response => exact ⟨Published.send h (hsending response rfl), (hsending response rfl).send⟩
    | error => exact ⟨Published.unpublished h ⟨rfl, fun _ => rfl⟩ fun r t => List.not_mem_nil, trivial⟩

theorem move_inOrder {s' : Server δ} (hs : s.Unlocked) (haccounted : Accounted s) (h : InOrder s) (hahead : Ahead s)
    (hmove : Move s s') : InOrder s' ∧ Ahead s' := by
  cases hmove with
  | idle => exact ⟨h, hahead⟩
  | clients clients hclients =>
    exact ⟨⟨h.current, h.recorded, h.sent, hclients h.clients, h.below, h.pending⟩, hahead⟩
  | duplicate =>
    exact ⟨Published.unpublished h ⟨rfl, fun _ => rfl⟩ fun r t hr => Event.noConfusion (List.mem_singleton.mp hr),
      WorkerAhead.unpublished hahead ⟨rfl, fun _ => rfl⟩⟩
  | accept envelope digest state snapshot hrevision hsnapshot =>
    unfold InOrder Ahead
    dsimp only
    rw [hrevision]
    have hevents : Unpublished [.accepted (s.state.revision + 1), .replied (ackOf envelope snapshot s.pending)] :=
      ⟨rfl, fun _ => rfl⟩
    refine ⟨(Published.accept h hsnapshot).unpublished hevents fun r t hr => ?_,
      (WorkerAhead.accept hahead hsnapshot).unpublished hevents⟩
    rw [List.mem_cons, List.mem_singleton] at hr
    exact hr.elim Event.noConfusion Event.noConfusion
  | wake => exact takeJob_inOrder haccounted h
  | failed job message error order hworker hmessage =>
    obtain ⟨response, rfl⟩ := hmessage
    exact sendNext_inOrder (setLastError_unlocked hs _) (by exact haccounted) (by exact h) _
      fun response hresponse => Broadcast.noConfusion hresponse
  | stale => exact awaitEvent_inOrder (setLastError_unlocked hs _) (by exact haccounted) (by exact h)
  | fresh job measured order hworker horder hfresh hmeasured =>
    have hcomputing : job.snapshot.revision ≤ s.state.revision ∧ Newer s.pending job.snapshot.revision ∧
        Below s.log job.snapshot.revision := by
      unfold Ahead at hahead
      rwa [hworker] at hahead
    have hjob : job.snapshot.revision = s.state.revision := Nat.le_antisymm hcomputing.1 hfresh
    rw [hjob] at hcomputing hmeasured
    exact report_inOrder (setLastError_unlocked hs none) (by exact haccounted) (by exact h) horder hmeasured
      hcomputing.2.1 hcomputing.2.2
  | written message client todo failed hworker => exact write_inOrder hs haccounted h hworker hahead true
  | refused message client todo failed hworker => exact write_inOrder hs haccounted h hworker hahead false
  | drained message client todo failed failed' hworker =>
    refine sendNext_inOrder hs haccounted h failed' ?_
    rintro response rfl
    unfold Ahead at hahead
    rwa [hworker] at hahead

variable [DecidableEq δ] {digestOf : Json → Except PyError δ}

/-- **No stale result is published.** In every run, a result is recorded at the revision the store is at, the
revisions recorded increase, and so do the revisions broadcast to each client. -/
theorem results_in_order {actions : List Action} (h : Machine.run (step digestOf) new actions = some s) :
    (∀ r t, .recorded r t ∈ s.log → r = t) ∧ (recordedRevisions s.log).Pairwise (· < ·) ∧
      ∀ client, (sentRevisions client s.log).Pairwise (· < ·) := by
  obtain ⟨-, -, hs, -⟩ := run_moves (fun s => Accounted s ∧ InOrder s ∧ Ahead s)
    (fun s s' hs hi hmove => ⟨move_accounted hs hi.1 hmove, move_inOrder hs hi.1 hi.2.1 hi.2.2 hmove⟩)
    ⟨new_accounted, ⟨fun r t hr => absurd hr List.not_mem_nil, List.Pairwise.nil, fun _ => List.Pairwise.nil,
      List.nodup_nil, ⟨fun r hr => absurd hr List.not_mem_nil, fun client r hr => absurd hr List.not_mem_nil⟩,
      fun job hjob => absurd hjob (Option.some_ne_none job).symm⟩, trivial⟩ h
  exact ⟨hs.current, hs.recorded, hs.sent⟩

end Runs

/-- A client, an initialisation, a delta that arrives while the first job is computed, a second one after that. -/
def broadcastRun : List Action := [.connect 7, .call emptyInit, .wake, .computed (.ok Dict.empty 0) [7], .write true,
  .call emptyDelta, .drained true, .computed (.ok Dict.empty 0) [7], .write true, .drained true]

theorem broadcastRun_log : (Machine.run (step digestById) new broadcastRun).map (fun s => s.log) = some [
    .accepted 1, .replied ⟨str "i", 0, 1, none, false⟩, .taken 1, .recorded 1 1, .sent 7 1, .accepted 2,
    .replied ⟨str "d", 0, 2, none, false⟩, .taken 2, .recorded 2 2, .sent 7 2] := by
  decide +kernel

theorem broadcastRun_in_order : ∃ s, Machine.run (step digestById) new broadcastRun = some s ∧
    recordedRevisions s.log = [1, 2] ∧ sentRevisions 7 s.log = [1, 2] ∧
    (recordedRevisions s.log).Pairwise (· < ·) ∧ ∀ client, (sentRevisions client s.log).Pairwise (· < ·) := by
  obtain ⟨s, hs, hlog⟩ := Option.map_eq_some_iff.mp broadcastRun_log
  refine ⟨s, hs, ?_, ?_, (results_in_order hs).2⟩
  · rw [hlog]
    decide
  · rw [hlog]
    decide

end AfsimNs3.System
