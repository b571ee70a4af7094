import AfsimNs3.Bridge.Worker
import AfsimNs3.System.Coalescing

/-!
# The compute worker survives all failures but one

Failed computations and failed sends lead the loop back to its head. `turnsLeft` bounds the turns until then, whoever
fails, so an accepted revision is taken unless a newer one is accepted first (`open_step`, `run_open`). A failing
append to the CSV file ends the task, and nothing is ever taken again.
-/

namespace AfsimNs3.System

open Bridge Bridge.Server

section
variable {δ : Type}

/-! ## The log only grows -/

theorem takeJob_log (s : Server δ) : s.log <+: s.takeJob.log := by
  unfold takeJob
  split
  · exact List.prefix_refl _
  · exact List.prefix_append _ _

theorem awaitEvent_log {s : Server δ} (hs : s.Unlocked) : s.log <+: s.awaitEvent.log := by
  unfold awaitEvent
  split_ifs
  · rw [awaitJob_eq hs.pending]
    exact takeJob_log s
  · exact List.prefix_refl _

theorem sendNext_log {s : Server δ} (hs : s.Unlocked) (message : Broadcast) (todo failed : List Client) :
    s.log <+: (s.sendNext message todo failed).log := by
  unfold sendNext
  split
  · exact awaitEvent_log (removeClients_unlocked hs failed)
  · exact List.prefix_refl _

theorem move_log {s s' : Server δ} (hs : s.Unlocked) (h : Move s s') : s.log <+: s'.log := by
  cases h with
  | idle => exact List.prefix_refl _
  | clients => exact List.prefix_refl _
  | duplicate => exact List.prefix_append _ _
  | accept => exact List.prefix_append _ _
  | wake => exact takeJob_log s
  | failed job message error order =>
    have hnext := sendNext_log (setLastError_unlocked hs (some error)) message order []
    exact hnext
  | stale => exact awaitEvent_log (setLastError_unlocked hs none)
  | fresh job measured order =>
    have hnext := sendNext_log (record_unlocked (setLastError_unlocked hs none) job
      ((s.setLastError none).response job measured)) (.metrics ((s.setLastError none).response job measured)) order []
    exact (List.prefix_append _ _).trans hnext
  | written => exact List.prefix_append _ _
  | refused => exact sendNext_log hs _ _ _
  | drained => exact sendNext_log hs _ _ _

/-! ## The turns until the head of the loop -/

/-- The turns of the worker before the one that takes a job. -/
def turnsLeft (s : Server δ) : ℕ :=
  match s.worker with
  | .waiting | .wantsJob => 0
  | .computing _ | .wantsQueueState _ _ => 2 * s.clients.length
  | .sending _ todo _ => 2 * todo.length - 1
  | .draining _ _ todo _ => 2 * todo.length

/-- A broadcast in progress has a client left to write to. -/
def Addressed : Worker → Prop
  | .sending _ todo _ => todo ≠ []
  | _ => True

theorem awaitEvent_addressed {s : Server δ} (hs : s.Unlocked) : Addressed s.awaitEvent.worker := by
  unfold Server.awaitEvent
  split_ifs
  · rw [awaitJob_eq hs.pending]
    unfold Server.takeJob
    split
    · trivial
    · trivial
  · trivial

theorem sendNext_addressed {s : Server δ} (hs : s.Unlocked) (message : Broadcast) (todo failed : List Client) :
    Addressed (s.sendNext message todo failed).worker := by
  unfold Server.sendNext
  split
  · exact awaitEvent_addressed (removeClients_unlocked hs failed)
  · exact List.cons_ne_nil _ _

theorem move_addressed {s s' : Server δ} (hs : s.Unlocked) (h : Addressed s.worker) (hmove : Move s s') :
    Addressed s'.worker := by
  cases hmove with
  | idle => exact h
  | clients => exact h
  | duplicate => exact h
  | accept => exact h
  | wake =>
    unfold Server.takeJob
    split
    · trivial
    · trivial
  | failed => exact sendNext_addressed (setLastError_unlocked hs _) _ _ _
  | stale => exact awaitEvent_addressed (setLastError_unlocked hs none)
  | fresh => exact sendNext_addressed (record_unlocked (setLastError_unlocked hs none) _ _) _ _ _
  | written => trivial
  | refused => exact sendNext_addressed hs _ _ _
  | drained => exact sendNext_addressed hs _ _ _

/-- The job is pending, the newest, and the event is set for it. -/
structure Queued (job : Job) (s : Server δ) : Prop where
  unlocked : s.Unlocked
  pending : s.pending = some job
  event : s.pendingEvent = true
  newest : s.state.revision = job.snapshot.revision

/-- The worker has taken the job, or a newer revision has been accepted. -/
def Settled (job : Job) (s : Server δ) : Prop :=
  .taken job.snapshot.revision ∈ s.log ∨ job.snapshot.revision < s.state.revision

theorem Queued.takeJob {job : Job} {s : Server δ} (h : Queued job s) : Settled job s.takeJob := by
  left
  unfold Server.takeJob
  rw [h.pending]
  exact List.mem_append_right _ (List.mem_singleton_self _)

theorem Queued.awaitEvent {job : Job} {s : Server δ} (h : Queued job s) : Settled job s.awaitEvent := by
  rw [Server.awaitEvent, if_pos h.event, awaitJob_eq h.unlocked.pending]
  exact h.takeJob

theorem Queued.setLastError {job : Job} {s : Server δ} (h : Queued job s) (error : Option Str) :
    Queued job (s.setLastError error) := ⟨setLastError_unlocked h.unlocked error, h.pending, h.event, h.newest⟩

theorem Queued.record {job : Job} {s : Server δ} (h : Queued job s) (done : Job) (response : Response) :
    Queued job (s.record done response) := ⟨record_unlocked h.unlocked done response, h.pending, h.event, h.newest⟩

/-- The job is queued, and the worker has that many turns at most before it takes it. -/
structure Open (job : Job) (s : Server δ) (turns : ℕ) : Prop where
  queued : Queued job s
  addressed : Addressed s.worker
  turns : turnsLeft s ≤ turns

theorem Queued.sendNext {job : Job} {s : Server δ} (h : Queued job s) (message : Broadcast) (todo failed : List Client) :
    Settled job (s.sendNext message todo failed) ∨
      ∃ turns, turns + 1 ≤ 2 * todo.length ∧ Open job (s.sendNext message todo failed) turns := by
  cases todo with
  | nil =>
    left
    have hremoved : Queued job (s.removeClients failed) :=
      ⟨removeClients_unlocked h.unlocked failed, h.pending, h.event, h.newest⟩
    exact hremoved.awaitEvent
  | cons client todo =>
    right
    refine ⟨2 * (client :: todo).length - 1, ?_, ⟨sendNext_unlocked h.unlocked _ _ _, h.pending, h.event, h.newest⟩,
      List.cons_ne_nil _ _, Nat.le_refl _⟩
    rw [List.length_cons]
    omega

/-- The turn an action takes of the worker. -/
def turnOf (action : Action) : ℕ := if action.ofWorker then 1 else 0

/-- The turns a connection adds, should the worker be computing: a write and a drain. -/
def turnsAdded : Action → ℕ
  | .connect _ => 2
  | _ => 0

/-- What a step makes of a queued job: it is settled, or the worker is closer to it by one turn. -/
def Advanced (job : Job) (turns : ℕ) (action : Action) (s' : Server δ) : Prop :=
  Settled job s' ∨ ∃ turns', turns' + turnOf action ≤ turns + turnsAdded action ∧ Open job s' turns'

theorem Queued.sendNext_advanced {job : Job} {s : Server δ} (h : Queued job s) (message : Broadcast)
    (todo failed : List Client) {turns : ℕ} (hturns : 2 * todo.length ≤ turns) (action : Action) :
    Advanced job turns action (s.sendNext message todo failed) := by
  rcases h.sendNext message todo failed with hsettled | ⟨turns', hle, hopen⟩
  · exact .inl hsettled
  · refine .inr ⟨turns', ?_, hopen⟩
    unfold turnOf
    split_ifs
    · omega
    · omega

theorem Open.clients {job : Job} {s : Server δ} {turns : ℕ} (h : Open job s turns) (clients : List Client) :
    Open job { s with clients := clients } (turns + 2 * (clients.length - s.clients.length)) := by
  obtain ⟨hqueued, haddressed, hturns⟩ := h
  refine ⟨⟨⟨hqueued.unlocked.state, hqueued.unlocked.pending, hqueued.unlocked.calls, hqueued.unlocked.worker⟩,
    hqueued.pending, hqueued.event, hqueued.newest⟩, haddressed, ?_⟩
  unfold turnsLeft at hturns ⊢
  cases hworker : s.worker with
  | waiting => exact Nat.zero_le _
  | wantsJob => exact Nat.zero_le _
  | computing done =>
    simp only [hworker] at hturns ⊢
    omega
  | wantsQueueState done measured =>
    simp only [hworker] at hturns ⊢
    omega
  | sending message todo failed =>
    simp only [hworker] at hturns ⊢
    omega
  | draining message client todo failed =>
    simp only [hworker] at hturns ⊢
    omega

theorem Open.log {job : Job} {s : Server δ} {turns : ℕ} (h : Open job s turns) (log : List Event) :
    Open job { s with log := log } turns :=
  ⟨⟨⟨h.queued.unlocked.state, h.queued.unlocked.pending, h.queued.unlocked.calls, h.queued.unlocked.worker⟩,
    h.queued.pending, h.queued.event, h.queued.newest⟩, h.addressed, h.turns⟩

theorem Open.computed {job : Job} {s : Server δ} {turns : ℕ} (h : Open job s turns) {done : Job}
    (hworker : s.worker = .computing done) (computation : Computation) {order : List Client} (horder : order.Perm s.clients)
    (action : Action) : Advanced job turns action (s.computed done computation order) := by
  have hturns : 2 * order.length ≤ turns := by
    have hleft := h.turns
    unfold turnsLeft at hleft
    simp only [hworker] at hleft
    rw [horder.length_eq]
    exact hleft
  unfold Server.computed
  cases computation with
  | failed message => exact (h.queued.setLastError _).sendNext_advanced _ order [] hturns action
  | ok values computeMs =>
    dsimp only
    rw [if_neg (show ¬ s.pendingLock = true by rw [h.queued.unlocked.pending]; exact Bool.false_ne_true)]
    split_ifs
    · exact .inl (h.queued.setLastError none).awaitEvent
    · exact ((h.queued.setLastError none).record _ _).sendNext_advanced _ order [] hturns action

section
variable [DecidableEq δ] {digestOf : Json → Except PyError δ} {s s' : Server δ} {job : Job}

theorem Open.process {turns : ℕ} (h : Open job s turns) (payload : Json) :
    Advanced job turns (.call payload) (s.process digestOf payload).1 := by
  cases hprocess : s.process digestOf payload with
  | mk t answer =>
    have houtcome := process_outcome digestOf h.queued.unlocked payload
    rw [hprocess] at houtcome
    cases houtcome with
    | raised e => exact .inr ⟨turns, Nat.le_refl _, h⟩
    | latest envelope henvelope hquery => exact .inr ⟨turns, Nat.le_refl _, h⟩
    | repeated envelope digest ack hrequest hcached => exact .inr ⟨turns, Nat.le_refl _, h.log _⟩
    | accepted envelope digest state snapshot hrequest hnew hupdate hsnapshot =>
      left
      right
      obtain ⟨hrevision, -⟩ := update_ok hupdate
      rw [accept_state, hrevision, h.queued.newest]
      exact Nat.lt_succ_self _

/-- **A step brings the worker closer to a queued job**, or settles it. -/
theorem open_step {turns : ℕ} {action : Action} (h : Open job s turns) (hstep : Server.step digestOf s action = some s') :
    Advanced job turns action s' := by
  have hunlocked := h.queued.unlocked
  cases step_cases hunlocked hstep with
  | connect client =>
    refine .inr ⟨_, ?_, h.clients _⟩
    have hlength : (if client ∈ s.clients then s.clients else s.clients ++ [client]).length ≤ s.clients.length + 1 := by
      split_ifs
      · omega
      · rw [List.length_append, List.length_singleton]
    show turns + 2 * _ + 0 ≤ turns + 2
    omega
  | disconnect client =>
    refine .inr ⟨_, ?_, h.clients _⟩
    have hlength := List.length_filter_le (fun c => decide (c ≠ client)) s.clients
    show turns + 2 * _ + 0 ≤ turns + 0
    omega
  | call payload => exact h.process payload
  | wake hwaiting => exact .inl h.queued.takeJob
  | computed done computation order hworker horder => exact h.computed hworker computation horder _
  | write ok message client todo failed hworker =>
    have hturns : 2 * todo.length + 1 ≤ turns := by
      have hleft := h.turns
      unfold turnsLeft at hleft
      simp only [hworker, List.length_cons] at hleft
      omega
    unfold Server.write
    split_ifs
    · right
      refine ⟨2 * todo.length, hturns, ⟨⟨hunlocked.state, hunlocked.pending, hunlocked.calls, trivial⟩,
        h.queued.pending, h.queued.event, h.queued.newest⟩, trivial, Nat.le_refl _⟩
    · exact h.queued.sendNext_advanced message todo _ (by omega) _
  | drained ok message client todo failed hworker =>
    have hturns : 2 * todo.length ≤ turns := by
      have hleft := h.turns
      unfold turnsLeft at hleft
      simpa only [hworker] using hleft
    exact h.queued.sendNext_advanced message todo _ hturns _

theorem settled_step {action : Action} (hs : s.Unlocked) (h : Settled job s)
    (hstep : Server.step digestOf s action = some s') : Settled job s' := by
  rcases h with htaken | hnewer
  · left
    exact (move_log hs (step_move hs hstep)).subset htaken
  · right
    rcases step_kept_or_accepted hs hstep with ⟨hstate, -⟩ | ⟨payload, -, haccepted⟩
    · rw [hstate]
      exact hnewer
    · obtain ⟨envelope, digest, state, snapshot, -, -, hupdate, -, rfl⟩ := haccepted
      obtain ⟨hrevision, -⟩ := update_ok hupdate
      rw [accept_state]
      omega

/-- While a job is queued the worker can go on. -/
theorem Open.enabled (digestOf : Json → Except PyError δ) {turns : ℕ} (h : Open job s turns) :
    ∃ action s', action.ofWorker = true ∧ Server.step digestOf s action = some s' := by
  have hfree := h.queued.unlocked.worker
  have haddressed := h.addressed
  cases hworker : s.worker with
  | waiting =>
    refine ⟨.wake, s.awaitJob, rfl, ?_⟩
    rw [Server.step, hworker]
    exact if_pos h.queued.event
  | wantsJob =>
    rw [hworker] at hfree
    exact hfree.elim
  | computing done =>
    refine ⟨.computed (.failed []) s.clients, s.computed done (.failed []) s.clients, rfl, ?_⟩
    rw [Server.step, hworker]
    exact if_pos (List.Perm.refl _)
  | wantsQueueState done measured =>
    rw [hworker] at hfree
    exact hfree.elim
  | sending message todo failed =>
    rw [hworker] at haddressed
    cases todo with
    | nil => exact absurd rfl haddressed
    | cons client todo =>
      refine ⟨.write true, s.write true message client todo failed, rfl, ?_⟩
      rw [Server.step, hworker]
  | draining message client todo failed =>
    refine ⟨.drained true, s.sendNext message todo failed, rfl, ?_⟩
    rw [Server.step, hworker]
    rfl

end

end

/-! ## Runs of the service -/

/-- The turns of the worker in a run. -/
def turnsTaken (actions : List Service.Action) : ℕ :=
  (actions.map fun action => match action with | .serve action => turnOf action | _ => 0).sum

/-- The connections of a run, two turns each. -/
def turnsOfConnections (actions : List Service.Action) : ℕ :=
  (actions.map fun action => match action with | .serve action => turnsAdded action | _ => 0).sum

/-- No append fails, and the service is not closed. -/
def Serving (actions : List Service.Action) : Prop := ∀ action ∈ actions, ∃ served, action = .serve served

section
variable {δ : Type} [DecidableEq δ] {digestOf : Json → Except PyError δ} {l l' : Service δ} {job : Job}

theorem serve_step {action : Server.Action} (h : Service.step digestOf l (.serve action) = some l') :
    Server.step digestOf l.server action = some l'.server ∧ l'.task = l.task := by
  rw [Service.step] at h
  split_ifs at h
  obtain ⟨s, hs, rfl⟩ := Option.map_eq_some_iff.mp h
  exact ⟨hs, rfl⟩

theorem serving_task {more : List Service.Action} (hserving : Serving more)
    (hrun : Machine.run (Service.step digestOf) l more = some l') : l'.task = l.task := by
  refine Machine.along_invariant (fun t : Service δ => t.task = l.task) ?_ rfl (Machine.along_of_forall hserving l) hrun
  rintro t action t' htask ⟨served, rfl⟩ hstep
  exact (serve_step hstep).2.trans htask

theorem run_settled {more : List Service.Action} (hserving : Serving more)
    (hrun : Machine.run (Service.step digestOf) l more = some l') (hs : l.server.Unlocked)
    (h : Settled job l.server) : Settled job l'.server := by
  have hinv := Machine.along_invariant (fun l : Service δ => Settled job l.server ∧ l.server.Unlocked)
    (fun l action l' hinv hok hstep => by
      obtain ⟨served, rfl⟩ := hok
      obtain ⟨hserve, -⟩ := serve_step hstep
      exact ⟨settled_step hinv.2 hinv.1 hserve, (step_move hinv.2 hserve).unlocked hinv.2⟩)
    ⟨h, hs⟩ (Machine.along_of_forall hserving l) hrun
  exact hinv.1

/-- **A queued job is taken** within the turns left, unless a newer revision is accepted. -/
theorem run_open {more : List Service.Action} (hserving : Serving more)
    (hrun : Machine.run (Service.step digestOf) l more = some l') {turns : ℕ} (h : Open job l.server turns) :
    Settled job l'.server ∨
      ∃ turns', turns' + turnsTaken more ≤ turns + turnsOfConnections more ∧ Open job l'.server turns' := by
  induction more generalizing l turns with
  | nil =>
    obtain rfl := Option.some.inj hrun
    exact .inr ⟨turns, Nat.le_refl _, h⟩
  | cons action more ih =>
    obtain ⟨t, hstep, hrest⟩ := Machine.run_cons.mp hrun
    obtain ⟨⟨served, rfl⟩, hmore⟩ := List.forall_mem_cons.mp hserving
    obtain ⟨hserve, -⟩ := serve_step hstep
    have htaken : turnsTaken (.serve served :: more) = turnOf served + turnsTaken more := List.sum_cons
    have hadded : turnsOfConnections (.serve served :: more) = turnsAdded served + turnsOfConnections more := List.sum_cons
    rcases open_step h hserve with hsettled | ⟨turns', hle, hopen⟩
    · have hs := (step_move h.queued.unlocked hserve).unlocked h.queued.unlocked
      exact .inl (run_settled hmore hrest hs hsettled)
    · rcases ih hmore hrest hopen with hsettled | ⟨turns'', hle', hopen⟩
      · exact .inl hsettled
      · exact .inr ⟨turns'', by omega, hopen⟩

/-- While its task runs, the service has done what a `Server` does. -/
theorem running_reached {actions : List Service.Action}
    (hrun : Machine.run (Service.step digestOf) Service.new actions = some l) (hrunning : l.task = .running) :
    ∃ served, Machine.run (Server.step digestOf) Server.new served = some l.server := by
  have hinv := Machine.run_invariant
    (fun l : Service δ => l.task = .running → ∃ served, Machine.run (Server.step digestOf) Server.new served = some l.server)
    (fun l action l' hinv hstep hrunning => by
      cases action with
      | serve action =>
        obtain ⟨hserve, htask⟩ := serve_step hstep
        obtain ⟨served, hserved⟩ := hinv (htask ▸ hrunning)
        exact ⟨served ++ [action], Machine.run_append.mpr ⟨_, hserved, Machine.run_cons.mpr ⟨_, hserve, rfl⟩⟩⟩
      | appendFails values computeMs =>
        rw [Service.step] at hstep
        split_ifs at hstep
        obtain ⟨s, -, rfl⟩ := Option.map_eq_some_iff.mp hstep
        cases hrunning
      | close =>
        obtain rfl := Option.some.inj hstep
        cases htask : l.task with
        | running => rw [htask] at hrunning; cases hrunning
        | raised => rw [htask] at hrunning; cases hrunning
        | cancelled => rw [htask] at hrunning; cases hrunning)
    (fun _ => ⟨[], rfl⟩) hrun
  exact hinv hrunning

/-- Why the task is not running. -/
theorem task_of_run {actions : List Service.Action} (hrun : Machine.run (Service.step digestOf) l actions = some l') :
    (l'.task = .raised ↔ l.task = .raised ∨ ∃ values computeMs, .appendFails values computeMs ∈ actions) ∧
      (l'.task = .cancelled → l.task = .cancelled ∨ .close ∈ actions) := by
  induction actions generalizing l with
  | nil =>
    obtain rfl := Option.some.inj hrun
    simp
  | cons action actions ih =>
    obtain ⟨t, hstep, hrun⟩ := Machine.run_cons.mp hrun
    obtain ⟨hraised, hcancelled⟩ := ih hrun
    cases action with
    | serve action =>
      obtain ⟨-, htask⟩ := serve_step hstep
      rw [htask] at hraised hcancelled
      simpa using ⟨hraised, hcancelled⟩
    | appendFails values computeMs =>
      rw [Service.step] at hstep
      split_ifs at hstep with hrunning
      obtain ⟨s, -, rfl⟩ := Option.map_eq_some_iff.mp hstep
      have htask : l'.task = .raised := hraised.mpr (.inl rfl)
      refine ⟨iff_of_true htask (.inr ⟨values, computeMs, List.mem_cons_self⟩), fun h => ?_⟩
      rw [htask] at h
      cases h
    | close =>
      obtain rfl := Option.some.inj hstep
      have htask : Service.Task.cancel l.task = .raised ↔ l.task = .raised := by
        cases l.task
        · exact iff_of_false (fun h => nomatch h) (fun h => nomatch h)
        · exact Iff.rfl
        · exact Iff.rfl
      refine ⟨?_, fun _ => .inr List.mem_cons_self⟩
      rw [hraised, htask]
      simp

/-- A job pending in a running service is queued. -/
theorem reached_open {actions : List Service.Action}
    (hrun : Machine.run (Service.step digestOf) Service.new actions = some l) (hrunning : l.task = .running)
    (hpending : l.server.pending = some job) : Open job l.server (turnsLeft l.server) := by
  obtain ⟨served, hserved⟩ := running_reached hrun hrunning
  obtain ⟨hrevision, hevent⟩ := (run_accounted hserved).newest job hpending
  have hs := run_moves (fun s : Server δ => Addressed s.worker) (fun _ _ hs h hmove => move_addressed hs h hmove) trivial
    hserved
  exact ⟨⟨hs.1, hpending, hevent, hrevision.symm⟩, hs.2, Nat.le_refl _⟩

/-- **The worker survives** every failed computation and every failed send: its task ends with an exception exactly in
the runs in which an append to the file fails, and is cancelled only by `close`. While it runs, a pending job is taken
or superseded; until then the worker can go on, and has no more than `turnsLeft` turns and two for each connection
before it. -/
theorem worker_survives {actions : List Service.Action}
    (hrun : Machine.run (Service.step digestOf) Service.new actions = some l) :
    (l.task = .raised ↔ ∃ values computeMs, .appendFails values computeMs ∈ actions) ∧
    (l.task = .cancelled → .close ∈ actions) ∧
    (l.task = .running → ∀ job, l.server.pending = some job → ∀ more l', Serving more →
      Machine.run (Service.step digestOf) l more = some l' →
      .taken job.snapshot.revision ∈ l'.server.log ∨ job.snapshot.revision < l'.server.state.revision ∨
        (l'.server.pending = some job ∧
          (∃ action next, action.ofWorker = true ∧ Service.step digestOf l' (.serve action) = some next) ∧
          turnsTaken more ≤ turnsLeft l.server + turnsOfConnections more)) := by
  obtain ⟨hraised, hcancelled⟩ := task_of_run hrun
  have hnew : (Service.new : Service δ).task = .running := rfl
  rw [hnew] at hraised hcancelled
  refine ⟨?_, fun h => (hcancelled h).resolve_left (fun h => nomatch h),
    fun hrunning job hpending more l' hserving hmore => ?_⟩
  · rw [hraised]
    simp
  · rcases run_open hserving hmore (reached_open hrun hrunning hpending) with hsettled | ⟨turns, hle, hopen⟩
    · rcases hsettled with htaken | hnewer
      · exact .inl htaken
      · exact .inr (.inl hnewer)
    · right
      right
      obtain ⟨action, s', hworker, hstep⟩ := hopen.enabled digestOf
      have htask : l'.task = .running := (serving_task hserving hmore).trans hrunning
      refine ⟨hopen.queued.pending, ⟨action, { l' with server := s' }, hworker, ?_⟩, by omega⟩
      rw [Service.step, htask, hstep, if_neg (by simp)]
      rfl

/-! ## After a failed append -/

theorem service_unlocked {actions : List Service.Action}
    (hrun : Machine.run (Service.step digestOf) Service.new actions = some l) : l.server.Unlocked := by
  refine Machine.run_invariant (fun l : Service δ => l.server.Unlocked) (fun l action l' hs hstep => ?_) new_unlocked hrun
  cases action with
  | serve action =>
    obtain ⟨hserve, -⟩ := serve_step hstep
    exact (step_move hs hserve).unlocked hs
  | appendFails values computeMs =>
    rw [Service.step] at hstep
    split_ifs at hstep
    obtain ⟨s, happend, rfl⟩ := Option.map_eq_some_iff.mp hstep
    have hrecorded : ∀ job measured, (Service.recordFailing l.server job measured).Unlocked :=
      fun _ _ => ⟨hs.state, hs.pending, hs.calls, hs.worker⟩
    rw [Service.appendFails] at happend
    split_ifs at happend
    split at happend
    · split_ifs at happend
      obtain rfl := Option.some.inj happend
      exact hrecorded _ _
    · obtain rfl := Option.some.inj happend
      exact hrecorded _ _
    · cases happend
  | close =>
    obtain rfl := Option.some.inj hstep
    exact hs

/-- The task has ended. -/
structure Ended (revision : ℕ) (l : Service δ) : Prop where
  unlocked : l.server.Unlocked
  task : l.task = .raised
  untaken : .taken revision ∉ l.server.log

theorem process_untaken {s : Server δ} (hs : s.Unlocked) (payload : Json) {revision : ℕ}
    (h : .taken revision ∉ s.log) : .taken revision ∉ (s.process digestOf payload).1.log := by
  cases hprocess : s.process digestOf payload with
  | mk t answer =>
    have houtcome := process_outcome digestOf hs payload
    rw [hprocess] at houtcome
    cases houtcome with
    | raised e => exact h
    | latest envelope henvelope hquery => exact h
    | repeated envelope digest ack hrequest hcached =>
      show .taken revision ∉ s.log ++ [.replied { ack with duplicate := true }]
      simp [h]
    | accepted envelope digest state snapshot hrequest hnew hupdate hsnapshot =>
      show .taken revision ∉ s.log ++ [.accepted state.revision, .replied (ackOf envelope snapshot s.pending)]
      simp [h]

theorem ended_step {revision : ℕ} {action : Service.Action} (h : Ended revision l)
    (hstep : Service.step digestOf l action = some l') : Ended revision l' := by
  cases action with
  | serve action =>
    obtain ⟨hserve, htask⟩ := serve_step hstep
    refine ⟨(step_move h.unlocked hserve).unlocked h.unlocked, htask.trans h.task, ?_⟩
    rw [Service.step, h.task] at hstep
    split_ifs at hstep with hworker
    cases action with
    | connect client =>
      obtain rfl := Option.some.inj hstep
      exact h.untaken
    | disconnect client =>
      obtain rfl := Option.some.inj hstep
      exact h.untaken
    | call payload =>
      obtain rfl := Option.some.inj hstep
      exact process_untaken h.unlocked payload h.untaken
    | resumeCall index =>
      rw [Server.step, Server.resumeCall, h.unlocked.calls] at hserve
      cases hserve
    | _ => exact absurd rfl hworker
  | appendFails values computeMs =>
    rw [Service.step, h.task] at hstep
    cases hstep
  | close =>
    obtain rfl := Option.some.inj hstep
    refine ⟨h.unlocked, ?_, h.untaken⟩
    show Service.Task.cancel l.task = .raised
    rw [h.task]
    rfl

end

/-- A computation fails, then a delta is accepted. -/
def failedRun : List Service.Action := [.serve (.call emptyInit), .serve .wake,
  .serve (.computed (.failed (str "no result")) []), .serve (.call emptyDelta)]

theorem failedRun_survives : ∃ l, Machine.run (Service.step digestById) Service.new failedRun = some l ∧
    l.task ≠ .raised ∧ ∀ more l', Serving more → Machine.run (Service.step digestById) l more = some l' →
      .taken 2 ∈ l'.server.log ∨ 2 < l'.server.state.revision ∨
        ∃ action next, action.ofWorker = true ∧ Service.step digestById l' (.serve action) = some next := by
  have hend : (Machine.run (Service.step digestById) Service.new failedRun).map (fun l =>
      (l.task, l.server.pending.map (fun job => job.snapshot.revision))) = some (.running, some 2) := by decide +kernel
  obtain ⟨l, hrun, hend⟩ := Option.map_eq_some_iff.mp hend
  obtain ⟨htask, hpending⟩ := Prod.mk.inj hend
  obtain ⟨job, hjob, hrevision⟩ := Option.map_eq_some_iff.mp hpending
  refine ⟨l, hrun, by rw [htask]; decide, fun more l' hserving hmore => ?_⟩
  rcases (worker_survives hrun).2.2 htask job hjob more l' hserving hmore with htaken | hnewer | ⟨-, henabled, -⟩
  · exact .inl (hrevision ▸ htaken)
  · exact .inr (.inl (hrevision ▸ hnewer))
  · exact .inr (.inr henabled)

/-- The append of the first result fails, then a delta is accepted. -/
def appendRun : List Service.Action := [.serve (.call emptyInit), .serve .wake, .appendFails Dict.empty 0,
  .serve (.call emptyDelta)]

/-- **A failed append ends the worker**: nobody closed the service, the accepted revision 2 is the newest, and it is
never taken. -/
theorem append_ends_worker : ∃ l, Machine.run (Service.step digestById) Service.new appendRun = some l ∧
    .close ∉ appendRun ∧ l.task = .raised ∧ .accepted 2 ∈ l.server.log ∧
    ∀ more l', Machine.run (Service.step digestById) l more = some l' → .taken 2 ∉ l'.server.log := by
  have hend : (Machine.run (Service.step digestById) Service.new appendRun).map (fun l => (l.task, l.server.log)) =
      some (.raised, [.accepted 1, .replied ⟨str "i", 0, 1, none, false⟩, .taken 1, .accepted 2,
        .replied ⟨str "d", 0, 2, none, false⟩]) := by decide +kernel
  obtain ⟨l, hrun, hend⟩ := Option.map_eq_some_iff.mp hend
  obtain ⟨htask, hlog⟩ := Prod.mk.inj hend
  have hclose : .close ∉ appendRun := by simp [appendRun]
  have haccepted : .accepted 2 ∈ l.server.log := by
    rw [hlog]
    decide
  have huntaken : .taken 2 ∉ l.server.log := by
    rw [hlog]
    decide
  refine ⟨l, hrun, hclose, htask, haccepted, fun more l' hmore => ?_⟩
  have hended : Ended 2 l' := Machine.run_invariant (Ended 2) (fun _ _ _ h hstep => ended_step h hstep)
    ⟨service_unlocked hrun, htask, huntaken⟩ hmore
  exact hended.untaken

end AfsimNs3.System
