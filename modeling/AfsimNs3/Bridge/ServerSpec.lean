import AfsimNs3.Bridge.Server
import AfsimNs3.Bridge.StateSpec

/-!
# What a step of the service can do

No coroutine suspends while it holds a lock, so no lock is ever found held (`Unlocked`, `run_unlocked`): a call of
`process` runs to its end, and so does every turn of the compute loop up to its next wait. `Stepped` lists the steps
that are left, and `step_cases` is the only place where the definition of `step` is opened; `Move` lists what they do.
-/

namespace AfsimNs3.Bridge
open Ns3Runner (ComputeResult)

/-- The worker does not wait for a lock. -/
def Worker.Free : Worker → Prop
  | .wantsJob | .wantsQueueState _ _ => False
  | _ => True

namespace Server

variable {δ : Type}

/-- No lock is held and nobody waits for one. -/
structure Unlocked (s : Server δ) : Prop where
  state : s.stateLock = false
  pending : s.pendingLock = false
  calls : s.calls = []
  worker : s.worker.Free

theorem new_unlocked : (new : Server δ).Unlocked := ⟨rfl, rfl, rfl, trivial⟩

/-! ## The turns of the loop -/

theorem awaitJob_eq {s : Server δ} (hs : s.pendingLock = false) : s.awaitJob = s.takeJob := by
  rw [awaitJob, hs, if_neg Bool.false_ne_true]

theorem takeJob_unlocked {s : Server δ} (hs : s.Unlocked) : s.takeJob.Unlocked := by
  unfold takeJob
  split
  · exact ⟨hs.state, hs.pending, hs.calls, trivial⟩
  · exact ⟨hs.state, hs.pending, hs.calls, trivial⟩

theorem awaitEvent_unlocked {s : Server δ} (hs : s.Unlocked) : s.awaitEvent.Unlocked := by
  unfold awaitEvent
  split_ifs
  · rw [awaitJob_eq hs.pending]
    exact takeJob_unlocked hs
  · exact ⟨hs.state, hs.pending, hs.calls, trivial⟩

theorem removeClients_unlocked {s : Server δ} (hs : s.Unlocked) (failed : List Client) :
    (s.removeClients failed).Unlocked := ⟨hs.state, hs.pending, hs.calls, hs.worker⟩

theorem setLastError_unlocked {s : Server δ} (hs : s.Unlocked) (error : Option Str) : (s.setLastError error).Unlocked :=
  ⟨hs.state, hs.pending, hs.calls, hs.worker⟩

theorem record_unlocked {s : Server δ} (hs : s.Unlocked) (job : Job) (response : Response) :
    (s.record job response).Unlocked := ⟨hs.state, hs.pending, hs.calls, hs.worker⟩

theorem sendNext_unlocked {s : Server δ} (hs : s.Unlocked) (message : Broadcast) (todo failed : List Client) :
    (s.sendNext message todo failed).Unlocked := by
  unfold sendNext
  split
  · exact awaitEvent_unlocked (removeClients_unlocked hs failed)
  · exact ⟨hs.state, hs.pending, hs.calls, trivial⟩

/-! ## Accepting an update -/

/-- An update that is accepted takes the next revision, and its snapshot can be taken. -/
theorem update_ok {state state' : StateStore} {envelope : Envelope} {payload : Fields}
    (h : update state envelope payload = .ok state') :
    state'.revision = state.revision + 1 ∧ ∃ snapshot, state'.snapshot = .ok snapshot ∧
      snapshot.revision = state.revision + 1 := by
  have hvalid : state'.revision = state.revision + 1 ∧ state'.initialized = true ∧
      StateStore.validateReferences state'.entities state'.flows = .ok ⟨⟩ := by
    unfold update at h
    split_ifs at h
    · obtain ⟨_, _, _, _, -, -, -, -, hrefs, rfl⟩ := StateStore.initializeStore_ok_iff.mp h
      exact ⟨rfl, rfl, hrefs⟩
    · obtain ⟨-, -, _, _, _, -, -, hrefs, rfl⟩ := StateStore.applyDelta_ok_iff.mp h
      exact ⟨rfl, rfl, hrefs⟩
  obtain ⟨hrevision, hinit, hrefs⟩ := hvalid
  obtain ⟨snapshot, hsnapshot⟩ := StateStore.snapshot_exists hinit hrefs
  refine ⟨hrevision, snapshot, hsnapshot, ?_⟩
  rw [(StateStore.snapshot_ok_iff.mp hsnapshot).2.2.2.2, hrevision]

/-- The reply to a newly accepted request. -/
def ackOf (envelope : Envelope) (snapshot : StateSnapshot) (pending : Option Job) : Ack :=
  { requestId := envelope.requestId
    timestampMs := envelope.timestampMs
    revision := snapshot.revision
    coalescedRevision := pending.map (fun job => job.snapshot.revision)
    duplicate := false }

/-! ## The moves -/

/-- What a step from an unlocked state does. -/
inductive Move (s : Server δ) : Server δ → Prop where
  | idle : Move s s
  | clients (clients : List Client) (h : s.clients.Nodup → clients.Nodup) : Move s { s with clients := clients }
  | duplicate (requestId : Str) (digest : δ) (ack : Ack) (h : (requestId, digest, ack) ∈ s.idempotency) :
      Move s { s with log := s.log ++ [.replied { ack with duplicate := true }] }
  | accept (envelope : Envelope) (digest : δ) (state : StateStore) (snapshot : StateSnapshot)
      (hrevision : state.revision = s.state.revision + 1) (hsnapshot : snapshot.revision = s.state.revision + 1) :
      Move s { s with
        state := state
        pending := some ⟨envelope.requestId, snapshot⟩
        pendingEvent := true
        idempotency := rememberRequest s.idempotency envelope.requestId (digest, ackOf envelope snapshot s.pending)
        log := s.log ++ [.accepted state.revision, .replied (ackOf envelope snapshot s.pending)] }
  | wake (h : s.worker = .waiting) : Move s s.takeJob
  | failed (job : Job) (message : Broadcast) (error : Str) (order : List Client) (h : s.worker = .computing job)
      (hmessage : ∃ response, message = .error response) :
      Move s ((s.setLastError (some error)).sendNext message order [])
  | stale (job : Job) (h : s.worker = .computing job) (hstale : job.snapshot.revision < s.state.revision) :
      Move s (s.setLastError none).awaitEvent
  | fresh (job : Job) (measured : ComputeResult) (order : List Client) (h : s.worker = .computing job)
      (horder : order.Perm s.clients) (hfresh : s.state.revision ≤ job.snapshot.revision)
      (hmeasured : measured.revision = job.snapshot.revision) :
      Move s ((s.setLastError none).report job measured order)
  | written (message : Broadcast) (client : Client) (todo failed : List Client)
      (h : s.worker = .sending message (client :: todo) failed) : Move s (s.write true message client todo failed)
  | refused (message : Broadcast) (client : Client) (todo failed : List Client)
      (h : s.worker = .sending message (client :: todo) failed) : Move s (s.write false message client todo failed)
  | drained (message : Broadcast) (client : Client) (todo failed failed' : List Client)
      (h : s.worker = .draining message client todo failed) : Move s (s.sendNext message todo failed')

theorem mem_rememberRequest {cache : List (Str × δ × Ack)} {requestId : Str} {entry : δ × Ack} {e : Str × δ × Ack}
    (he : e ∈ rememberRequest cache requestId entry) : e ∈ cache ∨ e = (requestId, entry) := by
  have hmem := List.mem_of_mem_drop he
  rw [List.mem_append, List.mem_filter, List.mem_singleton] at hmem
  exact hmem.imp_left And.left

theorem unlock_eq {s : Server δ} (hs : s.stateLock = false) : { s with stateLock := false } = s := by
  rw [← hs]

section
variable [DecidableEq δ]

theorem processLocked_move {s : Server δ} (hs : s.Unlocked) (envelope : Envelope) (payload : Fields) (digest : δ) :
    Move s ({ s with stateLock := true }.processLocked envelope payload digest).1 := by
  unfold processLocked
  dsimp only
  cases hcached : Assoc.find? s.idempotency envelope.requestId with
  | some entry =>
    obtain ⟨cachedDigest, cached⟩ := entry
    dsimp only
    split_ifs
    · rw [unlock_eq hs.state]
      exact .idle
    · have hmove := Move.duplicate envelope.requestId cachedDigest cached (Assoc.mem_of_find? hcached)
      rwa [hs.state] at hmove
  | none =>
    cases hupdate : update s.state envelope payload with
    | error e =>
      show Move s { s with stateLock := false }
      rw [unlock_eq hs.state]
      exact .idle
    | ok state =>
      obtain ⟨hrevision, snapshot, hsnapshot, hnew⟩ := update_ok hupdate
      have hmove := Move.accept envelope digest state snapshot hrevision hnew
      simp only [hsnapshot, hs.pending, if_neg Bool.false_ne_true, acknowledge, List.append_assoc]
      rwa [hs.state, hs.pending] at hmove

theorem process_move {digestOf : Json → Except PyError δ} {s : Server δ} (hs : s.Unlocked) (payload : Json) :
    Move s (s.process digestOf payload).1 := by
  unfold process
  cases validateEnvelope payload with
  | error e => exact .idle
  | ok envelope =>
    dsimp only
    by_cases hquery : envelope.messageType = .metricsQuery
    · rw [if_pos hquery]
      exact .idle
    · rw [if_neg hquery]
      cases digestOf payload with
      | error e => exact .idle
      | ok digest =>
        dsimp only
        rw [if_neg (Bool.eq_false_iff.mp hs.state)]
        exact processLocked_move hs envelope payload.fields digest

omit [DecidableEq δ] in
theorem computed_move {s : Server δ} (hs : s.Unlocked) {job : Job} (h : s.worker = .computing job)
    (computation : Computation) {order : List Client} (horder : order.Perm s.clients) :
    Move s (s.computed job computation order) := by
  unfold computed
  cases computation with
  | failed message => exact .failed job _ message order h ⟨_, rfl⟩
  | ok values computeMs =>
    dsimp only
    split_ifs with hstale hlock
    · exact .stale job h hstale
    · rw [hs.pending] at hlock
      exact absurd hlock Bool.false_ne_true
    · exact .fresh job _ order h horder (not_lt.mp hstale) rfl

/-- The steps there are, each with what it finds the worker at. -/
inductive Stepped (digestOf : Json → Except PyError δ) (s : Server δ) : Action → Server δ → Prop where
  | connect (client : Client) : Stepped digestOf s (.connect client)
      { s with clients := if client ∈ s.clients then s.clients else s.clients ++ [client] }
  | disconnect (client : Client) : Stepped digestOf s (.disconnect client)
      { s with clients := s.clients.filter (fun c => c ≠ client) }
  | call (payload : Json) : Stepped digestOf s (.call payload) (s.process digestOf payload).1
  | wake (h : s.worker = .waiting) : Stepped digestOf s .wake s.takeJob
  | computed (job : Job) (computation : Computation) (order : List Client) (h : s.worker = .computing job)
      (horder : order.Perm s.clients) :
      Stepped digestOf s (.computed computation order) (s.computed job computation order)
  | write (ok : Bool) (message : Broadcast) (client : Client) (todo failed : List Client)
      (h : s.worker = .sending message (client :: todo) failed) :
      Stepped digestOf s (.write ok) (s.write ok message client todo failed)
  | drained (ok : Bool) (message : Broadcast) (client : Client) (todo failed : List Client)
      (h : s.worker = .draining message client todo failed) :
      Stepped digestOf s (.drained ok) (s.sendNext message todo (if ok then failed else failed ++ [client]))

/-- **The steps of an unlocked service**: no call and no worker waits for a lock. -/
theorem step_cases {digestOf : Json → Except PyError δ} {s s' : Server δ} {action : Action} (hs : s.Unlocked)
    (h : step digestOf s action = some s') : Stepped digestOf s action s' := by
  cases action with
  | connect client =>
    obtain rfl := Option.some.inj h
    exact .connect client
  | disconnect client =>
    obtain rfl := Option.some.inj h
    exact .disconnect client
  | call payload =>
    obtain rfl := Option.some.inj h
    exact .call payload
  | resumeCall index =>
    rw [step, resumeCall, hs.calls] at h
    exact nomatch h
  | wake =>
    rw [step] at h
    split at h
    · rename_i hwaiting
      split_ifs at h
      obtain rfl := Option.some.inj h
      rw [awaitJob_eq hs.pending]
      exact .wake hwaiting
    · exact nomatch h
  | resumeWorker order =>
    have hfree := hs.worker
    rw [step, resumeWorker] at h
    split_ifs at h
    split at h
    · rename_i hworker
      rw [hworker] at hfree
      exact hfree.elim
    · rename_i hworker
      rw [hworker] at hfree
      exact hfree.elim
    · exact nomatch h
  | computed computation order =>
    rw [step] at h
    split at h
    · rename_i job hjob
      split_ifs at h with horder
      obtain rfl := Option.some.inj h
      exact .computed job computation order hjob horder
    · exact nomatch h
  | write ok =>
    rw [step] at h
    split at h
    · rename_i message client todo failed hworker
      obtain rfl := Option.some.inj h
      exact .write ok message client todo failed hworker
    · exact nomatch h
  | drained ok =>
    rw [step] at h
    split at h
    · rename_i message client todo failed hworker
      obtain rfl := Option.some.inj h
      exact .drained ok message client todo failed hworker
    · exact nomatch h

/-- **What the steps do**, without what brought them about. -/
theorem step_move {digestOf : Json → Except PyError δ} {s s' : Server δ} {action : Action} (hs : s.Unlocked)
    (h : step digestOf s action = some s') : Move s s' := by
  cases step_cases hs h with
  | connect client =>
    refine .clients _ fun hnodup => ?_
    split_ifs with hmem
    · exact hnodup
    · exact List.nodup_append.mpr ⟨hnodup, List.nodup_singleton _, fun a ha b hb hab =>
        hmem (List.mem_singleton.mp hb ▸ hab ▸ ha)⟩
  | disconnect client => exact .clients _ fun hnodup => hnodup.filter _
  | call payload => exact process_move hs payload
  | wake hwaiting => exact .wake hwaiting
  | computed job computation order hjob horder => exact computed_move hs hjob computation horder
  | write ok message client todo failed hworker =>
    cases ok with
    | true => exact .written message client todo failed hworker
    | false => exact .refused message client todo failed hworker
  | drained ok message client todo failed hworker => exact .drained message client todo failed _ hworker

omit [DecidableEq δ] in
theorem Move.unlocked {s s' : Server δ} (h : Move s s') (hs : s.Unlocked) : s'.Unlocked := by
  cases h with
  | idle => exact hs
  | clients | duplicate | accept => exact ⟨hs.state, hs.pending, hs.calls, hs.worker⟩
  | wake => exact takeJob_unlocked hs
  | failed => exact sendNext_unlocked (setLastError_unlocked hs _) _ _ _
  | stale => exact awaitEvent_unlocked (setLastError_unlocked hs _)
  | fresh => exact sendNext_unlocked (record_unlocked (setLastError_unlocked hs _) _ _) _ _ _
  | written => exact ⟨hs.state, hs.pending, hs.calls, trivial⟩
  | refused => exact sendNext_unlocked hs _ _ _
  | drained => exact sendNext_unlocked hs _ _ _

/-- **The rule of runs**: what every move keeps holds after every run; no lock is ever found held. -/
theorem run_moves {digestOf : Json → Except PyError δ} (I : Server δ → Prop)
    (hmove : ∀ s s' : Server δ, s.Unlocked → I s → Move s s' → I s') (hnew : I new) {actions : List Action}
    {s : Server δ} (h : Machine.run (step digestOf) new actions = some s) : s.Unlocked ∧ I s :=
  Machine.run_invariant (fun s => s.Unlocked ∧ I s)
    (fun s _ s' hs hstep => ⟨(step_move hs.1 hstep).unlocked hs.1, hmove s s' hs.1 hs.2 (step_move hs.1 hstep)⟩)
    ⟨new_unlocked, hnew⟩ h

end

end Server

end AfsimNs3.Bridge
