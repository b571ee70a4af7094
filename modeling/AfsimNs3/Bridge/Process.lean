import AfsimNs3.Bridge.ServerSpec
import AfsimNs3.Lib.Stateful

/-!
# `process`, statement by statement

`update` and `process` say what a call ends in; here the same calls are written as the statements they are made of,
with every assignment to the store, the cache and the pending job in its own place, so that an exception leaves
behind whatever was assigned before it. `initializeStatements_run`, `applyDeltaStatements_run` and
`processStatements_run` show that both forms agree: nothing is assigned until everything has been checked, and what
has been checked lets `snapshot` succeed.
-/

namespace AfsimNs3.Bridge
open Stateful

namespace StateStore

def initializeStatements (payload : Fields) (timestampMs : ℤ) : Stateful PyError StateStore Unit := do
  let (entities, flows) ← ofExcept (arrays (payload.get (str "entities")) (payload.get (str "flows"))
    (str "afsim_init requires entities and flows"))
  let entityMap ← ofExcept (indexRecords EntityState.fromDict EntityState.entityId (str "entity_id") entities)
  let flowMap ← ofExcept (indexRecords FlowConfig.fromDict FlowConfig.flowId (str "flow_id") flows)
  let _ ← ofExcept (validateReferences entityMap flowMap)
  assign (fun s => { s with entities := entityMap })
  assign (fun s => { s with flows := flowMap })
  assign (fun s => { s with timestampMs := timestampMs })
  assign (fun s => { s with revision := s.revision + 1 })
  assign (fun s => { s with initialized := true })

def applyDeltaStatements (payload : Fields) (timestampMs : ℤ) : Stateful PyError StateStore Unit := do
  let s ← self
  if !s.initialized then raise (.protocol 1002 (str "afsim_init must be sent before afsim_delta"))
  else if timestampMs < s.timestampMs then raise (.protocol 1002 (str "timestamp_ms must not move backwards"))
  else do
    let lists ← ofExcept (deltaLists payload)
    let entities ← ofExcept (lists.entityRemovals.foldlM (removeOne (str "entity_removals")) s.entities)
    let entities ← ofExcept (lists.entityUpserts.foldlM upsertEntity entities)
    let flows ← ofExcept (lists.flowRemovals.foldlM (removeOne (str "flow_removals")) s.flows)
    let flows ← ofExcept (lists.flowUpserts.foldlM upsertFlow flows)
    let _ ← ofExcept (validateReferences entities flows)
    assign (fun s => { s with entities := entities })
    assign (fun s => { s with flows := flows })
    assign (fun s => { s with timestampMs := timestampMs })
    assign (fun s => { s with revision := s.revision + 1 })

/-- Whether it raised, and the store it leaves. -/
def committed (s : StateStore) : Except PyError StateStore → Except PyError Unit × StateStore
  | .ok s' => (.ok (), s')
  | .error e => (.error e, s)

/-- **`initialize` assigns nothing before its last check.** -/
theorem initializeStatements_run (s : StateStore) (payload : Fields) (timestampMs : ℤ) :
    (initializeStatements payload timestampMs).run s = s.committed (s.initializeStore payload timestampMs) := by
  unfold initializeStatements initializeStore
  cases arrays (payload.get (str "entities")) (payload.get (str "flows"))
    (str "afsim_init requires entities and flows") with
  | error e => rfl
  | ok lists =>
    obtain ⟨entities, flows⟩ := lists
    simp only [run_ok_bind, Except.ok_bind]
    cases indexRecords EntityState.fromDict EntityState.entityId (str "entity_id") entities with
    | error e => rfl
    | ok entityMap =>
      simp only [run_ok_bind, Except.ok_bind]
      cases indexRecords FlowConfig.fromDict FlowConfig.flowId (str "flow_id") flows with
      | error e => rfl
      | ok flowMap =>
        simp only [run_ok_bind, Except.ok_bind]
        cases validateReferences entityMap flowMap with
        | error e => rfl
        | ok _ => rfl

/-- **`apply_delta` assigns nothing before its last check.** -/
theorem applyDeltaStatements_run (s : StateStore) (payload : Fields) (timestampMs : ℤ) :
    (applyDeltaStatements payload timestampMs).run s = s.committed (s.applyDelta payload timestampMs) := by
  unfold applyDeltaStatements applyDelta
  rw [run_self_bind]
  split_ifs
  · rfl
  · rfl
  · cases deltaLists payload with
    | error e => rfl
    | ok lists =>
      simp only [run_ok_bind, Except.ok_bind]
      cases lists.entityRemovals.foldlM (removeOne (str "entity_removals")) s.entities with
      | error e => rfl
      | ok kept =>
        simp only [run_ok_bind, Except.ok_bind]
        cases lists.entityUpserts.foldlM upsertEntity kept with
        | error e => rfl
        | ok entities =>
          simp only [run_ok_bind, Except.ok_bind]
          cases lists.flowRemovals.foldlM (removeOne (str "flow_removals")) s.flows with
          | error e => rfl
          | ok keptFlows =>
            simp only [run_ok_bind, Except.ok_bind]
            cases lists.flowUpserts.foldlM upsertFlow keptFlows with
            | error e => rfl
            | ok flows =>
              simp only [run_ok_bind, Except.ok_bind]
              cases validateReferences entities flows with
              | error e => rfl
              | ok _ => rfl

end StateStore

namespace Server

variable {δ : Type}

/-- `initialize` or `apply_delta`. -/
def updateStatements (envelope : Envelope) (payload : Fields) : Stateful PyError StateStore Unit :=
  if envelope.messageType = .afsimInit then StateStore.initializeStatements payload envelope.timestampMs
  else StateStore.applyDeltaStatements payload envelope.timestampMs

theorem updateStatements_run (state : StateStore) (envelope : Envelope) (payload : Fields) :
    (updateStatements envelope payload).run state = state.committed (update state envelope payload) := by
  unfold updateStatements update
  split_ifs
  · exact StateStore.initializeStatements_run state payload envelope.timestampMs
  · exact StateStore.applyDeltaStatements_run state payload envelope.timestampMs

/-- `_queue`: the job replaces the pending one, whose revision is returned. -/
def queueStatements (job : Job) : Stateful PyError (Server δ) (Option ℕ) := do
  let s ← self
  assign (fun s => { s with pending := some job })
  assign (fun s => { s with pendingEvent := true })
  pure (s.pending.map (fun job => job.snapshot.revision))

theorem queueStatements_run (s : Server δ) (job : Job) : (queueStatements job).run s =
    (.ok (s.pending.map (fun job => job.snapshot.revision)), { s with pending := some job, pendingEvent := true }) := rfl

def logged (event : Event) : Stateful PyError (Server δ) Unit := assign (fun s => { s with log := s.log ++ [event] })

section
variable [DecidableEq δ]

/-- What is done under the state lock. -/
def lockedStatements (envelope : Envelope) (payload : Fields) (digest : δ) : Stateful PyError (Server δ) Answer := do
  let s ← self
  match Assoc.find? s.idempotency envelope.requestId with
  | some (cachedDigest, cached) =>
    if cachedDigest ≠ digest then raise (.protocol 1004 (str "request_id was reused with different content"))
    else do
      logged (.replied { cached with duplicate := true })
      pure (.ack { cached with duplicate := true })
  | none => do
    onPart Server.state (fun s state => { s with state := state }) (updateStatements envelope payload)
    let s ← self
    logged (.accepted s.state.revision)
    let snapshot ← ofExcept s.state.snapshot
    let replacedRevision ← queueStatements ⟨envelope.requestId, snapshot⟩
    let ack : Ack :=
      { requestId := envelope.requestId
        timestampMs := envelope.timestampMs
        revision := snapshot.revision
        coalescedRevision := replacedRevision
        duplicate := false }
    assign (fun s => { s with idempotency := rememberRequest s.idempotency envelope.requestId (digest, ack) })
    logged (.replied ack)
    pure (.ack ack)

def processStatements (digestOf : Json → Except PyError δ) (payload : Json) : Stateful PyError (Server δ) Answer := do
  let envelope ← ofExcept (validateEnvelope payload)
  if envelope.messageType = .metricsQuery then do
    let s ← self
    pure (.latest envelope.requestId s.latest)
  else do
    let digest ← ofExcept (digestOf payload)
    bracket (fun s => { s with stateLock := true }) (fun s => { s with stateLock := false })
      (lockedStatements envelope payload.fields digest)

end

/-- The answer of a call as the outcome of its statements. -/
def outcome (result : Server δ × Answer) : Except PyError Answer × Server δ :=
  match result.2 with
  | .raised e => (.error e, result.1)
  | answer => (.ok answer, result.1)

section
variable [DecidableEq δ] {s : Server δ}

/-- Under the state lock, where snapshot and all, the statements do what `processLocked` says. -/
theorem locked_run (hs : s.pendingLock = false) (envelope : Envelope) (payload : Fields) (digest : δ) :
    (bracket (fun s => { s with stateLock := true }) (fun s => { s with stateLock := false })
      (lockedStatements envelope payload digest)).run s =
      outcome ({ s with stateLock := true }.processLocked envelope payload digest) := by
  rw [run_bracket]
  unfold processLocked lockedStatements
  rw [run_self_bind]
  dsimp only
  cases hcached : Assoc.find? s.idempotency envelope.requestId with
  | some entry =>
    obtain ⟨cachedDigest, cached⟩ := entry
    dsimp only
    split_ifs
    · rfl
    · rfl
  | none =>
    have hrun := updateStatements_run s.state envelope payload
    dsimp only
    cases hupdate : update s.state envelope payload with
    | error e =>
      rw [hupdate] at hrun
      rw [run_bind_of_error (e := e) (by rw [run_onPart, hrun]; rfl)]
      rfl
    | ok state =>
      rw [hupdate] at hrun
      rw [run_bind_of_ok (a := ()) (by rw [run_onPart, hrun]; rfl)]
      simp only [run_self_bind, logged, run_assign_bind, StateStore.committed]
      cases hsnapshot : state.snapshot with
      | error e => rfl
      | ok snapshot =>
        simp only [run_ok_bind, hs, Bool.false_eq_true, if_false]
        rw [run_bind_of_ok (queueStatements_run _ _)]
        simp only [run_assign_bind, run_pure, acknowledge, outcome]

/-- **The statements of `process`** end in what `process` says, and leave the state it says. -/
theorem processStatements_run (digestOf : Json → Except PyError δ) (hs : s.Unlocked) (payload : Json) :
    (processStatements digestOf payload).run s = outcome (s.process digestOf payload) := by
  unfold processStatements process
  cases validateEnvelope payload with
  | error e => rfl
  | ok envelope =>
    rw [run_ok_bind]
    dsimp only
    by_cases hquery : envelope.messageType = .metricsQuery
    · rw [if_pos hquery, if_pos hquery]
      rfl
    · rw [if_neg hquery, if_neg hquery]
      cases digestOf payload with
      | error e => rfl
      | ok digest =>
        rw [run_ok_bind]
        dsimp only
        rw [if_neg (Bool.eq_false_iff.mp hs.state)]
        exact locked_run hs.pending envelope payload.fields digest

end

/-! ## What a call does -/

/-- The service once a new request is accepted. -/
def accept (s : Server δ) (envelope : Envelope) (digest : δ) (state : StateStore) (snapshot : StateSnapshot) :
    Server δ :=
  { s with
    state := state
    pending := some ⟨envelope.requestId, snapshot⟩
    pendingEvent := true
    idempotency := rememberRequest s.idempotency envelope.requestId (digest, ackOf envelope snapshot s.pending)
    log := s.log ++ [.accepted state.revision, .replied (ackOf envelope snapshot s.pending)] }

theorem accept_state (s : Server δ) (envelope : Envelope) (digest : δ) (state : StateStore) (snapshot : StateSnapshot) :
    (s.accept envelope digest state snapshot).state = state := rfl

theorem accept_idempotency (s : Server δ) (envelope : Envelope) (digest : δ) (state : StateStore)
    (snapshot : StateSnapshot) : (s.accept envelope digest state snapshot).idempotency =
      rememberRequest s.idempotency envelope.requestId (digest, ackOf envelope snapshot s.pending) := by
  rw [accept]

/-- The service once a reply is given again. -/
def repeatReply (s : Server δ) (ack : Ack) : Server δ :=
  { s with log := s.log ++ [.replied { ack with duplicate := true }] }

/-- The payload is a state request: its envelope, and the digest of its content. -/
structure StateRequest (digestOf : Json → Except PyError δ) (payload : Json) (envelope : Envelope) (digest : δ) :
    Prop where
  valid : validateEnvelope payload = .ok envelope
  kind : envelope.messageType ≠ .metricsQuery
  content : digestOf payload = .ok digest

section
variable (digestOf : Json → Except PyError δ)

/-- What a call of `process` on an unlocked service ends in. -/
inductive Outcome (s : Server δ) (payload : Json) : Server δ × Answer → Prop where
  | raised (e : PyError) : Outcome s payload (s, .raised e)
  | latest (envelope : Envelope) (h : validateEnvelope payload = .ok envelope)
      (hquery : envelope.messageType = .metricsQuery) : Outcome s payload (s, .latest envelope.requestId s.latest)
  | repeated (envelope : Envelope) (digest : δ) (ack : Ack) (h : StateRequest digestOf payload envelope digest)
      (hcached : Assoc.find? s.idempotency envelope.requestId = some (digest, ack)) :
      Outcome s payload (s.repeatReply ack, .ack { ack with duplicate := true })
  | accepted (envelope : Envelope) (digest : δ) (state : StateStore) (snapshot : StateSnapshot)
      (h : StateRequest digestOf payload envelope digest)
      (hnew : Assoc.find? s.idempotency envelope.requestId = none)
      (hupdate : update s.state envelope payload.fields = .ok state) (hsnapshot : state.snapshot = .ok snapshot) :
      Outcome s payload (s.accept envelope digest state snapshot, .ack (ackOf envelope snapshot s.pending))

end

section
variable [DecidableEq δ] {digestOf : Json → Except PyError δ} {s : Server δ}

/-- A state request on an unlocked service goes through the cache. -/
theorem process_of_request (hs : s.Unlocked) {payload : Json} {envelope : Envelope} {digest : δ}
    (h : StateRequest digestOf payload envelope digest) : s.process digestOf payload =
      { s with stateLock := true }.processLocked envelope payload.fields digest := by
  unfold process
  rw [h.valid]
  dsimp only
  rw [if_neg h.kind, h.content]
  dsimp only
  rw [if_neg (Bool.eq_false_iff.mp hs.state)]

/-- A request of the same content as the cached one. -/
theorem process_of_cached (hs : s.Unlocked) {payload : Json} {envelope : Envelope} {digest : δ} {ack : Ack}
    (h : StateRequest digestOf payload envelope digest)
    (hcached : Assoc.find? s.idempotency envelope.requestId = some (digest, ack)) :
    s.process digestOf payload = (s.repeatReply ack, .ack { ack with duplicate := true }) := by
  rw [process_of_request hs h, processLocked]
  dsimp only
  rw [hcached]
  dsimp only
  rw [if_neg (not_not.mpr rfl), repeatReply, hs.state]

/-- A request of other content than the cached one. -/
theorem process_of_reused (hs : s.Unlocked) {payload : Json} {envelope : Envelope} {digest digest' : δ} {ack : Ack}
    (h : StateRequest digestOf payload envelope digest)
    (hcached : Assoc.find? s.idempotency envelope.requestId = some (digest', ack)) (hne : digest' ≠ digest) :
    s.process digestOf payload =
      (s, .raised (.protocol 1004 (str "request_id was reused with different content"))) := by
  rw [process_of_request hs h, processLocked]
  dsimp only
  rw [hcached]
  dsimp only
  rw [if_pos hne, unlock_eq hs.state]

/-- A request that is not in the cache and that the store takes. -/
theorem process_of_update (hs : s.Unlocked) {payload : Json} {envelope : Envelope} {digest : δ} {state : StateStore}
    (h : StateRequest digestOf payload envelope digest) (hnew : Assoc.find? s.idempotency envelope.requestId = none)
    (hupdate : update s.state envelope payload.fields = .ok state) :
    ∃ snapshot, state.snapshot = .ok snapshot ∧ s.process digestOf payload =
      (s.accept envelope digest state snapshot, .ack (ackOf envelope snapshot s.pending)) := by
  obtain ⟨-, snapshot, hsnapshot, -⟩ := update_ok hupdate
  refine ⟨snapshot, hsnapshot, ?_⟩
  rw [process_of_request hs h, processLocked]
  dsimp only
  rw [hnew]
  dsimp only
  rw [hupdate]
  simp only [hsnapshot, hs.pending, if_neg Bool.false_ne_true, acknowledge, List.append_assoc, accept, hs.state]
  rfl

/-- A request that is not in the cache and that the store refuses. -/
theorem process_of_refused (hs : s.Unlocked) {payload : Json} {envelope : Envelope} {digest : δ} {e : PyError}
    (h : StateRequest digestOf payload envelope digest) (hnew : Assoc.find? s.idempotency envelope.requestId = none)
    (hupdate : update s.state envelope payload.fields = .error e) : s.process digestOf payload = (s, .raised e) := by
  rw [process_of_request hs h, processLocked]
  dsimp only
  rw [hnew]
  dsimp only
  rw [hupdate]
  exact Prod.ext (unlock_eq hs.state) rfl

/-- A request that is not in the cache. -/
theorem process_of_new (hs : s.Unlocked) {payload : Json} {envelope : Envelope} {digest : δ}
    (h : StateRequest digestOf payload envelope digest)
    (hnew : Assoc.find? s.idempotency envelope.requestId = none) :
    (∃ e, s.process digestOf payload = (s, .raised e)) ∨
      ∃ state snapshot, update s.state envelope payload.fields = .ok state ∧ state.snapshot = .ok snapshot ∧
        s.process digestOf payload =
          (s.accept envelope digest state snapshot, .ack (ackOf envelope snapshot s.pending)) := by
  cases hupdate : update s.state envelope payload.fields with
  | error e => exact .inl ⟨e, process_of_refused hs h hnew hupdate⟩
  | ok state =>
    obtain ⟨snapshot, hsnapshot, hprocess⟩ := process_of_update hs h hnew hupdate
    exact .inr ⟨state, snapshot, rfl, hsnapshot, hprocess⟩

theorem process_outcome (digestOf : Json → Except PyError δ) (hs : s.Unlocked) (payload : Json) :
    Outcome digestOf s payload (s.process digestOf payload) := by
  cases henvelope : validateEnvelope payload with
  | error e =>
    have hprocess : s.process digestOf payload = (s, .raised e) := by rw [process, henvelope]
    rw [hprocess]
    exact .raised e
  | ok envelope =>
    by_cases hquery : envelope.messageType = .metricsQuery
    · have hprocess : s.process digestOf payload = (s, .latest envelope.requestId s.latest) := by
        rw [process, henvelope]
        exact if_pos hquery
      rw [hprocess]
      exact .latest envelope henvelope hquery
    · cases hdigest : digestOf payload with
      | error e =>
        have hprocess : s.process digestOf payload = (s, .raised e) := by
          rw [process, henvelope]
          dsimp only
          rw [if_neg hquery, hdigest]
        rw [hprocess]
        exact .raised e
      | ok digest =>
        have hrequest : StateRequest digestOf payload envelope digest := ⟨henvelope, hquery, hdigest⟩
        cases hcached : Assoc.find? s.idempotency envelope.requestId with
        | some entry =>
          obtain ⟨cachedDigest, ack⟩ := entry
          by_cases hsame : cachedDigest = digest
          · subst hsame
            rw [process_of_cached hs hrequest hcached]
            exact .repeated envelope cachedDigest ack hrequest hcached
          · rw [process_of_reused hs hrequest hcached hsame]
            exact .raised _
        | none =>
          rcases process_of_new hs hrequest hcached with ⟨e, hprocess⟩ | ⟨state, snapshot, hupdate, hsnapshot, hprocess⟩
          · rw [hprocess]
            exact .raised e
          · rw [hprocess]
            exact .accepted envelope digest state snapshot hrequest hcached hupdate hsnapshot

end

/-! ## All or nothing -/

/-- A newly accepted request: one revision on, its snapshot pending, its reply cached. -/
structure Committed (digestOf : Json → Except PyError δ) (s : Server δ) (payload : Json) (ack : Ack) (s' : Server δ) :
    Prop where
  revision : s'.state.revision = s.state.revision + 1
  acknowledged : ack.revision = s'.state.revision
  queued : ∃ snapshot, s'.state.snapshot = .ok snapshot ∧ snapshot.revision = s'.state.revision ∧
    s'.pending = some ⟨ack.requestId, snapshot⟩
  remembered : ∃ envelope digest, StateRequest digestOf payload envelope digest ∧ ack.requestId = envelope.requestId ∧
    update s.state envelope payload.fields = .ok s'.state ∧
    Assoc.find? s'.idempotency ack.requestId = some (digest, ack)

theorem find?_rememberRequest (cache : List (Str × δ × Ack)) (requestId : Str) (entry : δ × Ack) :
    Assoc.find? (rememberRequest cache requestId entry) requestId = some entry := by
  unfold rememberRequest
  dsimp only
  have hsize : 0 < idempotencyCacheSize := Nat.succ_pos 999
  generalize idempotencyCacheSize = size at hsize
  generalize hothers : cache.filter (fun e => e.1 ≠ requestId) = others
  have hlen : (others ++ [(requestId, entry)]).length - size ≤ others.length := by
    rw [List.length_append, List.length_singleton]
    omega
  have hother : requestId ∉ (others.drop ((others ++ [(requestId, entry)]).length - size)).map Prod.fst := by
    intro hmem
    obtain ⟨e, he, hkey⟩ := List.mem_map.mp hmem
    rw [← hothers] at he
    have hkept := List.of_mem_filter (List.mem_of_mem_drop he)
    exact of_decide_eq_true hkept hkey
  rw [List.drop_append_of_le_length hlen, Assoc.find?_append, Assoc.find?_eq_none_iff.mpr hother]
  exact Assoc.find?_cons_self requestId entry []

section
variable {digestOf : Json → Except PyError δ} {s : Server δ}

theorem accept_committed {payload : Json} {envelope : Envelope} {digest : δ} {state : StateStore}
    {snapshot : StateSnapshot} (h : StateRequest digestOf payload envelope digest)
    (hupdate : update s.state envelope payload.fields = .ok state) (hsnapshot : state.snapshot = .ok snapshot) :
    Committed digestOf s payload (ackOf envelope snapshot s.pending) (s.accept envelope digest state snapshot) := by
  obtain ⟨hrevision, -⟩ := update_ok hupdate
  have hsame : snapshot.revision = state.revision := (StateStore.snapshot_ok_iff.mp hsnapshot).2.2.2.2
  have hremembered := find?_rememberRequest s.idempotency envelope.requestId (digest, ackOf envelope snapshot s.pending)
  refine ⟨hrevision, hsame, ⟨snapshot, hsnapshot, hsame, rfl⟩, envelope, digest, h, rfl, hupdate, ?_⟩
  rw [accept_idempotency]
  exact hremembered

end

/-! ## What a step does to the store and the cache -/

/-- The store and the cache stay. -/
def Kept (s s' : Server δ) : Prop := s'.state = s.state ∧ s'.idempotency = s.idempotency

theorem kept_takeJob (s : Server δ) : Kept s s.takeJob := by
  unfold takeJob
  split
  · exact ⟨rfl, rfl⟩
  · exact ⟨rfl, rfl⟩

theorem kept_awaitEvent {s : Server δ} (hs : s.Unlocked) : Kept s s.awaitEvent := by
  unfold awaitEvent
  split_ifs
  · rw [awaitJob_eq hs.pending]
    exact kept_takeJob s
  · exact ⟨rfl, rfl⟩

theorem kept_sendNext {s : Server δ} (hs : s.Unlocked) (message : Broadcast) (todo failed : List Client) :
    Kept s (s.sendNext message todo failed) := by
  unfold sendNext
  split
  · exact kept_awaitEvent (removeClients_unlocked hs failed)
  · exact ⟨rfl, rfl⟩

theorem kept_computed {s : Server δ} (hs : s.Unlocked) (job : Job) (computation : Computation) (order : List Client) :
    Kept s (s.computed job computation order) := by
  unfold computed
  cases computation with
  | failed message => exact kept_sendNext (setLastError_unlocked hs _) _ _ _
  | ok values computeMs =>
    dsimp only
    split_ifs
    · exact kept_awaitEvent (setLastError_unlocked hs none)
    · exact ⟨rfl, rfl⟩
    · exact kept_sendNext (record_unlocked (setLastError_unlocked hs none) _ _) _ _ _

/-- The service accepts the payload of a call. -/
structure Accepted (digestOf : Json → Except PyError δ) (s : Server δ) (payload : Json) (s' : Server δ) : Prop where
  request : ∃ envelope digest state snapshot, StateRequest digestOf payload envelope digest ∧
    Assoc.find? s.idempotency envelope.requestId = none ∧ update s.state envelope payload.fields = .ok state ∧
    state.snapshot = .ok snapshot ∧ s' = s.accept envelope digest state snapshot

section
variable [DecidableEq δ] {digestOf : Json → Except PyError δ} {s s' : Server δ}

theorem process_kept_or_accepted (hs : s.Unlocked) (payload : Json) :
    Kept s (s.process digestOf payload).1 ∨ Accepted digestOf s payload (s.process digestOf payload).1 := by
  cases hprocess : s.process digestOf payload with
  | mk t answer =>
    have houtcome := process_outcome digestOf hs payload
    rw [hprocess] at houtcome
    cases houtcome with
    | raised e => exact .inl ⟨rfl, rfl⟩
    | latest envelope henvelope hquery => exact .inl ⟨rfl, rfl⟩
    | repeated envelope digest ack hrequest hcached => exact .inl ⟨rfl, rfl⟩
    | accepted envelope digest state snapshot hrequest hnew hupdate hsnapshot =>
      exact .inr ⟨envelope, digest, state, snapshot, hrequest, hnew, hupdate, hsnapshot, rfl⟩

/-- **A step keeps the store and the cache**, or is a call whose request is newly accepted. -/
theorem step_kept_or_accepted {action : Action} (hs : s.Unlocked) (h : step digestOf s action = some s') :
    Kept s s' ∨ ∃ payload, action = .call payload ∧ Accepted digestOf s payload s' := by
  cases step_cases hs h with
  | connect client => exact .inl ⟨rfl, rfl⟩
  | disconnect client => exact .inl ⟨rfl, rfl⟩
  | call payload =>
    exact (process_kept_or_accepted hs payload).imp_right fun haccepted => ⟨payload, rfl, haccepted⟩
  | wake hwaiting => exact .inl (kept_takeJob s)
  | computed job computation order hjob horder => exact .inl (kept_computed hs job computation order)
  | write ok message client todo failed hworker =>
    left
    unfold write
    split_ifs
    · exact ⟨rfl, rfl⟩
    · exact kept_sendNext hs _ _ _
  | drained ok message client todo failed hworker => exact .inl (kept_sendNext hs _ _ _)

end

end Server

end AfsimNs3.Bridge
