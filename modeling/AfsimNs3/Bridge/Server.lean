import AfsimNs3.Bridge.Effects
import AfsimNs3.Lib.Machine

/-!
# The bridge service (`server.py`)

`BridgeService` under a cooperative scheduler: a coroutine runs until an `await` that really suspends, so a step is
what one coroutine does between two suspensions. Acquiring a free lock does not suspend; on a held lock the
coroutine waits at a place of its own (`Call`, `Worker.wantsJob`, `Worker.wantsQueueState`), and whether that ever
happens is for the proofs to find out.

`Action` is what the environment decides: the calls and their payloads, who runs next, what the runner measures,
in which order a set of clients is walked, which sends fail. Every `send` of a broadcast may suspend on the write
lock and in `drain`.

`log` records the run: the accepted revisions, the replies, the jobs taken, the results recorded, the broadcasts
written to each client.
-/

namespace AfsimNs3.Bridge
open Ns3Runner (MetricValues ComputeResult)

def idempotencyCacheSize : ℕ := 1000

/-- `ComputationJob`. -/
structure Job where
  requestId : Str
  snapshot : StateSnapshot

/-- The `ns3_ack` response. -/
structure Ack where
  requestId : Str
  timestampMs : ℤ
  revision : ℕ
  coalescedRevision : Option ℕ
  duplicate : Bool
  deriving DecidableEq

structure QueueState where
  pending : Bool
  latestPendingRevision : Option ℕ
  deriving DecidableEq

/-- The `ns3_metrics` response. -/
structure Response where
  measured : ComputeResult
  queueState : QueueState
  effects : List Effect

/-- `error_response`. -/
structure ErrorResponse where
  requestId : Str
  timestampMs : ℤ
  revision : ℕ
  code : ℕ
  message : Str

/-- What `_broadcast` is given. -/
inductive Broadcast where
  | metrics (response : Response)
  | error (response : ErrorResponse)

/-- A connected writer. -/
abbrev Client := ℕ

/-- Where the compute worker is suspended. -/
inductive Worker where
  /-- In `_pending_event.wait()`. -/
  | waiting
  /-- Before the lock under which the job is taken. -/
  | wantsJob
  | computing (job : Job)
  /-- Before the lock under which `queue_state` is read. -/
  | wantsQueueState (job : Job) (measured : ComputeResult)
  /-- Before the write lock of the first client left. -/
  | sending (message : Broadcast) (todo failed : List Client)
  | draining (message : Broadcast) (client : Client) (todo failed : List Client)

/-- Where a call of `process` is suspended. -/
inductive Call (δ : Type) where
  | wantsState (envelope : Envelope) (payload : Fields) (digest : δ)
  | wantsPending (envelope : Envelope) (digest : δ) (snapshot : StateSnapshot)

inductive Event where
  | accepted (revision : ℕ)
  | replied (ack : Ack)
  | taken (revision : ℕ)
  /-- A result is recorded while the store is at `stateRevision`. -/
  | recorded (revision stateRevision : ℕ)
  /-- An `ns3_metrics` broadcast is written to the client. -/
  | sent (client : Client) (revision : ℕ)
  deriving DecidableEq

/-- The service, between two suspensions. `latest` is what the `MetricsStore` holds. -/
structure Server (δ : Type) where
  state : StateStore
  stateLock : Bool
  pendingLock : Bool
  pendingEvent : Bool
  pending : Option Job
  worker : Worker
  calls : List (Call δ)
  clients : List Client
  idempotency : List (Str × δ × Ack)
  lastError : Option Str
  computedRevision : ℕ
  latest : Option Response
  log : List Event

/-- What the runner does with a job. -/
inductive Computation where
  | ok (measured : Dict ℕ MetricValues) (computeMs : ℚ)
  | failed (message : Str)

/-- What a call of `process` ends in. A query is answered with the latest response under its own `request_id`. -/
inductive Answer where
  | ack (ack : Ack)
  | latest (requestId : Str) (response : Option Response)
  | raised (error : PyError)
  | suspended

namespace Server

variable {δ : Type}

/-- A service just started. -/
def new : Server δ :=
  { state := StateStore.new
    stateLock := false
    pendingLock := false
    pendingEvent := false
    pending := none
    worker := .waiting
    calls := []
    clients := []
    idempotency := []
    lastError := none
    computedRevision := 0
    latest := none
    log := [] }

/-! ## `process` -/

/-- `_remember_request`. -/
def rememberRequest (cache : List (Str × δ × Ack)) (requestId : Str) (entry : δ × Ack) : List (Str × δ × Ack) :=
  let cache := cache.filter (fun e => e.1 ≠ requestId) ++ [(requestId, entry)]
  cache.drop (cache.length - idempotencyCacheSize)

/-- From `_queue`, with its lock acquired, to the end. -/
def acknowledge (s : Server δ) (envelope : Envelope) (digest : δ) (snapshot : StateSnapshot) : Server δ × Answer :=
  let ack : Ack :=
    { requestId := envelope.requestId
      timestampMs := envelope.timestampMs
      revision := snapshot.revision
      coalescedRevision := s.pending.map (fun job => job.snapshot.revision)
      duplicate := false }
  ({ s with
      pending := some ⟨envelope.requestId, snapshot⟩
      pendingEvent := true
      idempotency := rememberRequest s.idempotency envelope.requestId (digest, ack)
      stateLock := false
      log := s.log ++ [.replied ack] }, .ack ack)

/-- `initialize` or `apply_delta`. -/
def update (state : StateStore) (envelope : Envelope) (payload : Fields) : Except PyError StateStore :=
  if envelope.messageType = .afsimInit then state.initializeStore payload envelope.timestampMs
  else state.applyDelta payload envelope.timestampMs

section
variable [DecidableEq δ]

/-- From the state lock on. -/
def processLocked (s : Server δ) (envelope : Envelope) (payload : Fields) (digest : δ) : Server δ × Answer :=
  match Assoc.find? s.idempotency envelope.requestId with
  | some (cachedDigest, cached) =>
    if cachedDigest ≠ digest then
      ({ s with stateLock := false }, .raised (.protocol 1004 (str "request_id was reused with different content")))
    else
      ({ s with stateLock := false, log := s.log ++ [.replied { cached with duplicate := true }] },
        .ack { cached with duplicate := true })
  | none =>
    match update s.state envelope payload with
    | .error e => ({ s with stateLock := false }, .raised e)
    | .ok state =>
      let s := { s with state := state, log := s.log ++ [Event.accepted state.revision] }
      match state.snapshot with
      | .error e => ({ s with stateLock := false }, .raised e)
      | .ok snapshot =>
        if s.pendingLock then ({ s with calls := s.calls ++ [Call.wantsPending envelope digest snapshot] }, .suspended)
        else s.acknowledge envelope digest snapshot

/-- `process`. The digest of a payload may fail, as encoding its text may. -/
def process (digestOf : Json → Except PyError δ) (s : Server δ) (payload : Json) : Server δ × Answer :=
  match validateEnvelope payload with
  | .error e => (s, .raised e)
  | .ok envelope =>
    if envelope.messageType = .metricsQuery then (s, .latest envelope.requestId s.latest)
    else
      match digestOf payload with
      | .error e => (s, .raised e)
      | .ok digest =>
        if s.stateLock then
          ({ s with calls := s.calls ++ [Call.wantsState envelope payload.fields digest] }, .suspended)
        else { s with stateLock := true }.processLocked envelope payload.fields digest

/-- A suspended call continues once its lock is free. -/
def resumeCall (s : Server δ) (index : ℕ) : Option (Server δ) :=
  match s.calls[index]? with
  | none => none
  | some (.wantsState envelope payload digest) =>
    if s.stateLock then none
    else some ({ s with calls := s.calls.eraseIdx index, stateLock := true }.processLocked envelope payload digest).1
  | some (.wantsPending envelope digest snapshot) =>
    if s.pendingLock then none
    else some ({ s with calls := s.calls.eraseIdx index }.acknowledge envelope digest snapshot).1

end

/-! ## The compute loop -/

/-- The job is taken, and the event cleared, under the pending lock. Without a job the loop waits again. -/
def takeJob (s : Server δ) : Server δ :=
  match s.pending with
  | none => { s with pendingEvent := false, worker := .waiting }
  | some job =>
    { s with
      pending := none
      pendingEvent := false
      worker := .computing job
      log := s.log ++ [.taken job.snapshot.revision] }

/-- The top of the loop, once the event is set. -/
def awaitJob (s : Server δ) : Server δ := if s.pendingLock then { s with worker := .wantsJob } else s.takeJob

/-- The top of the loop. -/
def awaitEvent (s : Server δ) : Server δ := if s.pendingEvent then s.awaitJob else { s with worker := .waiting }

/-- The clients whose `send` failed are removed. -/
def removeClients (s : Server δ) (failed : List Client) : Server δ :=
  { s with clients := s.clients.filter (fun client => client ∉ failed) }

/-- The loop of `_broadcast`, up to the next write lock. -/
def sendNext (s : Server δ) (message : Broadcast) (todo failed : List Client) : Server δ :=
  match todo with
  | [] => (s.removeClients failed).awaitEvent
  | client :: todo => { s with worker := .sending message (client :: todo) failed }

def setLastError (s : Server δ) (error : Option Str) : Server δ := { s with lastError := error }

def response (s : Server δ) (job : Job) (measured : ComputeResult) : Response :=
  { measured := measured
    queueState := ⟨s.pending.isSome, s.pending.map (fun job => job.snapshot.revision)⟩
    effects := evaluateEffects job.snapshot measured.metrics }

/-- `MetricsStore.record`. -/
def record (s : Server δ) (job : Job) (response : Response) : Server δ :=
  { s with
    latest := some response
    computedRevision := job.snapshot.revision
    log := s.log ++ [.recorded response.measured.revision s.state.revision] }

/-- From the reading of `queue_state`, with its lock acquired, to the broadcast. -/
def report (s : Server δ) (job : Job) (measured : ComputeResult) (order : List Client) : Server δ :=
  (s.record job (s.response job measured)).sendNext (.metrics (s.response job measured)) order []

/-- The computation of a job has ended. -/
def computed (s : Server δ) (job : Job) (computation : Computation) (order : List Client) : Server δ :=
  match computation with
  | .failed message =>
    (s.setLastError (some message)).sendNext
      (.error ⟨job.requestId, job.snapshot.timestampMs, job.snapshot.revision, 2001, message⟩) order []
  | .ok values computeMs =>
    if job.snapshot.revision < s.state.revision then (s.setLastError none).awaitEvent
    else
      let measured := Ns3Runner.computeResult job.snapshot job.requestId computeMs values
      if s.pendingLock then { s.setLastError none with worker := .wantsQueueState job measured }
      else (s.setLastError none).report job measured order

/-- The worker continues after waiting for the pending lock. -/
def resumeWorker (s : Server δ) (order : List Client) : Option (Server δ) :=
  if s.pendingLock then none
  else
    match s.worker with
    | .wantsJob => some s.takeJob
    | .wantsQueueState job measured => some (s.report job measured order)
    | _ => none

/-- What a written broadcast leaves in the log. -/
def Broadcast.events (client : Client) : Broadcast → List Event
  | .metrics response => [.sent client response.measured.revision]
  | .error _ => []

/-- The write of one `send`: the transport takes the line, or raises. -/
def write (s : Server δ) (ok : Bool) (message : Broadcast) (client : Client) (todo failed : List Client) : Server δ :=
  if ok then
    { s with worker := .draining message client todo failed, log := s.log ++ Broadcast.events client message }
  else s.sendNext message todo (failed ++ [client])

/-! ## Steps -/

inductive Action where
  | connect (client : Client)
  | disconnect (client : Client)
  /-- A handler has read a message and calls `process`. -/
  | call (payload : Json)
  | resumeCall (index : ℕ)
  /-- The worker wakes from `_pending_event.wait()`. -/
  | wake
  /-- The worker gets the pending lock it waited for. `order` is a walk through the clients. -/
  | resumeWorker (order : List Client)
  | computed (computation : Computation) (order : List Client)
  | write (ok : Bool)
  | drained (ok : Bool)

variable [DecidableEq δ] (digestOf : Json → Except PyError δ)

def step (s : Server δ) : Action → Option (Server δ)
  | .connect client => some { s with clients := if client ∈ s.clients then s.clients else s.clients ++ [client] }
  | .disconnect client => some { s with clients := s.clients.filter (fun c => c ≠ client) }
  | .call payload => some (s.process digestOf payload).1
  | .resumeCall index => s.resumeCall index
  | .wake =>
    match s.worker with
    | .waiting => if s.pendingEvent then some s.awaitJob else none
    | _ => none
  | .resumeWorker order => if order.Perm s.clients then s.resumeWorker order else none
  | .computed computation order =>
    match s.worker with
    | .computing job => if order.Perm s.clients then some (s.computed job computation order) else none
    | _ => none
  | .write ok =>
    match s.worker with
    | .sending message (client :: todo) failed => some (s.write ok message client todo failed)
    | _ => none
  | .drained ok =>
    match s.worker with
    | .draining message client todo failed =>
      some (s.sendNext message todo (if ok then failed else failed ++ [client]))
    | _ => none

end Server

end AfsimNs3.Bridge
