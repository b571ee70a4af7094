import AfsimNs3.Bridge.Process

/-!
# The task of the compute worker (`server.py`, `metrics_store.py`)

`Server` lets every turn of `_compute_loop` lead back to its head. Here the loop runs in a task that can also end:
`MetricsStore.record` sets the latest result and then appends to the CSV file, and an `OSError` of the append is
caught nowhere in the loop, so the task ends with it; `close` cancels the task.

A failed computation is an outcome of `computed`, a failed send one of `write` and `drained`.
-/

namespace AfsimNs3.Bridge
open Ns3Runner (MetricValues ComputeResult)

/-- The task of the worker. -/
inductive Task where
  | running
  /-- An exception left the loop. -/
  | raised
  | cancelled
  deriving DecidableEq

/-- The actions of the worker. -/
def Server.Action.ofWorker : Server.Action → Bool
  | .wake | .resumeWorker _ | .computed _ _ | .write _ | .drained _ => true
  | _ => false

/-- The service and the task of its worker. -/
structure Service (δ : Type) where
  server : Server δ
  task : Task

namespace Service
open Server

variable {δ : Type}

/-- A service just started. -/
def new : Service δ := ⟨Server.new, .running⟩

inductive Action where
  | serve (action : Server.Action)
  /-- The runner's result is recorded, and the append to the file fails. -/
  | appendFails (values : Dict ℕ MetricValues) (computeMs : ℚ)
  | close

/-- `record` up to the failing append. -/
def recordFailing (s : Server δ) (job : Job) (measured : ComputeResult) : Server δ :=
  { s.setLastError none with latest := some (s.response job measured) }

/-- The turn of the loop that ends in a failing append. -/
def appendFails (s : Server δ) (values : Dict ℕ MetricValues) (computeMs : ℚ) : Option (Server δ) :=
  if s.pendingLock then none
  else
    match s.worker with
    | .computing job =>
      if job.snapshot.revision < s.state.revision then none
      else some (recordFailing s job (Ns3Runner.computeResult job.snapshot job.requestId computeMs values))
    | .wantsQueueState job measured => some (recordFailing s job measured)
    | _ => none

/-- `close`: a task that has ended stays as it is. -/
def Task.cancel : Task → Task
  | .running => .cancelled
  | task => task

section
variable [DecidableEq δ] (digestOf : Json → Except PyError δ)

def step (l : Service δ) : Action → Option (Service δ)
  | .serve action =>
    if action.ofWorker && l.task ≠ .running then none
    else (Server.step digestOf l.server action).map (fun s => { l with server := s })
  | .appendFails values computeMs =>
    if l.task = .running then (appendFails l.server values computeMs).map (fun s => ⟨s, .raised⟩) else none
  | .close => some { l with task := Task.cancel l.task }

end

end Service

end AfsimNs3.Bridge
