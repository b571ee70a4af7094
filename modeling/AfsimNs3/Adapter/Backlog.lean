import AfsimNs3.Adapter.TcpClient

/-!
# The bound of the send queue

Every interleaving of the simulation's `QueueInitial` and `QueueDelta` with the worker's steps, whatever the texts
are. The message being sent is outside the queue; when the send fails it goes back to the front without a look at
the bound.

* `step_bounded_iff`: one step keeps the bound exactly when it is not a failed send beside a full queue;
* `run_within_one`: no run exceeds the bound by more than that one message.
-/

namespace AfsimNs3.Adapter

/-- A call of the simulation, or a step of the worker. -/
inductive QueueStep (μ : Type) where
  | queueInitial (json : μ)
  | queueDelta (json currentFullSnapshot : μ)
  | connect
  | takeNext
  | sendSuccess
  | sendFailure
  | disconnect

namespace TcpJsonlClient
variable {μ : Type}

def step (c : TcpJsonlClient μ) : QueueStep μ → Option (TcpJsonlClient μ)
  | .queueInitial json => some (c.queueInitial json)
  | .queueDelta json currentFullSnapshot => some (c.queueDelta json currentFullSnapshot).1
  | .connect => c.connect
  | .takeNext => c.takeNext
  | .sendSuccess => c.sendSuccess
  | .sendFailure => c.sendFailure
  | .disconnect => c.disconnect

def pendingCount (c : TcpJsonlClient μ) : ℕ := c.mPending.length

/-- `QueueDelta` returns `false` and leaves the full snapshot alone, or `true` and appends the delta. -/
def Answers (c : TcpJsonlClient μ) : Prop :=
  ∀ json currentFullSnapshot,
    (c.queueDelta json currentFullSnapshot).1.mPending =
      if (c.queueDelta json currentFullSnapshot).2 = false then [currentFullSnapshot] else c.mPending ++ [json]

/-- The message that could not be sent finds room in the queue. -/
def LeavesRoom (c : TcpJsonlClient μ) : QueueStep μ → Prop
  | .sendFailure => c.pendingCount < c.maxPendingMessages
  | _ => True

instance LeavesRoom.decidable (c : TcpJsonlClient μ) : (a : QueueStep μ) → Decidable (c.LeavesRoom a)
  | .sendFailure => inferInstanceAs (Decidable (c.pendingCount < c.maxPendingMessages))
  | .queueInitial _ | .queueDelta _ _ | .connect | .takeNext | .sendSuccess | .disconnect => .isTrue trivial

theorem answers (c : TcpJsonlClient μ) : c.Answers := by
  intro json currentFullSnapshot
  unfold queueDelta
  split_ifs <;> simp_all

/-! ## What a step does to the queue -/

theorem queueDelta_pendingCount (c : TcpJsonlClient μ) (json currentFullSnapshot : μ) :
    (c.queueDelta json currentFullSnapshot).1.pendingCount =
      if c.maxPendingMessages ≤ c.pendingCount then 1 else c.pendingCount + 1 := by
  unfold queueDelta pendingCount
  split_ifs <;> simp

/-- What each step of the worker requires and leaves. -/
theorem step_cases {c c' : TcpJsonlClient μ} {a : QueueStep μ} (h : c.step a = some c') :
    c'.maxPendingMessages = c.maxPendingMessages ∧
    match a with
    | .queueInitial _ => c'.pendingCount = 1 ∧ c'.connection = c.connection
    | .queueDelta _ _ => c'.pendingCount = (if c.maxPendingMessages ≤ c.pendingCount then 1 else c.pendingCount + 1) ∧
        c'.connection = c.connection
    | .connect => c'.pendingCount = 0
    | .takeNext => c.pendingCount = c'.pendingCount + 1 ∧ c.connection.isSome
    | .sendSuccess => c'.pendingCount = c.pendingCount ∧ c.connection.isSome
    | .sendFailure => c'.pendingCount = c.pendingCount + 1 ∧ c.connection.isSome ∧ c'.connection = none
    | .disconnect => c'.pendingCount = c.pendingCount ∧ c'.connection = none := by
  cases a with
  | queueInitial json =>
    obtain rfl := Option.some.inj h
    exact ⟨rfl, rfl, rfl⟩
  | queueDelta json currentFullSnapshot =>
    obtain rfl := Option.some.inj h
    refine ⟨?_, queueDelta_pendingCount c json currentFullSnapshot, ?_⟩ <;> unfold queueDelta <;> split_ifs <;> rfl
  | connect =>
    simp only [step, connect] at h
    split at h
    · obtain rfl := Option.some.inj h
      exact ⟨rfl, rfl⟩
    · cases h
  | takeNext =>
    simp only [step, takeNext] at h
    split at h
    · rename_i hconn hpending
      obtain rfl := Option.some.inj h
      exact ⟨rfl, by simp [pendingCount, hpending], by simp [hconn]⟩
    · cases h
  | sendSuccess =>
    simp only [step, sendSuccess] at h
    split at h
    · rename_i hconn
      obtain rfl := Option.some.inj h
      exact ⟨rfl, rfl, by simp [hconn]⟩
    · cases h
  | sendFailure =>
    simp only [step, sendFailure] at h
    split at h
    · rename_i hconn
      obtain rfl := Option.some.inj h
      exact ⟨rfl, rfl, by simp [hconn], rfl⟩
    · cases h
  | disconnect =>
    simp only [step, disconnect] at h
    split at h
    · obtain rfl := Option.some.inj h
      exact ⟨rfl, rfl, rfl⟩
    · cases h

/-! ## The bound -/

/-- The queue is within its bound, and `QueueDelta` answers as it does. -/
structure Bounded (c : TcpJsonlClient μ) : Prop where
  bounded : c.pendingCount ≤ c.maxPendingMessages
  answers : c.Answers

/-- **A step keeps the bound exactly when it leaves room.** -/
theorem step_bounded_iff {c c' : TcpJsonlClient μ} {a : QueueStep μ} (hpos : 1 ≤ c.maxPendingMessages)
    (hc : c.Bounded) (h : c.step a = some c') : c'.Bounded ↔ c.LeavesRoom a := by
  obtain ⟨hmax, hstep⟩ := step_cases h
  have hle := hc.bounded
  have hbounded : c'.Bounded ↔ c'.pendingCount ≤ c.maxPendingMessages := by
    constructor
    · intro hb
      exact hmax ▸ hb.bounded
    · intro hb
      exact ⟨hmax ▸ hb, c'.answers⟩
  rw [hbounded]
  cases a with
  | sendFailure =>
    simp only [LeavesRoom]
    omega
  | queueDelta json currentFullSnapshot =>
    simp only [LeavesRoom, iff_true]
    rw [hstep.1]
    split_ifs <;> omega
  | _ =>
    simp only [LeavesRoom, iff_true]
    omega

/-- The bound and one message more, and with a connection the bound. -/
structure WithinOne (c : TcpJsonlClient μ) : Prop where
  positive : 1 ≤ c.maxPendingMessages
  bounded : c.pendingCount ≤ c.maxPendingMessages + 1
  connected : c.connection.isSome → c.pendingCount ≤ c.maxPendingMessages

theorem WithinOne.step {c c' : TcpJsonlClient μ} {a : QueueStep μ} (hc : c.WithinOne) (h : c.step a = some c') :
    c'.WithinOne := by
  obtain ⟨hmax, hstep⟩ := step_cases h
  obtain ⟨hpos, hle, hconn⟩ := hc
  cases a with
  | queueInitial json => exact ⟨by omega, by omega, by omega⟩
  | queueDelta json currentFullSnapshot =>
    have hcount := hstep.1
    split_ifs at hcount <;> exact ⟨by omega, by omega, by omega⟩
  | connect => exact ⟨by omega, by omega, by omega⟩
  | takeNext => exact ⟨by omega, by omega, fun _ => by have := hconn hstep.2; omega⟩
  | sendSuccess => exact ⟨by omega, by omega, fun _ => by have := hconn hstep.2; omega⟩
  | sendFailure =>
    have hroom := hconn hstep.2.1
    exact ⟨by omega, by omega, fun hsome => by simp [hstep.2.2] at hsome⟩
  | disconnect => exact ⟨by omega, by omega, fun hsome => by simp [hstep.2] at hsome⟩

/-- **No run exceeds the bound by more than the message that could not be sent.** -/
theorem run_within_one {maxPendingMessages : ℕ} (hmax : 1 ≤ maxPendingMessages) {steps : List (QueueStep μ)}
    {c : TcpJsonlClient μ} (hrun : Machine.run step (new maxPendingMessages) steps = some c) :
    c.pendingCount ≤ c.maxPendingMessages + 1 := by
  have hnew : (new maxPendingMessages : TcpJsonlClient μ).WithinOne := ⟨hmax, Nat.zero_le _, fun _ => Nat.zero_le _⟩
  exact (Machine.run_invariant WithinOne (fun _ _ _ hc h => hc.step h) hnew hrun).bounded

/-- **The backlog is bounded in every state of a run exactly when every message that could not be sent found
room.** -/
theorem backlog_bounded_iff {maxPendingMessages : ℕ} (hmax : 1 ≤ maxPendingMessages) {steps : List (QueueStep μ)}
    {c : TcpJsonlClient μ} (hrun : Machine.run step (new maxPendingMessages) steps = some c) :
    Machine.Throughout step Bounded (new maxPendingMessages) steps ↔
      Machine.Along step LeavesRoom (new maxPendingMessages) steps := by
  refine Machine.throughout_iff_along (fun s => 1 ≤ s.maxPendingMessages) Bounded ?_ ?_ hmax ?_ hrun
  · intro s a s' hpos h
    have hkept := (step_cases h).1
    omega
  · exact fun s a s' hpos hs h => step_bounded_iff hpos hs h
  · exact ⟨Nat.zero_le _, answers _⟩

/-- A first snapshot is taken up by the connection, and a delta is queued while it is being sent. -/
def sendBesideDelta : List (QueueStep Str) :=
  [.queueInitial (str "init"), .connect, .queueDelta (str "delta") (str "resync")]

theorem sendBesideDelta_bounded :
    Machine.Throughout step Bounded (new 2) (sendBesideDelta ++ [.sendFailure]) :=
  (backlog_bounded_iff (by decide) rfl).mpr (by decide)

/-- With a bound of one message the failed send leaves two. -/
theorem sendBesideDelta_exceeds : ¬ ∀ (maxPendingMessages : ℕ) (steps : List (QueueStep Str)) (c : TcpJsonlClient Str),
    1 ≤ maxPendingMessages → Machine.run step (new maxPendingMessages) steps = some c →
      Machine.Throughout step Bounded (new maxPendingMessages) steps := by
  intro hall
  have hthroughout := hall 1 (sendBesideDelta ++ [.sendFailure]) _ (by decide) rfl
  have hlast := (((hthroughout.2 _ rfl).2 _ rfl).2 _ rfl).2 _ rfl
  have hcount := hlast.bounded
  revert hcount
  decide

end TcpJsonlClient

end AfsimNs3.Adapter
