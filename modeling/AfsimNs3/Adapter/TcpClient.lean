import AfsimNs3.Lib.Machine
import AfsimNs3.Lib.Text
import Mathlib.Data.List.Chain

/-!
# The client's send queue (`TcpJsonlClient`)

Two threads share the queue: the simulation thread calls `queueInitial` and `queueDelta`, the network worker
connects, takes messages, sends them and loses connections. Each step below is one section under the queue's mutex
or one send, so every interleaving of the two threads is a run.

The frames handed to the client are numbered; `Line` says which frame a message is for and whether it is the full
snapshot or the delta from the frame before. What the queue promises is about these numbers.

* `System.step_steady`: what one step keeps: the lines sent on the connection, the message in hand and the queue
  together are one gapless sequence that ends with the newest frame;
* `sends_without_gap`: on every connection the first line is a full snapshot, a delta follows the message of the
  frame before, and an idle connection has sent the newest frame last.
-/

namespace AfsimNs3.Adapter

/-- `Normalize`: no line end but one. -/
def normalize (json : Bytes) : Bytes := json.rdropWhile (fun c => c = 13 || c = 10) ++ [10]

/-- A queued text is never the empty one that stands for no message. -/
theorem normalize_ne_nil (json : Bytes) : normalize json ≠ [] :=
  List.append_ne_nil_of_right_ne_nil _ (List.cons_ne_nil _ _)

/-- A connection `ProcessConnection` works on: its local `current` and the lines written to the socket. -/
structure Connection (μ : Type) where
  current : Option μ
  sent : List μ

/-- The client. An empty text (`mResync` before the first call, `current` between messages) is `none`. -/
structure TcpJsonlClient (μ : Type) where
  maxPendingMessages : ℕ
  mPending : List μ
  mResync : Option μ
  connection : Option (Connection μ)

namespace TcpJsonlClient
variable {μ : Type}

def new (maxPendingMessages : ℕ) : TcpJsonlClient μ := ⟨maxPendingMessages, [], none, none⟩

def queueInitial (c : TcpJsonlClient μ) (json : μ) : TcpJsonlClient μ :=
  { c with mResync := some json, mPending := [json] }

/-- `QueueDelta`, with its result: `false` says that the queue overflowed. -/
def queueDelta (c : TcpJsonlClient μ) (json currentFullSnapshot : μ) : TcpJsonlClient μ × Bool :=
  if c.maxPendingMessages ≤ c.mPending.length then
    ({ c with mResync := some currentFullSnapshot, mPending := [currentFullSnapshot] }, false)
  else ({ c with mResync := some currentFullSnapshot, mPending := c.mPending ++ [json] }, true)

/-- A successful `Connect` and the locked section at the head of `ProcessConnection`. -/
def connect (c : TcpJsonlClient μ) : Option (TcpJsonlClient μ) :=
  match c.connection with
  | none => some { c with mPending := [], connection := some ⟨c.mResync, []⟩ }
  | some _ => none

/-- The worker takes the next message when it has none in hand. -/
def takeNext (c : TcpJsonlClient μ) : Option (TcpJsonlClient μ) :=
  match c.connection, c.mPending with
  | some ⟨none, sent⟩, json :: rest => some { c with mPending := rest, connection := some ⟨some json, sent⟩ }
  | _, _ => none

/-- `SendAll` returns true. -/
def sendSuccess (c : TcpJsonlClient μ) : Option (TcpJsonlClient μ) :=
  match c.connection with
  | some ⟨some json, sent⟩ => some { c with connection := some ⟨none, sent ++ [json]⟩ }
  | _ => none

/-- `SendAll` returns false: the message goes back to the front of the queue and the connection is closed. -/
def sendFailure (c : TcpJsonlClient μ) : Option (TcpJsonlClient μ) :=
  match c.connection with
  | some ⟨some json, _⟩ => some { c with mPending := json :: c.mPending, connection := none }
  | _ => none

/-- The connection ends otherwise: closed by the peer, a receive error, or the client stopped. -/
def disconnect (c : TcpJsonlClient μ) : Option (TcpJsonlClient μ) :=
  match c.connection with
  | some _ => some { c with connection := none }
  | none => none

end TcpJsonlClient

/-! ## Numbered frames -/

inductive LineKind where
  | full
  | delta
  deriving DecidableEq

structure Line where
  kind : LineKind
  frame : ℕ
  deriving DecidableEq

namespace SendQueue

/-- The client, the number of frames handed to it and the lines sent on each earlier connection. -/
structure System where
  client : TcpJsonlClient Line
  queued : ℕ
  closed : List (List Line)

inductive Action where
  | queueInitial
  | queueDelta
  | connect
  | takeNext
  | sendSuccess
  | sendFailure
  | disconnect

namespace System

def new (maxPendingMessages : ℕ) : System := ⟨TcpJsonlClient.new maxPendingMessages, 0, []⟩

/-- The lines sent on the connection that ends. -/
def closing (s : System) (client : TcpJsonlClient Line) : System :=
  { s with client, closed := s.closed ++ (s.client.connection.map Connection.sent).toList }

/-- The next frame is queued, or the worker takes a step. The first frame comes by `queueInitial`. -/
def step (s : System) : Action → Option System
  | .queueInitial => some { s with client := s.client.queueInitial ⟨.full, s.queued⟩, queued := s.queued + 1 }
  | .queueDelta =>
    if s.queued = 0 then none
    else some { s with
      client := (s.client.queueDelta ⟨.delta, s.queued⟩ ⟨.full, s.queued⟩).1
      queued := s.queued + 1 }
  | .connect => s.client.connect.map (fun client => { s with client })
  | .takeNext => s.client.takeNext.map (fun client => { s with client })
  | .sendSuccess => s.client.sendSuccess.map (fun client => { s with client })
  | .sendFailure => s.client.sendFailure.map s.closing
  | .disconnect => s.client.disconnect.map s.closing

/-- The lines sent on each connection, the present one last. -/
def connections (s : System) : List (List Line) :=
  s.closed ++ (s.client.connection.map Connection.sent).toList

/-- The number of the newest frame. -/
def newest (s : System) : Option ℕ := if s.queued = 0 then none else some (s.queued - 1)

end System

/-! ## Gapless sequences -/

/-- One line may follow the other. -/
def Follows (line next : Line) : Prop := next.kind = .delta → line.frame + 1 = next.frame

/-- The first line is a full snapshot and every delta follows the message of the frame before. -/
structure Gapless (lines : List Line) : Prop where
  first : ∀ line ∈ lines.head?, line.kind = .full
  chain : lines.IsChain Follows

theorem Gapless.nil : Gapless [] := ⟨nofun, List.isChain_nil⟩

theorem Gapless.singleton (frame : ℕ) : Gapless [⟨.full, frame⟩] :=
  ⟨fun line hline => by cases hline; rfl, List.isChain_singleton _⟩

theorem Gapless.of_append {lines rest : List Line} (h : Gapless (lines ++ rest)) : Gapless lines := by
  refine ⟨fun line hline => h.first line ?_, (List.isChain_append.mp h.chain).1⟩
  cases lines with
  | nil => cases hline
  | cons a as => exact hline

/-- A full snapshot may follow anything. -/
theorem Gapless.append_full {lines : List Line} (h : Gapless lines) (frame : ℕ) :
    Gapless (lines ++ [⟨.full, frame⟩]) := by
  refine ⟨fun line hline => ?_, List.isChain_append.mpr
    ⟨h.chain, List.isChain_singleton _, fun a _ b hb hkind => ?_⟩⟩
  · cases lines with
    | nil => cases hline; rfl
    | cons a as => exact h.first line hline
  · cases hb
    cases hkind

/-- A delta may follow the message of the frame before. -/
theorem Gapless.append_delta {lines : List Line} (h : Gapless lines) {frame : ℕ}
    (hlast : lines.getLast?.map Line.frame = some frame) : Gapless (lines ++ [⟨.delta, frame + 1⟩]) := by
  obtain ⟨last, hl, rfl⟩ := Option.map_eq_some_iff.mp hlast
  refine ⟨fun line hline => ?_, List.isChain_append.mpr
    ⟨h.chain, List.isChain_singleton _, fun a ha b hb _ => ?_⟩⟩
  · cases lines with
    | nil => cases hl
    | cons a as => exact h.first line hline
  · cases hb
    rw [hl] at ha
    cases ha
    rfl

/-- Each delta is immediately preceded by the message of the frame before. -/
theorem Gapless.preceded {before after : List Line} {line : Line} (h : Gapless (before ++ line :: after))
    (hkind : line.kind = .delta) : ∃ front prev, before = front ++ [prev] ∧ prev.frame + 1 = line.frame := by
  rcases List.eq_nil_or_concat' before with rfl | ⟨front, prev, rfl⟩
  · have hfull := h.first line rfl
    cases hkind.symm.trans hfull
  · have hchain := (List.isChain_append.mp h.chain).2.2
    exact ⟨front, prev, rfl, hchain prev (by simp) line (by simp) hkind⟩

/-! ## The invariant -/

/-- The lines sent on a connection, the message in hand and the queue. -/
def sequence (c : Connection Line) (pending : List Line) : List Line := c.sent ++ c.current.toList ++ pending

/-- The state of the system after any steps. -/
structure Steady (s : System) : Prop where
  resync : s.client.mResync = s.newest.map (fun frame => ⟨.full, frame⟩)
  closed : ∀ sent ∈ s.closed, Gapless sent
  opened : ∀ c, s.client.connection = some c → Gapless (sequence c s.client.mPending) ∧
    (sequence c s.client.mPending).getLast?.map Line.frame = s.newest

theorem steady_new (maxPendingMessages : ℕ) : Steady (System.new maxPendingMessages) :=
  ⟨rfl, List.forall_mem_nil _, nofun⟩

theorem newest_succ (s : System) (client : TcpJsonlClient Line) :
    ({ s with client, queued := s.queued + 1 } : System).newest = some s.queued := rfl

/-- Replacing the queue by a full snapshot of the frame that is handed over. -/
theorem Steady.restart {s : System} (hs : Steady s) :
    Steady { s with client := s.client.queueInitial ⟨.full, s.queued⟩, queued := s.queued + 1 } := by
  refine ⟨rfl, hs.closed, fun c hc => ?_⟩
  have hprev : Gapless (c.sent ++ c.current.toList) := (hs.opened c hc).1.of_append
  refine ⟨hprev.append_full s.queued, ?_⟩
  simp [sequence, TcpJsonlClient.queueInitial, newest_succ]

/-- Appending the delta of the frame that is handed over. -/
theorem Steady.extend {s : System} (hs : Steady s) (hq : s.queued ≠ 0) :
    Steady { s with
      client := { s.client with
        mResync := some ⟨.full, s.queued⟩
        mPending := s.client.mPending ++ [⟨.delta, s.queued⟩] }
      queued := s.queued + 1 } := by
  refine ⟨rfl, hs.closed, fun c hc => ?_⟩
  obtain ⟨hgapless, hlast⟩ := hs.opened c hc
  have hnewest : s.newest = some (s.queued - 1) := if_neg hq
  have hframe : s.queued - 1 + 1 = s.queued := by omega
  have happend := hgapless.append_delta (hlast.trans hnewest)
  rw [hframe] at happend
  have hseq : sequence c (s.client.mPending ++ [⟨.delta, s.queued⟩]) =
      sequence c s.client.mPending ++ [⟨.delta, s.queued⟩] := by
    simp only [sequence, List.append_assoc]
  rw [hseq]
  refine ⟨happend, ?_⟩
  rw [List.getLast?_append, List.getLast?_singleton, newest_succ]
  rfl

/-- A connection that ends leaves a gapless sequence behind. -/
theorem Steady.close {s : System} (hs : Steady s) (client : TcpJsonlClient Line)
    (hresync : client.mResync = s.client.mResync) (hnone : client.connection = none) : Steady (s.closing client) := by
  refine ⟨hresync.trans hs.resync, fun sent hsent => ?_, fun c hc => ?_⟩
  · rcases List.mem_append.mp hsent with hold | hlast
    · exact hs.closed sent hold
    · obtain ⟨c, hc, rfl⟩ := Option.map_eq_some_iff.mp (Option.mem_toList.mp hlast)
      have hgapless := (hs.opened c hc).1
      rw [sequence, List.append_assoc] at hgapless
      exact hgapless.of_append
  · cases hnone.symm.trans hc

/-- A step of the worker that only moves a message along the sequence. -/
theorem Steady.move {s : System} (hs : Steady s) {client : TcpJsonlClient Line} {c c' : Connection Line}
    (hresync : client.mResync = s.client.mResync) (hc : s.client.connection = some c)
    (hc' : client.connection = some c') (hseq : sequence c' client.mPending = sequence c s.client.mPending) :
    Steady { s with client } := by
  refine ⟨hresync.trans hs.resync, hs.closed, fun c₁ hc₁ => ?_⟩
  obtain rfl := Option.some.inj (hc'.symm.trans hc₁)
  rw [hseq]
  exact hs.opened c hc

/-- **One step** of either thread keeps the sequence gapless. -/
theorem step_steady {s s' : System} {a : Action} (hs : Steady s) (h : s.step a = some s') : Steady s' := by
  cases a with
  | queueInitial =>
    obtain rfl := Option.some.inj h
    exact hs.restart
  | queueDelta =>
    simp only [System.step] at h
    split_ifs at h with hq
    obtain rfl := Option.some.inj h
    by_cases hfull : s.client.maxPendingMessages ≤ s.client.mPending.length
    · rw [TcpJsonlClient.queueDelta, if_pos hfull]
      exact hs.restart
    · rw [TcpJsonlClient.queueDelta, if_neg hfull]
      exact hs.extend hq
  | connect =>
    obtain ⟨client, hclient, rfl⟩ := Option.map_eq_some_iff.mp h
    unfold TcpJsonlClient.connect at hclient
    split at hclient
    · obtain rfl := Option.some.inj hclient
      refine ⟨hs.resync, hs.closed, fun c hc => ?_⟩
      obtain rfl := Option.some.inj hc
      have hresync : s.client.mResync = s.newest.map (fun frame => ⟨.full, frame⟩) := hs.resync
      rw [sequence, hresync]
      show Gapless _ ∧ _ = s.newest
      cases s.newest with
      | none => exact ⟨Gapless.nil, rfl⟩
      | some frame => exact ⟨Gapless.singleton frame, rfl⟩
    · cases hclient
  | takeNext =>
    obtain ⟨client, hclient, rfl⟩ := Option.map_eq_some_iff.mp h
    unfold TcpJsonlClient.takeNext at hclient
    split at hclient
    · rename_i sent json rest hc hp
      obtain rfl := Option.some.inj hclient
      refine hs.move rfl hc rfl ?_
      simp [sequence, hp]
    · cases hclient
  | sendSuccess =>
    obtain ⟨client, hclient, rfl⟩ := Option.map_eq_some_iff.mp h
    unfold TcpJsonlClient.sendSuccess at hclient
    split at hclient
    · rename_i json sent hc
      obtain rfl := Option.some.inj hclient
      refine hs.move rfl hc rfl ?_
      simp [sequence]
    · cases hclient
  | sendFailure =>
    obtain ⟨client, hclient, rfl⟩ := Option.map_eq_some_iff.mp h
    unfold TcpJsonlClient.sendFailure at hclient
    split at hclient
    · obtain rfl := Option.some.inj hclient
      exact hs.close _ rfl rfl
    · cases hclient
  | disconnect =>
    obtain ⟨client, hclient, rfl⟩ := Option.map_eq_some_iff.mp h
    unfold TcpJsonlClient.disconnect at hclient
    split at hclient
    · obtain rfl := Option.some.inj hclient
      exact hs.close _ rfl rfl
    · cases hclient

theorem run_steady {maxPendingMessages : ℕ} {actions : List Action} {s : System}
    (h : Machine.run System.step (System.new maxPendingMessages) actions = some s) : Steady s :=
  Machine.run_invariant Steady (fun _ _ _ hs hstep => step_steady hs hstep) (steady_new maxPendingMessages) h

/-- **The send queue creates no gap.** After any interleaving of the two threads, with any bound on the queue: on
every connection the first line is a full snapshot, each delta is immediately preceded by the message of the frame
before, and a connection with nothing in hand or queued has sent the newest frame last. -/
theorem sends_without_gap {maxPendingMessages : ℕ} {actions : List Action} {s : System}
    (h : Machine.run System.step (System.new maxPendingMessages) actions = some s) :
    (∀ sent ∈ s.connections,
      (∀ line rest, sent = line :: rest → line.kind = .full) ∧
        ∀ before line after, sent = before ++ line :: after → line.kind = .delta →
          ∃ front prev, before = front ++ [prev] ∧ prev.frame + 1 = line.frame) ∧
      ∀ sent, s.client.connection = some ⟨none, sent⟩ → s.client.mPending = [] →
        sent.getLast?.map Line.frame = s.newest := by
  have hs := run_steady h
  have hgapless : ∀ sent ∈ s.connections, Gapless sent := by
    have hclose := hs.close { s.client with connection := none } rfl rfl
    exact hclose.closed
  refine ⟨fun sent hsent => ⟨?_, ?_⟩, fun sent hc hp => ?_⟩
  · rintro line rest rfl
    exact (hgapless _ hsent).first line rfl
  · rintro before line after rfl hkind
    exact (hgapless _ hsent).preceded hkind
  · have hlast := (hs.opened _ hc).2
    simpa [sequence, hp] using hlast

/-- A queue of one message that overflows, a failed send and a reconnection. -/
def overflowRun : List Action := [
  .connect, .queueInitial, .takeNext, .queueDelta, .sendSuccess, .queueDelta, .takeNext, .sendFailure, .queueDelta,
  .connect, .sendSuccess, .queueDelta, .takeNext, .sendSuccess]

theorem overflowRun_without_gap : ∃ s, Machine.run System.step (System.new 1) overflowRun = some s ∧
    s.connections = [[⟨.full, 0⟩], [⟨.full, 3⟩, ⟨.delta, 4⟩]] ∧
    (∀ sent, s.client.connection = some ⟨none, sent⟩ → s.client.mPending = [] →
      sent.getLast?.map Line.frame = s.newest) := by
  have hrun : (Machine.run System.step (System.new 1) overflowRun).map System.connections =
      some [[⟨.full, 0⟩], [⟨.full, 3⟩, ⟨.delta, 4⟩]] := by decide
  obtain ⟨s, hs, hconnections⟩ := Option.map_eq_some_iff.mp hrun
  exact ⟨s, hs, hconnections, (sends_without_gap hs).2⟩

end SendQueue

end AfsimNs3.Adapter
