import AfsimNs3.Adapter.EffectRuns
import AfsimNs3.Lib.Machine
import AfsimNs3.Lib.Mailbox

/-!
# Pending effects (`AfsimBridgeController`)

The network worker hands the decisions of a line over in `mPendingEffects`, the simulation thread takes the whole map
and passes its entries to the sink one by one. The steps of the two threads are interleaved in any order; which calls of
the sink and of the error handler throw is in the action.

A decision carries a ticket, its place among all that the effect gate returned. Only the accounts look at tickets: the
gate, the keys and the sink see the decision.
-/

namespace AfsimNs3.Adapter

structure Ticket where
  serial : ℕ
  decision : EffectDecision
  deriving DecidableEq

/-- `EffectKey`, a tuple that is compared part by part. -/
def effectKey (ticket : Ticket) : List Bytes :=
  [ticket.decision.entityId, ticket.decision.subsystemType, ticket.decision.subsystemId, ticket.decision.peerEntityId]

/-- What a call throws. -/
inductive Thrown where
  | exception (what : Bytes)
  | other
  deriving DecidableEq

/-- The text the `catch` blocks report. -/
def Thrown.message : Thrown → Bytes
  | .exception what => what
  | .other => ascii "unknown exception"

/-- `catch (...)` without a `throw`. -/
def swallow (_ : Thrown) : Option Thrown := none

/-- A call of `ApplyPendingEffects`: the map it took, the entries still to pass, what it counted, and for the accounts
the calls of the sink and of the error handler it made. -/
structure ApplyCall where
  taken : List Ticket
  rest : List Ticket
  applied : ℕ
  attempts : List (Ticket × Option Thrown)
  reports : List (Ticket × Bytes)

/-- The controller between two steps of its threads. -/
structure EffectExchange where
  gates : Gates
  /-- `mPendingEffects`, and what was overwritten in it. -/
  box : Mailbox.Box (List Bytes) Ticket
  /-- What `OnJsonLine` got from the gate and has not put into the map yet. -/
  inHand : List Ticket
  call : Option ApplyCall
  /-- All decisions the gate returned, all maps taken, and the calls that returned. -/
  returned : List Ticket
  batches : List (List Ticket)
  finished : List ApplyCall

namespace EffectExchange

def new : EffectExchange := ⟨Gates.new, Mailbox.Box.empty, [], none, [], [], []⟩

/-- `OnJsonLine` up to the decisions, under the `catch` of `DispatchLines`. -/
def readLine (stod : Bytes → Except Bytes Double) (gates : Gates) (line : Bytes) : Gates × List EffectDecision :=
  match gates.mMessageGate.updateFromMetricsJson stod line with
  | .error _ => (gates, [])
  | .ok (message, _) =>
    match gates.mGate.updateFromMetricsJson line with
    | .error _ => ({ gates with mMessageGate := message }, [])
    | .ok (effect, decisions) => (⟨message, effect⟩, decisions)

/-- `ReportEffectError`: the calls it makes, and what it lets out. -/
def reportEffectError (hasHandler : Bool) (handler : Option Thrown) (ticket : Ticket) (message : Bytes) :
    List (Ticket × Bytes) × Option Thrown :=
  if !hasHandler then ([], none) else ([(ticket, message)], handler.bind swallow)

/-- One turn of the loop of `ApplyPendingEffects`: what it counts, what it reports, and what it lets out. -/
def turn (hasHandler : Bool) (ticket : Ticket) (sink handler : Option Thrown) :
    ℕ × List (Ticket × Bytes) × Option Thrown :=
  match sink with
  | none => (1, [], none)
  | some thrown => (0, reportEffectError hasHandler handler ticket thrown.message)

inductive Action where
  /-- The worker reads a line. -/
  | readLine (line : Bytes)
  /-- It puts the decisions into the map, under the lock. -/
  | insert
  /-- The simulation thread takes the map, under the lock. -/
  | swap
  /-- It passes the next entry; what the sink throws, and the error handler if it is called. -/
  | pass (sink handler : Option Thrown)
  /-- The call returns. -/
  | finish

section
variable (stod : Bytes → Except Bytes Double) (hasHandler : Bool)

def step (s : EffectExchange) : Action → Option EffectExchange
  | .readLine line =>
    if s.inHand ≠ [] then none
    else
      let (gates, decisions) := readLine stod s.gates line
      let tickets := (decisions.zipIdx s.returned.length).map (fun decision => ⟨decision.2, decision.1⟩)
      some { s with gates := gates, inHand := tickets, returned := s.returned ++ tickets }
  | .insert =>
    if s.inHand = [] then none else some { s with box := Mailbox.postAll effectKey s.box s.inHand, inHand := [] }
  | .swap =>
    if s.call.isSome then none
    else
      let taken := s.box.pending.sorted.map Prod.snd
      some { s with
        box := { s.box with pending := Dict.empty }
        call := some ⟨taken, taken, 0, [], []⟩
        batches := s.batches ++ [taken] }
  | .pass sink handler =>
    match s.call with
    | none => none
    | some call =>
      match call.rest with
      | [] => none
      | ticket :: rest =>
        match turn hasHandler ticket sink handler with
        | (applied, reports, none) =>
          some { s with call := some { call with
            rest := rest
            applied := call.applied + applied
            attempts := call.attempts ++ [(ticket, sink)]
            reports := call.reports ++ reports } }
        -- An exception leaves the function: the rest of the map is destroyed.
        | (_, _, some _) => some { s with call := none }
  | .finish =>
    match s.call with
    | none => none
    | some call => if call.rest ≠ [] then none else some { s with call := none, finished := s.finished ++ [call] }

end

/-! ## What the accounts say -/

/-- The calls of `ApplyPendingEffects` so far. -/
def calls (s : EffectExchange) : List ApplyCall := s.finished ++ s.call.toList

/-- The decisions passed to the sink, in order. -/
def passed (s : EffectExchange) : List Ticket := s.calls.flatMap (fun call => call.attempts.map Prod.fst)

/-- What the running call still has to pass. -/
def rest (s : EffectExchange) : List Ticket := s.call.toList.flatMap ApplyCall.rest

/-- The decisions that are still pending: to be passed by the running call, in the map, or about to be put there. -/
def waiting (s : EffectExchange) : List Ticket := s.rest ++ s.box.pending.values ++ s.inHand

/-- A call passes what it took in order, counts the calls of the sink that did not throw, and reports each one that
threw, once. -/
structure SoundCall (hasHandler : Bool) (call : ApplyCall) : Prop where
  whole : call.attempts.map Prod.fst ++ call.rest = call.taken
  applied : call.applied = call.attempts.countP (fun attempt => attempt.2.isNone)
  reports : call.reports = if hasHandler then
    call.attempts.filterMap (fun attempt => attempt.2.map (fun thrown => (attempt.1, thrown.message))) else []

/-- A decision the gate returned is pending, or was passed to the sink once, or was overwritten while it was pending by
a later decision of its key. -/
def Fate (s : EffectExchange) (ticket : Ticket) : Prop :=
  (ticket ∈ s.waiting ∧ s.passed.count ticket = 0 ∧ ∀ later, (ticket, later) ∉ s.box.overwritten) ∨
  (s.passed.count ticket = 1 ∧ ticket ∉ s.waiting ∧ ∀ later, (ticket, later) ∉ s.box.overwritten) ∨
  ((∃ later, (ticket, later) ∈ s.box.overwritten ∧ effectKey later = effectKey ticket ∧ ticket.serial < later.serial ∧
    later ∈ s.returned) ∧ s.passed.count ticket = 0 ∧ ticket ∉ s.waiting)

/-- The accounts of the two threads. -/
structure Accounted (hasHandler : Bool) (s : EffectExchange) : Prop where
  fate : ∀ ticket ∈ s.returned, Fate s ticket
  /-- Nothing else is pending or passed, and tickets differ. -/
  account : s.returned.Perm (s.box.overwritten.map Prod.fst ++ s.passed ++ s.waiting)
  tickets : s.returned.map Ticket.serial = List.range s.returned.length
  increasing : ∀ key, ((s.passed.filter (fun ticket => effectKey ticket = key)).map
    (fun ticket => ticket.decision.revision)).Pairwise (· < ·)
  /-- Every map taken belongs to one call, and a call that returned has passed all of it. -/
  batches : s.calls.map ApplyCall.taken = s.batches
  sound : ∀ call ∈ s.calls, SoundCall hasHandler call
  finished : ∀ call ∈ s.finished, call.rest = []

/-! ## Steps -/

section
variable {stod : Bytes → Except Bytes Double} {hasHandler : Bool} {s s' : EffectExchange}

theorem readLine_gates (gates : Gates) (line : Bytes) : (readLine stod gates line).1 = gates.onJsonLine stod line := by
  unfold readLine Gates.onJsonLine
  cases gates.mMessageGate.updateFromMetricsJson stod line with
  | error what => rfl
  | ok message =>
    cases gates.mGate.updateFromMetricsJson line with
    | error what => rfl
    | ok effect => rfl

/-- Nothing a sink or an error handler throws leaves the loop. -/
theorem turn_keeps (ticket : Ticket) (sink handler : Option Thrown) : turn hasHandler ticket sink handler =
    (if sink.isNone then 1 else 0,
      if hasHandler then (sink.map (fun thrown => (ticket, thrown.message))).toList else [], none) := by
  cases sink with
  | none => cases hasHandler <;> rfl
  | some thrown => cases hasHandler <;> cases handler <;> rfl

/-- The tickets of some decisions. -/
def ticketsFrom (serial : ℕ) (decisions : List EffectDecision) : List Ticket :=
  (decisions.zipIdx serial).map (fun decision => ⟨decision.2, decision.1⟩)

theorem step_readLine {line : Bytes} : step stod hasHandler s (.readLine line) = some s' ↔ s.inHand = [] ∧
    s' = { s with
      gates := (readLine stod s.gates line).1
      inHand := ticketsFrom s.returned.length (readLine stod s.gates line).2
      returned := s.returned ++ ticketsFrom s.returned.length (readLine stod s.gates line).2 } := by
  unfold step
  dsimp only
  by_cases h : s.inHand = []
  · rw [if_neg (not_not.mpr h), Option.some.injEq, and_iff_right h, eq_comm]
    rfl
  · rw [if_pos h]
    exact iff_of_false (fun hsome => nomatch hsome) fun hsome => h hsome.1

theorem step_insert : step stod hasHandler s .insert = some s' ↔ s.inHand ≠ [] ∧
    s' = { s with box := Mailbox.postAll effectKey s.box s.inHand, inHand := [] } := by
  unfold step
  dsimp only
  by_cases h : s.inHand = []
  · rw [if_pos h]
    exact iff_of_false (fun hsome => nomatch hsome) fun hsome => hsome.1 h
  · rw [if_neg h, Option.some.injEq, and_iff_right h, eq_comm]

theorem step_swap : step stod hasHandler s .swap = some s' ↔ s.call = none ∧
    s' = { s with
      box := { s.box with pending := Dict.empty }
      call := some ⟨s.box.pending.sorted.map Prod.snd, s.box.pending.sorted.map Prod.snd, 0, [], []⟩
      batches := s.batches ++ [s.box.pending.sorted.map Prod.snd] } := by
  unfold step
  dsimp only
  cases h : s.call with
  | none => simp [eq_comm]
  | some call => simp

theorem step_pass {sink handler : Option Thrown} : step stod hasHandler s (.pass sink handler) = some s' ↔
    ∃ call ticket rest, s.call = some call ∧ call.rest = ticket :: rest ∧
      s' = { s with call := some { call with
        rest := rest
        applied := call.applied + if sink.isNone then 1 else 0
        attempts := call.attempts ++ [(ticket, sink)]
        reports := call.reports ++
          if hasHandler then (sink.map (fun thrown => (ticket, thrown.message))).toList else [] } } := by
  unfold step
  dsimp only
  cases hcall : s.call with
  | none => simp
  | some call =>
    cases hrest : call.rest with
    | nil => simp [hrest]
    | cons ticket rest =>
      simp only [hrest, turn_keeps, Option.some.injEq]
      constructor
      · rintro rfl
        exact ⟨call, ticket, rest, rfl, hrest, rfl⟩
      · rintro ⟨call', ticket', rest', rfl, hrest', rfl⟩
        obtain ⟨rfl, rfl⟩ := List.cons.inj (hrest.symm.trans hrest')
        rfl

theorem step_finish : step stod hasHandler s .finish = some s' ↔ ∃ call, s.call = some call ∧ call.rest = [] ∧
    s' = { s with call := none, finished := s.finished ++ [call] } := by
  unfold step
  dsimp only
  cases hcall : s.call with
  | none => simp
  | some call => by_cases hrest : call.rest = [] <;> simp [hrest, eq_comm]

/-! ## The calls -/

/-- The calls are sound, and they are the maps taken. -/
structure CallsSound (hasHandler : Bool) (s : EffectExchange) : Prop where
  batches : s.calls.map ApplyCall.taken = s.batches
  sound : ∀ call ∈ s.calls, SoundCall hasHandler call
  finished : ∀ call ∈ s.finished, call.rest = []

theorem calls_of_some {call : ApplyCall} (h : s.call = some call) : s.calls = s.finished ++ [call] := by
  rw [calls, h]
  rfl

theorem calls_of_none (h : s.call = none) : s.calls = s.finished := by
  rw [calls, h]
  exact List.append_nil _

theorem soundCall_pass {call : ApplyCall} (h : SoundCall hasHandler call) {ticket : Ticket} {rest : List Ticket}
    (hrest : call.rest = ticket :: rest) (sink : Option Thrown) : SoundCall hasHandler { call with
      rest := rest
      applied := call.applied + if sink.isNone then 1 else 0
      attempts := call.attempts ++ [(ticket, sink)]
      reports := call.reports ++
        if hasHandler then (sink.map (fun thrown => (ticket, thrown.message))).toList else [] } where
  whole := by
    rw [← h.whole, hrest, List.map_append, List.append_assoc]
    rfl
  applied := by
    rw [h.applied, List.countP_append, List.countP_singleton]
  reports := by
    rw [h.reports]
    cases hasHandler with
    | false => rfl
    | true =>
      rw [if_pos rfl, if_pos rfl, if_pos rfl, List.filterMap_append]
      cases sink <;> rfl

theorem callsSound_step {a : Action} (h : CallsSound hasHandler s) (hstep : step stod hasHandler s a = some s') :
    CallsSound hasHandler s' := by
  cases a with
  | readLine line =>
    obtain ⟨-, rfl⟩ := step_readLine.mp hstep
    exact ⟨h.batches, h.sound, h.finished⟩
  | insert =>
    obtain ⟨-, rfl⟩ := step_insert.mp hstep
    exact ⟨h.batches, h.sound, h.finished⟩
  | swap =>
    obtain ⟨hcall, rfl⟩ := step_swap.mp hstep
    have hcalls := calls_of_none hcall
    refine ⟨?_, fun call hmem => ?_, h.finished⟩
    · rw [calls_of_some rfl, List.map_append, ← hcalls, h.batches]
      rfl
    · rw [calls_of_some rfl, List.mem_append, List.mem_singleton] at hmem
      rcases hmem with hmem | rfl
      · exact h.sound call (hcalls ▸ hmem)
      · exact ⟨rfl, rfl, by cases hasHandler <;> rfl⟩
  | pass sink handler =>
    obtain ⟨call, ticket, rest, hcall, hrest, rfl⟩ := step_pass.mp hstep
    have hcalls := calls_of_some hcall
    have hbatches := h.batches
    have hsound := h.sound
    rw [hcalls] at hbatches hsound
    refine ⟨?_, fun call' hmem => ?_, h.finished⟩
    · rw [calls_of_some rfl, ← hbatches, List.map_append, List.map_append]
      rfl
    · rw [calls_of_some rfl, List.mem_append, List.mem_singleton] at hmem
      rcases hmem with hmem | rfl
      · exact hsound call' (List.mem_append_left _ hmem)
      · exact soundCall_pass (hsound call (List.mem_append_right _ (List.mem_singleton_self _))) hrest sink
  | finish =>
    obtain ⟨call, hcall, hrest, rfl⟩ := step_finish.mp hstep
    have hcalls := calls_of_some hcall
    have hbatches := h.batches
    have hsound := h.sound
    rw [hcalls] at hbatches hsound
    refine ⟨?_, ?_, fun call' hmem => ?_⟩
    · rw [calls_of_none rfl]
      exact hbatches
    · rw [calls_of_none rfl]
      exact hsound
    · rcases List.mem_append.mp hmem with hmem | hmem
      · exact h.finished call' hmem
      · rw [List.mem_singleton.mp hmem]
        exact hrest

end

end EffectExchange

end AfsimNs3.Adapter
