import AfsimNs3.Adapter.Gates
import AfsimNs3.Lib.Except

/-!
# The effect gate over runs of lines

The gate adopts the results of growing revisions and writes their decisions into one map that is never cleared. So the
state of a subsystem is the last decision for it in all adopted lines (`getState_afterLines`), and it follows the last
adopted line alone under a condition on the lines (`neverOptimistic_iff`).
-/

namespace AfsimNs3.Adapter

def EffectState.severity : EffectState → ℕ
  | .available => 0
  | .degraded => 1
  | .blocked => 2

namespace NetworkEffectGate

/-- `UpdateFromMetricsJson` on a line, under the `catch` of `DispatchLines`. -/
def handle (gate : NetworkEffectGate) (line : Bytes) : NetworkEffectGate :=
  match gate.updateFromMetricsJson line with
  | .ok (gate, _) => gate
  | .error _ => gate

/-- The gate after some lines. -/
def afterLines (lines : List Bytes) : NetworkEffectGate := lines.foldl handle new

/-- The result a line carries, if the line can be read as a whole. -/
def result? (line : Bytes) : Option (UInt64 × List EffectDecision) := (readMetrics line).toOption.join

/-- The decisions of the lines that are adopted above a revision. -/
def adoptedAbove (latest : UInt64) : List Bytes → List (List EffectDecision)
  | [] => []
  | line :: lines =>
    match result? line with
    | none => adoptedAbove latest lines
    | some (revision, decisions) =>
      if latest < revision then decisions :: adoptedAbove revision lines else adoptedAbove latest lines

/-- The decisions of the adopted lines, line by line. -/
def adopted (lines : List Bytes) : List (List EffectDecision) := adoptedAbove 0 lines

/-- The states some decisions give a subsystem, in their order. -/
def statesOf (decisions : List EffectDecision) (entityId subsystemId : Bytes) : List EffectState :=
  (decisions.filter (fun decision => (decision.entityId, decision.subsystemId) = (entityId, subsystemId))).map
    EffectDecision.state

/-- The states the last adopted line gives a subsystem. -/
def carried (lines : List Bytes) (entityId subsystemId : Bytes) : List EffectState :=
  statesOf ((adopted lines).getLast?.getD []) entityId subsystemId

/-- The answers follow the last adopted line: blocked without an effect, else as severe as each of its effects. -/
def NeverOptimistic (lines : List Bytes) : Prop :=
  ∀ entityId subsystemId,
    (carried lines entityId subsystemId = [] → (afterLines lines).getState entityId subsystemId = .blocked) ∧
    (∀ state ∈ carried lines entityId subsystemId,
      state.severity ≤ ((afterLines lines).getState entityId subsystemId).severity) ∧
    (.blocked ∈ carried lines entityId subsystemId → (afterLines lines).canOperate entityId subsystemId = false)

/-! ## The state after a run -/

/-- **A line handled**: only a result of a higher revision changes the gate. -/
theorem handle_eq (gate : NetworkEffectGate) (line : Bytes) :
    gate.handle line = match result? line with
      | some (revision, decisions) =>
        if gate.mLatestRevision < revision then ⟨setStates gate.mStates decisions, revision⟩ else gate
      | none => gate := by
  rw [handle, updateFromMetricsJson, result?]
  rcases readMetrics line with e | (_ | ⟨revision, decisions⟩)
  · rfl
  · rfl
  · simp only [Except.map, accept, Except.toOption, Option.join_some]
    by_cases h : revision ≤ gate.mLatestRevision
    · rw [if_pos h, if_neg (UInt64.not_lt.mpr h)]
    · rw [if_neg h, if_pos (UInt64.not_le.mp h)]

theorem setStates_append (states : Dict (Bytes × Bytes) EffectState) (decisions decisions' : List EffectDecision) :
    setStates states (decisions ++ decisions') = setStates (setStates states decisions) decisions' :=
  List.foldl_append

/-- The map holds the decisions of all adopted lines, one after the other. -/
theorem mStates_foldl (lines : List Bytes) (gate : NetworkEffectGate) :
    (lines.foldl handle gate).mStates = setStates gate.mStates (adoptedAbove gate.mLatestRevision lines).flatten := by
  induction lines generalizing gate with
  | nil => rfl
  | cons line lines ih =>
    rw [List.foldl_cons, ih, handle_eq, adoptedAbove]
    cases result? line with
    | none => rfl
    | some result =>
      obtain ⟨revision, decisions⟩ := result
      dsimp only
      split_ifs
      · rw [List.flatten_cons, setStates_append]
      · rfl

/-- **A subsystem has the state of the last decision for it**, in whatever line that was. -/
theorem getState_afterLines (lines : List Bytes) (entityId subsystemId : Bytes) :
    (afterLines lines).getState entityId subsystemId =
      (statesOf (adopted lines).flatten entityId subsystemId).getLast?.getD .blocked := by
  have hbindings : setStates Dict.empty (adopted lines).flatten = Dict.ofList ((adopted lines).flatten.map
      (fun decision => ((decision.entityId, decision.subsystemId), decision.state))) := by
    rw [setStates, Dict.ofList, List.foldl_map]
  have hstates : (afterLines lines).mStates = setStates Dict.empty (adopted lines).flatten := mStates_foldl lines new
  rw [getState, hstates, hbindings, Dict.get?_ofList_eq, List.filter_map, List.map_map]
  rfl

theorem statesOf_append (decisions decisions' : List EffectDecision) (entityId subsystemId : Bytes) :
    statesOf (decisions ++ decisions') entityId subsystemId =
      statesOf decisions entityId subsystemId ++ statesOf decisions' entityId subsystemId := by
  rw [statesOf, List.filter_append, List.map_append]
  rfl

/-- The last adopted line comes last. -/
theorem statesOf_adopted (lines : List Bytes) (entityId subsystemId : Bytes) :
    ∃ earlier, statesOf (adopted lines).flatten entityId subsystemId =
      earlier ++ carried lines entityId subsystemId := by
  rcases List.eq_nil_or_concat' (adopted lines) with hnone | ⟨earlier, last, hlast⟩
  · refine ⟨[], ?_⟩
    rw [carried, hnone]
    rfl
  · refine ⟨statesOf earlier.flatten entityId subsystemId, ?_⟩
    rw [carried, hlast, List.flatten_append, statesOf_append, List.getLast?_concat, List.flatten_singleton]
    rfl

/-- What the lines must be for the gate to follow the last adopted one: its last effect on a subsystem is the most
severe of them, and where it has none, the last effect of the earlier lines is blocked or there was none either. -/
def Careful (lines : List Bytes) : Prop :=
  ∀ entityId subsystemId,
    (∀ last ∈ (carried lines entityId subsystemId).getLast?, ∀ state ∈ carried lines entityId subsystemId,
      state.severity ≤ last.severity) ∧
    (carried lines entityId subsystemId = [] →
      ∀ last ∈ (statesOf (adopted lines).flatten entityId subsystemId).getLast?, last = .blocked)

theorem blocked_of_severity {state : EffectState} (h : EffectState.blocked.severity ≤ state.severity) :
    state = .blocked := by
  cases state
  · exact absurd h (by decide)
  · exact absurd h (by decide)
  · rfl

/-- **The gate answers from the last adopted line exactly when the lines are careful.** -/
theorem neverOptimistic_iff (lines : List Bytes) : NeverOptimistic lines ↔ Careful lines := by
  refine forall_congr' fun entityId => forall_congr' fun subsystemId => ?_
  rw [canOperate, getState_afterLines]
  obtain ⟨earlier, hall⟩ := statesOf_adopted lines entityId subsystemId
  rcases List.eq_nil_or_concat' (carried lines entityId subsystemId) with hnone | ⟨before, last, hcarried⟩
  · rw [hnone]
    cases hlast : (statesOf (adopted lines).flatten entityId subsystemId).getLast? with
    | none => simp
    | some state => simp
  · have hlast : (statesOf (adopted lines).flatten entityId subsystemId).getLast? = some last := by
      rw [hall, hcarried, ← List.append_assoc]
      exact List.getLast?_concat
    have hne : carried lines entityId subsystemId ≠ [] := by
      rw [hcarried]
      exact List.append_ne_nil_of_right_ne_nil _ (List.cons_ne_nil _ _)
    have hcarriedLast : (carried lines entityId subsystemId).getLast? = some last := by
      rw [hcarried]
      exact List.getLast?_concat
    rw [hlast, hcarriedLast]
    constructor
    · rintro ⟨-, hsevere, -⟩
      refine ⟨fun state hstate => ?_, fun hempty => absurd hempty hne⟩
      obtain rfl := Option.some.inj hstate
      exact hsevere
    · rintro ⟨hsevere, -⟩
      have hworst := hsevere last rfl
      refine ⟨fun hempty => absurd hempty hne, hworst, fun hblocked => ?_⟩
      rw [Option.getD_some, blocked_of_severity (hworst _ hblocked)]
      rfl

/-! ## A weapon with two peers -/

def weaponEffect (peer state : String) : Bytes :=
  ascii "\x7b\"entity_id\":\"A\",\"subsystem_id\":\"W\",\"subsystem_type\":\"weapon\",\"peer_entity_id\":\"" ++
    ascii peer ++ ascii "\",\"state\":\"" ++ ascii state ++ ascii "\"\x7d"

def metricsLine (revision : String) (effects : Bytes) : Bytes :=
  ascii "\x7b\"message_type\":\"ns3_metrics\",\"revision\":" ++ ascii revision ++ ascii ",\"effects\":[" ++ effects ++
    ascii "]\x7d"

/-- **A blocked weapon may operate**: when the way to one peer is blocked and a later effect of the same line allows the
other, and when its policy is gone from the newest line. -/
theorem blocked_weapon_operates :
    (.blocked ∈ carried [metricsLine "1" (weaponEffect "B" "BLOCKED" ++ ascii "," ++ weaponEffect "C" "AVAILABLE")]
        (ascii "A") (ascii "W") ∧
      ¬ NeverOptimistic
        [metricsLine "1" (weaponEffect "B" "BLOCKED" ++ ascii "," ++ weaponEffect "C" "AVAILABLE")]) ∧
    carried [metricsLine "1" (weaponEffect "B" "AVAILABLE"), metricsLine "2" []] (ascii "A") (ascii "W") = [] ∧
      ¬ NeverOptimistic [metricsLine "1" (weaponEffect "B" "AVAILABLE"), metricsLine "2" []] := by
  have hlater : .blocked ∈ carried [metricsLine "1" (weaponEffect "B" "BLOCKED" ++ ascii "," ++
        weaponEffect "C" "AVAILABLE")] (ascii "A") (ascii "W") ∧
      (afterLines [metricsLine "1" (weaponEffect "B" "BLOCKED" ++ ascii "," ++ weaponEffect "C" "AVAILABLE")]).canOperate
        (ascii "A") (ascii "W") ≠ false := by
    unfold metricsLine weaponEffect
    repeat rw [ascii_ofList]
    decide +kernel
  have hgone : carried [metricsLine "1" (weaponEffect "B" "AVAILABLE"), metricsLine "2" []] (ascii "A") (ascii "W") = [] ∧
      (afterLines [metricsLine "1" (weaponEffect "B" "AVAILABLE"), metricsLine "2" []]).getState (ascii "A")
        (ascii "W") ≠ .blocked := by
    unfold metricsLine weaponEffect
    repeat rw [ascii_ofList]
    decide +kernel
  refine ⟨⟨hlater.1, fun h => ?_⟩, hgone.1, fun h => ?_⟩
  · exact absurd ((h (ascii "A") (ascii "W")).2.2 hlater.1) hlater.2
  · exact absurd ((h (ascii "A") (ascii "W")).1 hgone.1) hgone.2

end NetworkEffectGate

end AfsimNs3.Adapter
