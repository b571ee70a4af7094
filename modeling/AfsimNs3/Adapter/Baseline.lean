import AfsimNs3.Adapter.Controller
import AfsimNs3.Lib.Trace

/-!
# The baseline after a failed submission

The calls of the simulation on one controller, normal or throwing, with a ghost: the frame most recently handed to
the client. `Update` indexes both lists before it assigns either map; `Reset` assigns the entities first, so a frame
whose flows cannot be indexed leaves its entities in the tracker without being queued.

* `perform_kept_iff`: one call keeps the baseline at the queued frame exactly when it is `Clean`;
* `SameMaps.carries`: from a baseline at the queued frame, the next delta carries every change since.
-/

namespace AfsimNs3.Adapter
open Trace

/-- A submission by the simulation. -/
inductive SubmitCall where
  | initial (s : Submission)
  | currentState (s : Submission)
  | delta (s : Submission) (delta : DeltaState)

namespace SubmitCall

def frame : SubmitCall → Frame
  | initial s | currentState s | delta s _ => s.frame

def submit (t : StateDeltaTracker) : SubmitCall → StateDeltaTracker × Submitted
  | initial s => submitInitial t s
  | currentState s => submitCurrentState t s
  | delta s changes => submitDelta t s changes

/-- The call runs `Reset` on a frame that was not indexed before. -/
def resets (t : StateDeltaTracker) : SubmitCall → Bool
  | initial _ | delta _ _ => true
  | currentState _ => !t.mInitialized

/-- Where `Reset` fails on the flows, the entities it has assigned by then are the ones it had. -/
def Clean (t : StateDeltaTracker) (call : SubmitCall) : Prop :=
  call.resets t = true → ∀ es what, index EntityState.entityId call.frame.entities = .ok es →
    index FlowConfig.flowId call.frame.flows = .error what → Dict.Same es t.mEntities

end SubmitCall

/-- The frame most recently handed to the client, after a call on a frame. -/
def Submitted.lastQueued (frame before : Frame) : Submitted → Frame
  | .initial _ | .delta _ _ => frame
  | .noChange | .thrown _ => before

/-- The tracker, with the frame most recently handed to the client. -/
structure Submitting where
  tracker : StateDeltaTracker
  queued : Frame

namespace Submitting

def start : Submitting := ⟨StateDeltaTracker.new, ⟨[], []⟩⟩

def perform (s : Submitting) (call : SubmitCall) : Submitting :=
  let r := call.submit s.tracker
  ⟨r.1, r.2.lastQueued call.frame s.queued⟩

end Submitting

/-- The records that are new or changed are upserts, the IDs that are gone are removals. -/
structure Covers {α : Type} (idGetter : α → Str) (before after : List α) (upserts : List α) (removals : List Str) :
    Prop where
  upserted : ∀ a ∈ after, a ∉ before → a ∈ upserts
  removed : ∀ a ∈ before, (∀ b ∈ after, idGetter b ≠ idGetter a) → idGetter a ∈ removals

/-- The delta contains every change from one frame to the other. -/
structure Carries (before after : Frame) (delta : DeltaState) : Prop where
  entities : Covers EntityState.entityId before.entities after.entities delta.entityUpserts delta.entityRemovals
  flows : Covers FlowConfig.flowId before.flows after.flows delta.flowUpserts delta.flowRemovals

/-- The tracker's maps are those of the frame, which can be indexed. -/
def SameMaps (f : Frame) (t : StateDeltaTracker) : Prop :=
  ∃ b, Indexed f b ∧ Dict.Same t.mEntities b.mEntities ∧ Dict.Same t.mFlows b.mFlows

/-- The baseline is the queued frame, and the next delta contains every change not yet queued. -/
structure AtQueued (s : Submitting) : Prop where
  baseline : SameMaps s.queued s.tracker
  next : ∀ (f : Frame) (t : StateDeltaTracker) (delta : DeltaState),
    s.tracker.update f.entities f.flows = .ok (t, delta) → Carries s.queued f delta

/-! ## The next delta -/

theorem Covers.of_maps {α : Type} {idGetter : α → Str} {same : α → α → Bool}
    (hsound : ∀ a b, same a b = true → a = b) {before after : List α} {b old current : Dict Str α}
    (hb : index idGetter before = .ok b) (hsame : Dict.Same old b) (hc : index idGetter after = .ok current) :
    Covers idGetter before after (StateDeltaTracker.upserts same old current)
      (StateDeltaTracker.removals old current) := by
  constructor
  · intro a ha hnew
    have hcurrent : current.get? (idGetter a) = some a := (index_get? hc).mpr ⟨ha, rfl⟩
    refine List.mem_map.mpr ⟨(idGetter a, a), List.mem_filter.mpr ⟨Dict.mem_sorted.mpr hcurrent, ?_⟩, rfl⟩
    dsimp only
    cases ho : old.get? (idGetter a) with
    | none => rfl
    | some value =>
      -- a record that compares the same would be the queued one
      have hvalue : value ∈ before := ((index_get? hb).mp ((hsame _).symm.trans ho)).1
      have hne : ¬ same value a = true := fun h => hnew (hsound value a h ▸ hvalue)
      simpa using hne
  · intro a ha hgone
    have hold : old.get? (idGetter a) = some a := (hsame _).trans ((index_get? hb).mpr ⟨ha, rfl⟩)
    have hnone : current.get? (idGetter a) = none := by
      rw [Option.eq_none_iff_forall_ne_some]
      intro c hget
      obtain ⟨hmem, hid⟩ := (index_get? hc).mp hget
      exact hgone c hmem hid
    refine List.mem_map.mpr ⟨(idGetter a, a), List.mem_filter.mpr ⟨Dict.mem_sorted.mpr hold, ?_⟩, rfl⟩
    simp [Dict.contains, hnone]

/-- **From a baseline at a frame, a delta carries every change since that frame.** -/
theorem SameMaps.carries {before after : Frame} {t t' : StateDeltaTracker} {delta : DeltaState}
    (h : SameMaps before t) (hu : t.update after.entities after.flows = .ok (t', delta)) :
    Carries before after delta := by
  obtain ⟨b, hb, he, hf⟩ := h
  obtain ⟨hi, rfl⟩ := update_ok_iff.mp hu
  exact ⟨Covers.of_maps entitySame_sound hb.entities he hi.entities,
    Covers.of_maps flowSame_sound hb.flows hf hi.flows⟩

theorem AtQueued.of_sameMaps {s : Submitting} (h : SameMaps s.queued s.tracker) : AtQueued s :=
  ⟨h, fun _ _ _ hu => h.carries hu⟩

/-! ## One call -/

theorem SameMaps.of_indexed {f : Frame} {t : StateDeltaTracker} (h : Indexed f t) : SameMaps f t :=
  ⟨t, h, fun _ => rfl, fun _ => rfl⟩

theorem sameMaps_start : SameMaps Submitting.start.queued Submitting.start.tracker :=
  ⟨⟨Dict.empty, Dict.empty, true⟩, ⟨rfl, rfl, rfl⟩, fun _ => rfl, fun _ => rfl⟩

/-- What `Reset` does: it fails on the entities, or on the flows, or takes the frame. -/
theorem reset_cases (t : StateDeltaTracker) (f : Frame) :
    (∃ what, index EntityState.entityId f.entities = .error what ∧ t.reset f.entities f.flows = (t, some what)) ∨
    (∃ es what, index EntityState.entityId f.entities = .ok es ∧ index FlowConfig.flowId f.flows = .error what ∧
      t.reset f.entities f.flows = (⟨es, t.mFlows, t.mInitialized⟩, some what)) ∨
    ∃ t', Indexed f t' ∧ t.reset f.entities f.flows = (t', none) := by
  cases he : index EntityState.entityId f.entities with
  | error what => exact .inl ⟨what, rfl, by simp [StateDeltaTracker.reset, he]⟩
  | ok es =>
    cases hf : index FlowConfig.flowId f.flows with
    | error what => exact .inr (.inl ⟨es, what, rfl, rfl, by simp [StateDeltaTracker.reset, he, hf]⟩)
    | ok fs => exact .inr (.inr ⟨⟨es, fs, true⟩, ⟨he, hf, rfl⟩, reset_of_indexed ⟨he, hf, rfl⟩⟩)

/-- A call that runs `Reset` first throws what it throws, or hands its frame to the client. -/
theorem perform_of_resets {s : Submitting} {call : SubmitCall} (h : call.resets s.tracker = true)
    {t : StateDeltaTracker} {failure : Option Str}
    (hreset : s.tracker.reset call.frame.entities call.frame.flows = (t, failure)) :
    s.perform call = ⟨t, if failure = none then call.frame else s.queued⟩ := by
  cases call with
  | initial sub =>
    simp only [SubmitCall.frame] at hreset
    cases failure <;> simp [Submitting.perform, SubmitCall.submit, submitInitial, hreset, Submitted.lastQueued]
  | currentState sub =>
    have hnew : s.tracker.mInitialized = false := by simpa [SubmitCall.resets] using h
    simp only [SubmitCall.frame] at hreset
    cases failure <;> simp [Submitting.perform, SubmitCall.submit, submitCurrentState, submitInitial, hnew, hreset,
      Submitted.lastQueued]
  | delta sub changes =>
    simp only [SubmitCall.frame] at hreset
    cases failure <;> simp [Submitting.perform, SubmitCall.submit, submitDelta, hreset, Submitted.lastQueued]

/-- `SubmitCurrentState` after the first frame indexes both lists before it assigns either map. -/
theorem perform_currentState {s : Submitting} (hs : SameMaps s.queued s.tracker) {sub : Submission}
    (hi : s.tracker.mInitialized = true) :
    SameMaps (s.perform (.currentState sub)).queued (s.perform (.currentState sub)).tracker := by
  cases hu : s.tracker.update sub.frame.entities sub.frame.flows with
  | error what =>
    have hkept : s.perform (.currentState sub) = s := by
      simp [Submitting.perform, SubmitCall.submit, submitCurrentState, hi, hu, Submitted.lastQueued]
    rwa [hkept]
  | ok p =>
    obtain ⟨t, delta⟩ := p
    obtain ⟨hindexed, -⟩ := update_ok_iff.mp hu
    simp only [Submitting.perform, SubmitCall.submit, SubmitCall.frame, submitCurrentState_of_indexed hi hindexed]
    split_ifs with hempty
    · -- nothing changed: the frame differs in nothing from the queued one
      obtain ⟨b, hb, he, hf⟩ := hs
      obtain ⟨he', hf'⟩ := same_of_empty hempty
      exact ⟨b, hb, fun key => (he' key).symm.trans (he key), fun key => (hf' key).symm.trans (hf key)⟩
    · exact SameMaps.of_indexed hindexed

/-- **One call keeps the baseline at the queued frame exactly when it is clean.** -/
theorem perform_kept_iff {s : Submitting} (hs : SameMaps s.queued s.tracker) (call : SubmitCall) :
    SameMaps (s.perform call).queued (s.perform call).tracker ↔ call.Clean s.tracker := by
  unfold SubmitCall.Clean
  by_cases hr : call.resets s.tracker = true
  · simp only [hr, true_imp_iff]
    rcases reset_cases s.tracker call.frame with ⟨what, he, h⟩ | ⟨es, what, he, hf, h⟩ | ⟨t, ht, h⟩
    · simpa [perform_of_resets hr h, he] using hs
    · obtain ⟨b, hb, hbe, hbf⟩ := hs
      simp only [perform_of_resets hr h, reduceCtorEq, if_false]
      constructor
      · rintro ⟨b', hb', hbe', -⟩ es' what' he' -
        obtain rfl := hb.unique hb'
        obtain rfl := Except.ok.inj (he.symm.trans he')
        exact fun key => (hbe' key).trans (hbe key).symm
      · intro hsame
        exact ⟨b, hb, fun key => (hsame es what he hf key).trans (hbe key), hbf⟩
    · simp only [perform_of_resets hr h, if_true, ht.flows, reduceCtorEq, false_imp_iff, implies_true, iff_true]
      exact SameMaps.of_indexed ht
  · simp only [hr, Bool.false_eq_true, false_imp_iff, iff_true]
    cases call with
    | initial sub => simp [SubmitCall.resets] at hr
    | delta sub changes => simp [SubmitCall.resets] at hr
    | currentState sub => exact perform_currentState hs (by simpa [SubmitCall.resets] using hr)

/-! ## Every run -/

/-- **The baseline stays at the queued frame through a run of calls exactly when every call is clean.** -/
theorem baseline_at_queued_iff (calls : List SubmitCall) :
    (∀ i ≤ calls.length, AtQueued (stateAt Submitting.perform Submitting.start calls i)) ↔
      ∀ (i : ℕ) (call : SubmitCall), calls[i]? = some call →
        call.Clean (stateAt Submitting.perform Submitting.start calls i).tracker := by
  constructor
  · intro hall i call hcall
    have hi : i < calls.length := (List.getElem?_eq_some_iff.mp hcall).1
    have hnext := (hall (i + 1) hi).baseline
    rw [stateAt_succ hcall] at hnext
    exact (perform_kept_iff (hall i hi.le).baseline call).mp hnext
  · intro hclean i hi
    refine AtQueued.of_sameMaps ?_
    exact stateAt_induction (P := fun _ (s : Submitting) => SameMaps s.queued s.tracker) sameMaps_start
      (fun j call hcall hs => (perform_kept_iff hs call).mpr (hclean j call hcall)) hi

/-! ## A run that loses a change -/

/-- A platform on the x axis. -/
def platformAt (x : ℚ) : EntityState where
  entityId := str "1"
  businessNodeId := str "1"
  parentEntityId := []
  hasParent := false
  position := ⟨.finite x, .finite 0, .finite 0⟩
  velocity := ⟨.finite 0, .finite 0, .finite 0⟩
  headingDeg := .finite 0
  alive := true
  devices := []
  effectPolicies := []

def loopFlow : FlowConfig := ⟨str "F", str "1", str "1", 64, 1, 100, true⟩

/-- The platform moves in a frame that lists a flow twice. -/
def failedMove : List SubmitCall := [
  .initial ⟨str "r0", 0, [platformAt 0], []⟩,
  .delta ⟨str "r1", 1, [platformAt 1], [loopFlow, loopFlow]⟩ ⟨[platformAt 1], [], [loopFlow, loopFlow], []⟩]

/-- The failed call leaves the moved platform in the tracker, and the next delta does not contain the move. -/
theorem failedMove_not_at_queued :
    ¬ ∀ (calls : List SubmitCall) (i : ℕ), i ≤ calls.length →
      AtQueued (stateAt Submitting.perform Submitting.start calls i) := by
  intro hall
  obtain ⟨b, hb, he, -⟩ := (hall failedMove 2 (by decide)).baseline
  have hheld : (stateAt Submitting.perform Submitting.start failedMove 2).tracker.mEntities.get? (str "1") =
      some (platformAt 1) := rfl
  have hframe : (stateAt Submitting.perform Submitting.start failedMove 2).queued = ⟨[platformAt 0], []⟩ := rfl
  rw [hframe] at hb
  have hqueued : b.mEntities.get? (str "1") = some (platformAt 0) :=
    (index_get? hb.entities).mpr ⟨List.mem_singleton.mpr rfl, rfl⟩
  have heq := congrArg (fun e => e.map fun a => a.position.xM) (hheld.symm.trans ((he (str "1")).trans hqueued))
  simp [platformAt] at heq

end AfsimNs3.Adapter
