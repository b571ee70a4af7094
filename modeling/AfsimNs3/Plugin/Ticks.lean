import AfsimNs3.Adapter.Controller
import AfsimNs3.Plugin.Flows

/-!
# Ticks (`Tick`)

A tick collects the state and hands it to the controller, under the next request ID of the run and with the time of
the simulation in milliseconds. The effects it applies first are only logged (`ApplyNetworkEffect`) and, as the log,
left out.

* `submissions_requestIds`: the request IDs of a run are numbered from one on;
* `timestampMs_mono`: later ticks have later timestamps.
-/

namespace AfsimNs3.Plugin
open AfsimNs3.Adapter (Submission)
open SimulationExtension (Event)

/-- `static_cast<std::uint64_t>`, for a number that the type holds. -/
def truncated : Double → UInt64
  | .finite q => UInt64.ofNat ⌊q⌋.toNat
  | _ => 0

/-- The time of a tick in milliseconds. -/
def timestampMs (simTime : ℚ) : UInt64 := truncated ((Double.finite simTime).nonnegative.scale 1000)

/-- The extension with the number of its last tick. -/
structure Ticking where
  extension : SimulationExtension
  mTick : UInt64

namespace Ticking
section
variable (wsf : Wsf) (config : RuntimeConfig) (mRunId : Str)

def new : Ticking := ⟨SimulationExtension.new config, 0⟩

def step (s : Ticking) : Event → Ticking
  | .callback c => { s with extension := s.extension.step wsf config (.callback c) }
  | .tick scene => ⟨s.extension.step wsf config (.tick scene), s.mTick + 1⟩

def requestId (n : ℕ) : Str := mRunId ++ str "-" ++ toText n

/-- `Tick`: what is handed to the controller. -/
def tick (s : Ticking) (scene : Scene) : Submission where
  requestId := requestId mRunId (s.mTick + 1).toNat
  timestampMs := timestampMs scene.simTime
  frame := (s.extension.collectState wsf config scene).2

def submits (s : Ticking) : Event → List Submission
  | .callback _ => []
  | .tick scene => [s.tick wsf config mRunId scene]

/-- What the ticks of a run hand to the controller. -/
def submissions (events : List Event) : List Submission :=
  Trace.emitted (step wsf config) (submits wsf config mRunId) (new config) events

end

variable {wsf : Wsf} {config : RuntimeConfig} {mRunId : Str}

def scene? : Event → Option Scene
  | .callback _ => none
  | .tick scene => some scene

/-- The ticks of a run. -/
def scenes (events : List Event) : List Scene := events.filterMap scene?

theorem foldl_extension (events : List Event) (s : Ticking) :
    (events.foldl (step wsf config) s).extension = events.foldl (SimulationExtension.step wsf config) s.extension := by
  induction events generalizing s with
  | nil => rfl
  | cons e events ih =>
    refine (ih (s.step wsf config e)).trans (congrArg (fun extension => events.foldl _ extension) ?_)
    cases e <;> rfl

/-- **Where a submission comes from**: a tick of the run, with the extension as the events before left it. -/
theorem tick_of_mem {events : List Event} {sub : Submission} (h : sub ∈ submissions wsf config mRunId events) :
    ∃ earlier scene later, events = earlier ++ .tick scene :: later ∧ sub.timestampMs = timestampMs scene.simTime ∧
      sub.frame = ((SimulationExtension.run wsf config earlier).collectState wsf config scene).2 := by
  obtain ⟨earlier, e, later, hsplit, hsub⟩ := Trace.mem_emitted h
  cases e with
  | callback c => exact absurd hsub List.not_mem_nil
  | tick scene =>
    obtain rfl := List.mem_singleton.mp hsub
    refine ⟨earlier, scene, later, hsplit, rfl, ?_⟩
    show ((earlier.foldl (step wsf config) (new config)).extension.collectState wsf config scene).2 = _
    rw [foldl_extension]
    rfl

theorem submissions_timestamps (events : List Event) :
    (submissions wsf config mRunId events).map Submission.timestampMs =
      (scenes events).map fun scene => timestampMs scene.simTime := by
  have hmap : (submissions wsf config mRunId events).map Submission.timestampMs =
      events.flatMap fun e => (scene? e).toList.map fun scene => timestampMs scene.simTime :=
    Trace.map_emitted (fun s e => by cases e <;> rfl) _ _
  rw [hmap, scenes, List.filterMap_eq_flatMap_toList, List.map_flatMap]

/-! ## Request IDs -/

/-- The IDs that are given from a number on. -/
theorem requestIds_from (events : List Event) (s : Ticking) (h : s.mTick.toNat + (scenes events).length < 2 ^ 64) :
    (Trace.emitted (step wsf config) (submits wsf config mRunId) s events).map Submission.requestId =
      (List.range' (s.mTick.toNat + 1) (scenes events).length).map (requestId mRunId) := by
  induction events generalizing s with
  | nil => rfl
  | cons e events ih =>
    cases e with
    | callback c => exact ih _ h
    | tick scene =>
      have hscenes : scenes (.tick scene :: events) = scene :: scenes events := rfl
      rw [hscenes, List.length_cons] at h ⊢
      have hnext : (s.mTick + 1).toNat = s.mTick.toNat + 1 := by
        rw [UInt64.toNat_add]
        exact Nat.mod_eq_of_lt (show s.mTick.toNat + 1 < 2 ^ 64 by omega)
      show requestId mRunId (s.mTick + 1).toNat :: (Trace.emitted _ _ (s.step wsf config (.tick scene)) events).map _ = _
      have hmTick : (s.step wsf config (.tick scene)).mTick.toNat = s.mTick.toNat + 1 := hnext
      rw [ih _ (by omega), hmTick, hnext, List.range'_succ, List.map_cons]

theorem toText_injective {m n : ℕ} (h : toText m = toText n) : m = n := by
  rw [toText_eq, toText_eq] at h
  rw [← Loads.digitsValue_natText m, h, Loads.digitsValue_natText]

/-- **The request IDs of a run** are numbered from one on, so that no two of them are the same. -/
theorem submissions_requestIds {events : List Event} (h : events.length < 2 ^ 64) :
    ((submissions wsf config mRunId events).map Submission.requestId).Nodup := by
  have hlen : (scenes events).length ≤ events.length := List.length_filterMap_le _ _
  have hids := @requestIds_from wsf config mRunId events (new config)
    (show 0 + (scenes events).length < 2 ^ 64 by omega)
  unfold submissions
  rw [hids]
  refine List.Nodup.map (fun m n heq => ?_) List.nodup_range'
  exact toText_injective (List.append_cancel_left heq)

end Ticking

/-! ## Timestamps -/

/-- A time within the first `2 ^ 31` seconds has its milliseconds. -/
theorem timestampMs_eq {time : ℚ} (h : time ≤ ((2 ^ 31 : ℕ) : ℚ)) :
    (timestampMs time).toNat = ⌊Double.roundDigits 2 53 (-1074) (max 0 time * 1000)⌋.toNat := by
  have hnonneg : (0 : ℚ) ≤ max 0 time * 1000 := mul_nonneg (le_max_left _ _) (by norm_num)
  have hle : max 0 time * 1000 ≤ ((2 ^ 41 : ℕ) : ℚ) := by
    have hmax : max 0 time ≤ ((2 ^ 31 : ℕ) : ℚ) := max_le (Nat.cast_nonneg _) h
    push_cast at hmax ⊢
    linarith
  obtain ⟨q, hq, hlow, hhigh⟩ := Double.ofRat_within hnonneg hle (by norm_num)
  have hround : Double.roundDigits 2 53 (-1074) (max 0 time * 1000) = q := by
    unfold Double.ofRat at hq
    dsimp only at hq
    split_ifs at hq
    exact Double.finite.inj hq
  have hmax : (Double.finite time).nonnegative = .finite (max 0 time) := by
    unfold Double.nonnegative
    split_ifs with hpos
    · rw [max_eq_right (of_decide_eq_true hpos).le]
    · rw [max_eq_left (not_lt.mp fun hlt => hpos (decide_eq_true hlt))]
  have hscale : (Double.finite time).nonnegative.scale 1000 = .finite q := by
    rw [hmax]
    exact hq
  unfold timestampMs
  rw [hscale, hround]
  have hfloor : ⌊q⌋ ≤ ((2 ^ 41 : ℕ) : ℤ) := Int.floor_le_iff.mpr (by
    push_cast at hhigh ⊢
    linarith)
  exact UInt64.toNat_ofNat_of_lt' (show ⌊q⌋.toNat < 2 ^ 64 by omega)

/-- **Later ticks have later timestamps.** -/
theorem timestampMs_mono {time time' : ℚ} (hle : time ≤ time') (h : time' ≤ ((2 ^ 31 : ℕ) : ℚ)) :
    timestampMs time ≤ timestampMs time' := by
  rw [UInt64.le_iff_toNat_le, timestampMs_eq (hle.trans h), timestampMs_eq h]
  refine Int.toNat_le_toNat (Int.floor_le_floor ?_)
  refine Double.roundDigits_mono (by norm_num) (by norm_num) (mul_nonneg (le_max_left _ _) (by norm_num)) ?_
  exact mul_le_mul_of_nonneg_right (max_le_max_left 0 hle) (by norm_num)

end AfsimNs3.Plugin
