import AfsimNs3.System.Mirror

/-!
# Rejected deltas

The service may answer a message with `ns3_error` and leave its store as it was; the adapter does not look at the
answer, its tracker has already taken the frame as the baseline. So the store may fall behind the baseline, and a
later accepted delta carries only what changed against the baseline.

* `accepted_delta_shows_iff`: in every reachable state, an accepted delta leaves the store equal to its frame exactly
  when every record on which the store deviates from the baseline is touched again by that frame;
* `Holds.repeats`: a store that has not fallen behind meets the condition;
* `rejected_change_stays_missing`: a rejected delta whose change is not repeated is lost.
-/

namespace AfsimNs3.System
open AfsimNs3.Bridge (StateStore StateSnapshot)
open AfsimNs3.Bridge.StateStore
open AfsimNs3.Adapter (Frame Submission Submitted StateDeltaTracker Indexed submitCurrentState)

inductive Outcome where
  | accepted
  | rejected
  | nothingSent
  deriving DecidableEq

/-- The service handles a submission. It may refuse a message for reasons outside the store (`refused`: a request
ID reused with other content, say); a text that is not JSON is always refused. -/
def handle (s : StateStore) (timestampMs : UInt64) (refused : Bool) : Submitted → StateStore × Outcome
  | .initial (some message) =>
    match s.initializeStore message.fields timestampMs.toNat with
    | .ok s' => if refused then (s, .rejected) else (s', .accepted)
    | .error _ => (s, .rejected)
  | .delta (some message) _ =>
    match s.applyDelta message.fields timestampMs.toNat with
    | .ok s' => if refused then (s, .rejected) else (s', .accepted)
    | .error _ => (s, .rejected)
  | .initial none => (s, .rejected)
  | .delta none _ => (s, .rejected)
  | .noChange => (s, .nothingSent)
  | .thrown _ => (s, .nothingSent)

/-- A call of `SubmitCurrentState` and the service's reaction to what it sends. -/
def exchange (state : StateDeltaTracker × StateStore) (call : Submission × Bool) :
    (StateDeltaTracker × StateStore) × Outcome :=
  let (t, out) := submitCurrentState state.1 call.1
  let (s, outcome) := handle state.2 call.1.timestampMs call.2 out
  ((t, s), outcome)

def exchangeStep (state : StateDeltaTracker × StateStore) (call : Submission × Bool) :
    Option (StateDeltaTracker × StateStore) :=
  some (exchange state call).1

/-- The store is what the frame shows. -/
def Shows (s : StateStore) (f : Frame) : Prop := ∃ t, Indexed f t ∧ Holds s t

/-- Every record on which the store deviates from the baseline appears, disappears or changes with the frame. -/
def Repeats (t : StateDeltaTracker) (s : StateStore) (f : Frame) : Prop := ∃ t', Indexed f t' ∧
  (∀ key, s.entities.get? key ≠ entityKind.table t.mEntities key →
    entityKind.touched t.mEntities t'.mEntities key = true) ∧
  ∀ key, s.flows.get? key ≠ flowKind.table t.mFlows key → flowKind.touched t.mFlows t'.mFlows key = true

/-! ## What a call does to the store -/

theorem handle_cases {s s' : StateStore} {ts : UInt64} {refused : Bool} {out : Submitted} {outcome : Outcome}
    (h : handle s ts refused out = (s', outcome)) :
    (s' = s ∧ outcome ≠ .accepted) ∨
      (outcome = .accepted ∧ ∃ message, out = .initial (some message) ∧
        s.initializeStore message.fields ts.toNat = .ok s') ∨
      (outcome = .accepted ∧ ∃ message resync, out = .delta (some message) resync ∧
        s.applyDelta message.fields ts.toNat = .ok s') := by
  unfold handle at h
  split at h
  · rename_i message
    split at h
    · rename_i hok
      split_ifs at h <;> cases h
      · exact Or.inl ⟨rfl, nofun⟩
      · exact Or.inr (Or.inl ⟨rfl, message, rfl, hok⟩)
    · cases h
      exact Or.inl ⟨rfl, nofun⟩
  · rename_i message resync
    split at h
    · rename_i hok
      split_ifs at h <;> cases h
      · exact Or.inl ⟨rfl, nofun⟩
      · exact Or.inr (Or.inr ⟨rfl, message, resync, rfl, hok⟩)
    · cases h
      exact Or.inl ⟨rfl, nofun⟩
  all_goals
    cases h
    exact Or.inl ⟨rfl, nofun⟩

theorem wired_of_written {α ρ : Type} {K : RecordKind α ρ} {records : Dict Str Fields} {values : List α}
    {js : List Json} {fromDict : Json → Except Bridge.PyError ρ} {idKey : Str}
    (hj : List.Forall₂ (fun a j => K.writer a = some j) values js)
    (h : indexRecords fromDict K.idOf idKey js = .ok records) : K.Wired records := by
  intro key o ho
  obtain ⟨j, hjmem, rfl, -⟩ := (indexRecords_get? h).mp ho
  have hsome : some j ∈ values.map K.writer := Option.forall₂_some_iff.mp hj ▸ List.mem_map_of_mem hjmem
  obtain ⟨a, -, hw⟩ := List.mem_map.mp hsome
  refine ⟨a, ?_⟩
  obtain rfl := K.writer_eq_some hw
  exact hw

theorem wired_empty {α ρ : Type} {K : RecordKind α ρ} : K.Wired Dict.empty := fun _ _ h => nomatch h

theorem submitCurrentState_initial {t t' : StateDeltaTracker} {sub : Submission} {message : Option Json}
    (h : submitCurrentState t sub = (t', .initial message)) :
    t.mInitialized = false ∧ message = sub.initMessage := by
  unfold submitCurrentState at h
  split_ifs at h with ht
  · unfold Adapter.submitInitial at h
    split at h <;> cases h
    exact ⟨by simpa using ht, rfl⟩
  · split at h
    · cases h
    · split_ifs at h
      · cases h
      · unfold Adapter.submitDelta at h
        split at h <;> cases h

/-- **One call** leaves only written records in the store. -/
theorem WiredStore.exchange {state state' : StateDeltaTracker × StateStore} {call : Submission × Bool}
    (hw : WiredStore state.2) (h : exchangeStep state call = some state') : WiredStore state'.2 := by
  obtain ⟨t, s⟩ := state
  obtain ⟨t', s'⟩ := state'
  cases hsub : submitCurrentState t call.1 with
  | mk t₁ out =>
    cases hhandle : handle s call.1.timestampMs call.2 out with
    | mk s₁ outcome =>
      simp only [exchangeStep, System.exchange, hsub, hhandle, Option.some.injEq, Prod.mk.injEq] at h
      obtain ⟨rfl, rfl⟩ := h
      rcases handle_cases hhandle with ⟨rfl, -⟩ | ⟨-, message, rfl, hok⟩ | ⟨-, message, resync, rfl, hok⟩
      · exact hw
      · obtain ⟨-, hm⟩ := submitCurrentState_initial hsub
        obtain ⟨js, ks, hj, hk, hjs, hks⟩ := initMessage_lists hm.symm
        obtain ⟨js', ks', entityMap, flowMap, hjs', hks', he, hf, -, rfl⟩ := initializeStore_ok_iff.mp hok
        cases hjs.symm.trans hjs'
        cases hks.symm.trans hks'
        exact ⟨wired_of_written hj he, wired_of_written hk hf⟩
      · obtain ⟨-, hi, hm⟩ := Adapter.indexed_of_delta hsub
        exact (delta_patches_store hi hm.symm hw hok).2.2

theorem run_wired {calls : List (Submission × Bool)} {state : StateDeltaTracker × StateStore}
    (h : Machine.run exchangeStep (StateDeltaTracker.new, new) calls = some state) : WiredStore state.2 :=
  Machine.run_invariant (fun state : StateDeltaTracker × StateStore => WiredStore state.2)
    (fun _ _ _ hs hstep => hs.exchange hstep) ⟨wired_empty, wired_empty⟩ h

/-! ## Accepted deltas -/

/-- **An accepted delta makes the store equal to its frame** exactly when the frame touches every record on which
the store has fallen behind the baseline; in every run of calls, whatever was rejected before. -/
theorem accepted_delta_shows_iff {calls : List (Submission × Bool)} {t : StateDeltaTracker} {s : StateStore}
    (h : Machine.run exchangeStep (StateDeltaTracker.new, new) calls = some (t, s)) (ht : t.mInitialized = true)
    {call : Submission × Bool} {t' : StateDeltaTracker} {s' : StateStore}
    (hcall : exchange (t, s) call = ((t', s'), .accepted)) :
    Shows s' call.1.frame ↔ Repeats t s call.1.frame := by
  cases hsub : submitCurrentState t call.1 with
  | mk t₁ out =>
    cases hhandle : handle s call.1.timestampMs call.2 out with
    | mk s₁ outcome =>
      simp only [exchange, hsub, hhandle, Prod.mk.injEq] at hcall
      obtain ⟨⟨rfl, rfl⟩, rfl⟩ := hcall
      rcases handle_cases hhandle with ⟨-, hne⟩ | ⟨-, message, rfl, -⟩ | ⟨-, message, resync, rfl, hok⟩
      · exact absurd rfl hne
      · cases ht.symm.trans (submitCurrentState_initial hsub).1
      · obtain ⟨-, hi, hm⟩ := Adapter.indexed_of_delta hsub
        obtain ⟨he, hf, -⟩ := delta_patches_store hi hm.symm (run_wired h) hok
        have hentities := entityKind.patch_eq_table_iff t.mEntities t₁.mEntities s.entities.get?
        have hflows := flowKind.patch_eq_table_iff t.mFlows t₁.mFlows s.flows.get?
        rw [← he] at hentities
        rw [← hf] at hflows
        constructor
        · rintro ⟨t₂, hi₂, hh⟩
          cases hi.unique hi₂
          exact ⟨t₁, hi, hentities.mp hh.entities, hflows.mp hh.flows⟩
        · rintro ⟨t₂, hi₂, hre, hrf⟩
          cases hi.unique hi₂
          exact ⟨t₁, hi, hentities.mpr hre, hflows.mpr hrf⟩

/-- A store that has not fallen behind stays equal to the frames it accepts. -/
theorem Holds.repeats {t t' : StateDeltaTracker} {s : StateStore} {f : Frame} (h : Holds s t) (hi : Indexed f t') :
    Repeats t s f :=
  ⟨t', hi, fun key hne => absurd (congrFun h.entities key) hne, fun key hne => absurd (congrFun h.flows key) hne⟩

/-- A frame that is refused, then the same entity elsewhere. -/
def movedAgain : List (Submission × Bool) := [
  (⟨str "r0", 0, [entityAt (str "A") 0], []⟩, false),
  (⟨str "r1", 1, [entityAt (str "A") 1], []⟩, true)]

theorem movedAgain_shows_iff : ∃ t s t' s' frame,
    Machine.run exchangeStep (StateDeltaTracker.new, new) movedAgain = some (t, s) ∧
      exchange (t, s) (⟨str "r2", 2, frame⟩, false) = ((t', s'), .accepted) ∧
      (Shows s' frame ↔ Repeats t s frame) := by
  let frame : Frame := ⟨[entityAt (str "A") 2], []⟩
  have hrun : ((Machine.run exchangeStep (StateDeltaTracker.new, new) movedAgain).map (fun state =>
      (state.1.mInitialized, (exchange state (⟨str "r2", 2, frame⟩, false)).2))) = some (true, .accepted) := by
    decide +kernel
  obtain ⟨⟨t, s⟩, hstate, hout⟩ := Option.map_eq_some_iff.mp hrun
  obtain ⟨ht, hout⟩ := Prod.mk.inj hout
  have hcall : exchange (t, s) (⟨str "r2", 2, frame⟩, false) =
      (((exchange (t, s) (⟨str "r2", 2, frame⟩, false)).1.1, (exchange (t, s) (⟨str "r2", 2, frame⟩, false)).1.2),
        .accepted) := by
    rw [← hout]
  exact ⟨t, s, _, _, frame, hstate, hcall, accepted_delta_shows_iff hstate ht hcall⟩

/-- The second frame moves the entity and observes a flow to an entity it does not show; the third no longer has
the flow. -/
def danglingFlow : List (Submission × Bool) := [
  (⟨str "r0", 0, [entityAt (str "A") 0], []⟩, false),
  (⟨str "r1", 1, [entityAt (str "A") 1], [flowBetween (str "F") (str "A") (str "B")]⟩, false)]

/-- **A rejected change stays missing**: the third delta is accepted, the entity stays where it was at first. -/
theorem rejected_change_stays_missing :
    ∃ t s t' s' snap f snap',
      Machine.run exchangeStep (StateDeltaTracker.new, new) danglingFlow = some (t, s) ∧
      exchange (t, s) (⟨str "r2", 2, [entityAt (str "A") 1], []⟩, false) = ((t', s'), .accepted) ∧
      s'.snapshot = .ok snap ∧ fresh ⟨str "r2", 2, [entityAt (str "A") 1], []⟩ = some f ∧ f.snapshot = .ok snap' ∧
      snap.entities ≠ snap'.entities := by
  let call : Submission × Bool := (⟨str "r2", 2, [entityAt (str "A") 1], []⟩, false)
  let xs (snap : StateSnapshot) : List ℚ := snap.entities.map (fun e => e.position.xM)
  have hrun : ((Machine.run exchangeStep (StateDeltaTracker.new, new) danglingFlow).bind (fun state =>
      (exchange state call).1.2.snapshot.toOption.map (fun snap => ((exchange state call).2, xs snap)))) =
        some (.accepted, [0]) := by
    decide +kernel
  have hfresh : ((fresh call.1).bind (fun f => f.snapshot.toOption.map xs)) = some [1] := by decide +kernel
  obtain ⟨⟨t, s⟩, hstate, hsnap⟩ := Option.bind_eq_some_iff.mp hrun
  obtain ⟨snap, hsnap, hout⟩ := Option.map_eq_some_iff.mp hsnap
  obtain ⟨f, hf, hsnap'⟩ := Option.bind_eq_some_iff.mp hfresh
  obtain ⟨snap', hsnap', hx'⟩ := Option.map_eq_some_iff.mp hsnap'
  obtain ⟨hout, hx⟩ := Prod.mk.inj hout
  refine ⟨t, s, (exchange (t, s) call).1.1, (exchange (t, s) call).1.2, snap, f, snap', hstate, ?_,
    toOption_eq_some_iff.mp hsnap, hf, toOption_eq_some_iff.mp hsnap', fun heq => ?_⟩
  · rw [← hout]
  · have hmap : xs snap = xs snap' := congrArg (List.map fun e => e.position.xM) heq
    rw [hx, hx'] at hmap
    exact absurd hmap (by decide +kernel)

end AfsimNs3.System
