import AfsimNs3.Adapter.DeltaTracker

/-!
# Submitting frames (`AfsimBridgeController`)

`submitCurrentState` turns the frame of a tick into what is handed to the client: a full snapshot on the first
frame, afterwards a delta together with the full snapshot to fall back on, or nothing when nothing changed. The
tracker takes the frame as its baseline at once; no reply of the service reaches it.
-/

namespace AfsimNs3.Adapter

/-- What the simulation shows at one tick. -/
structure Frame where
  entities : List EntityState
  flows : List FlowConfig

/-- The arguments of a call of `SubmitCurrentState`. -/
structure Submission where
  requestId : Str
  timestampMs : UInt64
  frame : Frame

def Submission.initMessage (s : Submission) : Option Json :=
  buildInitMessage s.requestId s.timestampMs s.frame.entities s.frame.flows

def Submission.resyncMessage (s : Submission) : Option Json :=
  buildInitMessage (s.requestId ++ str "-resync") s.timestampMs s.frame.entities s.frame.flows

/-- What a call hands to the client, or the exception it ends in. -/
inductive Submitted where
  | initial (message : Option Json)
  | noChange
  | delta (message resync : Option Json)
  | thrown (what : Str)

def submitInitial (t : StateDeltaTracker) (s : Submission) : StateDeltaTracker × Submitted :=
  match t.reset s.frame.entities s.frame.flows with
  | (t, some what) => (t, .thrown what)
  | (t, none) => (t, .initial s.initMessage)

/-- `SubmitDelta`. The tracker is reset to the frame it already took as its baseline. -/
def submitDelta (t : StateDeltaTracker) (s : Submission) (delta : DeltaState) : StateDeltaTracker × Submitted :=
  match t.reset s.frame.entities s.frame.flows with
  | (t, some what) => (t, .thrown what)
  | (t, none) => (t, .delta (buildDeltaMessage s.requestId s.timestampMs delta) s.resyncMessage)

def submitCurrentState (t : StateDeltaTracker) (s : Submission) : StateDeltaTracker × Submitted :=
  if !t.mInitialized then submitInitial t s
  else
    match t.update s.frame.entities s.frame.flows with
    | .error what => (t, .thrown what)
    | .ok (t, delta) => if delta.empty then (t, .noChange) else submitDelta t s delta

/-! ## What a call does -/

section Index
variable {α : Type} {idGetter : α → Str} {values : List α} {indexed : Dict Str α}

theorem indexValue_ok_iff {value : α} {indexed' : Dict Str α} : indexValue idGetter indexed value = .ok indexed' ↔
    idGetter value ≠ [] ∧ idGetter value ∉ indexed.keys ∧ indexed' = indexed.put (idGetter value) value := by
  unfold indexValue
  rw [← Dict.contains_iff]
  split_ifs with h
  · simp only [false_iff]
    tauto
  · rw [not_or] at h
    simp [h, eq_comm]

/-- The index holds the values under their IDs, which are not empty. -/
theorem index_get? (h : index idGetter values = .ok indexed) {key : Str} {value : α} :
    indexed.get? key = some value ↔ value ∈ values ∧ idGetter value = key := by
  have hall := Except.foldlM_ok
    (fun done (d : Dict Str α) => ∀ key value, d.get? key = some value ↔ value ∈ done ∧ idGetter value = key)
    (fun done d v d' hinv hd key value => by
      obtain ⟨-, hnew, rfl⟩ := indexValue_ok_iff.mp hd
      rw [Dict.get?_put, List.mem_append, List.mem_singleton, or_and_right, ← hinv]
      split_ifs with hkey
      · subst hkey
        rw [Dict.get?_eq_none_iff.mpr hnew]
        simp only [Option.some.injEq, reduceCtorEq, false_or]
        exact ⟨fun h => h ▸ ⟨rfl, rfl⟩, fun h => h.1.symm⟩
      · constructor
        · exact Or.inl
        · rintro (h | ⟨rfl, rfl⟩)
          · exact h
          · exact absurd rfl hkey)
    (fun _ _ => by simp) h
  exact hall key value

theorem index_ne_nil (h : index idGetter values = .ok indexed) : ∀ value ∈ values, idGetter value ≠ [] := by
  have hall := Except.foldlM_ok
    (fun done (_ : Dict Str α) => ∀ value ∈ done, idGetter value ≠ [])
    (fun done d v d' hinv hd => List.forall_mem_append.mpr
      ⟨hinv, List.forall_mem_singleton.mpr (indexValue_ok_iff.mp hd).1⟩) (List.forall_mem_nil _) h
  exact hall

/-- `Index` succeeds on distinct IDs none of which is empty. -/
theorem index_ok (hn : (values.map idGetter).Nodup) (hne : ∀ value ∈ values, idGetter value ≠ []) :
    ∃ indexed, index idGetter values = .ok indexed := by
  have hall : ∀ (values : List α) (d : Dict Str α), (values.map idGetter).Nodup →
      (∀ value ∈ values, idGetter value ≠ []) → (∀ value ∈ values, idGetter value ∉ d.keys) →
      ∃ d', values.foldlM (indexValue idGetter) d = .ok d' := by
    intro values
    induction values with
    | nil => exact fun d _ _ _ => ⟨d, rfl⟩
    | cons v vs ih =>
      intro d hn hne hnew
      rw [List.map_cons, List.nodup_cons] at hn
      rw [List.forall_mem_cons] at hne hnew
      have hstep := indexValue_ok_iff.mpr ⟨hne.1, hnew.1, rfl⟩
      obtain ⟨d', hd'⟩ := ih (d.put (idGetter v) v) hn.2 hne.2 fun value hvalue => by
        rw [Dict.mem_keys_put, not_or]
        exact ⟨fun heq => hn.1 (heq ▸ List.mem_map_of_mem hvalue), hnew.2 value hvalue⟩
      exact ⟨d', Except.foldlM_cons_ok_iff.mpr ⟨_, hstep, hd'⟩⟩
  exact hall values Dict.empty hn hne fun _ _ => List.not_mem_nil

end Index

/-- The two maps of a frame. -/
structure Indexed (f : Frame) (t : StateDeltaTracker) : Prop where
  entities : index EntityState.entityId f.entities = .ok t.mEntities
  flows : index FlowConfig.flowId f.flows = .ok t.mFlows
  initialized : t.mInitialized = true

theorem Indexed.unique {f : Frame} {t t' : StateDeltaTracker} (h : Indexed f t) (h' : Indexed f t') : t = t' := by
  obtain ⟨he, hf, hi⟩ := h
  obtain ⟨he', hf', hi'⟩ := h'
  cases t
  cases t'
  cases he.symm.trans he'
  cases hf.symm.trans hf'
  cases hi.trans hi'.symm
  rfl

theorem reset_of_indexed {f : Frame} {t t₀ : StateDeltaTracker} (h : Indexed f t) :
    t₀.reset f.entities f.flows = (t, none) := by
  obtain ⟨he, hf, hi⟩ := h
  rw [StateDeltaTracker.reset, he, hf]
  cases t
  cases hi
  rfl

/-- The delta of a frame against the baseline. -/
def StateDeltaTracker.deltaTo (t t' : StateDeltaTracker) : DeltaState where
  entityUpserts := upserts EntityState.same t.mEntities t'.mEntities
  entityRemovals := removals t.mEntities t'.mEntities
  flowUpserts := upserts FlowConfig.same t.mFlows t'.mFlows
  flowRemovals := removals t.mFlows t'.mFlows

/-- Nothing to send about a kind of record: the two maps hold the same records. -/
theorem same_of_unchanged {α : Type} {same : α → α → Bool} (hsound : ∀ a b, same a b = true → a = b)
    {old current : Dict Str α} (hu : StateDeltaTracker.upserts same old current = [])
    (hr : StateDeltaTracker.removals old current = []) : Dict.Same old current := by
  simp only [StateDeltaTracker.upserts, StateDeltaTracker.removals, List.map_eq_nil_iff, List.filter_eq_nil_iff] at hu hr
  intro key
  cases hc : current.get? key with
  | none =>
    cases ho : old.get? key with
    | none => rfl
    | some a =>
      have hgone := hr (key, a) (Dict.mem_sorted.mpr ho)
      simp [Dict.contains, hc] at hgone
  | some b =>
    have hkept := hu (key, b) (Dict.mem_sorted.mpr hc)
    cases ho : old.get? key with
    | none => simp [ho] at hkept
    | some a => rw [hsound a b (by simpa [ho] using hkept)]

/-- An empty delta is between two baselines that hold the same. -/
theorem same_of_empty {t t' : StateDeltaTracker} (hempty : (t.deltaTo t').empty = true) :
    Dict.Same t.mEntities t'.mEntities ∧ Dict.Same t.mFlows t'.mFlows := by
  simp only [DeltaState.empty, StateDeltaTracker.deltaTo, Bool.and_eq_true, List.isEmpty_iff] at hempty
  exact ⟨same_of_unchanged entitySame_sound hempty.1.1.1 hempty.1.1.2,
    same_of_unchanged flowSame_sound hempty.1.2 hempty.2⟩

theorem update_ok_iff {f : Frame} {t t' : StateDeltaTracker} {delta : DeltaState} :
    t.update f.entities f.flows = .ok (t', delta) ↔ Indexed f t' ∧ delta = t.deltaTo t' := by
  unfold StateDeltaTracker.update
  simp only [Except.bind_ok_iff, Except.pure_ok_iff, Prod.mk.injEq]
  constructor
  · rintro ⟨es, he, fs, hf, rfl, rfl⟩
    exact ⟨⟨he, hf, rfl⟩, rfl⟩
  · rintro ⟨⟨he, hf, hi⟩, rfl⟩
    cases t'
    cases hi
    exact ⟨_, he, _, hf, rfl, rfl⟩

theorem submitCurrentState_of_new {t t' : StateDeltaTracker} {s : Submission} (ht : t.mInitialized = false)
    (h : Indexed s.frame t') : submitCurrentState t s = (t', .initial s.initMessage) := by
  simp [submitCurrentState, submitInitial, ht, reset_of_indexed h]

theorem submitCurrentState_of_indexed {t t' : StateDeltaTracker} {s : Submission} (ht : t.mInitialized = true)
    (h : Indexed s.frame t') : submitCurrentState t s =
      (t', if (t.deltaTo t').empty then .noChange
        else .delta (buildDeltaMessage s.requestId s.timestampMs (t.deltaTo t')) s.resyncMessage) := by
  have hupdate : t.update s.frame.entities s.frame.flows = .ok (t', t.deltaTo t') := update_ok_iff.mpr ⟨h, rfl⟩
  simp only [submitCurrentState, ht, Bool.not_true, Bool.false_eq_true, if_false, hupdate, submitDelta,
    reset_of_indexed h]
  split_ifs <;> rfl

/-- Only a frame with distinct, non-empty IDs leads to a delta. -/
theorem indexed_of_delta {t t' : StateDeltaTracker} {s : Submission} {message resync : Option Json}
    (h : submitCurrentState t s = (t', .delta message resync)) :
    t.mInitialized = true ∧ Indexed s.frame t' ∧
      message = buildDeltaMessage s.requestId s.timestampMs (t.deltaTo t') := by
  cases ht : t.mInitialized with
  | false =>
    simp only [submitCurrentState, ht, Bool.not_false, if_true, submitInitial] at h
    split at h <;> cases h
  | true =>
    cases hu : t.update s.frame.entities s.frame.flows with
    | error what => simp [submitCurrentState, ht, hu] at h
    | ok p =>
      obtain ⟨t₁, delta⟩ := p
      obtain ⟨hi, rfl⟩ := update_ok_iff.mp hu
      rw [submitCurrentState_of_indexed ht hi, Prod.mk.injEq] at h
      obtain ⟨rfl, h⟩ := h
      split_ifs at h
      cases h
      exact ⟨rfl, hi, rfl⟩

end AfsimNs3.Adapter
