import AfsimNs3.System.Records
import AfsimNs3.Lib.Machine

/-!
# The incremental protocol mirrors the full state

The first frame is sent as a full snapshot, every later frame as the delta against the one before, or not at all
when nothing changed. The invariant between tracker and store is that the store's tables are the tables of the
tracker's baseline (`InSync`).

* `delta_patches_store`: an accepted delta patches both tables of the store by the touched IDs;
* `submit_mirrors`: one submission of a valid frame is accepted and keeps the two sides in sync;
* `frames_mirrored`: over any sequence of valid frames, every message is accepted and the snapshot is that of the
  last frame alone.
-/

namespace AfsimNs3.System
open AfsimNs3.Bridge (StateStore StateSnapshot)
open AfsimNs3.Bridge.StateStore
open AfsimNs3.Adapter (Frame Submission Submitted StateDeltaTracker Indexed submitCurrentState)

/-! ## The messages as the store reads them -/

theorem writeArray_eq_some_iff {α : Type} {writer : α → Option Json} {values : List α} {j : Json} :
    Adapter.writeArray writer values = some j ↔
      ∃ js, List.Forall₂ (fun a j => writer a = some j) values js ∧ j = .arr js := by
  simp only [Adapter.writeArray, Option.map_eq_some_iff, Option.mapM_eq_some_iff, eq_comm]

/-- A list of records is written in one way. -/
theorem forall₂_writer_unique {α : Type} {writer : α → Option Json} {values : List α} {js js' : List Json}
    (h : List.Forall₂ (fun a j => writer a = some j) values js)
    (h' : List.Forall₂ (fun a j => writer a = some j) values js') : js = js' := by
  have heq := (Option.forall₂_some_iff.mp h).symm.trans (Option.forall₂_some_iff.mp h')
  exact List.map_injective_iff.mpr (Option.some_injective _) heq

theorem initMessage_lists {s : Submission} {message : Json} (h : s.initMessage = some message) :
    ∃ js ks, List.Forall₂ (fun a j => entityKind.writer a = some j) s.frame.entities js ∧
      List.Forall₂ (fun a j => flowKind.writer a = some j) s.frame.flows ks ∧
      Fields.get message.fields (str "entities") = .arr js ∧ Fields.get message.fields (str "flows") = .arr ks := by
  simp only [Submission.initMessage, Adapter.buildInitMessage, Option.bind_eq_bind, Option.bind_eq_some_iff,
    writeArray_eq_some_iff, Option.some.injEq] at h
  obtain ⟨_, ⟨js, hj, rfl⟩, _, ⟨ks, hk, rfl⟩, rfl⟩ := h
  exact ⟨js, ks, hj, hk, rfl, rfl⟩

theorem deltaMessage_lists {requestId : Str} {timestampMs : UInt64} {delta : Adapter.DeltaState} {message : Json}
    (h : Adapter.buildDeltaMessage requestId timestampMs delta = some message) :
    ∃ js ks, List.Forall₂ (fun a j => entityKind.writer a = some j) delta.entityUpserts js ∧
      List.Forall₂ (fun a j => flowKind.writer a = some j) delta.flowUpserts ks ∧
      deltaLists message.fields = .ok ⟨js, delta.entityRemovals.map Json.str, ks, delta.flowRemovals.map Json.str⟩ := by
  simp only [Adapter.buildDeltaMessage, Option.bind_eq_bind, Option.bind_eq_some_iff, writeArray_eq_some_iff,
    Option.some.injEq] at h
  obtain ⟨_, ⟨js, hj, rfl⟩, _, ⟨ks, hk, rfl⟩, rfl⟩ := h
  exact ⟨js, ks, hj, hk, rfl⟩

/-- The service's store after a submission, when every message of it is accepted. -/
def accept (s : StateStore) (timestampMs : UInt64) : Submitted → Option StateStore
  | .initial (some message) => (s.initializeStore message.fields timestampMs.toNat).toOption
  | .noChange => some s
  | .delta (some message) _ => (s.applyDelta message.fields timestampMs.toNat).toOption
  | _ => none

/-- One submission, handled by the service. -/
def submit (state : StateDeltaTracker × StateStore) (sub : Submission) : Option (StateDeltaTracker × StateStore) :=
  let (t, out) := submitCurrentState state.1 sub
  (accept state.2 sub.timestampMs out).map (fun s => (t, s))

theorem toOption_eq_some_iff {ε α : Type} {x : Except ε α} {a : α} : x.toOption = some a ↔ x = .ok a := by
  cases x <;> simp [Except.toOption]

/-! ## One delta -/

theorem filed_entities {f : Frame} {t : StateDeltaTracker} (h : Indexed f t) : entityKind.Filed t.mEntities :=
  fun _ a ha => by
    obtain ⟨hmem, rfl⟩ := (Adapter.index_get? h.entities).mp ha
    exact ⟨rfl, Adapter.index_ne_nil h.entities a hmem⟩

theorem filed_flows {f : Frame} {t : StateDeltaTracker} (h : Indexed f t) : flowKind.Filed t.mFlows :=
  fun _ a ha => by
    obtain ⟨hmem, rfl⟩ := (Adapter.index_get? h.flows).mp ha
    exact ⟨rfl, Adapter.index_ne_nil h.flows a hmem⟩

/-- Both dictionaries of the store hold records the adapter wrote. -/
structure WiredStore (s : StateStore) : Prop where
  entities : entityKind.Wired s.entities
  flows : flowKind.Wired s.flows

/-- The store holds what the tracker has as its baseline. -/
structure Holds (s : StateStore) (t : StateDeltaTracker) : Prop where
  entities : s.entities.get? = entityKind.table t.mEntities
  flows : s.flows.get? = flowKind.table t.mFlows

/-- **An accepted delta** patches the tables of the store by the touched IDs. -/
theorem delta_patches_store {t t' : StateDeltaTracker} {sub : Submission} {s s' : StateStore} {message : Json}
    (hi : Indexed sub.frame t')
    (hm : Adapter.buildDeltaMessage sub.requestId sub.timestampMs (t.deltaTo t') = some message) (hw : WiredStore s)
    (h : s.applyDelta message.fields sub.timestampMs.toNat = .ok s') :
    s'.entities.get? = Patch.apply (fun key => entityKind.touched t.mEntities t'.mEntities key = true)
        (entityKind.table t'.mEntities) s.entities.get? ∧
      s'.flows.get? = Patch.apply (fun key => flowKind.touched t.mFlows t'.mFlows key = true)
        (flowKind.table t'.mFlows) s.flows.get? ∧ WiredStore s' := by
  obtain ⟨js, ks, hj, hk, hlists⟩ := deltaMessage_lists hm
  obtain ⟨-, -, lists, entities, flows, hl, ⟨⟨kept, he, he'⟩, ⟨kept', hf, hf'⟩⟩, -, rfl⟩ := applyDelta_ok_iff.mp h
  cases hlists.symm.trans hl
  exact ⟨RecordKind.delta_patches (filed_entities hi) hj hw.entities he he',
    RecordKind.delta_patches (filed_flows hi) hk hw.flows hf hf',
    (hw.entities.removals he).upserts hj (RecordKind.upserts_ne_nil (filed_entities hi)) he',
    (hw.flows.removals hf).upserts hk (RecordKind.upserts_ne_nil (filed_flows hi)) hf'⟩

/-! ## Valid frames -/

/-- The store an initialisation with this frame alone gives. -/
def fresh (sub : Submission) : Option StateStore :=
  sub.initMessage.bind fun message => (new.initializeStore message.fields sub.timestampMs.toNat).toOption

/-- IDs are distinct, not blank and without surrounding white space, and the service accepts the frame. -/
structure Valid (sub : Submission) : Prop where
  entitiesNodup : (sub.frame.entities.map Adapter.EntityState.entityId).Nodup
  flowsNodup : (sub.frame.flows.map Adapter.FlowConfig.flowId).Nodup
  entitiesNamed : ∀ e ∈ sub.frame.entities, e.entityId ≠ [] ∧ Str.Trimmed e.entityId
  flowsNamed : ∀ f ∈ sub.frame.flows, f.flowId ≠ [] ∧ Str.Trimmed f.flowId
  accepted : (fresh sub).isSome

instance (sub : Submission) : Decidable (Valid sub) :=
  decidable_of_iff (_ ∧ _ ∧ _ ∧ _ ∧ _) ⟨fun ⟨h₁, h₂, h₃, h₄, h₅⟩ => ⟨h₁, h₂, h₃, h₄, h₅⟩,
    fun h => ⟨h.entitiesNodup, h.flowsNodup, h.entitiesNamed, h.flowsNamed, h.accepted⟩⟩

theorem Valid.indexed {sub : Submission} (h : Valid sub) : ∃ t, Indexed sub.frame t := by
  obtain ⟨es, he⟩ := Adapter.index_ok h.entitiesNodup fun e hmem => (h.entitiesNamed e hmem).1
  obtain ⟨fs, hf⟩ := Adapter.index_ok h.flowsNodup fun f hmem => (h.flowsNamed f hmem).1
  exact ⟨⟨es, fs, true⟩, he, hf, rfl⟩

theorem fresh_eq_some {sub : Submission} {s : StateStore} (h : fresh sub = some s) :
    ∃ message js ks, sub.initMessage = some message ∧
      List.Forall₂ (fun a j => entityKind.writer a = some j) sub.frame.entities js ∧
      List.Forall₂ (fun a j => flowKind.writer a = some j) sub.frame.flows ks ∧
      indexRecords Bridge.EntityState.fromDict entityKind.idOf entityKind.idKey js = .ok s.entities ∧
      indexRecords Bridge.FlowConfig.fromDict flowKind.idOf flowKind.idKey ks = .ok s.flows ∧
      validateReferences s.entities s.flows = .ok ⟨⟩ ∧ s.initialized = true ∧
      new.initializeStore message.fields sub.timestampMs.toNat = .ok s := by
  obtain ⟨message, hm, h⟩ := Option.bind_eq_some_iff.mp h
  rw [toOption_eq_some_iff] at h
  obtain ⟨js, ks, hj, hk, hjs, hks⟩ := initMessage_lists hm
  obtain ⟨js', ks', entityMap, flowMap, hjs', hks', he, hf, href, rfl⟩ := initializeStore_ok_iff.mp h
  cases hjs.symm.trans hjs'
  cases hks.symm.trans hks'
  exact ⟨message, js, ks, hm, hj, hk, he, hf, href, rfl, h⟩

/-- A valid frame alone fills the store with its tables. -/
theorem Valid.fresh_holds {sub : Submission} (hv : Valid sub) {t : StateDeltaTracker} (hi : Indexed sub.frame t)
    {s : StateStore} (h : fresh sub = some s) : Holds s t := by
  obtain ⟨-, js, ks, -, hj, hk, he, hf, -, -, -⟩ := fresh_eq_some h
  exact ⟨RecordKind.init_table (fun _ => rfl) hj hi.entities he fun e hmem => (hv.entitiesNamed e hmem).2,
    RecordKind.init_table (fun _ => rfl) hk hi.flows hf fun f hmem => (hv.flowsNamed f hmem).2⟩

theorem wired_of_table {α ρ : Type} {K : RecordKind α ρ} {records : Dict Str Fields} {values : List α}
    {js : List Json} {d : Dict Str α} (hj : List.Forall₂ (fun a j => K.writer a = some j) values js)
    (hi : Adapter.index K.idGetter values = .ok d) (h : records.get? = K.table d) : K.Wired records := by
  intro key o ho
  rw [h, RecordKind.table, Option.map_eq_some_iff] at ho
  obtain ⟨a, ha, rfl⟩ := ho
  have hsome : K.writer a ∈ js.map some :=
    Option.forall₂_some_iff.mp hj ▸ List.mem_map_of_mem ((Adapter.index_get? hi).mp ha).1
  obtain ⟨j, -, hw⟩ := List.mem_map.mp hsome
  exact ⟨a, K.writer_eq_some hw.symm ▸ hw.symm⟩

/-! ## Staying in sync -/

/-- Tracker and store after the message of a frame. -/
structure InSync (sub : Submission) (state : StateDeltaTracker × StateStore) : Prop where
  indexed : Indexed sub.frame state.1
  holds : Holds state.2 state.1
  wired : WiredStore state.2
  initialized : state.2.initialized = true
  timestamp : state.2.timestampMs ≤ sub.timestampMs.toNat

theorem submit_initial {sub : Submission} (hv : Valid sub) :
    ∃ state, submit (StateDeltaTracker.new, new) sub = some state ∧ InSync sub state := by
  obtain ⟨t, hi⟩ := hv.indexed
  obtain ⟨s, hs⟩ := Option.isSome_iff_exists.mp hv.accepted
  have hholds := hv.fresh_holds hi hs
  obtain ⟨message, js, ks, hm, hj, hk, -, -, -, hinit, haccept⟩ := fresh_eq_some hs
  refine ⟨(t, s), ?_, hi, hholds, ⟨wired_of_table hj hi.entities hholds.entities,
    wired_of_table hk hi.flows hholds.flows⟩, hinit, ?_⟩
  · simp only [submit, Adapter.submitCurrentState_of_new (t := StateDeltaTracker.new) rfl hi, hm, accept,
      toOption_eq_some_iff.mpr haccept, Option.map_some]
  · obtain ⟨-, -, -, -, -, -, -, -, -, rfl⟩ := initializeStore_ok_iff.mp haccept
    exact le_refl _

theorem written_of_subset {α ρ : Type} {K : RecordKind α ρ} {values ups : List α} {js : List Json}
    (hj : List.Forall₂ (fun a j => K.writer a = some j) values js) (h : ∀ a ∈ ups, a ∈ values) :
    ∃ ks, List.Forall₂ (fun a j => K.writer a = some j) ups ks := by
  refine ⟨ups.map (fun a => .obj (K.wire a)), ?_⟩
  rw [List.forall₂_map_right_iff, List.forall₂_same]
  intro a ha
  have hsome : K.writer a ∈ js.map some := Option.forall₂_some_iff.mp hj ▸ List.mem_map_of_mem (h a ha)
  obtain ⟨j, -, hw⟩ := List.mem_map.mp hsome
  rw [← hw, K.writer_eq_some hw.symm]

/-- The delta to a valid frame is written as JSON. -/
theorem Valid.deltaMessage {sub : Submission} (hv : Valid sub) {t t' : StateDeltaTracker}
    (hi : Indexed sub.frame t') :
    ∃ message, Adapter.buildDeltaMessage sub.requestId sub.timestampMs (t.deltaTo t') = some message := by
  obtain ⟨s, hs⟩ := Option.isSome_iff_exists.mp hv.accepted
  obtain ⟨-, js, ks, -, hj, hk, -, -, -, -, -⟩ := fresh_eq_some hs
  have he : ∀ a ∈ (t.deltaTo t').entityUpserts, a ∈ sub.frame.entities := fun a ha => by
    obtain ⟨key, hkey, -⟩ := (RecordKind.mem_upserts (K := entityKind)).mp ha
    exact ((Adapter.index_get? hi.entities).mp hkey).1
  have hf : ∀ a ∈ (t.deltaTo t').flowUpserts, a ∈ sub.frame.flows := fun a ha => by
    obtain ⟨key, hkey, -⟩ := (RecordKind.mem_upserts (K := flowKind)).mp ha
    exact ((Adapter.index_get? hi.flows).mp hkey).1
  obtain ⟨js', hj'⟩ := written_of_subset hj he
  obtain ⟨ks', hk'⟩ := written_of_subset hk hf
  have hes := writeArray_eq_some_iff.mpr ⟨js', hj', rfl⟩
  have hfs := writeArray_eq_some_iff.mpr ⟨ks', hk', rfl⟩
  simp only [entityKind, flowKind] at hes hfs
  simp only [Adapter.buildDeltaMessage, hes, hfs]
  exact ⟨_, rfl⟩

/-- Every record of a valid frame reads. -/
theorem reads_of_checked {t : StateDeltaTracker} {s : StateStore} (hh : Holds s t)
    (h : validateReferences s.entities s.flows = .ok ⟨⟩) :
    (∀ key a, t.mEntities.get? key = some a → ∃ x, entityKind.parse (entityKind.wire a) = .ok x) ∧
      ∀ key a, t.mFlows.get? key = some a → ∃ x, flowKind.parse (flowKind.wire a) = .ok x := by
  rw [validateReferences_ok_iff] at h
  refine ⟨fun key a ha => ?_, fun key a ha => ?_⟩
  · have hkey : s.entities.get? key = some (entityKind.wire a) := by rw [hh.entities, RecordKind.table, ha]; rfl
    obtain ⟨x, hx, -⟩ := h.1 _ (Dict.mem_values_iff.mpr ⟨key, hkey⟩)
    exact ⟨x, hx⟩
  · have hkey : s.flows.get? key = some (flowKind.wire a) := by rw [hh.flows, RecordKind.table, ha]; rfl
    obtain ⟨x, hx, -⟩ := h.2 _ (Dict.mem_values_iff.mpr ⟨key, hkey⟩)
    exact ⟨x, hx⟩

theorem Holds.same {s s' : StateStore} {t : StateDeltaTracker} (h : Holds s t) (h' : Holds s' t) :
    Dict.Same s.entities s'.entities ∧ Dict.Same s.flows s'.flows :=
  ⟨congrFun (h.entities.trans h'.entities.symm), congrFun (h.flows.trans h'.flows.symm)⟩

/-- The tables do not change when the delta is empty. -/
theorem tables_of_empty {t t' : StateDeltaTracker} (hempty : (t.deltaTo t').empty = true) :
    entityKind.table t.mEntities = entityKind.table t'.mEntities ∧
      flowKind.table t.mFlows = flowKind.table t'.mFlows := by
  obtain ⟨he, hf⟩ := Adapter.same_of_empty hempty
  have htable : ∀ {α ρ : Type} (K : RecordKind α ρ) {old current : Dict Str α}, Dict.Same old current →
      K.table old = K.table current := by
    intro α ρ K old current hsame
    funext key
    rw [RecordKind.table, RecordKind.table, hsame key]
  exact ⟨htable entityKind he, htable flowKind hf⟩

theorem Holds.of_empty {s : StateStore} {t t' : StateDeltaTracker} (h : Holds s t)
    (hempty : (t.deltaTo t').empty = true) : Holds s t' :=
  ⟨h.entities.trans (tables_of_empty hempty).1, h.flows.trans (tables_of_empty hempty).2⟩

/-- **A valid frame initialises the store** to its tables, whatever request it comes in. -/
theorem initialize_holds {sub : Submission} (hv : Valid sub) {t : StateDeltaTracker} (hi : Indexed sub.frame t)
    {requestId : Str} {message : Json}
    (hm : Adapter.buildInitMessage requestId sub.timestampMs sub.frame.entities sub.frame.flows = some message)
    (s : StateStore) :
    ∃ s', s.initializeStore message.fields sub.timestampMs.toNat = .ok s' ∧ Holds s' t ∧ WiredStore s' ∧
      s'.initialized = true ∧ s'.timestampMs = sub.timestampMs.toNat := by
  obtain ⟨f, hf⟩ := Option.isSome_iff_exists.mp hv.accepted
  have hholds := hv.fresh_holds hi hf
  obtain ⟨first, js, ks, hfirst, hj, hk, he, hfl, href, -, -⟩ := fresh_eq_some hf
  obtain ⟨js', ks', hj', hk', hjs, hks⟩ := initMessage_lists (s := ⟨requestId, sub.timestampMs, sub.frame⟩) hm
  obtain rfl : js' = js := forall₂_writer_unique hj' hj
  obtain rfl : ks' = ks := forall₂_writer_unique hk' hk
  refine ⟨_, initializeStore_ok_iff.mpr ⟨js', ks', f.entities, f.flows, hjs, hks, he, hfl, href, rfl⟩, ?_, ?_, rfl, rfl⟩
  · exact ⟨hholds.entities, hholds.flows⟩
  · exact ⟨wired_of_table hj hi.entities hholds.entities, wired_of_table hk hi.flows hholds.flows⟩

/-- **The delta to a valid frame is accepted** by a store that holds the frame before, which then holds the frame. -/
theorem applyDelta_holds {f : Frame} {t t' : StateDeltaTracker} {next : Submission} (hi : Indexed f t)
    (hi' : Indexed next.frame t') (hv : Valid next) {s : StateStore} (hholds : Holds s t) (hwired : WiredStore s)
    (hinit : s.initialized = true) (htime : s.timestampMs ≤ next.timestampMs.toNat) {message : Json}
    (hm : Adapter.buildDeltaMessage next.requestId next.timestampMs (t.deltaTo t') = some message) :
    ∃ s', s.applyDelta message.fields next.timestampMs.toNat = .ok s' ∧ Holds s' t' ∧ WiredStore s' ∧
      s'.initialized = true ∧ s'.timestampMs = next.timestampMs.toNat := by
  obtain ⟨f, hf⟩ := Option.isSome_iff_exists.mp hv.accepted
  have hfresh := hv.fresh_holds hi' hf
  obtain ⟨-, -, -, -, -, -, -, -, href, -, -⟩ := fresh_eq_some hf
  have hreads := reads_of_checked hfresh href
  obtain ⟨js, ks, hj, hk, hlists⟩ := deltaMessage_lists hm
  obtain ⟨kept, es, hkept, hes⟩ := RecordKind.delta_accepted (str "entity_removals") (filed_entities hi')
    (filed_entities hi) hj hwired.entities hreads.1
  obtain ⟨kept', fs, hkept', hfs⟩ := RecordKind.delta_accepted (str "flow_removals") (filed_flows hi')
    (filed_flows hi) hk hwired.flows hreads.2
  have hpatched : Holds ⟨es, fs, next.timestampMs.toNat, s.revision + 1, true⟩ t' := by
    constructor
    · have hpatch := RecordKind.delta_patches (filed_entities hi') hj hwired.entities hkept hes
      rw [hholds.entities, RecordKind.patch_table] at hpatch
      exact hpatch
    · have hpatch := RecordKind.delta_patches (filed_flows hi') hk hwired.flows hkept' hfs
      rw [hholds.flows, RecordKind.patch_table] at hpatch
      exact hpatch
  obtain ⟨hsame, hsame'⟩ := hfresh.same hpatched
  have happly := applyDelta_ok_iff.mpr ⟨hinit, htime, _, es, fs, hlists,
    ⟨⟨kept, hkept, hes⟩, ⟨kept', hkept', hfs⟩⟩, validateReferences_congr hsame hsame' href, rfl⟩
  obtain ⟨-, -, hwired'⟩ := delta_patches_store hi' hm hwired happly
  exact ⟨_, happly, hpatched, hwired', rfl, rfl⟩

/-- **One submission** of a valid frame is accepted and keeps the two sides in sync. -/
theorem submit_mirrors {sub next : Submission} {state : StateDeltaTracker × StateStore} (hs : InSync sub state)
    (hv : Valid next) (hle : sub.timestampMs ≤ next.timestampMs) :
    ∃ state', submit state next = some state' ∧ InSync next state' := by
  obtain ⟨t, s⟩ := state
  obtain ⟨t', hi⟩ := hv.indexed
  have htime : s.timestampMs ≤ next.timestampMs.toNat :=
    hs.timestamp.trans (Int.ofNat_le.mpr (UInt64.le_iff_toNat_le.mp hle))
  have hsubmit := Adapter.submitCurrentState_of_indexed hs.indexed.initialized hi
  cases hempty : (t.deltaTo t').empty with
  | true =>
    rw [hempty, if_pos rfl] at hsubmit
    exact ⟨(t', s), by simp only [submit, hsubmit, accept, Option.map_some],
      hi, hs.holds.of_empty hempty, hs.wired, hs.initialized, htime⟩
  | false =>
    rw [hempty, if_neg Bool.false_ne_true] at hsubmit
    obtain ⟨message, hm⟩ := hv.deltaMessage (t := t) hi
    obtain ⟨s', happly, hholds, hwired, hinit, htime'⟩ :=
      applyDelta_holds hs.indexed hi hv hs.holds hs.wired hs.initialized htime hm
    refine ⟨(t', s'), ?_, hi, hholds, hwired, hinit, htime'.le⟩
    simp only [submit, hsubmit, hm, accept, toOption_eq_some_iff.mpr happly, Option.map_some]

theorem run_in_sync {done : List Submission} {last : Submission} (hv : ∀ sub ∈ done ++ [last], Valid sub)
    (ht : (done ++ [last]).Pairwise (fun a b => a.timestampMs ≤ b.timestampMs)) :
    ∃ state, Machine.run submit (StateDeltaTracker.new, new) (done ++ [last]) = some state ∧ InSync last state := by
  induction done using List.reverseRecOn generalizing last with
  | nil =>
    obtain ⟨state, hstep, hs⟩ := submit_initial (hv last (List.mem_singleton_self last))
    exact ⟨state, Machine.run_cons.mpr ⟨state, hstep, rfl⟩, hs⟩
  | append_singleton done prev ih =>
    rw [List.pairwise_append] at ht
    obtain ⟨state, hrun, hs⟩ := ih (fun sub hsub => hv sub (List.mem_append_left _ hsub)) ht.1
    have hle := ht.2.2 prev (List.mem_append_right _ (List.mem_singleton_self prev)) last
      (List.mem_singleton_self last)
    obtain ⟨state', hstep, hs'⟩ := submit_mirrors hs (hv last (List.mem_append_right _ (List.mem_singleton_self last)))
      hle
    exact ⟨state', Machine.run_append.mpr ⟨state, hrun, Machine.run_cons.mpr ⟨state', hstep, rfl⟩⟩, hs'⟩

/-- **The incremental protocol mirrors the full state.** Over any sequence of valid frames with non-decreasing
timestamps every message is accepted, and after the message of each frame the snapshot shows what an initialisation
with that frame alone gives. -/
theorem frames_mirrored {subs : List Submission} (hv : ∀ sub ∈ subs, Valid sub)
    (ht : subs.Pairwise (fun a b => a.timestampMs ≤ b.timestampMs)) :
    ∀ done last rest, subs = done ++ last :: rest →
      ∃ t s f snap snap', Machine.run submit (StateDeltaTracker.new, new) (done ++ [last]) = some (t, s) ∧
        fresh last = some f ∧ s.snapshot = .ok snap ∧ f.snapshot = .ok snap' ∧
        snap.entities = snap'.entities ∧ snap.flows = snap'.flows := by
  rintro done last rest rfl
  rw [List.append_cons] at hv ht
  have hvalid : ∀ sub ∈ done ++ [last], Valid sub := fun sub hsub => hv sub (List.mem_append_left _ hsub)
  obtain ⟨⟨t, s⟩, hrun, hs⟩ := run_in_sync hvalid (List.pairwise_append.mp ht).1
  have hlast := hvalid last (List.mem_append_right _ (List.mem_singleton_self last))
  obtain ⟨f, hf⟩ := Option.isSome_iff_exists.mp hlast.accepted
  obtain ⟨-, -, -, -, -, -, -, -, href, hinit, -⟩ := fresh_eq_some hf
  obtain ⟨hsame, hsame'⟩ := (hlast.fresh_holds hs.indexed hf).same hs.holds
  obtain ⟨snap', hsnap'⟩ := snapshot_exists hinit href
  obtain ⟨snap, hsnap⟩ := snapshot_exists hs.initialized (validateReferences_congr hsame hsame' href)
  obtain ⟨he, hfl⟩ := snapshot_congr hsame hsame' hsnap' hsnap
  exact ⟨t, s, f, snap, snap', hrun, hf, hsnap, hsnap', he.symm, hfl.symm⟩

/-- An entity at rest on the x axis. -/
def entityAt (id : Str) (x : ℚ) : Adapter.EntityState where
  entityId := id
  businessNodeId := id
  parentEntityId := []
  hasParent := false
  position := ⟨.finite x, .finite 0, .finite 0⟩
  velocity := ⟨.finite 0, .finite 0, .finite 0⟩
  headingDeg := .finite 0
  alive := true
  devices := []
  effectPolicies := []

def flowBetween (id source target : Str) : Adapter.FlowConfig := ⟨id, source, target, 64, 1, 100, true⟩

/-- Two frames: the second moves an entity, adds another and a flow between the two. -/
def growingFrames : List Submission := [
  ⟨str "r0", 0, [entityAt (str "A") 0], []⟩,
  ⟨str "r1", 1, [entityAt (str "A") 1, entityAt (str "B") 2], [flowBetween (str "F") (str "A") (str "B")]⟩]

theorem growingFrames_mirrored : ∃ t s, Machine.run submit (StateDeltaTracker.new, new) growingFrames = some (t, s) ∧
    ∃ last ∈ growingFrames, ∃ f snap snap', fresh last = some f ∧ s.snapshot = .ok snap ∧ f.snapshot = .ok snap' ∧
      snap.entities = snap'.entities ∧ snap.flows = snap'.flows := by
  have hv : ∀ sub ∈ growingFrames, Valid sub := by
    rw [growingFrames, List.forall_mem_cons, List.forall_mem_singleton]
    exact ⟨⟨by decide +kernel, by decide +kernel, by decide +kernel, by decide +kernel, by decide +kernel⟩,
      ⟨by decide +kernel, by decide +kernel, by decide +kernel, by decide +kernel, by decide +kernel⟩⟩
  obtain ⟨t, s, f, snap, snap', hrun, h⟩ := frames_mirrored hv (by decide) [growingFrames[0]] growingFrames[1] [] rfl
  exact ⟨t, s, hrun, growingFrames[1], List.getElem_mem _, f, snap, snap', h⟩

end AfsimNs3.System
