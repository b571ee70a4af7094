import AfsimNs3.Lib.Literals
import AfsimNs3.Lib.Split
import AfsimNs3.Plugin.Extension

/-!
# The flow IDs of observed streams

The flow ID of an observed stream joins the texts of its key with `:` and `->`, escaping nothing. Two keys get the
same ID exactly when the colons cut their texts into the same pieces (`flowIdOf_eq_iff`), so the index of the tracker
succeeds on the flows of a tick exactly when the recorded keys are told apart by their pieces.

* `Names.step`: one callback gives a new key the ID made of its texts, and changes no ID;
* `pieces_ne_of_plain`: keys without colons in their names and types are always told apart.
-/

namespace AfsimNs3.Plugin
open AfsimNs3.Adapter (EntityState FlowConfig Frame)

def colon : CodePoint := 58

/-- The texts between the colons of a flow ID, after its kind. -/
def FlowKey.fields : FlowKey → List Str
  | [source, sourceComm, target, targetComm, type, subType] =>
    [source, sourceComm ++ str "->" ++ target, targetComm, type, subType]
  | key => key

/-- The flow ID made of a key. -/
def FlowKey.flowIdOf (key : FlowKey) : Str := str "afsim-message:" ++ [colon].intercalate key.fields

/-- The pieces the colons cut the texts of a key into, those inside a name or a type included. -/
def FlowKey.pieces (key : FlowKey) : List Str := key.fields.flatMap (fun field => field.splitOn colon)

/-- The key of a message that is recorded. -/
def Observed.key (o : Observed) : Option FlowKey :=
  match o.transmitter, o.receiver with
  | some ⟨sourceComm, some source⟩, some ⟨targetComm, some target⟩ =>
    if toText source = toText target then none
    else some [toText source, sourceComm, toText target, targetComm, o.message.type, o.message.subType]
  | _, _ => none

def recordedKeys (log : List Observed) : List FlowKey := log.filterMap Observed.key

/-! ## IDs and pieces -/

theorem newFlow_flowId (intervalSeconds : Double) (source sourceComm target targetComm type subType : Str) :
    (newFlow intervalSeconds source sourceComm target targetComm type subType).flowId =
      FlowKey.flowIdOf [source, sourceComm, target, targetComm, type, subType] := by
  have hcolon : str ":" = [colon] := rfl
  simp [newFlow, FlowKey.flowIdOf, FlowKey.fields, hcolon, List.intercalate_cons_cons]

theorem flowIdOf_ne_nil (key : FlowKey) : key.flowIdOf ≠ [] :=
  List.append_ne_nil_of_left_ne_nil (by decide) _

/-- **Two keys get the same ID exactly when their texts have the same pieces.** -/
theorem flowIdOf_eq_iff {key key' : FlowKey} (h : key.fields ≠ []) (h' : key'.fields ≠ []) :
    key.flowIdOf = key'.flowIdOf ↔ key.pieces = key'.pieces := by
  unfold FlowKey.flowIdOf FlowKey.pieces
  rw [List.append_cancel_left_eq]
  exact Split.intercalate_eq_iff colon h h'

theorem fields_of_key {o : Observed} {key : FlowKey} (h : o.key = some key) : key.fields ≠ [] := by
  unfold Observed.key at h
  split at h
  · split_ifs at h
    obtain rfl := Option.some.inj h
    exact List.cons_ne_nil _ _
  · cases h

/-! ## Runs of the callback -/

/-- Every recorded key has its flow, whose ID is made of the key. -/
structure Names (log : List Observed) (ext : Extension) : Prop where
  named : ∀ key flow, ext.mObservedFlows.get? key = some flow → flow.flowId = key.flowIdOf
  keys : ∀ key, key ∈ ext.mObservedFlows.keys ↔ key ∈ recordedKeys log

theorem ObservedFlow.observe_flowId (flow : ObservedFlow) (simTime : ℚ) (message : Message) :
    (flow.observe simTime message).flowId = flow.flowId := by
  unfold ObservedFlow.observe
  dsimp only
  split_ifs <;> rfl

theorem recordFlow_of_key_none {ext : Extension} {o : Observed} (h : o.key = none) :
    recordFlow ext o.simTime o.transmitter o.receiver o.message = ext := by
  refine recordFlow_of_not_recorded ?_
  obtain ⟨simTime, transmitter, receiver, message⟩ := o
  rcases transmitter with _ | ⟨sourceComm, _ | source⟩
  · rfl
  · rfl
  · rcases receiver with _ | ⟨targetComm, _ | target⟩
    · rfl
    · rfl
    -- Both ends have a platform, so it is the same one.
    · unfold Observed.key at h
      dsimp only at h
      split_ifs at h with heq
      exact if_pos heq

/-- A recorded message updates the flow of its key, or a new flow with the ID made of the key. -/
theorem recordFlow_of_key {ext : Extension} {o : Observed} {key : FlowKey} (h : o.key = some key) :
    ∃ old : ObservedFlow, recordFlow ext o.simTime o.transmitter o.receiver o.message =
        { ext with mObservedFlows := ext.mObservedFlows.put key (old.observe o.simTime o.message) } ∧
      (ext.mObservedFlows.get? key = some old ∨ old.flowId = key.flowIdOf) := by
  unfold Observed.key at h
  split at h
  · rename_i sourceComm source targetComm target ht hr
    split_ifs at h with heq
    obtain rfl := Option.some.inj h
    unfold recordFlow
    simp only [ht, hr, if_neg heq]
    refine ⟨_, rfl, ?_⟩
    cases ext.mObservedFlows.get?
        [toText source, sourceComm, toText target, targetComm, o.message.type, o.message.subType] with
    | none => exact .inr (newFlow_flowId ..)
    | some old => exact .inl rfl
  · cases h

/-- **One callback** names the flow of its key. -/
theorem Names.step {log : List Observed} {ext ext' : Extension} {o : Observed} (h : Names log ext)
    (hstep : ext.step o = some ext') : Names (log ++ [o]) ext' := by
  obtain rfl := Option.some.inj hstep
  have hlog : ∀ key, key ∈ recordedKeys (log ++ [o]) ↔ key ∈ recordedKeys log ∨ o.key = some key := by
    intro key
    rw [recordedKeys, List.filterMap_append, List.mem_append]
    exact or_congr_right (by simp [List.mem_filterMap])
  cases hkey : o.key with
  | none =>
    rw [recordFlow_of_key_none hkey]
    refine ⟨h.named, fun key => ?_⟩
    rw [hlog, h.keys, hkey]
    simp
  | some key =>
    obtain ⟨old, heq, hold⟩ := recordFlow_of_key hkey
    have hid : (old.observe o.simTime o.message).flowId = key.flowIdOf := by
      rw [old.observe_flowId]
      rcases hold with hget | hnew
      · exact h.named key old hget
      · exact hnew
    rw [heq]
    constructor
    · intro key' flow hget
      rw [Dict.get?_put] at hget
      split_ifs at hget with hk
      · obtain rfl := Option.some.inj hget
        rw [hid, hk]
      · exact h.named key' flow hget
    · intro key'
      rw [Dict.mem_keys_put, hlog, h.keys, hkey, Option.some.injEq, eq_comm]
      exact or_comm

theorem run_names {intervalSeconds : Double} {log : List Observed} {ext : Extension}
    (h : Machine.run Extension.step (Extension.new intervalSeconds) log = some ext) : Names log ext := by
  induction log using List.reverseRecOn generalizing ext with
  | nil =>
    obtain rfl := Option.some.inj h
    exact ⟨nofun, fun key => by simp [Extension.new, recordedKeys]⟩
  | append_singleton log o ih =>
    obtain ⟨t, hrun, hlast⟩ := Machine.run_append.mp h
    obtain ⟨u, hstep, hu⟩ := Machine.run_cons.mp hlast
    obtain rfl := Option.some.inj hu
    exact (ih hrun).step hstep

/-! ## The flows of a tick -/

/-- The flow IDs are distinct, and the tracker can index the flows. -/
structure Indexable (flows : List FlowConfig) : Prop where
  distinct : (flows.map FlowConfig.flowId).Nodup
  indexed : ∃ mFlows, Adapter.index FlowConfig.flowId flows = .ok mFlows

theorem indexable_iff {flows : List FlowConfig} (hne : ∀ flow ∈ flows, flow.flowId ≠ []) :
    Indexable flows ↔ (flows.map FlowConfig.flowId).Nodup :=
  ⟨Indexable.distinct, fun h => ⟨h, Adapter.index_ok h hne⟩⟩

section
variable {quality : Comm → Option Comm → LinkQuality} {log : List Observed} {ext : Extension}
  {platforms : List (Option Platform)}

/-- The flow IDs of a tick are made of the recorded keys. -/
theorem Names.collected_ids (h : Names log ext) :
    (collectState quality ext platforms).flows.map FlowConfig.flowId =
      (ext.mObservedFlows.sorted.map Prod.fst).map FlowKey.flowIdOf := by
  simp only [collectState, List.map_map]
  refine List.map_congr_left fun e he => ?_
  exact h.named e.1 e.2 (Dict.mem_sorted.mp he)

theorem mem_sorted_keys {d : Dict FlowKey ObservedFlow} {key : FlowKey} :
    key ∈ d.sorted.map Prod.fst ↔ key ∈ d.keys :=
  (d.sorted_perm.map Prod.fst).mem_iff

/-- **The flow IDs of a tick are distinct, and the tracker indexes the flows, exactly when the recorded keys are told
apart by their pieces.** -/
theorem flowIds_distinct_iff {intervalSeconds : Double}
    (hrun : Machine.run Extension.step (Extension.new intervalSeconds) log = some ext) :
    Indexable (collectState quality ext platforms).flows ↔
      ∀ key ∈ recordedKeys log, ∀ key' ∈ recordedKeys log, key ≠ key' → key.pieces ≠ key'.pieces := by
  have hnames := run_names hrun
  have hids : (collectState quality ext platforms).flows.map FlowConfig.flowId = _ := hnames.collected_ids
  have hne : ∀ flow ∈ (collectState quality ext platforms).flows, flow.flowId ≠ [] := by
    intro flow hflow
    have hmem : flow.flowId ∈ (collectState quality ext platforms).flows.map FlowConfig.flowId :=
      List.mem_map_of_mem hflow
    rw [hids] at hmem
    obtain ⟨key, -, hkey⟩ := List.mem_map.mp hmem
    exact hkey ▸ flowIdOf_ne_nil key
  rw [indexable_iff hne, hids, List.nodup_map_iff_inj_on ext.mObservedFlows.sorted_keys_nodup]
  have hsame : ∀ key ∈ recordedKeys log, ∀ key' ∈ recordedKeys log,
      (key.flowIdOf = key'.flowIdOf ↔ key.pieces = key'.pieces) := by
    intro key hk key' hk'
    obtain ⟨o, -, ho⟩ := List.mem_filterMap.mp hk
    obtain ⟨o', -, ho'⟩ := List.mem_filterMap.mp hk'
    exact flowIdOf_eq_iff (fields_of_key ho) (fields_of_key ho')
  constructor
  · intro hinj key hk key' hk' hdiff hpieces
    exact hdiff (hinj key (mem_sorted_keys.mpr ((hnames.keys key).mpr hk)) key'
      (mem_sorted_keys.mpr ((hnames.keys key').mpr hk')) ((hsame key hk key' hk').mpr hpieces))
  · intro hapart key hk key' hk' heq
    rw [mem_sorted_keys, hnames.keys] at hk hk'
    by_contra hdiff
    exact hapart key hk key' hk' hdiff ((hsame key hk key' hk').mp heq)

end

/-! ## Texts without colons -/

theorem toText_eq (n : ℕ) : toText n = Loads.natText n := by
  unfold toText Loads.natText str
  rw [Nat.toString_eq_repr, Nat.repr, String.toList_ofList]

/-- The digits after the last arrow are the target's. -/
theorem arrow_inj {name name' digits digits' : Str} (hd : ∀ c ∈ digits, Loads.isDigit c = true)
    (hd' : ∀ c ∈ digits', Loads.isDigit c = true) (h : name ++ str "->" ++ digits = name' ++ str "->" ++ digits') :
    name = name' ∧ digits = digits' := by
  have htail : ∀ (name digits : Str), (∀ c ∈ digits, Loads.isDigit c = true) →
      (name ++ str "->" ++ digits).rtakeWhile Loads.isDigit = digits := by
    intro name digits hd
    have hrev : ∀ c ∈ digits.reverse, Loads.isDigit c = true := fun c hc => hd c (List.mem_reverse.mp hc)
    have hstop : (name ++ str "->").reverse = 62 :: 45 :: name.reverse := List.reverse_append
    rw [List.rtakeWhile, List.reverse_append, List.takeWhile_append_of_pos hrev, hstop,
      List.takeWhile_cons_of_neg (by decide), List.append_nil, List.reverse_reverse]
  have hdigits : digits = digits' := by
    rw [← htail name digits hd, h, htail name' digits' hd']
  rw [hdigits, List.append_cancel_right_eq, List.append_cancel_right_eq] at h
  exact ⟨h, hdigits⟩

/-- **Keys without colons** in their names and types are told apart. -/
theorem pieces_ne_of_plain {log : List Observed} {key key' : FlowKey} (hk : key ∈ recordedKeys log)
    (hk' : key' ∈ recordedKeys log) (hplain : ∀ text ∈ key, colon ∉ text) (hplain' : ∀ text ∈ key', colon ∉ text)
    (hne : key ≠ key') : key.pieces ≠ key'.pieces := by
  have hshape : ∀ {key : FlowKey}, key ∈ recordedKeys log → ∃ source sourceComm target targetComm type subType,
      key = [toText source, sourceComm, toText target, targetComm, type, subType] := by
    intro key hk
    obtain ⟨o, -, ho⟩ := List.mem_filterMap.mp hk
    unfold Observed.key at ho
    split at ho
    · split_ifs at ho
      exact ⟨_, _, _, _, _, _, (Option.some.inj ho).symm⟩
    · cases ho
  have hpieces : ∀ {source sourceComm target targetComm type subType : Str},
      (∀ text ∈ [source, sourceComm, target, targetComm, type, subType], colon ∉ text) →
        FlowKey.pieces [source, sourceComm, target, targetComm, type, subType] =
          [source, sourceComm ++ str "->" ++ target, targetComm, type, subType] := by
    intro source sourceComm target targetComm type subType hplain
    refine Split.flatMap_splitOn_of_notMem colon ?_
    have harrow : colon ∉ str "->" := by decide
    simp only [List.forall_mem_cons] at hplain
    obtain ⟨hs, hsc, ht, htc, hty, hst, -⟩ := hplain
    have hmid : colon ∉ sourceComm ++ str "->" ++ target := by
      simp only [List.mem_append, not_or]
      exact ⟨⟨hsc, harrow⟩, ht⟩
    intro field hfield
    simp only [FlowKey.fields, List.mem_cons, List.not_mem_nil, or_false] at hfield
    rcases hfield with rfl | rfl | rfl | rfl | rfl <;> assumption
  obtain ⟨source, sourceComm, target, targetComm, type, subType, rfl⟩ := hshape hk
  obtain ⟨source', sourceComm', target', targetComm', type', subType', rfl⟩ := hshape hk'
  rw [hpieces hplain, hpieces hplain']
  intro heq
  simp only [List.cons.injEq, and_true] at heq
  obtain ⟨hs, hmid, htc, hty, hst⟩ := heq
  have hdigit : ∀ n, ∀ c ∈ toText n, Loads.isDigit c = true := fun n c hc => Loads.isDigit_of_mem_natText (toText_eq n ▸ hc)
  obtain ⟨hsc, ht⟩ := arrow_inj (hdigit target) (hdigit target') hmid
  exact hne (by rw [hs, hsc, ht, htc, hty, hst])

/-! ## Two streams with one ID -/

/-- A message between two platforms, to a receiver with the name and of the type. -/
def observedTo (receiver type : Str) : Observed :=
  ⟨0, some ⟨str "tx", some 1⟩, some ⟨receiver, some 2⟩, ⟨type, str "s", 0, 64⟩⟩

def plainQuality : Comm → Option Comm → LinkQuality := fun _ _ => ⟨str "wifi", 1, .finite 0, .finite 0⟩

/-- Two receivers whose names have a colon. -/
def colonLog : List Observed := [observedTo (str "rx:1") (str "t"), observedTo (str "rx:2") (str "t")]

/-- A colon in a name is harmless where the pieces differ. -/
theorem colonLog_indexable : ∃ ext, Machine.run Extension.step (Extension.new (.finite 1)) colonLog = some ext ∧
    Indexable (collectState plainQuality ext []).flows := by
  obtain ⟨ext, hrun⟩ : ∃ ext, Machine.run Extension.step (Extension.new (.finite 1)) colonLog = some ext := ⟨_, rfl⟩
  have hapart : ∀ key ∈ recordedKeys colonLog, ∀ key' ∈ recordedKeys colonLog,
      key ≠ key' → key.pieces ≠ key'.pieces := by decide +kernel
  exact ⟨ext, hrun, (flowIds_distinct_iff hrun).mpr hapart⟩

/-- The streams to `x:y` of type `z` and to `x` of type `y:z` get one ID. -/
theorem colon_collides : ¬ ∀ (quality : Comm → Option Comm → LinkQuality) (platforms : List (Option Platform))
    (intervalSeconds : Double) (log : List Observed) (ext : Extension),
      Machine.run Extension.step (Extension.new intervalSeconds) log = some ext →
        Indexable (collectState quality ext platforms).flows := by
  intro hall
  have hindexable := hall plainQuality [] (.finite 1)
    [observedTo (str "x:y") (str "z"), observedTo (str "x") (str "y:z")] _ rfl
  have hids := hindexable.distinct
  revert hids
  decide +kernel

end AfsimNs3.Plugin
