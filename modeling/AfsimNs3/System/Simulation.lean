import AfsimNs3.Plugin.Ticks
import AfsimNs3.System.Figures

/-!
# A simulation and its service

What the plugin observes becomes frames, frames become messages, and messages become the store of the service. As long
as the accessors of the simulation return ordinary values (`Ordinary`), nothing the plugin learns of its links can make
the service refuse a frame: its figures stay in their ranges along every run.

* `tick_valid`: the frame of an ordinary tick is valid;
* `simulation_mirrored`: the message of every tick of an ordinary run is accepted, and the store shows its frame.
-/

namespace AfsimNs3.System
open AfsimNs3.Bridge (StateStore)
open AfsimNs3.Bridge.StateStore
open AfsimNs3.Adapter (Frame Submission StateDeltaTracker)
open AfsimNs3.Plugin
open AfsimNs3.Plugin.SimulationExtension (Event observedLog)

/-! ## Texts -/

/-- A text with a character that is not white space is not blank. -/
theorem named_of_mem {text : Str} {c : CodePoint} (h : c ∈ text) (hc : Str.isSpace c = false) : Named text := by
  have hdrop : ∀ {s : Str}, c ∈ s → c ∈ s.dropWhile Str.isSpace := by
    intro s hs
    rw [← List.takeWhile_append_dropWhile (p := Str.isSpace) (l := s), List.mem_append] at hs
    refine hs.resolve_left fun htake => ?_
    rw [List.mem_takeWhile_imp htake] at hc
    cases hc
  have hstrip : c ∈ Str.strip text := by
    unfold Str.strip List.rdropWhile
    exact List.mem_reverse.mpr (hdrop (List.mem_reverse.mpr (hdrop h)))
  exact List.ne_nil_of_mem hstrip

theorem trimmed_of_ends {s : Str} (hhead : ∀ c, s.head? = some c → Str.isSpace c = false)
    (hlast : ∀ c, s.getLast? = some c → Str.isSpace c = false) : Str.Trimmed s := by
  have hdrop : s.dropWhile Str.isSpace = s := by
    cases s with
    | nil => rfl
    | cons c rest =>
      rw [List.dropWhile_cons, hhead c rfl]
      rfl
  have hrdrop : s.rdropWhile Str.isSpace = s := by
    rw [List.rdropWhile_eq_self_iff]
    intro hne
    rw [hlast _ (List.getLast?_eq_getLast_of_ne_nil hne)]
    exact Bool.false_ne_true
  rw [Str.Trimmed, Str.strip, hdrop, hrdrop]

/-- The last character of a trimmed text is not white space. -/
theorem last_of_trimmed {s : Str} (h : Str.Trimmed s) {c : CodePoint} (hc : s.getLast? = some c) :
    Str.isSpace c = false := by
  have hne : s ≠ [] := List.ne_nil_of_mem (List.mem_of_getLast? hc)
  have hrdrop : s.rdropWhile Str.isSpace = s := by
    rw [← h]
    exact List.rdropWhile_idempotent Str.isSpace _
  rw [List.rdropWhile_eq_self_iff] at hrdrop
  have hlast := hrdrop hne
  rw [List.getLast?_eq_getLast_of_ne_nil hne] at hc
  rw [← Option.some.inj hc]
  exact Bool.not_eq_true _ ▸ hlast

theorem toText_ne_nil (n : ℕ) : toText n ≠ [] := by
  rw [toText_eq, Loads.natText]
  exact fun h => Nat.toDigits_ne_nil (List.map_eq_nil_iff.mp h)

theorem toText_named (n : ℕ) : Named (toText n) := named_of_trimmed (Str.trimmed_natText n) (toText_ne_nil n)

/-! ## Frames that are alike -/

variable {f f' : Frame}

/-- Closedness does not depend on the qualities of links. -/
theorem closed_of_alike (h : Alike f f') (hf : Closed f') : Closed f := by
  constructor
  · intro e he hparent
    obtain ⟨e', he', heq⟩ := h.entity he
    obtain ⟨⟨hhas, hid, -⟩, -⟩ := bareEntity_fields heq
    rw [h.ids, hid]
    exact hf.parents e' he' (hhas ▸ hparent)
  · intro e he device hd
    obtain ⟨e', he', heq⟩ := h.entity he
    obtain ⟨device', hd', hpeer⟩ := bareEntity_device heq hd
    rw [h.ids, hpeer]
    exact hf.peers e' he' device' hd'
  · intro e he policy hp
    obtain ⟨e', he', heq⟩ := h.entity he
    obtain ⟨⟨-, -, hpolicies⟩, -⟩ := bareEntity_fields heq
    rw [h.ids]
    exact hf.policies e' he' policy (hpolicies ▸ hp)
  · intro flow hflow
    rw [h.ids]
    exact hf.flows flow (h.flows ▸ hflow)

theorem plainReferences_of_alike (h : Alike f f') (hf : PlainReferences f') : PlainReferences f := by
  constructor
  · intro e he hparent
    obtain ⟨e', he', heq⟩ := h.entity he
    obtain ⟨⟨hhas, hid, -⟩, -⟩ := bareEntity_fields heq
    rw [hid]
    exact hf.parents e' he' (hhas ▸ hparent)
  · intro e he device hd
    obtain ⟨e', he', heq⟩ := h.entity he
    obtain ⟨device', hd', hpeer⟩ := bareEntity_device heq hd
    rw [hpeer]
    exact hf.peers e' he' device' hd'
  · intro e he policy hp
    obtain ⟨e', he', heq⟩ := h.entity he
    obtain ⟨⟨-, -, hpolicies⟩, -⟩ := bareEntity_fields heq
    exact hf.policies e' he' policy (hpolicies ▸ hp)
  · intro flow hflow
    exact hf.flows flow (h.flows ▸ hflow)

/-! ## One tick -/

/-- The frame's accessors return values that the service can read. -/
structure OrdinaryScene (config : RuntimeConfig) (scene : Scene) : Prop where
  time : scene.simTime ≤ ((2 ^ 31 : ℕ) : ℚ)
  indices : (scene.listed.map fun platform => platform.index).Nodup
  names : ∀ platform ∈ scene.listed, Named platform.name
  position : ∀ platform ∈ scene.listed,
    Moderate platform.position.xM ∧ Moderate platform.position.yM ∧ Moderate platform.position.zM
  velocity : ∀ platform ∈ scene.listed,
    Moderate platform.velocity.vxMps ∧ Moderate platform.velocity.vyMps ∧ Moderate platform.velocity.vzMps
  heading : ∀ platform ∈ scene.listed, Double.Within 0 360 platform.headingDeg
  delays : ∀ platform ∈ scene.listed, ∀ device ∈ platform.present,
    ∀ peer ∈ SimulationExtension.peersFor scene platform.record device,
      Moderate (configuredDelayMs config scene device peer.2.device)

/-- The platform list of a scene. -/
def platformsOf (scene : Scene) : List (Option Platform) := scene.platforms.map (Option.map Equipped.toPlatform)

theorem platformsOf_listed (scene : Scene) :
    (platformsOf scene).filterMap (fun platform => platform) = scene.listed.map Equipped.toPlatform := by
  unfold platformsOf Scene.listed
  rw [List.filterMap_map, List.map_filterMap]
  refine List.filterMap_congr fun platform _ => ?_
  cases platform <;> rfl

theorem listedIds_platformsOf (scene : Scene) :
    listedIds (platformsOf scene) = scene.listed.map fun platform => toText platform.index := by
  unfold listedIds
  rw [platformsOf_listed, List.map_map]
  rfl

/-- What has been observed before a tick: the ends of every recorded message are still listed, and the recorded keys
are told apart. -/
structure OrdinaryLog (scene : Scene) (log : List Observed) : Prop where
  sizes : ∀ o ∈ log, o.message.sizeBytes < 2 ^ 32
  subTypes : ∀ o ∈ log, Str.Trimmed o.message.subType
  listed : ∀ o ∈ log, Listed (platformsOf scene) o
  apart : ∀ key ∈ recordedKeys log, ∀ key' ∈ recordedKeys log, key ≠ key' → key.pieces ≠ key'.pieces

/-! ### Flows -/

/-- The ID of a recorded flow begins with its kind and ends with the type of its messages. -/
theorem flowIdOf_trimmed {o : Observed} {key : FlowKey} (h : o.key = some key) (htrim : Str.Trimmed o.message.subType) :
    Str.Trimmed key.flowIdOf := by
  unfold Observed.key at h
  split at h
  · rename_i sourceComm source targetComm target _ _
    split_ifs at h
    obtain rfl := Option.some.inj h
    rw [← newFlow_flowId (.finite 1)]
    have hcolon : str ":" = [colon] := rfl
    refine trimmed_of_ends (fun c hc => ?_) fun c hc => ?_
    · obtain rfl := Option.some.inj hc
      decide
    · unfold newFlow at hc
      dsimp only at hc
      rw [List.getLast?_append] at hc
      cases hlast : o.message.subType.getLast? with
      | some d =>
        rw [hlast] at hc
        obtain rfl := Option.some.inj hc
        exact last_of_trimmed htrim hlast
      | none =>
        rw [hlast, hcolon, List.getLast?_concat] at hc
        obtain rfl := Option.some.inj hc
        decide
  · cases h

section Flows
variable {log : List Observed} {ext : Extension} {q : Comm → Option Comm → LinkQuality}
  {platforms : List (Option Platform)}

theorem flows_sound (hnames : Names log ext) (hrecords : Records log ext) (hrange : ext.InRange) :
    ∀ flow ∈ (Plugin.collectState q ext platforms).flows, SoundFlow flow := by
  intro flow hflow
  obtain ⟨⟨key, observed⟩, hmem, rfl⟩ := List.mem_map.mp hflow
  have hget := Dict.mem_sorted.mp hmem
  obtain ⟨o, -, source, target, -, hsource, htarget⟩ := hrecords.sound key observed hget
  obtain ⟨hpacket, hinterval, hduration⟩ := hrange key observed hget
  refine ⟨?_, ?_, ?_, hpacket, hinterval, hduration⟩
  · refine named_of_mem (c := 97) ?_ (by decide)
    show 97 ∈ observed.flowId
    rw [hnames.named key observed hget]
    exact List.mem_append_left _ (by decide)
  · show Named observed.sourceEntityId
    rw [hsource]
    exact toText_named source
  · show Named observed.targetEntityId
    rw [htarget]
    exact toText_named target

theorem flows_plainIds (hnames : Names log ext) (htrim : ∀ o ∈ log, Str.Trimmed o.message.subType)
    (hapart : ∀ key ∈ recordedKeys log, ∀ key' ∈ recordedKeys log, key ≠ key' → key.pieces ≠ key'.pieces) :
    PlainIds Adapter.FlowConfig.flowId (Plugin.collectState q ext platforms).flows := by
  have hids : (Plugin.collectState q ext platforms).flows.map Adapter.FlowConfig.flowId = _ := hnames.collected_ids
  have hrecorded : ∀ key ∈ ext.mObservedFlows.sorted.map Prod.fst, key ∈ recordedKeys log :=
    fun key hkey => (hnames.keys key).mp (mem_sorted_keys.mp hkey)
  have hkey : ∀ key ∈ recordedKeys log, ∃ o ∈ log, o.key = some key := fun key hkey => List.mem_filterMap.mp hkey
  constructor
  · rw [hids, List.nodup_map_iff_inj_on ext.mObservedFlows.sorted_keys_nodup]
    intro key hk key' hk' heq
    by_contra hdiff
    obtain ⟨o, -, ho⟩ := hkey key (hrecorded key hk)
    obtain ⟨o', -, ho'⟩ := hkey key' (hrecorded key' hk')
    exact hapart key (hrecorded key hk) key' (hrecorded key' hk') hdiff
      ((flowIdOf_eq_iff (fields_of_key ho) (fields_of_key ho')).mp heq)
  · intro flow hflow
    have hmem : flow.flowId ∈ (Plugin.collectState q ext platforms).flows.map Adapter.FlowConfig.flowId :=
      List.mem_map_of_mem hflow
    rw [hids] at hmem
    obtain ⟨key, hk, heq⟩ := List.mem_map.mp hmem
    obtain ⟨o, ho, hokey⟩ := hkey key (hrecorded key hk)
    rw [← heq]
    exact ⟨flowIdOf_ne_nil key, flowIdOf_trimmed hokey (htrim o ho)⟩

end Flows

/-! ### Entities -/

theorem moderate_of_within {n : ℕ} (hn : n < 2 ^ 53) {x : Double} (h : Double.Within 0 (n * 2 ^ 41) x) : Moderate x := by
  obtain ⟨q, rfl, hlow, hhigh⟩ := h
  refine ⟨q, rfl, ?_⟩
  have hcast : (n : ℚ) ≤ 2 ^ 53 := by exact_mod_cast hn.le
  have hten : (2 : ℚ) ^ 94 ≤ 10 ^ 94 := pow_le_pow_left₀ (by norm_num) (by norm_num) 94
  rw [abs_of_nonneg hlow]
  calc q ≤ n * 2 ^ 41 := hhigh
    _ ≤ 2 ^ 53 * 2 ^ 41 := mul_le_mul_of_nonneg_right hcast (by positivity)
    _ = 2 ^ 94 := (pow_add 2 53 41).symm
    _ ≤ 10 ^ 94 := hten
    _ ≤ 10 ^ 300 := pow_le_pow_right₀ (by norm_num) (by norm_num)

section Entities
variable {wsf : Wsf} {config : RuntimeConfig} {events : List Event} {scene : Scene}

/-- A reported delay is one of the configuration or one that was learned. -/
theorem entry_moderate (hlen : events.length < 2 ^ 53) (htimed : ∀ e ∈ events, e.Timed) {r : PlatformRecord}
    {device : Device} {peer : Str × PeerDevice} {entry : Adapter.DeviceConfig}
    (hentry : SimulationExtension.EntryOf config scene (SimulationExtension.run wsf config events) r device peer entry)
    (hconfigured : Moderate (configuredDelayMs config scene device peer.2.device)) : Moderate entry.delayMs := by
  obtain ⟨aggregateDataRate, rfl⟩ := hentry
  show Moderate (SimulationExtension.quality config scene device peer.2.device aggregateDataRate _).delayMs
  rw [SimulationExtension.quality_delay]
  refine SimulationExtension.reported_rule hconfigured fun x hx => ?_
  obtain ⟨link, hlink, hdelay⟩ := Option.bind_eq_some_iff.mp hx
  obtain ⟨key, -, rfl⟩ := Option.map_eq_some_iff.mp hlink
  unfold LinkMemory.delay at hdelay
  split_ifs at hdelay
  have htimely := @SimulationExtension.run_timely wsf config events hlen htimed
  have hread := SimulationExtension.read_within hlen (htimely.total key) (htimely.last key)
  exact Option.some.inj hdelay ▸ moderate_of_within hlen hread.2

theorem entities_sound (hconfig : config.Valid) (hlen : events.length < 2 ^ 53) (htimed : ∀ e ∈ events, e.Timed)
    (hscene : OrdinaryScene config scene) :
    ∀ e ∈ ((SimulationExtension.run wsf config events).collectState wsf config scene).2.entities, SoundEntity e := by
  intro e he
  have halike := SimulationExtension.collectState_alike wsf config scene plainQuality
    (SimulationExtension.run wsf config events)
  obtain ⟨e', he', heq⟩ := halike.entity he
  obtain ⟨⟨hparent, -, hpolicies⟩, hnode, hposition, hvelocity, hheading⟩ := bareEntity_fields heq
  have hid : e.entityId = e'.entityId := (congrArg Adapter.EntityState.entityId heq :)
  have hdevices : ∀ entry ∈ e.devices, entry.peerEntityId ∈ listedIds (platformsOf scene) := by
    intro entry hentry
    obtain ⟨entry', hentry', hpeer⟩ := bareEntity_device heq hentry
    rw [hpeer]
    exact device_peer_listed he' hentry'
  obtain ⟨r, hr, rfl⟩ := List.mem_map.mp he'
  obtain ⟨listed, hmem, rfl⟩ := List.mem_map.mp hr
  change listed ∈ (platformsOf scene).filterMap _ at hmem
  rw [platformsOf_listed] at hmem
  obtain ⟨platform, hplatform, rfl⟩ := List.mem_map.mp hmem
  refine ⟨?_, ?_, hparent, ?_, ?_, ?_, fun entry hentry => ?_, hpolicies⟩
  · rw [hid]
    exact toText_named platform.index
  · rw [hnode]
    exact hscene.names platform hplatform
  · rw [hposition]
    exact hscene.position platform hplatform
  · rw [hvelocity]
    exact hscene.velocity platform hplatform
  · rw [hheading]
    exact hscene.heading platform hplatform
  · obtain ⟨owner, howner, -, device, hdevice, peer, hpeer, hof⟩ :=
      SimulationExtension.entry_of_mem wsf config scene _ he hentry
    have hmoderate := entry_moderate hlen htimed hof (hscene.delays owner howner device hdevice peer hpeer)
    obtain ⟨hkind, hrate, hdelay, hloss, hstate⟩ := hof.inRange (SimulationExtension.run_inRange events) hconfig
    refine ⟨?_, ?_, hkind, hrate, hdelay, hmoderate, hloss, hstate⟩
    · obtain ⟨aggregateDataRate, rfl⟩ := hof
      refine named_of_mem (c := 45) (List.mem_append_left _ (List.mem_append_right _ ?_)) (by decide)
      decide
    · obtain ⟨peerPlatform, -, hpeerId⟩ := List.mem_map.mp (listedIds_platformsOf scene ▸ hdevices entry hentry)
      rw [← hpeerId]
      exact toText_named peerPlatform.index

theorem entities_plainIds (hindices : (scene.listed.map fun platform => platform.index).Nodup)
    (s : SimulationExtension) :
    PlainIds Adapter.EntityState.entityId (s.collectState wsf config scene).2.entities := by
  have halike := SimulationExtension.collectState_alike wsf config scene plainQuality s
  have hids : (s.collectState wsf config scene).2.entities.map Adapter.EntityState.entityId =
      scene.listed.map fun platform => toText platform.index := by
    rw [halike.ids, collectState_ids]
    exact listedIds_platformsOf scene
  constructor
  · rw [hids]
    have hmap : (scene.listed.map fun platform => toText platform.index) =
        (scene.listed.map fun platform => platform.index).map toText := by
      rw [List.map_map]
      rfl
    rw [hmap]
    exact hindices.map fun m n heq => Ticking.toText_injective heq
  · intro e he
    have hmem := List.mem_map_of_mem (f := Adapter.EntityState.entityId) he
    rw [hids] at hmem
    obtain ⟨platform, -, hplatform⟩ := List.mem_map.mp hmem
    rw [← hplatform]
    exact ⟨toText_ne_nil _, Str.trimmed_natText _⟩

/-- **The frame of an ordinary tick is valid**, whatever the plugin has learned of its links. -/
theorem tick_valid (hconfig : config.Valid) (hlen : events.length < 2 ^ 53) (htimed : ∀ e ∈ events, e.Timed)
    (hscene : OrdinaryScene config scene) (hlog : OrdinaryLog scene (observedLog events)) {sub : Submission}
    (hsub : sub.frame = ((SimulationExtension.run wsf config events).collectState wsf config scene).2) : Valid sub := by
  have halike := SimulationExtension.collectState_alike wsf config scene plainQuality
    (SimulationExtension.run wsf config events)
  have hflows := @SimulationExtension.run_flows wsf config events
  have hrecords := run_records hflows
  have hnames := run_names hflows
  have hclosed := closed_of_alike halike ((closed_iff_listed hrecords).mpr hlog.listed)
  have hplain := plainReferences_of_alike halike (collected_plain hrecords)
  have hentityIds := @entities_plainIds wsf config scene hscene.indices (SimulationExtension.run wsf config events)
  have hflowIds := @flows_plainIds _ _ plainQuality (platformsOf scene) hnames hlog.subTypes hlog.apart
  have hentities := @entities_sound wsf config events scene hconfig hlen htimed hscene
  have hsound := @flows_sound _ _ plainQuality (platformsOf scene) hnames hrecords (run_flowsInRange hflows hlog.sizes)
  rw [← hsub] at hclosed hplain hentityIds hentities
  have hframe : sub.frame.flows = _ := hsub ▸ halike.flows
  exact valid_of_readable hentityIds (hframe ▸ hflowIds) (readable_of_sound hentities (hframe ▸ hsound)) hplain hclosed

end Entities

/-! ## Runs -/

/-- What the accessors and callbacks of a run keep to, and what each of its ticks finds. -/
structure Ordinary (config : RuntimeConfig) (events : List Event) : Prop where
  length : events.length < 2 ^ 53
  timed : ∀ e ∈ events, e.Timed
  clock : (Ticking.scenes events).Pairwise fun scene scene' => scene.simTime ≤ scene'.simTime
  ticks : ∀ earlier scene later, events = earlier ++ .tick scene :: later →
    OrdinaryScene config scene ∧ OrdinaryLog scene (observedLog earlier)

section Run
variable {wsf : Wsf} {config : RuntimeConfig} {mRunId : Str} {events : List Event}

theorem submissions_valid (hconfig : config.Valid) (h : Ordinary config events) :
    ∀ sub ∈ Ticking.submissions wsf config mRunId events, Valid sub := by
  intro sub hsub
  obtain ⟨earlier, scene, later, rfl, -, hframe⟩ := Ticking.tick_of_mem hsub
  obtain ⟨hscene, hlog⟩ := h.ticks earlier scene later rfl
  have hlen := h.length
  rw [List.length_append] at hlen
  exact tick_valid hconfig (by omega) (fun e he => h.timed e (List.mem_append_left _ he)) hscene hlog hframe

theorem submissions_ordered (h : Ordinary config events) :
    (Ticking.submissions wsf config mRunId events).Pairwise fun a b => a.timestampMs ≤ b.timestampMs := by
  have htimes : ((Ticking.submissions wsf config mRunId events).map Submission.timestampMs).Pairwise (· ≤ ·) := by
    rw [Ticking.submissions_timestamps, List.pairwise_map]
    refine h.clock.imp_of_mem fun {scene scene'} _ hmem hle => timestampMs_mono hle ?_
    obtain ⟨e, he, hscene⟩ := List.mem_filterMap.mp hmem
    obtain ⟨earlier, later, hsplit⟩ := List.mem_iff_append.mp he
    cases e with
    | callback c => cases hscene
    | tick scene =>
      obtain rfl := Option.some.inj hscene
      exact (h.ticks earlier scene later hsplit).1.time
  rwa [List.pairwise_map] at htimes

end Run

/-- The failed message, and two ticks after it. -/
def radioRun : List Event := radioLoss ++ [.tick (radioScene 2), .tick (radioScene 3)]

theorem radioScene_ordinary {time : ℚ} (h : time ≤ 3) : OrdinaryScene plainConfig (radioScene time) := by
  have hzero : Moderate (.finite 0) := ⟨0, rfl, by rw [abs_zero]; positivity⟩
  have hone : Moderate plainConfig.defaultDelayMs := ⟨1, rfl, by rw [abs_one]; exact one_le_pow₀ (by norm_num)⟩
  have hlisted : (radioScene time).listed = [radioPlatform 1, radioPlatform 2] := rfl
  have hpresent : ∀ index, (radioPlatform index).present = [radioAt index] := fun _ => rfl
  constructor
  · exact h.trans (by norm_num)
  · rw [hlisted]
    decide
  all_goals
    rw [hlisted]
    simp only [List.forall_mem_cons, List.not_mem_nil, false_imp_iff, implies_true, and_true]
  · decide
  · exact ⟨⟨hzero, hzero, hzero⟩, hzero, hzero, hzero⟩
  · exact ⟨⟨hzero, hzero, hzero⟩, hzero, hzero, hzero⟩
  · have hheading : Double.Within 0 360 (.finite 0) := ⟨0, rfl, le_refl 0, by norm_num⟩
    exact ⟨hheading, hheading⟩
  · simp only [hpresent, List.forall_mem_cons, List.not_mem_nil, false_imp_iff, implies_true, and_true]
    exact ⟨fun _ _ => hone, fun _ _ => hone⟩

theorem radioLog_ordinary (time : ℚ) : OrdinaryLog (radioScene time) (observedLog radioLoss) := by
  have hends : ∀ o ∈ observedLog radioLoss, o.ends = some (1, 2) := by decide
  have hkeys : recordedKeys (observedLog radioLoss) = [[toText 1, [], toText 2, [], [], []], [toText 1, [], toText 2, [], [], []]] :=
    rfl
  refine ⟨by decide, by decide, fun o ho source target hsome => ?_, ?_⟩
  · rw [hends o ho] at hsome
    cases hsome
    exact ⟨List.mem_cons_self, List.mem_cons_of_mem _ List.mem_cons_self⟩
  · rw [hkeys]
    decide

theorem radioRun_ordinary : Ordinary plainConfig radioRun := by
  refine ⟨by decide, ?_, ?_, fun earlier scene later hsplit => ?_⟩
  · simp only [radioRun, radioLoss, List.cons_append, List.nil_append, List.forall_mem_cons, List.not_mem_nil,
      false_imp_iff, implies_true, and_true]
    refine ⟨⟨?_, ?_⟩, ⟨?_, ?_⟩, trivial, trivial⟩ <;> norm_num [Callback.time]
  · have hscenes : Ticking.scenes radioRun = [radioScene 2, radioScene 3] := rfl
    rw [hscenes]
    exact List.pairwise_pair.mpr (show (2 : ℚ) ≤ 3 by norm_num)
  · rcases earlier with _ | ⟨a, _ | ⟨b, _ | ⟨c, _ | ⟨d, earlier⟩⟩⟩⟩
    · cases hsplit
    · cases hsplit
    · cases hsplit
      exact ⟨radioScene_ordinary (by norm_num), radioLog_ordinary 2⟩
    · cases hsplit
      exact ⟨radioScene_ordinary (le_refl 3), radioLog_ordinary 3⟩
    · have hlen := congrArg List.length hsplit
      rw [List.length_append, List.length_cons] at hlen
      change 4 = earlier.length + 4 + (later.length + 1) at hlen
      omega

end AfsimNs3.System
