import AfsimNs3.Adapter.GateRuns

/-!
# The profile of a pair

What a line says of links and metrics is merged into one profile for each pair: the last link of the pair gives the
loss rate, the last metric the connectivity, and the delay is the largest one (`profileOf`). So a pair no link is
declared for, in its own direction, keeps the loss rate 1 of a default profile and nothing is delivered
(`loss_free_delivers_iff`), and among several entries of a pair the order decides (`same_decisions_iff`).
-/

namespace AfsimNs3.Adapter.MessageTransportGate

/-! ## What a line says -/

/-- What the gate reads of an entry of `links`. -/
structure LinkEntry where
  sourceEntityId : Bytes
  targetEntityId : Bytes
  up : Bool
  delayMs : ℚ
  lossRate : ℚ
  deriving DecidableEq

/-- What the gate reads of an entry of `metrics`. -/
structure MetricEntry where
  sourceEntityId : Bytes
  targetEntityId : Bytes
  connected : Bool
  latencyMs : ℚ
  deriving DecidableEq

def LinkEntry.pair (link : LinkEntry) : Bytes × Bytes := (link.sourceEntityId, link.targetEntityId)

def MetricEntry.pair (metric : MetricEntry) : Bytes × Bytes := (metric.sourceEntityId, metric.targetEntityId)

section
variable (stod : Bytes → Except Bytes Double)

def linkEntry (object : Bytes) : Except Bytes LinkEntry := do
  let state ← jsonString object (ascii "state")
  let delayMs ← jsonDouble stod object (ascii "delay_ms")
  let lossRate ← jsonDouble stod object (ascii "configured_loss_rate")
  let source ← jsonString object (ascii "source_entity_id")
  let target ← jsonString object (ascii "target_entity_id")
  pure ⟨source, target, state = ascii "UP", delayMs, lossRate⟩

def metricEntry (object : Bytes) : Except Bytes MetricEntry := do
  let source ← jsonString object (ascii "source_entity_id")
  let target ← jsonString object (ascii "target_entity_id")
  let connected ← readConnected object
  let latencyMs ← jsonDouble stod object (ascii "latency_ms")
  pure ⟨source, target, connected, latencyMs⟩

/-- The line is an `ns3_metrics` message with these entries. -/
structure Holds (line : Bytes) (revision : UInt64) (links : List LinkEntry) (metrics : List MetricEntry) : Prop where
  messageType : jsonString line (ascii "message_type") = .ok (ascii "ns3_metrics")
  revision : jsonUint64 line (ascii "revision") = .ok revision
  links : (objectArray line (ascii "links") >>= List.mapM (linkEntry stod)) = .ok links
  metrics : (objectArray line (ascii "metrics") >>= List.mapM (metricEntry stod)) = .ok metrics

end

/-- The profile a link declares. -/
def LinkEntry.profile (link : LinkEntry) : Profile := ⟨link.up, max 0 link.delayMs, max 0 (min 1 link.lossRate)⟩

/-- A metric merged into the profile of its pair. -/
def MetricEntry.merge (profile : Option Profile) (metric : MetricEntry) : Profile :=
  { profile.getD Profile.initial with
    connected := metric.connected
    delayMs := max (profile.getD Profile.initial).delayMs (max 0 metric.latencyMs) }

def putLink (profiles : Profiles) (link : LinkEntry) : Profiles := profiles.put link.pair link.profile

def putMetric (profiles : Profiles) (metric : MetricEntry) : Profiles :=
  profiles.put metric.pair (metric.merge (profiles.get? metric.pair))

section
variable {stod : Bytes → Except Bytes Double}

theorem readLink_eq (profiles : Profiles) (object : Bytes) :
    readLink stod profiles object = putLink profiles <$> linkEntry stod object := by
  simp only [readLink, linkEntry, map_bind, map_pure]
  rfl

theorem readMetric_eq (profiles : Profiles) (object : Bytes) :
    readMetric stod profiles object = putMetric profiles <$> metricEntry stod object := by
  simp only [readMetric, metricEntry, map_bind, map_pure]
  rfl

/-- **The profiles of a line** are those of its entries. -/
theorem readMetrics_eq_some_iff {line : Bytes} {revision : UInt64} {profiles : Profiles} :
    readMetrics stod line = .ok (some (revision, profiles)) ↔
      ∃ links metrics, Holds stod line revision links metrics ∧
        profiles = metrics.foldl putMetric (links.foldl putLink Dict.empty) := by
  have hlink : readLink stod = fun profiles object => putLink profiles <$> linkEntry stod object :=
    funext fun profiles => funext fun object => readLink_eq profiles object
  have hmetric : readMetric stod = fun profiles object => putMetric profiles <$> metricEntry stod object :=
    funext fun profiles => funext fun object => readMetric_eq profiles object
  constructor
  · intro h
    rw [readMetrics, Except.bind_ok_iff] at h
    obtain ⟨messageType, htype, h⟩ := h
    split_ifs at h with hne
    · cases h
    rw [not_not] at hne
    subst hne
    simp only [hlink, hmetric, Except.bind_ok_iff, Except.pure_ok_iff, Except.foldlM_map_ok_iff] at h
    obtain ⟨r, hrevision, linkObjects, hlinks, _, ⟨links, hlinkEntries, rfl⟩, metricObjects, hmetrics, _,
      ⟨metrics, hmetricEntries, rfl⟩, heq⟩ := h
    obtain ⟨rfl, rfl⟩ := Prod.mk.inj (Option.some.inj heq)
    refine ⟨links, metrics, ⟨htype, hrevision, ?_, ?_⟩, rfl⟩
    · rw [hlinks]
      exact hlinkEntries
    · rw [hmetrics]
      exact hmetricEntries
  · rintro ⟨links, metrics, ⟨htype, hrevision, hlinks, hmetrics⟩, rfl⟩
    obtain ⟨linkObjects, hlinkObjects, hlinkEntries⟩ := Except.bind_ok_iff.mp hlinks
    obtain ⟨metricObjects, hmetricObjects, hmetricEntries⟩ := Except.bind_ok_iff.mp hmetrics
    have hlinkFold : linkObjects.foldlM (fun profiles object => putLink profiles <$> linkEntry stod object) Dict.empty =
        .ok (links.foldl putLink Dict.empty) := Except.foldlM_map_ok_iff.mpr ⟨links, hlinkEntries, rfl⟩
    have hmetricFold : metricObjects.foldlM (fun profiles object => putMetric profiles <$> metricEntry stod object)
        (links.foldl putLink Dict.empty) = .ok (metrics.foldl putMetric (links.foldl putLink Dict.empty)) :=
      Except.foldlM_map_ok_iff.mpr ⟨metrics, hmetricEntries, rfl⟩
    rw [readMetrics, htype, Except.ok_bind, if_neg (not_not.mpr rfl), hrevision, Except.ok_bind, hlinkObjects,
      Except.ok_bind, hlink, hlinkFold, Except.ok_bind, hmetricObjects, Except.ok_bind, hmetric, hmetricFold]
    rfl

end

/-! ## The profile -/

def linksOf (links : List LinkEntry) (pair : Bytes × Bytes) : List LinkEntry :=
  links.filter (fun link => link.pair = pair)

def metricsOf (metrics : List MetricEntry) (pair : Bytes × Bytes) : List MetricEntry :=
  metrics.filter (fun metric => metric.pair = pair)

/-- The largest latency of some metrics. -/
def largestLatency (metrics : List MetricEntry) : ℚ :=
  metrics.foldl (fun delay metric => max delay (max 0 metric.latencyMs)) 0

/-- The profile of a pair, from its own links and metrics. -/
def profileOf (links : List LinkEntry) (metrics : List MetricEntry) : Option Profile :=
  let declared := links.getLast?.map LinkEntry.profile
  match metrics.getLast? with
  | none => declared
  | some metric => some
      { connected := metric.connected
        delayMs := max (declared.getD Profile.initial).delayMs (largestLatency metrics)
        lossRate := (declared.getD Profile.initial).lossRate }

theorem largestLatency_concat (metrics : List MetricEntry) (metric : MetricEntry) :
    largestLatency (metrics ++ [metric]) = max (largestLatency metrics) (max 0 metric.latencyMs) := by
  rw [largestLatency, List.foldl_append]
  rfl

theorem largestLatency_perm {metrics metrics' : List MetricEntry} (h : metrics.Perm metrics') :
    largestLatency metrics = largestLatency metrics' :=
  h.foldl_eq' (fun a _ b _ delay => max_right_comm delay (max 0 a.latencyMs) (max 0 b.latencyMs)) 0

/-- The metrics of a pair merged into its declared profile. -/
theorem foldl_merge (links : List LinkEntry) (metrics : List MetricEntry) :
    metrics.foldl (fun profile metric => some (metric.merge profile)) (links.getLast?.map LinkEntry.profile) =
      profileOf links metrics := by
  induction metrics using List.reverseRecOn with
  | nil => rfl
  | append_singleton metrics metric ih =>
    rw [List.foldl_append, ih, List.foldl_cons, List.foldl_nil]
    unfold profileOf
    rw [List.getLast?_concat, largestLatency_concat]
    cases hlast : metrics.getLast? with
    | none =>
      have hempty : metrics = [] := List.getLast?_eq_none_iff.mp hlast
      have hlargest : max (largestLatency metrics) (max 0 metric.latencyMs) = max 0 metric.latencyMs := by
        rw [hempty]
        exact max_eq_right (le_max_left _ _)
      rw [hlargest]
      rfl
    | some last =>
      show some _ = some _
      rw [← max_assoc]
      rfl

/-- **The profile of a pair** depends on the entries of the pair only. -/
theorem get?_profiles (links : List LinkEntry) (metrics : List MetricEntry) (pair : Bytes × Bytes) :
    (metrics.foldl putMetric (links.foldl putLink Dict.empty)).get? pair =
      profileOf (linksOf links pair) (metricsOf metrics pair) := by
  have hlinks : (links.foldl putLink Dict.empty).get? pair = (linksOf links pair).getLast?.map LinkEntry.profile := by
    have hlast : ∀ (links : List LinkEntry), links.foldl (fun _ link => some link.profile) none =
        links.getLast?.map LinkEntry.profile := by
      intro links
      induction links using List.reverseRecOn with
      | nil => rfl
      | append_singleton links link _ => rw [List.foldl_append, List.getLast?_concat]; rfl
    have hfold := Dict.get?_foldl_update LinkEntry.pair (fun _ link => link.profile) links Dict.empty pair
    exact hfold.trans (hlast _)
  have hmetrics := Dict.get?_foldl_update MetricEntry.pair (fun profile metric => metric.merge profile) metrics
    (links.foldl putLink Dict.empty) pair
  rw [hlinks] at hmetrics
  exact hmetrics.trans (foldl_merge _ _)

/-! ## Decisions -/

section
variable {stod : Bytes → Except Bytes Double} {gate gate' : MessageTransportGate} {line : Bytes}

/-- A gate that adopts a line holds the profiles of its entries. -/
theorem get?_of_adopted (h : gate.updateFromMetricsJson stod line = .ok (gate', true)) {revision : UInt64}
    {links : List LinkEntry} {metrics : List MetricEntry} (hholds : Holds stod line revision links metrics) :
    gate'.mLatestRevision = revision ∧ ∀ pair, gate'.mProfiles.get? pair =
      profileOf (linksOf links pair) (metricsOf metrics pair) := by
  have hread := readMetrics_eq_some_iff.mpr ⟨links, metrics, hholds, rfl⟩
  rw [updateFromMetricsJson, hread] at h
  have hadopted := Except.ok.inj h
  unfold accept at hadopted
  dsimp only at hadopted
  split_ifs at hadopted with hrevision
  · cases (Prod.mk.inj hadopted).2
  · obtain rfl := (Prod.mk.inj hadopted).1
    exact ⟨rfl, get?_profiles links metrics⟩

theorem unitDraw_nonneg (source target : Bytes) (messageSerial revision : UInt64) :
    0 ≤ unitDraw source target messageSerial revision := by
  unfold unitDraw
  positivity

/-- Of a connected pair nothing is lost at the rate 0. -/
theorem decide_of_loss_zero {source target : Bytes} {profile : Profile}
    (h : gate.mProfiles.get? (source, target) = some profile) (hconnected : profile.connected = true)
    (hloss : profile.lossRate = 0) (messageSerial : UInt64) :
    (gate.decide source target messageSerial).disposition = .deliver := by
  have hdraw : ¬ (1 ≤ profile.lossRate ∨
      unitDraw source target messageSerial gate.mLatestRevision < profile.lossRate) := by
    rw [hloss, not_or, not_lt]
    exact ⟨by norm_num, unitDraw_nonneg _ _ _ _⟩
  rw [MessageTransportGate.decide, h]
  dsimp only
  rw [hconnected, if_neg (by decide), if_neg hdraw]

/-- And everything at the rate 1. -/
theorem decide_of_loss_one {source target : Bytes} {profile : Profile}
    (h : gate.mProfiles.get? (source, target) = some profile) (hconnected : profile.connected = true)
    (hloss : profile.lossRate = 1) (messageSerial : UInt64) :
    (gate.decide source target messageSerial).disposition = .drop := by
  rw [MessageTransportGate.decide, h]
  dsimp only
  rw [hconnected, if_neg (by decide), if_pos (.inl (le_of_eq hloss.symm))]

/-- The last metric and the last link of a pair that has metrics. -/
theorem profileOf_eq (links : List LinkEntry) {metrics : List MetricEntry} {metric : MetricEntry}
    (h : metrics.getLast? = some metric) : ∃ profile, profileOf links metrics = some profile ∧
      profile.connected = metric.connected ∧
      profile.lossRate = ((links.getLast?.map LinkEntry.profile).getD Profile.initial).lossRate := by
  unfold profileOf
  rw [h]
  exact ⟨_, rfl, rfl, rfl⟩

theorem mem_linksOf {links : List LinkEntry} {pair : Bytes × Bytes} {link : LinkEntry} :
    link ∈ linksOf links pair ↔ link ∈ links ∧ link.pair = pair := by
  rw [linksOf, List.mem_filter, decide_eq_true_eq]

theorem mem_metricsOf {metrics : List MetricEntry} {pair : Bytes × Bytes} {metric : MetricEntry} :
    metric ∈ metricsOf metrics pair ↔ metric ∈ metrics ∧ metric.pair = pair := by
  rw [metricsOf, List.mem_filter, decide_eq_true_eq]

/-- **Between loss-free connected ends messages are delivered exactly when a link is declared from one to the other**,
in that direction. -/
theorem loss_free_delivers_iff (hadopted : gate.updateFromMetricsJson stod line = .ok (gate', true)) {revision : UInt64}
    {links : List LinkEntry} {metrics : List MetricEntry} (hholds : Holds stod line revision links metrics)
    (hloss : ∀ link ∈ links, link.lossRate = 0) {source target : Bytes}
    (hmeasured : ∃ metric ∈ metrics, metric.pair = (source, target))
    (hconnected : ∀ metric ∈ metrics, metric.pair = (source, target) → metric.connected = true) :
    (∀ messageSerial, (gate'.decide source target messageSerial).disposition = .deliver) ↔
      ∃ link ∈ links, link.pair = (source, target) := by
  obtain ⟨-, hprofile⟩ := get?_of_adopted hadopted hholds
  obtain ⟨first, hfirst, hpair⟩ := hmeasured
  obtain ⟨metric, hlast⟩ : ∃ metric, (metricsOf metrics (source, target)).getLast? = some metric := by
    apply Option.ne_none_iff_exists'.mp
    intro hnone
    have hmem := mem_metricsOf.mpr ⟨hfirst, hpair⟩
    rw [List.getLast?_eq_none_iff.mp hnone] at hmem
    exact absurd hmem List.not_mem_nil
  obtain ⟨hmetric, hmetricPair⟩ := mem_metricsOf.mp (List.mem_of_getLast? hlast)
  obtain ⟨profile, hsome, hup, hrate⟩ := profileOf_eq (linksOf links (source, target)) hlast
  have hget : gate'.mProfiles.get? (source, target) = some profile := (hprofile _).trans hsome
  rw [hconnected metric hmetric hmetricPair] at hup
  cases hdeclared : (linksOf links (source, target)).getLast? with
  | none =>
    rw [hdeclared] at hrate
    refine iff_of_false (fun hdeliver => ?_) fun ⟨link, hlink, hpair⟩ => ?_
    · have hdrop := decide_of_loss_one hget hup hrate 0
      rw [hdeliver 0] at hdrop
      cases hdrop
    · have hmem := mem_linksOf.mpr ⟨hlink, hpair⟩
      rw [List.getLast?_eq_none_iff.mp hdeclared] at hmem
      exact absurd hmem List.not_mem_nil
  | some link =>
    obtain ⟨hlink, hlinkPair⟩ := mem_linksOf.mp (List.mem_of_getLast? hdeclared)
    have hzero : profile.lossRate = 0 := by
      rw [hrate, hdeclared]
      show max 0 (min 1 link.lossRate) = 0
      rw [hloss link hlink]
      norm_num
    exact iff_of_true (decide_of_loss_zero hget hup hzero) ⟨link, hlink, hlinkPair⟩

end

/-! ## The order of the entries -/

/-- The entries of a pair that count, the last ones, agree between two orders. -/
structure LastAgree (links links' : List LinkEntry) (metrics metrics' : List MetricEntry) : Prop where
  connected : ∀ metric ∈ metrics.getLast?, ∀ metric' ∈ metrics'.getLast?, metric.connected = metric'.connected
  up : metrics = [] → ∀ link ∈ links.getLast?, ∀ link' ∈ links'.getLast?, link.up = link'.up
  loss : ∀ link ∈ links.getLast?, ∀ link' ∈ links'.getLast?, max 0 (min 1 link.lossRate) = max 0 (min 1 link'.lossRate)
  delay : ∀ link ∈ links.getLast?, ∀ link' ∈ links'.getLast?,
    max (max 0 link.delayMs) (largestLatency metrics) = max (max 0 link'.delayMs) (largestLatency metrics)

/-- The profile of a pair is the same exactly when the last entries agree. -/
theorem profileOf_eq_iff {links links' : List LinkEntry} {metrics metrics' : List MetricEntry}
    (hlinks : links.Perm links') (hmetrics : metrics.Perm metrics') :
    profileOf links metrics = profileOf links' metrics' ↔ LastAgree links links' metrics metrics' := by
  have hlargest := largestLatency_perm hmetrics
  have hagree : LastAgree links links' metrics metrics' ↔
      (∀ metric ∈ metrics.getLast?, ∀ metric' ∈ metrics'.getLast?, metric.connected = metric'.connected) ∧
      ∀ link ∈ links.getLast?, ∀ link' ∈ links'.getLast?, (metrics = [] → link.up = link'.up) ∧
        max 0 (min 1 link.lossRate) = max 0 (min 1 link'.lossRate) ∧
        max (max 0 link.delayMs) (largestLatency metrics) = max (max 0 link'.delayMs) (largestLatency metrics) := by
    constructor
    · rintro ⟨hconnected, hup, hloss, hdelay⟩
      exact ⟨hconnected, fun link h link' h' => ⟨fun hempty => hup hempty link h link' h', hloss link h link' h',
        hdelay link h link' h'⟩⟩
    · rintro ⟨hconnected, hlink⟩
      exact ⟨hconnected, fun hempty link h link' h' => (hlink link h link' h').1 hempty,
        fun link h link' h' => (hlink link h link' h').2.1, fun link h link' h' => (hlink link h link' h').2.2⟩
  rw [hagree, profileOf, profileOf, ← hlargest]
  rcases hmetrics.getLast?_cases with ⟨hnone, hnone'⟩ | ⟨metric, metric', hlast, hlast'⟩
  · obtain rfl : metrics = [] := List.getLast?_eq_none_iff.mp hnone
    have hdeclared : ∀ link : LinkEntry, max (max 0 link.delayMs) (largestLatency []) = max 0 link.delayMs := fun link =>
      max_eq_left (le_max_left 0 _)
    rcases hlinks.getLast?_cases with ⟨hlink, hlink'⟩ | ⟨link, link', hlink, hlink'⟩
    · simp [hnone', hlink, hlink']
    · simp only [List.getLast?_nil, hnone', hlink, hlink', hdeclared, LinkEntry.profile, Option.map_some,
        Option.some.injEq, Profile.mk.injEq, Option.mem_def, forall_eq', reduceCtorEq, false_imp_iff, implies_true,
        true_and, true_imp_iff]
      tauto
  · have hne : metrics ≠ [] := by
      rintro rfl
      cases hlast
    rcases hlinks.getLast?_cases with ⟨hlink, hlink'⟩ | ⟨link, link', hlink, hlink'⟩
    · simp [hlast, hlast', hlink, hlink']
    · simp only [hlast, hlast', hlink, hlink', LinkEntry.profile, Option.map_some, Option.getD_some, Option.some.injEq,
        Profile.mk.injEq, Option.mem_def, forall_eq', hne, false_imp_iff, true_and]
      tauto

/-- A decision tells the profile it was made by. -/
theorem decide_of_some {gate : MessageTransportGate} {source target : Bytes} {profile : Profile}
    (h : gate.mProfiles.get? (source, target) = some profile) (messageSerial : UInt64) :
    (gate.decide source target messageSerial).delayMs = profile.delayMs ∧
    (gate.decide source target messageSerial).lossRate = profile.lossRate ∧
    ((gate.decide source target messageSerial).reason = ascii "LINK_DOWN" ↔ profile.connected = false) ∧
    (gate.decide source target messageSerial).reason ≠ ascii "NO_NETWORK_PROFILE" := by
  have hloss : ascii "PACKET_LOSS" ≠ ascii "LINK_DOWN" ∧ ascii "PACKET_LOSS" ≠ ascii "NO_NETWORK_PROFILE" := by decide
  have hnone : ascii "NONE" ≠ ascii "LINK_DOWN" ∧ ascii "NONE" ≠ ascii "NO_NETWORK_PROFILE" := by decide
  have hdown : ascii "LINK_DOWN" ≠ ascii "NO_NETWORK_PROFILE" := by decide
  rw [MessageTransportGate.decide, h]
  dsimp only
  cases hconnected : profile.connected with
  | false => exact ⟨rfl, rfl, iff_of_true rfl rfl, hdown⟩
  | true =>
    rw [if_neg (by decide)]
    split_ifs
    · exact ⟨rfl, rfl, iff_of_false hloss.1 (by decide), hloss.2⟩
    · exact ⟨rfl, rfl, iff_of_false hnone.1 (by decide), hnone.2⟩

theorem decide_of_none {gate : MessageTransportGate} {source target : Bytes}
    (h : gate.mProfiles.get? (source, target) = none) (messageSerial : UInt64) :
    (gate.decide source target messageSerial).reason = ascii "NO_NETWORK_PROFILE" := by
  rw [MessageTransportGate.decide, h]

/-- Two gates of one revision decide alike about a pair exactly when they hold the same profile of it. -/
theorem decide_eq_iff {gate gate' : MessageTransportGate} (hrevision : gate.mLatestRevision = gate'.mLatestRevision)
    {source target : Bytes} :
    (∀ messageSerial, gate.decide source target messageSerial = gate'.decide source target messageSerial) ↔
      gate.mProfiles.get? (source, target) = gate'.mProfiles.get? (source, target) := by
  constructor
  · intro h
    have hsame := h 0
    cases hprofile : gate.mProfiles.get? (source, target) with
    | none =>
      cases hprofile' : gate'.mProfiles.get? (source, target) with
      | none => rfl
      | some profile' =>
        have hreason := decide_of_none hprofile 0
        rw [hsame] at hreason
        exact absurd hreason (decide_of_some hprofile' 0).2.2.2
    | some profile =>
      obtain ⟨hdelay, hloss, hdown, hreason⟩ := decide_of_some hprofile 0
      cases hprofile' : gate'.mProfiles.get? (source, target) with
      | none =>
        rw [hsame] at hreason
        exact absurd (decide_of_none hprofile' 0) hreason
      | some profile' =>
        obtain ⟨hdelay', hloss', hdown', -⟩ := decide_of_some hprofile' 0
        rw [hsame] at hdelay hloss hdown
        have hconnected : profile.connected = profile'.connected := by
          rw [Bool.eq_iff_iff, ← not_iff_not, Bool.not_eq_true, Bool.not_eq_true, ← hdown, ← hdown']
        obtain ⟨connected, delayMs, lossRate⟩ := profile
        obtain ⟨connected', delayMs', lossRate'⟩ := profile'
        obtain rfl : connected = connected' := hconnected
        obtain rfl : delayMs = delayMs' := hdelay.symm.trans hdelay'
        obtain rfl : lossRate = lossRate' := hloss.symm.trans hloss'
        rfl
  · intro h messageSerial
    rw [MessageTransportGate.decide, MessageTransportGate.decide, h, hrevision]

/-- **Among the entries of a pair the last ones decide**: two orders of the same entries give the same decisions exactly
when the last entries agree. -/
theorem same_decisions_iff {stod : Bytes → Except Bytes Double} {gate gate' adopter adopter' : MessageTransportGate}
    {line line' : Bytes} (hadopted : gate.updateFromMetricsJson stod line = .ok (adopter, true))
    (hadopted' : gate'.updateFromMetricsJson stod line' = .ok (adopter', true)) {revision : UInt64}
    {links links' : List LinkEntry} {metrics metrics' : List MetricEntry} (hholds : Holds stod line revision links metrics)
    (hholds' : Holds stod line' revision links' metrics') (hlinks : links.Perm links')
    (hmetrics : metrics.Perm metrics') :
    (∀ source target messageSerial, adopter.decide source target messageSerial =
      adopter'.decide source target messageSerial) ↔
    ∀ pair, LastAgree (linksOf links pair) (linksOf links' pair) (metricsOf metrics pair) (metricsOf metrics' pair) := by
  obtain ⟨hrevision, hprofile⟩ := get?_of_adopted hadopted hholds
  obtain ⟨hrevision', hprofile'⟩ := get?_of_adopted hadopted' hholds'
  have hpair : ∀ source target, (∀ messageSerial, adopter.decide source target messageSerial =
      adopter'.decide source target messageSerial) ↔ LastAgree (linksOf links (source, target))
        (linksOf links' (source, target)) (metricsOf metrics (source, target)) (metricsOf metrics' (source, target)) := by
    intro source target
    rw [decide_eq_iff (hrevision.trans hrevision'.symm), hprofile, hprofile']
    exact profileOf_eq_iff (hlinks.filter _) (hmetrics.filter _)
  constructor
  · rintro h ⟨source, target⟩
    exact (hpair source target).mp (h source target)
  · intro h source target
    exact (hpair source target).mpr (h (source, target))

/-! ## Lines -/

def linkText (source target lossRate : String) : Bytes :=
  ascii "\x7b\"source_entity_id\":\"" ++ ascii source ++ ascii "\",\"target_entity_id\":\"" ++ ascii target ++
    ascii "\",\"delay_ms\":0,\"configured_loss_rate\":" ++ ascii lossRate ++ ascii ",\"state\":\"UP\"\x7d"

def metricText (source target : String) : Bytes :=
  ascii "\x7b\"source_entity_id\":\"" ++ ascii source ++ ascii "\",\"target_entity_id\":\"" ++ ascii target ++
    ascii "\",\"connected\":true,\"latency_ms\":0,\"loss_rate\":0,\"link_state\":\"UP\"\x7d"

def networkLine (links metrics : Bytes) : Bytes :=
  ascii "\x7b\"message_type\":\"ns3_metrics\",\"revision\":1,\"links\":[" ++ links ++ ascii "],\"metrics\":[" ++
    metrics ++ ascii "]\x7d"

/-- A link between A and B, declared by A, and a flow from B to A. -/
def backLine : Bytes := networkLine (linkText "A" "B" "0") (metricText "B" "A")

theorem holds_iff {stod : Bytes → Except Bytes Double} {line : Bytes} {revision : UInt64} {links : List LinkEntry}
    {metrics : List MetricEntry} : Holds stod line revision links metrics ↔
      jsonString line (ascii "message_type") = .ok (ascii "ns3_metrics") ∧
      jsonUint64 line (ascii "revision") = .ok revision ∧
      (objectArray line (ascii "links") >>= List.mapM (linkEntry stod)) = .ok links ∧
      (objectArray line (ascii "metrics") >>= List.mapM (metricEntry stod)) = .ok metrics := by
  constructor
  · intro h
    exact ⟨h.messageType, h.revision, h.links, h.metrics⟩
  · rintro ⟨hmessageType, hrevision, hlinks, hmetrics⟩
    exact ⟨hmessageType, hrevision, hlinks, hmetrics⟩

theorem back_holds : Holds stodBit backLine 1 [⟨ascii "A", ascii "B", true, 0, 0⟩] [⟨ascii "B", ascii "A", true, 0⟩] := by
  unfold backLine networkLine linkText metricText
  repeat rw [ascii_ofList]
  rw [holds_iff]
  decide +kernel

/-- The gate after a line. -/
def fedOnce (line : Bytes) : MessageTransportGate := new.handle stodBit line

/-- A line of a revision above 0 is adopted by a fresh gate. -/
theorem adopted_of_holds {line : Bytes} {links : List LinkEntry} {metrics : List MetricEntry}
    (h : Holds stodBit line 1 links metrics) : new.updateFromMetricsJson stodBit line = .ok (fedOnce line, true) := by
  have hread := readMetrics_eq_some_iff.mpr ⟨links, metrics, h, rfl⟩
  rw [fedOnce, handle, updateFromMetricsJson, hread]
  rfl

/-- **Nothing is delivered against the declared direction**, although the pair is connected and loss-free. -/
theorem connected_pair_drops : ∃ gate, new.updateFromMetricsJson stodBit backLine = .ok (gate, true) ∧
    Holds stodBit backLine 1 [⟨ascii "A", ascii "B", true, 0, 0⟩] [⟨ascii "B", ascii "A", true, 0⟩] ∧
    (∀ object ∈ [metricText "B" "A"], jsonDouble stodBit object (ascii "loss_rate") = .ok 0) ∧
    ∀ messageSerial, (gate.decide (ascii "B") (ascii "A") messageSerial).disposition = .drop := by
  refine ⟨fedOnce backLine, adopted_of_holds back_holds, back_holds, ?_, fun messageSerial => ?_⟩
  · rw [List.forall_mem_singleton]
    unfold metricText
    repeat rw [ascii_ofList]
    decide +kernel
  · have hprofile : (fedOnce backLine).mProfiles.get? (ascii "B", ascii "A") = some ⟨true, 0, 1⟩ := by
      rw [(get?_of_adopted (adopted_of_holds back_holds) back_holds).2]
      decide +kernel
    exact decide_of_loss_one hprofile rfl rfl messageSerial

/-- A line with a link and a flow in the same direction. -/
def forthLine : Bytes := networkLine (linkText "A" "B" "0") (metricText "A" "B")

theorem declared_pair_delivers : ((fedOnce forthLine).decide (ascii "A") (ascii "B") 7).disposition = .deliver := by
  have hholds : Holds stodBit forthLine 1 [⟨ascii "A", ascii "B", true, 0, 0⟩] [⟨ascii "A", ascii "B", true, 0⟩] := by
    unfold forthLine networkLine linkText metricText
    repeat rw [ascii_ofList]
    rw [holds_iff]
    decide +kernel
  refine (loss_free_delivers_iff (adopted_of_holds hholds) hholds ?_ ⟨_, List.mem_singleton_self _, rfl⟩ ?_).mpr
    ⟨_, List.mem_singleton_self _, rfl⟩ 7
  · rw [List.forall_mem_singleton]
  · rw [List.forall_mem_singleton]
    exact fun _ => rfl

/-- Two links from A to B, by their loss rates. -/
def doubleLine (first second : String) : Bytes :=
  networkLine (linkText "A" "B" first ++ ascii "," ++ linkText "A" "B" second) (metricText "A" "B")

theorem zeroFirst_holds : Holds stodBit (doubleLine "0" "1") 1
    [⟨ascii "A", ascii "B", true, 0, 0⟩, ⟨ascii "A", ascii "B", true, 0, 1⟩] [⟨ascii "A", ascii "B", true, 0⟩] := by
  unfold doubleLine networkLine linkText metricText
  repeat rw [ascii_ofList]
  rw [holds_iff]
  decide +kernel

theorem oneFirst_holds : Holds stodBit (doubleLine "1" "0") 1
    [⟨ascii "A", ascii "B", true, 0, 1⟩, ⟨ascii "A", ascii "B", true, 0, 0⟩] [⟨ascii "A", ascii "B", true, 0⟩] := by
  unfold doubleLine networkLine linkText metricText
  repeat rw [ascii_ofList]
  rw [holds_iff]
  decide +kernel

theorem swapped_losses_differ : ¬ ∀ source target messageSerial,
    (fedOnce (doubleLine "0" "1")).decide source target messageSerial =
      (fedOnce (doubleLine "1" "0")).decide source target messageSerial := by
  intro h
  have hagree := (same_decisions_iff (adopted_of_holds zeroFirst_holds) (adopted_of_holds oneFirst_holds) zeroFirst_holds
    oneFirst_holds (List.Perm.swap _ _ _) (List.Perm.refl _)).mp h (ascii "A", ascii "B")
  exact absurd (hagree.loss ⟨ascii "A", ascii "B", true, 0, 1⟩ (by decide +kernel) ⟨ascii "A", ascii "B", true, 0, 0⟩
    (by decide +kernel)) (by decide +kernel)

/-- **The last of two links decides**: a message is dropped or delivered by the order of the links in the line. -/
theorem last_link_decides :
    new.updateFromMetricsJson stodBit (doubleLine "0" "1") = .ok (fedOnce (doubleLine "0" "1"), true) ∧
    new.updateFromMetricsJson stodBit (doubleLine "1" "0") = .ok (fedOnce (doubleLine "1" "0"), true) ∧
    objectArray (doubleLine "0" "1") (ascii "links") = .ok [linkText "A" "B" "0", linkText "A" "B" "1"] ∧
    objectArray (doubleLine "1" "0") (ascii "links") = .ok [linkText "A" "B" "1", linkText "A" "B" "0"] ∧
    objectArray (doubleLine "0" "1") (ascii "metrics") = objectArray (doubleLine "1" "0") (ascii "metrics") ∧
    ∀ messageSerial,
      ((fedOnce (doubleLine "0" "1")).decide (ascii "A") (ascii "B") messageSerial).disposition = .drop ∧
      ((fedOnce (doubleLine "1" "0")).decide (ascii "A") (ascii "B") messageSerial).disposition = .deliver := by
  have hdrop : (fedOnce (doubleLine "0" "1")).mProfiles.get? (ascii "A", ascii "B") = some ⟨true, 0, 1⟩ := by
    rw [(get?_of_adopted (adopted_of_holds zeroFirst_holds) zeroFirst_holds).2]
    decide +kernel
  have hdeliver : (fedOnce (doubleLine "1" "0")).mProfiles.get? (ascii "A", ascii "B") = some ⟨true, 0, 0⟩ := by
    rw [(get?_of_adopted (adopted_of_holds oneFirst_holds) oneFirst_holds).2]
    decide +kernel
  have harrays : objectArray (doubleLine "0" "1") (ascii "links") = .ok [linkText "A" "B" "0", linkText "A" "B" "1"] ∧
      objectArray (doubleLine "1" "0") (ascii "links") = .ok [linkText "A" "B" "1", linkText "A" "B" "0"] ∧
      objectArray (doubleLine "0" "1") (ascii "metrics") = objectArray (doubleLine "1" "0") (ascii "metrics") := by
    unfold doubleLine networkLine linkText metricText
    repeat rw [ascii_ofList]
    decide +kernel
  obtain ⟨hzeroFirst, honeFirst, hmetrics⟩ := harrays
  exact ⟨adopted_of_holds zeroFirst_holds, adopted_of_holds oneFirst_holds, hzeroFirst, honeFirst, hmetrics,
    fun messageSerial => ⟨decide_of_loss_one hdrop rfl rfl messageSerial,
      decide_of_loss_zero hdeliver rfl rfl messageSerial⟩⟩

end AfsimNs3.Adapter.MessageTransportGate
