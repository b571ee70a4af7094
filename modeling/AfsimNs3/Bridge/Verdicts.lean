import AfsimNs3.Bridge.Effects

/-!
# The verdict on a direction

Flows are unique by ID, so any number of metrics may go from one entity to another. `by_direction` keeps the last of
them (`byDirection_get?`), and an effect is the verdict on that one. A worse list of metrics never gives a milder effect
(`effects_monotone`); effects are fail-safe exactly when the metrics of each direction are judged alike
(`failSafe_iff`).
-/

namespace AfsimNs3.Bridge
open Ns3Runner (FlowMetric MetricValues)

/-- The metric goes from one entity to the other. -/
def Goes (direction : Str × Str) (metric : FlowMetric) : Prop :=
  (metric.sourceEntityId, metric.targetEntityId) = direction

instance (direction : Str × Str) : DecidablePred (Goes direction) := fun _ => inferInstanceAs (Decidable (_ = _))

/-- The values of the metrics of a direction. -/
def entriesOf (metrics : List FlowMetric) (direction : Str × Str) : List MetricValues :=
  (metrics.filter (fun metric => Goes direction metric)).map FlowMetric.values

/-- The policies of a snapshot, each with its entity, in the order of the snapshot. -/
def policies (snapshot : StateSnapshot) : List (EntityState × EffectPolicy) :=
  snapshot.entities.flatMap fun entity => entity.effectPolicies.map fun policy => (entity, policy)

def direction (p : EntityState × EffectPolicy) : Str × Str := (p.1.entityId, p.2.peerEntityId)

/-- The effect of a policy. -/
def effectOf (metrics : List FlowMetric) (p : EntityState × EffectPolicy) : Effect :=
  let verdict := evaluatePolicy p.2 (entriesOf metrics (direction p)).getLast?
  { entityId := p.1.entityId
    businessNodeId := p.1.businessNodeId
    policy := p.2
    state := verdict.1
    reasons := verdict.2 }

theorem entriesOf_cons (metric : FlowMetric) (metrics : List FlowMetric) (d : Str × Str) :
    entriesOf (metric :: metrics) d =
      if Goes d metric then metric.values :: entriesOf metrics d else entriesOf metrics d := by
  unfold entriesOf
  by_cases h : Goes d metric
  · simp [h]
  · simp [h]

theorem entriesOf_append (metrics metrics' : List FlowMetric) (d : Str × Str) :
    entriesOf (metrics ++ metrics') d = entriesOf metrics d ++ entriesOf metrics' d := by
  rw [entriesOf, List.filter_append, List.map_append]
  rfl

/-- The last metric of a direction counts. -/
theorem byDirection_get? (metrics : List FlowMetric) (d : Str × Str) :
    (byDirection metrics).get? d = (entriesOf metrics d).getLast? := by
  rw [byDirection, Dict.get?_ofList_eq, List.filter_map, List.map_map]
  rfl

theorem evaluateEffects_eq (snapshot : StateSnapshot) (metrics : List FlowMetric) :
    evaluateEffects snapshot metrics = (policies snapshot).map (effectOf metrics) := by
  rw [evaluateEffects, policies, List.map_flatMap]
  congr 1
  funext entity
  rw [List.map_map]
  congr 1
  funext policy
  rw [byDirection_get?]
  rfl

/-! ## Worse metrics -/

def EffectState.severity : EffectState → ℕ
  | .available => 0
  | .degraded => 1
  | .blocked => 2

/-- The second values are no better than the first. -/
structure NoBetter (v v' : MetricValues) : Prop where
  connected : v'.connected = true → v.connected = true
  latency : v.latencyMs.NotBelow v'.latencyMs
  loss : v.lossRate.NotBelow v'.lossRate
  throughput : v'.throughputBps.NotBelow v.throughputBps

theorem missedThresholds_eq_nil_iff {policy : EffectPolicy} {v : MetricValues} : missedThresholds policy v = [] ↔
    v.latencyMs.above policy.maxDelayMs = false ∧ v.lossRate.above policy.maxLossRate = false ∧
      v.throughputBps.below policy.minThroughputBps = false := by
  unfold missedThresholds
  split_ifs <;> simp_all

/-- A threshold that is missed is missed by worse values. -/
theorem NoBetter.missed {policy : EffectPolicy} {v v' : MetricValues} (h : NoBetter v v')
    (hv' : missedThresholds policy v' = []) : missedThresholds policy v = [] := by
  rw [missedThresholds_eq_nil_iff] at hv' ⊢
  obtain ⟨hlatency, hloss, hthroughput⟩ := hv'
  refine ⟨Bool.eq_false_iff.mpr fun habove => ?_, Bool.eq_false_iff.mpr fun habove => ?_,
    Bool.eq_false_iff.mpr fun hbelow => ?_⟩
  · exact Bool.eq_false_iff.mp hlatency (h.latency.above habove)
  · exact Bool.eq_false_iff.mp hloss (h.loss.above habove)
  · exact Bool.eq_false_iff.mp hthroughput (h.throughput.below hbelow)

theorem severity_le_blocked (state : EffectState) : state.severity ≤ EffectState.blocked.severity := by
  cases state <;> decide

/-- The verdict on worse values is no milder. Without values and without a connection it is the worst there is. -/
theorem evaluatePolicy_monotone (policy : EffectPolicy) {v v' : Option MetricValues} (h : Option.Rel NoBetter v v') :
    (evaluatePolicy policy v).1.severity ≤ (evaluatePolicy policy v').1.severity := by
  rcases h with @⟨v, v', h⟩ | _
  · by_cases hconnected : v'.connected = true
    · have hfirst := h.connected hconnected
      by_cases hmissed : missedThresholds policy v' = []
      · have hmissed' := h.missed hmissed
        simp [evaluatePolicy, hconnected, hfirst, hmissed, hmissed']
      · by_cases hmissed' : missedThresholds policy v = []
        · simp [evaluatePolicy, hfirst, hmissed', EffectState.severity]
        · simp [evaluatePolicy, hconnected, hfirst, hmissed, hmissed']
    · have hblocked : (evaluatePolicy policy (some v')).1 = .blocked := by simp [evaluatePolicy, hconnected]
      rw [hblocked]
      exact severity_le_blocked _
  · exact Nat.le_refl _

theorem entriesOf_rel {metrics metrics' : List FlowMetric}
    (h : List.Forall₂ (fun m m' => m'.sourceEntityId = m.sourceEntityId ∧ m'.targetEntityId = m.targetEntityId ∧
      NoBetter m.values m'.values) metrics metrics') (d : Str × Str) :
    List.Forall₂ NoBetter (entriesOf metrics d) (entriesOf metrics' d) := by
  induction h with
  | nil => exact .nil
  | @cons m m' metrics metrics' hm _ ih =>
    obtain ⟨hsource, htarget, hvalues⟩ := hm
    have hsame : Goes d m' ↔ Goes d m := by rw [Goes, Goes, hsource, htarget]
    rw [entriesOf_cons, entriesOf_cons]
    by_cases hgoes : Goes d m
    · rw [if_pos hgoes, if_pos (hsame.mpr hgoes)]
      exact .cons hvalues ih
    · rw [if_neg hgoes, if_neg (mt hsame.mp hgoes)]
      exact ih

/-- **Worse metrics never improve a subsystem.** -/
theorem effects_monotone (snapshot : StateSnapshot) {metrics metrics' : List FlowMetric}
    (h : List.Forall₂ (fun m m' => m'.sourceEntityId = m.sourceEntityId ∧ m'.targetEntityId = m.targetEntityId ∧
      NoBetter m.values m'.values) metrics metrics') :
    List.Forall₂ (fun effect effect' => effect'.entityId = effect.entityId ∧ effect'.policy = effect.policy ∧
      effect.state.severity ≤ effect'.state.severity)
      (evaluateEffects snapshot metrics) (evaluateEffects snapshot metrics') := by
  rw [evaluateEffects_eq, evaluateEffects_eq, List.forall₂_map_left_iff, List.forall₂_map_right_iff, List.forall₂_same]
  intro p _
  exact ⟨rfl, rfl, evaluatePolicy_monotone p.2 (entriesOf_rel h (direction p)).getLast?⟩

/-- A weapon that needs a fast way to the other entity. -/
def weaponSnapshot : StateSnapshot :=
  { timestampMs := 0
    entities := [
      ⟨str "A", str "A", none, ⟨0, 0, 0⟩, ⟨0, 0, 0⟩, 0, true, [⟨str "d", str "B", .wired, 1000, 0, 0, .up⟩],
        [⟨str "W", .weapon, str "B", 10, 0, 0, .blocked⟩]⟩,
      ⟨str "B", str "B", none, ⟨0, 0, 0⟩, ⟨0, 0, 0⟩, 0, true, [], []⟩]
    flows := [⟨str "f", str "A", str "B", 64, 10, 100, false⟩, ⟨str "g", str "A", str "B", 64, 10, 100, true⟩]
    revision := 1 }

/-- A metric of a flow from A to B. -/
def weaponMetric (flowId : Str) (connected : Bool) (latencyMs : ℚ) : FlowMetric :=
  ⟨flowId, str "A", str "B", ⟨connected, .finite latencyMs, .finite 0, .finite 1000, 10, 10,
    if connected then str "UP" else str "DOWN"⟩, str "A->B"⟩

theorem slower_weapon_no_milder :
    List.Forall₂ (fun effect effect' => effect'.entityId = effect.entityId ∧ effect'.policy = effect.policy ∧
      effect.state.severity ≤ effect'.state.severity)
      (evaluateEffects weaponSnapshot [weaponMetric (str "g") true 5])
      (evaluateEffects weaponSnapshot [weaponMetric (str "g") true 20]) := by
  have hslower : Double.NotBelow (.finite 5) (.finite 20) := .inr (by decide +kernel)
  exact effects_monotone weaponSnapshot (.cons ⟨rfl, rfl, id, hslower, .inl rfl, .inl rfl⟩ .nil)

/-! ## Several metrics of one direction -/

/-- Connected, and no limit of the policy exceeded. -/
structure Within (policy : EffectPolicy) (v : MetricValues) : Prop where
  connected : v.connected = true
  delay : v.latencyMs.above policy.maxDelayMs = false
  loss : v.lossRate.above policy.maxLossRate = false
  throughput : v.throughputBps.below policy.minThroughputBps = false

/-- One effect for each policy in the order of the snapshot, available only when every metric of its direction is
within the limits and there is one, and the same for every order of the metrics. -/
def FailSafe (snapshot : StateSnapshot) (metrics : List FlowMetric) : Prop :=
  List.Forall₂ (fun p effect => effect.entityId = p.1.entityId ∧ effect.policy = p.2 ∧
    (effect.state = .available → (∃ metric ∈ metrics, Goes (direction p) metric) ∧
      ∀ metric ∈ metrics, Goes (direction p) metric → Within p.2 metric.values))
    (policies snapshot) (evaluateEffects snapshot metrics) ∧
  ∀ metrics' : List FlowMetric, metrics'.Perm metrics →
    evaluateEffects snapshot metrics' = evaluateEffects snapshot metrics

/-- Both are disconnected, or both are connected and exceed the same limits. -/
def JudgedAlike (policy : EffectPolicy) (v v' : MetricValues) : Prop :=
  v.connected = v'.connected ∧ (v.connected = true →
    v.latencyMs.above policy.maxDelayMs = v'.latencyMs.above policy.maxDelayMs ∧
    v.lossRate.above policy.maxLossRate = v'.lossRate.above policy.maxLossRate ∧
    v.throughputBps.below policy.minThroughputBps = v'.throughputBps.below policy.minThroughputBps)

theorem missedThresholds_inj {policy : EffectPolicy} {v v' : MetricValues} :
    missedThresholds policy v = missedThresholds policy v' ↔
      v.latencyMs.above policy.maxDelayMs = v'.latencyMs.above policy.maxDelayMs ∧
      v.lossRate.above policy.maxLossRate = v'.lossRate.above policy.maxLossRate ∧
      v.throughputBps.below policy.minThroughputBps = v'.throughputBps.below policy.minThroughputBps := by
  unfold missedThresholds
  cases v.latencyMs.above policy.maxDelayMs <;> cases v'.latencyMs.above policy.maxDelayMs <;>
    cases v.lossRate.above policy.maxLossRate <;> cases v'.lossRate.above policy.maxLossRate <;>
      cases v.throughputBps.below policy.minThroughputBps <;>
        cases v'.throughputBps.below policy.minThroughputBps <;> decide

theorem disconnected_notMem_missed (policy : EffectPolicy) (v : MetricValues) :
    Reason.disconnected ∉ missedThresholds policy v := by
  unfold missedThresholds
  split_ifs <;> decide

theorem evaluatePolicy_connected (policy : EffectPolicy) {v : MetricValues} (h : v.connected = true) :
    (evaluatePolicy policy (some v)).2 = missedThresholds policy v ∧
      ((evaluatePolicy policy (some v)).1 = .available ↔ missedThresholds policy v = []) := by
  by_cases hmissed : missedThresholds policy v = []
  · simp [evaluatePolicy, h, hmissed]
  · cases hviolation : policy.violationState <;>
      simp [evaluatePolicy, h, hmissed, ViolationState.toEffect, hviolation]

theorem evaluatePolicy_disconnected {policy : EffectPolicy} {v : MetricValues} (h : ¬ v.connected = true) :
    evaluatePolicy policy (some v) = (.blocked, [.disconnected]) := by
  simp [evaluatePolicy, h]

/-- The verdict and its reasons tell exactly how values are judged. -/
theorem evaluatePolicy_eq_iff {policy : EffectPolicy} {v v' : MetricValues} :
    evaluatePolicy policy (some v) = evaluatePolicy policy (some v') ↔ JudgedAlike policy v v' := by
  have hmixed : ∀ w w' : MetricValues, w.connected = true → ¬ w'.connected = true →
      evaluatePolicy policy (some w) ≠ evaluatePolicy policy (some w') := by
    intro w w' hw hw' heq
    have hreasons := (evaluatePolicy_connected policy hw).1
    rw [heq, evaluatePolicy_disconnected hw'] at hreasons
    exact disconnected_notMem_missed policy w (hreasons ▸ List.mem_singleton_self _)
  by_cases hv : v.connected = true
  · by_cases hv' : v'.connected = true
    · have hsame : evaluatePolicy policy (some v) = evaluatePolicy policy (some v') ↔
          missedThresholds policy v = missedThresholds policy v' := by
        constructor
        · intro heq
          rw [← (evaluatePolicy_connected _ hv).1, heq, (evaluatePolicy_connected _ hv').1]
        · intro heq
          simp only [evaluatePolicy, hv, hv', heq]
      rw [hsame, missedThresholds_inj, JudgedAlike, hv, hv']
      simp
    · refine iff_of_false (hmixed v v' hv hv') fun halike => hv' ?_
      rw [← halike.1, hv]
  · by_cases hv' : v'.connected = true
    · refine iff_of_false (fun heq => hmixed v' v hv' hv heq.symm) fun halike => hv ?_
      rw [halike.1, hv']
    · rw [evaluatePolicy_disconnected hv, evaluatePolicy_disconnected hv']
      refine iff_of_true rfl ⟨?_, fun h => absurd h hv⟩
      rw [Bool.eq_false_iff.mpr hv, Bool.eq_false_iff.mpr hv']

theorem mem_entriesOf {metrics : List FlowMetric} {d : Str × Str} {v : MetricValues} :
    v ∈ entriesOf metrics d ↔ ∃ metric ∈ metrics, Goes d metric ∧ metric.values = v := by
  simp only [entriesOf, List.mem_map, List.mem_filter, decide_eq_true_eq, and_assoc]

/-- The values of a metric, once it stands last. -/
theorem getLast?_entriesOf_concat {metrics : List FlowMetric} {d : Str × Str} {metric : FlowMetric}
    (h : Goes d metric) : (entriesOf (metrics ++ [metric]) d).getLast? = some metric.values := by
  rw [entriesOf_append, entriesOf_cons, if_pos h]
  exact List.getLast?_concat

/-- Some order of the metrics puts one of them last. -/
theorem exists_perm_concat {metrics : List FlowMetric} {metric : FlowMetric} (h : metric ∈ metrics) :
    ∃ rest, (rest ++ [metric]).Perm metrics := by
  obtain ⟨before, after, rfl⟩ := List.append_of_mem h
  refine ⟨before ++ after, ?_⟩
  rw [List.append_assoc]
  exact (List.perm_append_left_iff before).mpr (List.perm_append_singleton _ _)

/-- The metrics of each direction a policy asks about are judged alike. -/
def Unanimous (snapshot : StateSnapshot) (metrics : List FlowMetric) : Prop :=
  ∀ p ∈ policies snapshot, ∀ m ∈ metrics, ∀ m' ∈ metrics, Goes (direction p) m → Goes (direction p) m' →
    JudgedAlike p.2 m.values m'.values

theorem evaluatePolicy_of_perm {snapshot : StateSnapshot} {metrics metrics' : List FlowMetric}
    (h : Unanimous snapshot metrics) (hperm : metrics'.Perm metrics) {p : EntityState × EffectPolicy}
    (hp : p ∈ policies snapshot) : evaluatePolicy p.2 (entriesOf metrics' (direction p)).getLast? =
      evaluatePolicy p.2 (entriesOf metrics (direction p)).getLast? := by
  have hentries : (entriesOf metrics' (direction p)).Perm (entriesOf metrics (direction p)) :=
    (hperm.filter _).map _
  rcases hentries.getLast?_cases with ⟨hnone', hnone⟩ | ⟨v', v, hlast', hlast⟩
  · rw [hnone', hnone]
  · obtain ⟨m, hm, hgoes, rfl⟩ := mem_entriesOf.mp (List.mem_of_getLast? hlast)
    obtain ⟨m', hm', hgoes', rfl⟩ := mem_entriesOf.mp (hentries.subset (List.mem_of_getLast? hlast'))
    rw [hlast', hlast, evaluatePolicy_eq_iff]
    exact h p hp m' hm' m hm hgoes' hgoes

/-- An available policy has a metric, and all are within its limits. -/
theorem within_of_available {snapshot : StateSnapshot} {metrics : List FlowMetric} (h : Unanimous snapshot metrics)
    {p : EntityState × EffectPolicy} (hp : p ∈ policies snapshot) (havailable : (effectOf metrics p).state = .available) :
    (∃ metric ∈ metrics, Goes (direction p) metric) ∧
      ∀ metric ∈ metrics, Goes (direction p) metric → Within p.2 metric.values := by
  unfold effectOf at havailable
  dsimp only at havailable
  cases hlast : (entriesOf metrics (direction p)).getLast? with
  | none =>
    rw [hlast] at havailable
    cases havailable
  | some v =>
    rw [hlast] at havailable
    obtain ⟨m, hm, hgoes, rfl⟩ := mem_entriesOf.mp (List.mem_of_getLast? hlast)
    refine ⟨⟨m, hm, hgoes⟩, fun m' hm' hgoes' => ?_⟩
    have halike := h p hp m hm m' hm' hgoes hgoes'
    have hconnected : m.values.connected = true := by
      by_contra hdown
      rw [evaluatePolicy_disconnected hdown] at havailable
      cases havailable
    have hmissed := (evaluatePolicy_connected _ hconnected).2.mp havailable
    obtain ⟨hdelay, hloss, hthroughput⟩ := halike.2 hconnected
    rw [missedThresholds_eq_nil_iff, hdelay, hloss, hthroughput] at hmissed
    exact ⟨halike.1.symm.trans hconnected, hmissed.1, hmissed.2.1, hmissed.2.2⟩

/-- **Effects are fail-safe exactly when the metrics of each direction are judged alike**; otherwise the order of the
flows decides. -/
theorem failSafe_iff (snapshot : StateSnapshot) (metrics : List FlowMetric) :
    FailSafe snapshot metrics ↔ ∀ entity ∈ snapshot.entities, ∀ policy ∈ entity.effectPolicies,
      ∀ m ∈ metrics, ∀ m' ∈ metrics, Goes (entity.entityId, policy.peerEntityId) m →
        Goes (entity.entityId, policy.peerEntityId) m' → JudgedAlike policy m.values m'.values := by
  have hunanimous : Unanimous snapshot metrics ↔ ∀ entity ∈ snapshot.entities, ∀ policy ∈ entity.effectPolicies,
      ∀ m ∈ metrics, ∀ m' ∈ metrics, Goes (entity.entityId, policy.peerEntityId) m →
        Goes (entity.entityId, policy.peerEntityId) m' → JudgedAlike policy m.values m'.values := by
    simp only [Unanimous, policies, List.forall_mem_flatMap, List.forall_mem_map]
    rfl
  rw [← hunanimous]
  constructor
  · rintro ⟨-, hperm⟩ p hp m hm m' hm' hgoes hgoes'
    have hsame : ∀ metrics' : List FlowMetric, metrics'.Perm metrics → effectOf metrics' p = effectOf metrics p := by
      intro metrics' h
      have heffects := hperm metrics' h
      rw [evaluateEffects_eq, evaluateEffects_eq, List.map_inj_left] at heffects
      exact heffects p hp
    obtain ⟨rest, hrest⟩ := exists_perm_concat hm
    obtain ⟨rest', hrest'⟩ := exists_perm_concat hm'
    have hboth : effectOf (rest ++ [m]) p = effectOf (rest' ++ [m']) p :=
      (hsame _ hrest).trans (hsame _ hrest').symm
    have hstate := congrArg Effect.state hboth
    have hreasons := congrArg Effect.reasons hboth
    unfold effectOf at hstate hreasons
    dsimp only at hstate hreasons
    rw [getLast?_entriesOf_concat hgoes, getLast?_entriesOf_concat hgoes'] at hstate hreasons
    exact evaluatePolicy_eq_iff.mp (Prod.ext hstate hreasons)
  · intro h
    refine ⟨?_, fun metrics' hperm => ?_⟩
    · rw [evaluateEffects_eq, List.forall₂_map_right_iff, List.forall₂_same]
      exact fun p hp => ⟨rfl, rfl, within_of_available h hp⟩
    · rw [evaluateEffects_eq, evaluateEffects_eq, List.map_inj_left]
      intro p hp
      unfold effectOf
      rw [evaluatePolicy_of_perm h hperm hp]

/-- **The last flow decides**: the weapon is available over a flow although another one in the same direction is
disconnected, and it is blocked when the metrics come in the other order. -/
theorem last_flow_decides :
    (evaluateEffects weaponSnapshot [weaponMetric (str "f") false 0, weaponMetric (str "g") true 5]).map Effect.state =
      [.available] ∧
    (evaluateEffects weaponSnapshot [weaponMetric (str "g") true 5, weaponMetric (str "f") false 0]).map Effect.state =
      [.blocked] ∧
    ¬ FailSafe weaponSnapshot [weaponMetric (str "f") false 0, weaponMetric (str "g") true 5] := by
  have havailable : (evaluateEffects weaponSnapshot
      [weaponMetric (str "f") false 0, weaponMetric (str "g") true 5]).map Effect.state = [.available] := by
    decide +kernel
  have hblocked : (evaluateEffects weaponSnapshot
      [weaponMetric (str "g") true 5, weaponMetric (str "f") false 0]).map Effect.state = [.blocked] := by
    decide +kernel
  refine ⟨havailable, hblocked, fun h => ?_⟩
  rw [h.2 _ (List.Perm.swap _ _ _), havailable] at hblocked
  exact absurd hblocked (by decide)

end AfsimNs3.Bridge
