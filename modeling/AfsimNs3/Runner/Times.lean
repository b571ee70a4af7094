import AfsimNs3.Lib.Rounding
import AfsimNs3.Runner.Installation

/-!
# Application times (`afsim-ns3-runner.cc`)

The client and the server of a flow stop at sums of unsigned 32-bit integers, the simulation at a double. The
conversion `Seconds` of the simulator is the parameter `seconds`, in nanoseconds; what is known of it is that it takes
the nearest one where 64 bits hold it (`Nearest`).

* `serverStop_exact_iff`: the sums are exact for a duration below `2 ^ 32 - 300`, no further;
* `serverStop_le_stop`: the simulation never stops before a server, whose stop may have wrapped.
-/

namespace AfsimNs3.Runner

namespace FlowInput

/-- `100 + flow.durationMs`. -/
def clientStop (flow : FlowInput) : UInt32 := 100 + flow.durationMs

/-- `100 + flow.durationMs + 200`. -/
def serverStop (flow : FlowInput) : UInt32 := 100 + flow.durationMs + 200

/-- `MaxPackets`; `none` is a division by zero. -/
def maxPackets (flow : FlowInput) : Option UInt32 :=
  if flow.intervalMs = 0 then none else some (max 1 (flow.durationMs / flow.intervalMs))

/-- `(100.0 + static_cast<double>(flow.durationMs) + 200.0) / 1000.0`. -/
def stopSeconds (flow : FlowInput) : Double :=
  Double.scale (Double.add (Double.add (.finite 100) (.finite flow.durationMs.toNat)) (.finite 200)) (1 / 1000)

end FlowInput

/-- One turn of `stopSeconds = std::max(stopSeconds, ..)`. -/
def laterStop (stop : Double) (flow : FlowInput) : Double :=
  if stop.lt flow.stopSeconds then flow.stopSeconds else stop

/-- The time the simulation stops, in seconds. -/
def Scenario.stopSeconds (hasAddress : UInt32 → Bool) (scenario : Scenario) : Double :=
  (scenario.installedFlows hasAddress).foldl laterStop (.finite (1 / 2))

/-- The conversion of seconds takes the nearest nanosecond, for a time a signed 64-bit integer of nanoseconds holds. -/
def Nearest (seconds : Double → ℤ) : Prop :=
  ∀ q : ℚ, 0 ≤ q → q * 10 ^ 9 ≤ 2 ^ 63 - 1 → |(seconds (.finite q) : ℚ) - q * 10 ^ 9| ≤ 1 / 2

/-- The times of a flow are the ones meant, in milliseconds, and the simulation lasts until they are over. -/
structure Timed (seconds : Double → ℤ) (stop : Double) (flow : FlowInput) : Prop where
  client : flow.clientStop.toNat = 100 + flow.durationMs.toNat
  server : flow.serverStop.toNat = 300 + flow.durationMs.toNat
  ordered : 100 < flow.clientStop.toNat ∧ flow.clientStop.toNat < flow.serverStop.toNat
  lasting : (flow.serverStop.toNat : ℤ) * 10 ^ 6 ≤ seconds stop
  packets : ∃ count, flow.maxPackets = some count ∧
    count.toNat = max 1 (flow.durationMs.toNat / flow.intervalMs.toNat)

/-! ## The sums -/

theorem serverStop_toNat (flow : FlowInput) : flow.serverStop.toNat = (300 + flow.durationMs.toNat) % 2 ^ 32 := by
  have h100 : (100 : UInt32).toNat = 100 := rfl
  have h200 : (200 : UInt32).toNat = 200 := rfl
  rw [FlowInput.serverStop, UInt32.toNat_add, UInt32.toNat_add, h100, h200]
  omega

theorem clientStop_toNat (flow : FlowInput) : flow.clientStop.toNat = (100 + flow.durationMs.toNat) % 2 ^ 32 := by
  have h100 : (100 : UInt32).toNat = 100 := rfl
  rw [FlowInput.clientStop, UInt32.toNat_add, h100]

/-- **The sum of the server does not wrap exactly for a duration below `2 ^ 32 - 300`.** -/
theorem serverStop_exact_iff (flow : FlowInput) :
    flow.serverStop.toNat = 300 + flow.durationMs.toNat ↔ flow.durationMs.toNat + 300 < 2 ^ 32 := by
  rw [serverStop_toNat]
  omega

theorem maxPackets_eq {flow : FlowInput} (h : flow.intervalMs ≠ 0) : ∃ count, flow.maxPackets = some count ∧
    count.toNat = max 1 (flow.durationMs.toNat / flow.intervalMs.toNat) := by
  refine ⟨_, if_neg h, ?_⟩
  have hdiv : (flow.durationMs / flow.intervalMs).toNat = flow.durationMs.toNat / flow.intervalMs.toNat :=
    UInt32.toNat_div ..
  have hone : (1 : UInt32).toNat = 1 := rfl
  show (if (1 : UInt32) ≤ flow.durationMs / flow.intervalMs then _ else _ : UInt32).toNat = _
  split_ifs with hle
  · rw [UInt32.le_iff_toNat_le, hdiv, hone] at hle
    rw [hdiv, max_eq_right hle]
  · rw [UInt32.le_iff_toNat_le, hdiv, hone] at hle
    rw [hone, max_eq_left (by omega)]

/-! ## The end of the simulation -/

/-- The double of a flow is within half a nanosecond of the exact quotient. -/
theorem stopSeconds_error (flow : FlowInput) : ∃ r, flow.stopSeconds = .finite r ∧
    |r - (300 + flow.durationMs.toNat) / 1000| ≤ 2 ^ (-31 : ℤ) := by
  have hlt : flow.durationMs.toNat < 2 ^ 32 := flow.durationMs.toNat_lt
  have hsum : Double.add (Double.add (.finite 100) (.finite flow.durationMs.toNat)) (.finite 200) =
      .finite (300 + flow.durationMs.toNat : ℕ) := by
    have h₁ : (100 : ℚ) + flow.durationMs.toNat = ((100 + flow.durationMs.toNat : ℕ) : ℚ) := by push_cast; ring
    have h₂ : ((100 + flow.durationMs.toNat : ℕ) : ℚ) + 200 = ((300 + flow.durationMs.toNat : ℕ) : ℚ) := by
      push_cast
      ring
    unfold Double.add
    dsimp only
    rw [h₁, Double.ofRat_natCast (by omega)]
    dsimp only
    rw [h₂, Double.ofRat_natCast (by omega)]
  have hcast : (flow.durationMs.toNat : ℚ) < 2 ^ 32 := by exact_mod_cast hlt
  have hnonneg : (0 : ℚ) ≤ flow.durationMs.toNat := Nat.cast_nonneg _
  obtain ⟨r, hr, herror⟩ := Double.ofRat_error (q := ((300 + flow.durationMs.toNat : ℕ) : ℚ) * (1 / 1000)) (e := 22)
    (by push_cast; linarith) (by push_cast; norm_num; linarith) (by norm_num) (by norm_num)
  refine ⟨r, ?_, ?_⟩
  · rw [FlowInput.stopSeconds, hsum]
    exact hr
  · push_cast at herror
    rw [div_eq_mul_one_div]
    exact_mod_cast herror

theorem stopSeconds_near {flow : FlowInput} {q : ℚ} (h : flow.stopSeconds = .finite q) :
    |q - (300 + flow.durationMs.toNat) / 1000| ≤ 2 ^ (-31 : ℤ) := by
  obtain ⟨r, hr, herror⟩ := stopSeconds_error flow
  rw [h] at hr
  rwa [Double.finite.inj hr]

/-- A flow stops within a hundred days. -/
theorem stopSeconds_le {flow : FlowInput} {q : ℚ} (h : flow.stopSeconds = .finite q) : q ≤ 2 ^ 23 := by
  have hduration : (flow.durationMs.toNat : ℚ) < 2 ^ 32 := by exact_mod_cast flow.durationMs.toNat_lt
  have hunit : (2 : ℚ) ^ (-31 : ℤ) ≤ 1 := by norm_num
  have hnear := (abs_le.mp (stopSeconds_near h)).2
  linarith

/-- The simulation stops at the latest of the doubles. -/
theorem foldl_laterStop (flows : List FlowInput) (p : ℚ) : ∃ r, flows.foldl laterStop (.finite p) = .finite r ∧ p ≤ r ∧
    (∀ flow ∈ flows, ∃ q, flow.stopSeconds = .finite q ∧ q ≤ r) ∧
    (r = p ∨ ∃ flow ∈ flows, flow.stopSeconds = .finite r) := by
  induction flows generalizing p with
  | nil => exact ⟨p, rfl, le_refl p, List.forall_mem_nil _, .inl rfl⟩
  | cons flow flows ih =>
    obtain ⟨q, hq, -⟩ := stopSeconds_error flow
    have hlater : laterStop (.finite p) flow = .finite (max p q) := by
      unfold laterStop
      rw [hq]
      simp only [Double.lt, Double.above, decide_eq_true_eq]
      split_ifs with h
      · rw [max_eq_right h.le]
      · rw [max_eq_left (not_lt.mp h)]
    obtain ⟨r, hr, hle, hall, hattained⟩ := ih (max p q)
    refine ⟨r, ?_, (le_max_left p q).trans hle,
      List.forall_mem_cons.mpr ⟨⟨q, hq, (le_max_right p q).trans hle⟩, hall⟩, ?_⟩
    · rw [List.foldl_cons, hlater, hr]
    · obtain hmax | ⟨later, hlater, hstop⟩ := hattained
      · obtain hp | hq' := max_choice p q
        · exact .inl (hmax.trans hp)
        · rw [hmax, hq']
          exact .inr ⟨flow, List.mem_cons_self, hq⟩
      · exact .inr ⟨later, List.mem_cons_of_mem flow hlater, hstop⟩

/-- The stop of the simulation is finite, within the range of the conversion, and no flow stops after it. -/
theorem stopSeconds_latest (hasAddress : UInt32 → Bool) (scenario : Scenario) :
    ∃ r, scenario.stopSeconds hasAddress = .finite r ∧ 0 ≤ r ∧ r ≤ 2 ^ 23 ∧
      ∀ flow ∈ scenario.installedFlows hasAddress, ∃ q, flow.stopSeconds = .finite q ∧ q ≤ r := by
  obtain ⟨r, hr, hle, hall, hattained⟩ := foldl_laterStop (scenario.installedFlows hasAddress) (1 / 2)
  refine ⟨r, hr, by linarith, ?_, hall⟩
  obtain rfl | ⟨flow, -, hstop⟩ := hattained
  · norm_num
  · exact stopSeconds_le hstop

/-- **The simulation lasts until every server has stopped**, at the time meant. -/
theorem serverStop_le_stop {seconds : Double → ℤ} (hseconds : Nearest seconds) {hasAddress : UInt32 → Bool}
    {scenario : Scenario} {flow : FlowInput} (hflow : flow ∈ scenario.installedFlows hasAddress) :
    (300 + flow.durationMs.toNat : ℤ) * 10 ^ 6 ≤ seconds (scenario.stopSeconds hasAddress) := by
  obtain ⟨r, hr, hnonneg, hrange, hall⟩ := stopSeconds_latest hasAddress scenario
  obtain ⟨q, hq, hle⟩ := hall flow hflow
  have herror := stopSeconds_near hq
  have hnear := hseconds r hnonneg (by linarith)
  have hunit : (2 : ℚ) ^ (-31 : ℤ) * 10 ^ 9 < 47 / 100 := by norm_num
  rw [abs_le] at herror hnear
  have hclose : ((300 + flow.durationMs.toNat : ℤ) * 10 ^ 6 : ℚ) - 1 < seconds (.finite r) := by
    push_cast
    linarith [herror.1, hnear.1]
  rw [hr]
  have hint : ((300 + flow.durationMs.toNat : ℤ) * 10 ^ 6 - 1 : ℤ) < seconds (.finite r) := by exact_mod_cast hclose
  omega

/-! ## Validated scenarios -/

/-- A validated flow has an interval and lasts a tenth of a second. -/
theorem parameters_valid {scenario : Scenario} (hvalid : validateScenario scenario = .ok ()) {flow : FlowInput}
    (hflow : flow ∈ scenario.flows) : flow.intervalMs ≠ 0 ∧ 100 ≤ flow.durationMs.toNat := by
  unfold validateScenario at hvalid
  simp only [Except.bind_ok_iff, Except.exists_punit, Except.forM_ok_iff] at hvalid
  have hparameters := hvalid.2.2.2 flow hflow
  simp only [validateFlow, Except.bind_ok_iff, Except.exists_punit, ensure_ok_iff] at hparameters
  have hlast := hparameters.2
  simp only [Bool.not_eq_true', Bool.or_eq_false_iff, beq_eq_false_iff_ne, decide_eq_false_iff_not] at hlast
  refine ⟨hlast.1.2, ?_⟩
  have hduration := hlast.2
  rw [UInt32.lt_iff_toNat_lt] at hduration
  exact not_lt.mp hduration

/-- **The times of the installed flows are the ones meant exactly when every duration is below `2 ^ 32 - 300`.** -/
theorem timed_iff {seconds : Double → ℤ} (hseconds : Nearest seconds) {hasAddress : UInt32 → Bool}
    {scenario : Scenario} (hvalid : validateScenario scenario = .ok ()) :
    (∀ flow ∈ scenario.installedFlows hasAddress, Timed seconds (scenario.stopSeconds hasAddress) flow) ↔
      ∀ flow ∈ scenario.installedFlows hasAddress, flow.durationMs.toNat + 300 < 2 ^ 32 := by
  refine forall₂_congr fun flow hflow => ?_
  constructor
  · intro h
    exact (serverStop_exact_iff flow).mp h.server
  · intro hlow
    have hclient : flow.clientStop.toNat = 100 + flow.durationMs.toNat := by
      rw [clientStop_toNat]
      omega
    have hserver := (serverStop_exact_iff flow).mpr hlow
    obtain ⟨hinterval, hduration⟩ := parameters_valid hvalid (List.mem_filter.mp hflow).1
    refine ⟨hclient, hserver, by omega, ?_, maxPackets_eq hinterval⟩
    rw [hserver]
    exact_mod_cast serverStop_le_stop hseconds hflow

/-! ## A duration at the end of the range -/

def nearestNanosecond (x : Double) : ℤ := Double.roundHalfEven (x.toRat * 10 ^ 9)

theorem nearestNanosecond_nearest : Nearest nearestNanosecond :=
  fun q _ _ => Double.roundHalfEven_error (q * 10 ^ 9)

/-- Two linked nodes with one flow of some duration. -/
def lastingPair (durationMs : UInt32) : Scenario :=
  { linkedPair 1 with expectedFlows := 1, flows := [⟨0, 0, 1, 64, 1, durationMs, true⟩] }

theorem lastingPair_timed : Timed nearestNanosecond ((lastingPair 4294966995).stopSeconds (fun _ => true))
    ⟨0, 0, 1, 64, 1, 4294966995, true⟩ :=
  (timed_iff nearestNanosecond_nearest rfl).mpr (by decide +kernel) _ (List.mem_singleton.mpr rfl)

/-- One millisecond more and the server stops at time zero. -/
theorem lastingPair_wraps : ¬ ∀ (seconds : Double → ℤ) (hasAddress : UInt32 → Bool) (scenario : Scenario),
    Nearest seconds → validateScenario scenario = .ok () → ∀ flow ∈ scenario.installedFlows hasAddress,
      Timed seconds (scenario.stopSeconds hasAddress) flow := by
  intro hall
  have htimed := hall nearestNanosecond (fun _ => true) (lastingPair 4294966996) nearestNanosecond_nearest rfl
    ⟨0, 0, 1, 64, 1, 4294966996, true⟩ (List.mem_singleton.mpr rfl)
  have hserver := htimed.server
  revert hserver
  decide

end AfsimNs3.Runner
