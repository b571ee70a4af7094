import AfsimNs3.Plugin.Learning

/-!
# How large learned delays get

While the times of a simulation stay within `[0, 2 ^ 31]` seconds, no sample is above `2 ^ 41` milliseconds, so a sum of
fewer than `2 ^ 53` samples is finite: rounding does not cross a multiple of `2 ^ 41` (`Timely.step`). The mean of a
window is not above its sum.
-/

namespace AfsimNs3.Plugin
open AfsimNs3.Adapter (DeviceConfig EntityState Frame)

def Callback.time : Callback → ℚ
  | .transmitted simTime _ _ _ => simTime
  | .deliveryAttempt simTime _ _ _ _ _ => simTime
  | .received simTime _ _ _ _ => simTime
  | .discarded simTime _ _ _ => simTime

/-- The callback is within the first `2 ^ 31` seconds. -/
def Callback.Timed (c : Callback) : Prop := 0 ≤ c.time ∧ c.time ≤ ((2 ^ 31 : ℕ) : ℚ)

namespace Bookkeeping
variable {s : Bookkeeping}

theorem settleDelay_times (wsf : Wsf) (s : Bookkeeping) (simTime : ℚ) (key : MessageKey) (message : WsfMessage)
    (o : LinkObservation) (externallyGated inferRate : Bool) {key' : MessageKey} {time : ℚ}
    (h : (s.settleDelay wsf simTime key message o externallyGated inferRate).1.mTransmitTimes.get? key' = some time) :
    s.mTransmitTimes.get? key' = some time := by
  have herase : ∀ {d : Dict MessageKey ℚ}, (d.erase key).get? key' = some time → d.get? key' = some time := by
    intro d hd
    rw [Dict.get?_erase] at hd
    split_ifs at hd
    exact hd
  cases externallyGated with
  | true => exact herase h
  | false =>
    have hupdate : (s.updateObservedDelayAndRate wsf simTime key message o inferRate).1.mTransmitTimes.get? key' =
        some time := h
    unfold updateObservedDelayAndRate at hupdate
    cases ht : s.mTransmitTimes.get? key with
    | none =>
      rw [ht] at hupdate
      exact hupdate
    | some transmitted =>
      rw [ht] at hupdate
      exact herase hupdate

/-- A transmit time is the time of its transmission. -/
theorem step_times (wsf : Wsf) (c : Callback) {key : MessageKey} {time : ℚ}
    (h : (s.step wsf c).mTransmitTimes.get? key = some time) :
    s.mTransmitTimes.get? key = some time ∨ time = c.time := by
  cases c with
  | transmitted simTime tx rx message =>
    rcases tx with _ | tx
    · exact .inl h
    · have hput : (s.mTransmitTimes.put (tx.address, message.serialNumber) simTime).get? key = some time := h
      rw [Dict.get?_put] at hput
      split_ifs at hput
      · exact .inr (Option.some.inj hput).symm
      · exact .inl hput
  | deliveryAttempt simTime tx rx message result gate =>
    rcases tx with _ | tx
    · exact .inl h
    · rcases rx with _ | rx
      · exact .inl h
      · obtain ⟨d, -, heq⟩ := messageDeliveryAttempt_spec wsf s simTime tx rx message result gate
        rw [step, heq] at h
        exact .inl h
  | received simTime tx rx message result =>
    rcases tx with _ | tx
    · exact .inl h
    · rcases rx with _ | rx
      · exact .inl h
      · unfold step messageReceived at h
        have hold := settleDelay_times _ _ _ _ _ _ _ _ h
        exact .inl hold
  | discarded simTime tx rx message =>
    rcases tx with _ | tx
    · exact .inl h
    · rcases rx with _ | rx
      · exact .inl h
      · unfold step messageDiscarded at h
        dsimp only at h
        split_ifs at h
        · have hold := settleDelay_times _ _ _ _ _ _ _ _ h
          exact .inl hold
        · exact .inl h

/-- No sample is above `2 ^ 41` milliseconds. -/
theorem delaySample_le (htimes : ∀ key time, s.mTransmitTimes.get? key = some time → 0 ≤ time) {simTime : ℚ}
    (hsim : simTime ≤ ((2 ^ 31 : ℕ) : ℚ)) {key : MessageKey} {delayMs : ℚ}
    (h : s.delaySample simTime key = some delayMs) : delayMs ≤ 2 ^ 41 := by
  obtain ⟨transmitted, htransmitted, hsample⟩ := Option.bind_eq_some_iff.mp h
  have hpast := htimes key transmitted htransmitted
  obtain ⟨seconds, hseconds, hnonneg, hle⟩ := Double.nonnegative_within (2 ^ 31)
    (show simTime - transmitted ≤ ((2 ^ 31 : ℕ) : ℚ) by linarith) (by norm_num)
  have hms : Double.Within 0 ((2 ^ 41 : ℕ) : ℚ) (Double.ofRat (seconds * 1000)) := by
    refine Double.ofRat_within (mul_nonneg hnonneg (by norm_num)) ?_ (by norm_num)
    push_cast at hle ⊢
    linarith
  obtain ⟨q, hq, -, hbound⟩ := hms
  unfold delaySeconds at hsample
  rw [hseconds] at hsample
  have hscale : (Double.finite seconds).scale 1000 = .finite q := hq
  rw [hscale] at hsample
  obtain rfl := Option.some.inj hsample
  exact_mod_cast hbound

end Bookkeeping

theorem delaySampleOf_le {s : Bookkeeping} (htimes : ∀ key time, s.mTransmitTimes.get? key = some time → 0 ≤ time)
    {link : LinkKey} {c : Callback} (hc : c.Timed) {delayMs : ℚ} (h : delaySampleOf s link c = some delayMs) :
    delayMs ≤ 2 ^ 41 := by
  unfold delaySampleOf at h
  split at h
  · split_ifs at h
    exact Bookkeeping.delaySample_le htimes hc.2 h
  · split_ifs at h
    exact Bookkeeping.delaySample_le htimes hc.2 h
  · cases h

namespace SimulationExtension
variable {wsf : Wsf} {config : RuntimeConfig}

/-- After `n` events: transmit times are not negative, sums and means of delays are at most `n` times the largest
sample. -/
structure Timely (n : ℕ) (s : SimulationExtension) : Prop where
  times : ∀ key time, s.books.mTransmitTimes.get? key = some time → 0 ≤ time
  total : ∀ key, Double.Within 0 (n * 2 ^ 41) (s.link key).observation.delayTotalMs
  last : ∀ key, Double.Within 0 (n * 2 ^ 41) (s.link key).memory.lastDelayMs

theorem within_zero (n : ℕ) : Double.Within 0 (n * 2 ^ 41) (.finite 0) :=
  ⟨0, rfl, le_refl 0, by positivity⟩

theorem within_succ {n : ℕ} {x : Double} (h : Double.Within 0 (n * 2 ^ 41) x) :
    Double.Within 0 ((n + 1 : ℕ) * 2 ^ 41) x := by
  obtain ⟨q, rfl, hnonneg, hle⟩ := h
  refine ⟨q, rfl, hnonneg, hle.trans ?_⟩
  push_cast
  linarith

theorem read_within {n : ℕ} (hn : n < 2 ^ 53) {link : LinkState}
    (htotal : Double.Within 0 (n * 2 ^ 41) link.observation.delayTotalMs)
    (hlast : Double.Within 0 (n * 2 ^ 41) link.memory.lastDelayMs) :
    Double.Within 0 (n * 2 ^ 41) link.read.observation.delayTotalMs ∧
      Double.Within 0 (n * 2 ^ 41) link.read.memory.lastDelayMs := by
  have hloss : link.readLoss.observation.delays = link.observation.delays ∧
      link.readLoss.memory.lastDelayMs = link.memory.lastDelayMs := by
    unfold LinkState.readLoss
    split_ifs <;> exact ⟨rfl, rfl⟩
  have htotal' : Double.Within 0 (n * 2 ^ 41) link.readLoss.observation.delayTotalMs := by
    rw [show link.readLoss.observation.delayTotalMs = link.observation.delayTotalMs from congrArg Prod.fst hloss.1]
    exact htotal
  show Double.Within 0 _ link.readLoss.readDelay.observation.delayTotalMs ∧
    Double.Within 0 _ link.readLoss.readDelay.memory.lastDelayMs
  unfold LinkState.readDelay
  split_ifs with hsamples
  · refine ⟨within_zero n, ?_⟩
    obtain ⟨q, hq, hnonneg, hle⟩ := htotal'
    show Double.Within 0 _ (link.readLoss.observation.delayTotalMs.quotient _)
    rw [hq]
    exact Double.quotient_within hnonneg hle hn (by norm_num) hsamples
  · exact ⟨htotal', hloss.2 ▸ hlast⟩

/-- The event is a tick, or a callback within the first `2 ^ 31` seconds. -/
def Event.Timed : Event → Prop
  | .callback c => c.Timed
  | .tick _ => True

theorem Timely.step {n : ℕ} (hn : n + 1 < 2 ^ 53) {s : SimulationExtension} (h : s.Timely n) {e : Event}
    (he : e.Timed) : (s.step wsf config e).Timely (n + 1) := by
  cases e with
  | callback c =>
    refine ⟨fun key time hget => ?_, fun key => ?_, fun key => within_succ (h.last key)⟩
    · rcases Bookkeeping.step_times wsf c hget with hold | rfl
      · exact h.times key time hold
      · exact he.1
    · have htotal := congrArg Prod.fst (s.books.step_learns wsf c key).2
      show Double.Within 0 _ ((s.books.step wsf c).observation key).delays.1
      rw [htotal]
      cases hsample : delaySampleOf s.books key c with
      | none => exact within_succ (h.total key)
      | some delayMs =>
        obtain ⟨q, hq, hnonneg, hle⟩ := h.total key
        have hms := delaySampleOf_nonneg hsample
        have hmsle := delaySampleOf_le h.times he hsample
        show Double.Within 0 _ ((s.link key).observation.delayTotalMs.add (.finite delayMs))
        rw [hq]
        refine Double.ofRat_within_zpow (add_nonneg hnonneg hms) ?_ hn (by norm_num)
        push_cast
        linarith
  | tick scene =>
    have hread : ∀ key,
        Double.Within 0 (n * 2 ^ 41) ((s.collectState wsf config scene).1.link key).observation.delayTotalMs ∧
        Double.Within 0 (n * 2 ^ 41) ((s.collectState wsf config scene).1.link key).memory.lastDelayMs := by
      intro key
      rw [link_collectState]
      split_ifs
      · exact read_within (by omega) (h.total key) (h.last key)
      · exact ⟨h.total key, h.last key⟩
    refine ⟨fun key time hget => ?_, fun key => within_succ (hread key).1, fun key => within_succ (hread key).2⟩
    have hkept : ((pass (collectEntity wsf config scene) s scene.listed).1.books.mTransmitTimes.keep fun _ time =>
        !(transmitCutoff config scene).above time).get? key = some time := hget
    rw [Dict.get?_keep, show (pass (collectEntity wsf config scene) s scene.listed).1.books.mTransmitTimes =
      s.books.mTransmitTimes from congrArg (fun c => c.2.1) (containers_collectEntities wsf config scene s)] at hkept
    exact h.times key time hkept.1

theorem run_timely {events : List Event} (hlen : events.length < 2 ^ 53) (htimed : ∀ e ∈ events, e.Timed) :
    (run wsf config events).Timely events.length := by
  induction events using List.reverseRecOn with
  | nil => exact ⟨nofun, fun _ => within_zero 0, fun _ => within_zero 0⟩
  | append_singleton events e ih =>
    rw [List.length_append, List.length_singleton] at hlen ⊢
    have hrun : run wsf config (events ++ [e]) = (run wsf config events).step wsf config e := List.foldl_append
    rw [hrun]
    exact (ih (by omega) fun e he => htimed e (List.mem_append_left _ he)).step hlen
      (htimed e (List.mem_append_right _ (List.mem_singleton_self e)))

end SimulationExtension

end AfsimNs3.Plugin
