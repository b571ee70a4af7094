import AfsimNs3.Lib.Meter
import AfsimNs3.Plugin.Links

/-!
# What links are reported from

Runs of callbacks and ticks. The counters of a link are two meters: the callbacks are their samples (`lossSample`,
`delaySampleOf`), a tick that reads the link is their reading.

* `run_meters`: along every run both meters hold what their histories add up to;
* `reported_from_windows`: what a frame reports of a link comes from the last window with samples in it.
-/

namespace AfsimNs3.Plugin
open AfsimNs3.Adapter (DeviceConfig EntityState Frame)

/-! ## The meters of a link -/

/-- Outcomes and failures among them; a sample is whether the outcome is a failure. -/
def lossMeter : Meter Bool (UInt64 × UInt64) Double where
  zero := (0, 0)
  add := fun losses failed => (losses.1 + 1, if failed then losses.2 + 1 else losses.2)
  pending := fun losses => decide (0 < losses.1)
  summary := lossRate

/-- The sum and the number of delays in milliseconds. -/
def delayMeter : Meter ℚ (Double × UInt64) Double where
  zero := (.finite 0, 0)
  add := fun delays delayMs => (delays.1.add (.finite delayMs), delays.2 + 1)
  pending := fun delays => decide (0 < delays.2)
  summary := meanDelayMs

def LinkMemory.loss (memory : LinkMemory) : Option Double := if memory.hasLoss then some memory.lastLossRate else none

def LinkMemory.delay (memory : LinkMemory) : Option Double := if memory.hasDelay then some memory.lastDelayMs else none

namespace LinkState

def lossState (link : LinkState) : Meter.State (UInt64 × UInt64) Double := ⟨link.observation.losses, link.memory.loss⟩

def delayState (link : LinkState) : Meter.State (Double × UInt64) Double := ⟨link.observation.delays, link.memory.delay⟩

theorem lossState_read (link : LinkState) : link.read.lossState = lossMeter.step link.lossState .reading := by
  have hdelay : link.readLoss.readDelay.lossState = link.readLoss.lossState := by
    unfold readDelay
    split_ifs <;> rfl
  show link.readLoss.readDelay.lossState = if decide (0 < link.observation.completed) then _ else _
  rw [hdelay]
  unfold readLoss
  by_cases h : 0 < link.observation.completed
  · rw [if_pos h, if_pos (decide_eq_true h)]
    rfl
  · rw [if_neg h, decide_eq_false h]
    rfl

theorem delayState_read (link : LinkState) : link.read.delayState = delayMeter.step link.delayState .reading := by
  have hloss : link.readLoss.delayState = link.delayState := by
    unfold readLoss
    split_ifs <;> rfl
  rw [← hloss]
  show link.readLoss.readDelay.delayState = if decide (0 < link.readLoss.observation.delaySamples) then _ else _
  unfold readDelay
  by_cases h : 0 < link.readLoss.observation.delaySamples
  · rw [if_pos h, if_pos (decide_eq_true h)]
    rfl
  · rw [if_neg h, decide_eq_false h]
    rfl

end LinkState

/-! ## One callback -/

/-- What an outcome adds to the losses of a link: a discard of a message that the gate dropped adds nothing. -/
def lossSample (s : Bookkeeping) (link : LinkKey) : Callback → Option Bool
  | .received _ (some tx) (some rx) _ result =>
    if link = (tx.address, rx.address) then some (decide (result.mFailedStatus ≠ 0)) else none
  | .discarded _ (some tx) (some rx) message =>
    if link = (tx.address, rx.address) ∧ (tx.address, message.serialNumber) ∉ s.mExternallyDroppedMessages
    then some true else none
  | _ => none

/-- What an outcome adds to the delays of a link: nothing where the message went through the gate. -/
def delaySampleOf (s : Bookkeeping) (link : LinkKey) : Callback → Option ℚ
  | .received simTime (some tx) (some rx) message _ =>
    if link = (tx.address, rx.address) ∧ (tx.address, message.serialNumber) ∉ s.mExternallyGatedMessages
    then s.delaySample simTime (tx.address, message.serialNumber) else none
  | .discarded simTime (some tx) (some rx) message =>
    if link = (tx.address, rx.address) ∧ (tx.address, message.serialNumber) ∉ s.mExternallyDroppedMessages ∧
      (tx.address, message.serialNumber) ∉ s.mExternallyGatedMessages
    then s.delaySample simTime (tx.address, message.serialNumber) else none
  | _ => none

namespace Bookkeeping
variable (wsf : Wsf) (s : Bookkeeping) (simTime : ℚ) (key : MessageKey) (message : WsfMessage) (o : LinkObservation)

theorem updateObservedDelayAndRate_delays (inferRate : Bool) :
    (s.updateObservedDelayAndRate wsf simTime key message o inferRate).2.delays =
      (s.delaySample simTime key).elim o.delays (delayMeter.add o.delays) := by
  unfold updateObservedDelayAndRate delaySample
  cases s.mTransmitTimes.get? key with
  | none => rfl
  | some transmitted =>
    have hinfer : (if inferRate then (o.addSample (delaySeconds transmitted simTime)).inferDataRate wsf
        (delaySeconds transmitted simTime) message.sizeBits else o.addSample (delaySeconds transmitted simTime)).delays =
        (o.addSample (delaySeconds transmitted simTime)).delays := by
      split_ifs
      · exact ((o.addSample _).inferDataRate_counters wsf _ _).2
      · rfl
    refine hinfer.trans ?_
    unfold LinkObservation.addSample
    dsimp only [Option.bind_some]
    cases (delaySeconds transmitted simTime).scale 1000 <;> rfl

theorem settleDelay_delays (externallyGated inferRate : Bool) :
    (s.settleDelay wsf simTime key message o externallyGated inferRate).2.delays =
      if externallyGated then o.delays else (s.delaySample simTime key).elim o.delays (delayMeter.add o.delays) := by
  cases externallyGated with
  | true => rfl
  | false => exact updateObservedDelayAndRate_delays wsf s simTime key message o inferRate

/-- The losses and delays of a link after one callback. -/
def Learns (s t : Bookkeeping) (link : LinkKey) (loss : Option Bool) (delay : Option ℚ) : Prop :=
  (t.observation link).losses = loss.elim (s.observation link).losses (lossMeter.add (s.observation link).losses) ∧
    (t.observation link).delays = delay.elim (s.observation link).delays (delayMeter.add (s.observation link).delays)

variable {s} in
theorem Learns.of_observation {t : Bookkeeping} {link : LinkKey} (h : t.observation link = s.observation link) :
    Learns s t link none none := by
  rw [Learns, h]
  exact ⟨rfl, rfl⟩

theorem received_learns (tx rx : CommRef) (result : Result) (link : LinkKey) :
    Learns s (s.messageReceived wsf simTime (some tx) (some rx) message result) link
      (lossSample s link (.received simTime (some tx) (some rx) message result))
      (delaySampleOf s link (.received simTime (some tx) (some rx) message result)) := by
  let key : MessageKey := (tx.address, message.serialNumber)
  let t : Bookkeeping := { s.recordFlow simTime (some tx) (some rx) message with
    mExternallyGatedMessages := s.mExternallyGatedMessages.erase key }
  let o := (s.observation (tx.address, rx.address)).countOutcome (result.mFailedStatus ≠ 0)
  let settled := t.settleDelay wsf simTime key message o (decide (key ∈ s.mExternallyGatedMessages)) true
  have heq : s.messageReceived wsf simTime (some tx) (some rx) message result =
      settled.1.setObservation (tx.address, rx.address) (settled.2.updateObservedDataRate wsf result) := rfl
  obtain ⟨hobservation, -, -, hlosses, -⟩ :=
    settleDelay_spec wsf t simTime key message o (decide (key ∈ s.mExternallyGatedMessages)) true
  have hdelays := settleDelay_delays wsf t simTime key message o (decide (key ∈ s.mExternallyGatedMessages)) true
  obtain ⟨hratelosses, hratedelays⟩ := settled.2.setDataRate_counters wsf result.mDataRate
  unfold lossSample delaySampleOf
  dsimp only
  by_cases hlink : link = (tx.address, rx.address)
  · subst hlink
    rw [if_pos rfl, Learns, heq, observation_setObservation, if_pos rfl]
    refine ⟨hratelosses.trans hlosses, (hratedelays.trans hdelays).trans ?_⟩
    by_cases hgated : key ∈ s.mExternallyGatedMessages
    · rw [if_pos (decide_eq_true hgated), if_neg fun h => h.2 hgated]
      rfl
    · rw [decide_eq_false hgated, if_neg Bool.false_ne_true, if_pos ⟨rfl, hgated⟩]
      rfl
  · rw [if_neg hlink, if_neg fun h => hlink h.1]
    refine Learns.of_observation ?_
    rw [heq, observation_setObservation, if_neg hlink]
    exact hobservation link

theorem discarded_learns (tx rx : CommRef) (link : LinkKey) :
    Learns s (s.messageDiscarded wsf simTime (some tx) (some rx) message) link
      (lossSample s link (.discarded simTime (some tx) (some rx) message))
      (delaySampleOf s link (.discarded simTime (some tx) (some rx) message)) := by
  let key : MessageKey := (tx.address, message.serialNumber)
  let t : Bookkeeping := { s.recordFlow simTime (some tx) (some rx) message with
    mExternallyDroppedMessages := s.mExternallyDroppedMessages.erase key
    mExternallyGatedMessages := s.mExternallyGatedMessages.erase key }
  let o := (s.observation (tx.address, rx.address)).countOutcome true
  let settled := t.settleDelay wsf simTime key message o (decide (key ∈ s.mExternallyGatedMessages)) false
  have heq : s.messageDiscarded wsf simTime (some tx) (some rx) message =
      if !decide (key ∈ s.mExternallyDroppedMessages) then settled.1.setObservation (tx.address, rx.address) settled.2
      else t.setObservation (tx.address, rx.address) (s.observation (tx.address, rx.address)) := rfl
  obtain ⟨hobservation, -, -, hlosses, -⟩ :=
    settleDelay_spec wsf t simTime key message o (decide (key ∈ s.mExternallyGatedMessages)) false
  have hdelays := settleDelay_delays wsf t simTime key message o (decide (key ∈ s.mExternallyGatedMessages)) false
  unfold lossSample delaySampleOf
  dsimp only
  by_cases hdropped : key ∈ s.mExternallyDroppedMessages
  · rw [if_neg fun h => h.2 hdropped, if_neg fun h => h.2.1 hdropped]
    refine Learns.of_observation ?_
    rw [heq, decide_eq_true hdropped]
    show (t.setObservation _ _).observation link = _
    rw [observation_setObservation]
    split_ifs with hlink
    · rw [hlink]
    · rfl
  · rw [decide_eq_false hdropped] at heq
    replace heq : s.messageDiscarded wsf simTime (some tx) (some rx) message =
      settled.1.setObservation (tx.address, rx.address) settled.2 := heq
    by_cases hlink : link = (tx.address, rx.address)
    · subst hlink
      rw [if_pos ⟨rfl, hdropped⟩, Learns, heq, observation_setObservation, if_pos rfl]
      refine ⟨hlosses, hdelays.trans ?_⟩
      by_cases hgated : key ∈ s.mExternallyGatedMessages
      · rw [if_pos (decide_eq_true hgated), if_neg fun h => h.2.2 hgated]
        rfl
      · rw [decide_eq_false hgated, if_neg Bool.false_ne_true, if_pos ⟨rfl, hdropped, hgated⟩]
        rfl
    · rw [if_neg fun h => hlink h.1, if_neg fun h => hlink h.1]
      refine Learns.of_observation ?_
      rw [heq, observation_setObservation, if_neg hlink]
      exact hobservation link

/-- **What a link learns from one callback.** -/
theorem step_learns (wsf : Wsf) (c : Callback) (link : LinkKey) :
    Learns s (s.step wsf c) link (lossSample s link c) (delaySampleOf s link c) := by
  have hkeeps : ∀ {c : Callback}, ¬ c.IsOutcome → Learns s (s.step wsf c) link none none := fun h =>
    ⟨(step_keeps wsf h).1 link, (step_keeps wsf h).2 link⟩
  cases c with
  | transmitted => exact hkeeps not_false
  | deliveryAttempt => exact hkeeps not_false
  | received simTime tx rx message result =>
    rcases tx with _ | tx
    · exact Learns.of_observation rfl
    · rcases rx with _ | rx
      · exact Learns.of_observation rfl
      · exact received_learns wsf s simTime message tx rx result link
  | discarded simTime tx rx message =>
    rcases tx with _ | tx
    · exact Learns.of_observation rfl
    · rcases rx with _ | rx
      · exact Learns.of_observation rfl
      · exact discarded_learns wsf s simTime message tx rx link

end Bookkeeping

/-! ## Runs -/

namespace SimulationExtension

inductive Event where
  | callback (c : Callback)
  | tick (scene : Scene)

section Run
variable (wsf : Wsf) (config : RuntimeConfig)

def step (s : SimulationExtension) : Event → SimulationExtension
  | .callback c => { s with books := s.books.step wsf c }
  | .tick scene => (s.collectState wsf config scene).1

def run (events : List Event) : SimulationExtension := events.foldl (step wsf config) (new config)

/-- What an event is to the losses of a link. -/
def lossEvents (key : LinkKey) (s : SimulationExtension) : Event → List (Meter.Event Bool)
  | .callback c => (lossSample s.books key c).toList.map .sample
  | .tick scene => if scene.Reads key then [.reading] else []

/-- What an event is to the delays of a link. -/
def delayEvents (key : LinkKey) (s : SimulationExtension) : Event → List (Meter.Event ℚ)
  | .callback c => (delaySampleOf s.books key c).toList.map .sample
  | .tick scene => if scene.Reads key then [.reading] else []

def lossHistory (events : List Event) (key : LinkKey) : List (Meter.Event Bool) :=
  Trace.emitted (step wsf config) (lossEvents key) (new config) events

def delayHistory (events : List Event) (key : LinkKey) : List (Meter.Event ℚ) :=
  Trace.emitted (step wsf config) (delayEvents key) (new config) events

end Run

variable {wsf : Wsf} {config : RuntimeConfig}

/-- **One event** is to the meters of a link what its emissions are. -/
theorem step_meters (key : LinkKey) (s : SimulationExtension) (e : Event) :
    ((s.step wsf config e).link key).lossState = (lossEvents key s e).foldl lossMeter.step (s.link key).lossState ∧
      ((s.step wsf config e).link key).delayState =
        (delayEvents key s e).foldl delayMeter.step (s.link key).delayState := by
  cases e with
  | callback c =>
    obtain ⟨hlosses, hdelays⟩ := s.books.step_learns wsf c key
    refine ⟨?_, ?_⟩
    · show Meter.State.mk ((s.books.step wsf c).observation key).losses _ = _
      unfold lossEvents
      dsimp only
      rw [hlosses]
      cases lossSample s.books key c <;> rfl
    · show Meter.State.mk ((s.books.step wsf c).observation key).delays _ = _
      unfold delayEvents
      dsimp only
      rw [hdelays]
      cases delaySampleOf s.books key c <;> rfl
  | tick scene =>
    unfold step lossEvents delayEvents
    dsimp only
    rw [link_collectState]
    split_ifs
    · exact ⟨LinkState.lossState_read _, LinkState.delayState_read _⟩
    · exact ⟨rfl, rfl⟩

/-- **Both meters of every link**, along every run. -/
theorem run_meters (events : List Event) (key : LinkKey) :
    ((run wsf config events).link key).lossState = lossMeter.run (lossHistory wsf config events key) ∧
      ((run wsf config events).link key).delayState = delayMeter.run (delayHistory wsf config events key) :=
  ⟨Trace.view_foldl (fun s => (s.link key).lossState) (fun s e => (step_meters key s e).1) (new config) events,
    Trace.view_foldl (fun s => (s.link key).delayState) (fun s e => (step_meters key s e).2) (new config)
      events⟩

theorem length_sample_le {σ : Type} (sample : Option σ) : (sample.toList.map Meter.Event.sample).length ≤ 1 := by
  rw [List.length_map]
  exact Option.length_toList_le

theorem length_lossHistory_le (events : List Event) (key : LinkKey) :
    (lossHistory wsf config events key).length ≤ events.length := by
  refine Trace.length_emitted_le (fun s e => ?_) _ _
  cases e with
  | callback c => exact length_sample_le _
  | tick scene =>
    unfold lossEvents
    dsimp only
    split_ifs <;> decide

theorem length_delayHistory_le (events : List Event) (key : LinkKey) :
    (delayHistory wsf config events key).length ≤ events.length := by
  refine Trace.length_emitted_le (fun s e => ?_) _ _
  cases e with
  | callback c => exact length_sample_le _
  | tick scene =>
    unfold delayEvents
    dsimp only
    split_ifs <;> decide

/-! ## What is reported -/

theorem lossMeter_total (samples : List Bool) :
    lossMeter.total samples = (UInt64.ofNat samples.length, UInt64.ofNat (samples.count true)) := by
  induction samples using List.reverseRecOn with
  | nil => rfl
  | append_singleton samples failed ih =>
    have htotal : lossMeter.total (samples ++ [failed]) = lossMeter.add (lossMeter.total samples) failed :=
      List.foldl_append
    rw [htotal, ih, List.length_append, List.count_append]
    show (UInt64.ofNat samples.length + 1, if failed then UInt64.ofNat (samples.count true) + 1 else _) = _
    rw [List.length_singleton, UInt64.ofNat_add]
    cases failed with
    | false => rfl
    | true =>
      rw [UInt64.ofNat_add]
      rfl

theorem delayMeter_total_snd (samples : List ℚ) : (delayMeter.total samples).2 = UInt64.ofNat samples.length := by
  induction samples using List.reverseRecOn with
  | nil => rfl
  | append_singleton samples delayMs ih =>
    have htotal : delayMeter.total (samples ++ [delayMs]) = delayMeter.add (delayMeter.total samples) delayMs :=
      List.foldl_append
    rw [htotal, List.length_append, List.length_singleton, UInt64.ofNat_add, ← ih]
    rfl

/-- A counter tells whether it has counted anything, as long as it has not wrapped. -/
theorem counted_iff {α : Type} {samples : List α} (h : samples.length ≤ 2 ^ 64 - 1) :
    decide (0 < UInt64.ofNat samples.length) = true ↔ samples ≠ [] := by
  rw [decide_eq_true_eq, UInt64.lt_iff_toNat_lt, UInt64.toNat_ofNat_of_lt' (show samples.length < 2 ^ 64 by omega), ← List.length_pos_iff]
  rfl

theorem lossMeter_pending {samples : List Bool} (h : samples.length ≤ 2 ^ 64 - 1) :
    lossMeter.pending (lossMeter.total samples) = true ↔ samples ≠ [] := by
  rw [lossMeter_total]
  exact counted_iff h

theorem delayMeter_pending {samples : List ℚ} (h : samples.length ≤ 2 ^ 64 - 1) :
    delayMeter.pending (delayMeter.total samples) = true ↔ samples ≠ [] := by
  show decide (0 < (delayMeter.total samples).2) = true ↔ _
  rw [delayMeter_total_snd]
  exact counted_iff h

/-- The samples of the last window that has any, when the link is read now. -/
def lastWindow {σ : Type} (history : List (Meter.Event σ)) : Option (List σ) :=
  (Meter.windows (history ++ [.reading])).last

/-- The failures of a window among its outcomes. -/
def windowLossRate (samples : List Bool) : Double :=
  lossRate (UInt64.ofNat samples.length, UInt64.ofNat (samples.count true))

/-- The mean of a window. -/
def windowDelayMs (samples : List ℚ) : Double := meanDelayMs (delayMeter.total samples)

/-- A learned value, unless it is overridden or there is none. -/
def reported (overridden : Bool) (configured : Double) (learned : Option Double) : Double :=
  if overridden then configured else learned.getD configured

theorem read_loss {events : List Event} (hlen : events.length + 1 < 2 ^ 64) (key : LinkKey) :
    ((run wsf config events).link key).read.memory.loss =
      (lastWindow (lossHistory wsf config events key)).map windowLossRate := by
  have hrun : lossMeter.run (lossHistory wsf config events key ++ [.reading]) =
      ((run wsf config events).link key).read.lossState := by
    rw [LinkState.lossState_read, (run_meters events key).1]
    exact List.foldl_append
  have hle := @length_lossHistory_le wsf config events key
  have heq := @Meter.run_eq _ _ _ lossMeter (2 ^ 64 - 1) (fun samples => lossMeter_pending)
    (lossHistory wsf config events key ++ [.reading]) (by
      rw [List.length_append, List.length_singleton]
      omega)
  have hshown := congrArg Meter.State.shown (hrun.symm.trans heq)
  refine hshown.trans (Option.map_congr fun samples _ => ?_)
  exact congrArg lossRate (lossMeter_total samples)

theorem read_delay {events : List Event} (hlen : events.length + 1 < 2 ^ 64) (key : LinkKey) :
    ((run wsf config events).link key).read.memory.delay =
      (lastWindow (delayHistory wsf config events key)).map windowDelayMs := by
  have hrun : delayMeter.run (delayHistory wsf config events key ++ [.reading]) =
      ((run wsf config events).link key).read.delayState := by
    rw [LinkState.delayState_read, (run_meters events key).2]
    exact List.foldl_append
  have hle := @length_delayHistory_le wsf config events key
  have heq := @Meter.run_eq _ _ _ delayMeter (2 ^ 64 - 1) (fun samples => delayMeter_pending)
    (delayHistory wsf config events key ++ [.reading]) (by
      rw [List.length_append, List.length_singleton]
      omega)
  exact congrArg Meter.State.shown (hrun.symm.trans heq)

theorem quality_loss (scene : Scene) (device : Device) (peer : Option Device) (aggregateDataRate : UInt64)
    (link : Option LinkState) : (quality config scene device peer aggregateDataRate link).lossRate =
      reported config.lossOverride config.defaultLossRate (link.bind fun link => link.memory.loss) := by
  unfold quality reported LinkMemory.loss
  cases link with
  | none => cases config.lossOverride <;> rfl
  | some link => cases config.lossOverride <;> cases hloss : link.memory.hasLoss <;> simp [hloss]

theorem quality_delay (scene : Scene) (device : Device) (peer : Option Device) (aggregateDataRate : UInt64)
    (link : Option LinkState) : (quality config scene device peer aggregateDataRate link).delayMs =
      reported config.delayOverride (configuredDelayMs config scene device peer)
        (link.bind fun link => link.memory.delay) := by
  unfold quality reported LinkMemory.delay
  cases link with
  | none => cases config.delayOverride <;> rfl
  | some link => cases config.delayOverride <;> cases hdelay : link.memory.hasDelay <;> simp [hdelay]

/-- **What a frame reports of a link** after any run: the losses and delays of the last window with samples in it, or
what is configured. -/
theorem reported_from_windows (wsf : Wsf) (config : RuntimeConfig) (events : List Event)
    (hlen : events.length + 1 < 2 ^ 64) (scene : Scene) (e : EntityState)
    (he : e ∈ ((run wsf config events).collectState wsf config scene).2.entities) (entry : DeviceConfig)
    (hentry : entry ∈ e.devices) :
    ∃ platform ∈ scene.listed, e.entityId = toText platform.index ∧ ∃ device ∈ platform.present,
      ∃ peer ∈ peersFor scene platform.record device,
        entry.deviceId = device.name ++ str "-to-" ++ peer.1 ∧ entry.peerEntityId = peer.1 ∧
        entry.lossRate = reported config.lossOverride config.defaultLossRate
          ((device.linkTo peer.2.device).bind fun key =>
            (lastWindow (lossHistory wsf config events key)).map windowLossRate) ∧
        entry.delayMs = reported config.delayOverride (configuredDelayMs config scene device peer.2.device)
          ((device.linkTo peer.2.device).bind fun key =>
            (lastWindow (delayHistory wsf config events key)).map windowDelayMs) := by
  obtain ⟨platform, hplatform, hid, device, hdevice, peer, hpeer, aggregateDataRate, rfl⟩ :=
    entry_of_mem wsf config scene _ he hentry
  refine ⟨platform, hplatform, hid, device, hdevice, peer, hpeer, rfl, rfl, ?_, ?_⟩
  · refine (quality_loss scene device peer.2.device aggregateDataRate _).trans ?_
    cases device.linkTo peer.2.device with
    | none => rfl
    | some key => exact congrArg (reported _ _) (read_loss hlen key)
  · refine (quality_delay scene device peer.2.device aggregateDataRate _).trans ?_
    cases device.linkTo peer.2.device with
    | none => rfl
    | some key => exact congrArg (reported _ _) (read_delay hlen key)

end SimulationExtension

/-- One of the radios of a network. -/
def radioAt (address : ℕ) : Device where
  name := str "radio"
  network := str "net"
  linkPairs := []
  isTurnedOn := true
  canSend := true
  canReceive := true
  address := address
  medium := some .unguided
  transferRate := none
  lastDataRate := .finite 0

def radioPlatform (index : ℕ) : Equipped where
  index := index
  name := str "platform"
  isBroken := false
  isDeleted := false
  position := ⟨.finite 0, .finite 0, .finite 0⟩
  velocity := ⟨.finite 0, .finite 0, .finite 0⟩
  headingDeg := .finite 0
  comms := [some (radioAt index).toComm]
  devices := [some (radioAt index)]
  comms_eq := rfl

/-- Two platforms with a radio each. -/
def radioScene (simTime : ℚ) : Scene := ⟨simTime, [some (radioPlatform 1), some (radioPlatform 2)], fun _ _ => none⟩

/-- A message from the first radio to the second that fails half a second later. -/
def radioLoss : List SimulationExtension.Event := [
  .callback (.transmitted 1 (some (commOf 1)) (some (commOf 2)) broadcastMessage),
  .callback (.received (3 / 2) (some (commOf 1)) (some (commOf 2)) broadcastMessage ⟨0, 1, .finite 0, none⟩)]

/-- Without any variables set. -/
def plainConfig : RuntimeConfig := .ofEnvironment (fun _ => none) (fun _ => .error [])

theorem radio_entries : ∃ e ∈ ((SimulationExtension.run plainWsf plainConfig radioLoss).collectState plainWsf
    plainConfig (radioScene 2)).2.entities, e.devices ≠ [] := by
  decide +kernel

theorem radio_reported : ∃ e ∈ ((SimulationExtension.run plainWsf plainConfig radioLoss).collectState plainWsf
    plainConfig (radioScene 2)).2.entities, ∃ entry ∈ e.devices, ∃ platform ∈ (radioScene 2).listed,
      e.entityId = toText platform.index ∧ ∃ device ∈ platform.present,
        ∃ peer ∈ SimulationExtension.peersFor (radioScene 2) platform.record device,
          entry.deviceId = device.name ++ str "-to-" ++ peer.1 ∧ entry.peerEntityId = peer.1 ∧
          entry.lossRate = SimulationExtension.reported plainConfig.lossOverride plainConfig.defaultLossRate
            ((device.linkTo peer.2.device).bind fun key => (SimulationExtension.lastWindow
              (SimulationExtension.lossHistory plainWsf plainConfig radioLoss key)).map
                SimulationExtension.windowLossRate) ∧
          entry.delayMs = SimulationExtension.reported plainConfig.delayOverride
            (configuredDelayMs plainConfig (radioScene 2) device peer.2.device)
            ((device.linkTo peer.2.device).bind fun key => (SimulationExtension.lastWindow
              (SimulationExtension.delayHistory plainWsf plainConfig radioLoss key)).map
                SimulationExtension.windowDelayMs) := by
  obtain ⟨e, he, hne⟩ := radio_entries
  obtain ⟨entry, hentry⟩ := List.exists_mem_of_ne_nil _ hne
  exact ⟨e, he, entry, hentry, SimulationExtension.reported_from_windows plainWsf plainConfig radioLoss (by decide)
    (radioScene 2) e he entry hentry⟩

/-! ## Ranges -/

theorem lossRate_within (losses : UInt64 × UInt64) : Double.Within 0 1 (lossRate losses) := by
  obtain ⟨failures, hfailures, hnonneg⟩ := Double.ofRat_uint64 losses.2
  obtain ⟨completed, hcompleted, hpos⟩ := Double.ofRat_uint64 losses.1
  unfold lossRate
  rw [hfailures, hcompleted]
  exact ((Double.atLeast_finite_iff.mpr hnonneg).quotient hpos).atMost (by norm_num)

theorem meanDelayMs_atLeast {delays : Double × UInt64} (h : Double.AtLeast 0 delays.1) :
    Double.AtLeast 0 (meanDelayMs delays) := by
  obtain ⟨samples, hsamples, hpos⟩ := Double.ofRat_uint64 delays.2
  unfold meanDelayMs
  rw [hsamples]
  exact h.quotient hpos

theorem Bookkeeping.delaySample_nonneg {s : Bookkeeping} {simTime : ℚ} {key : MessageKey} {delayMs : ℚ}
    (h : s.delaySample simTime key = some delayMs) : 0 ≤ delayMs := by
  obtain ⟨transmitted, -, hsample⟩ := Option.bind_eq_some_iff.mp h
  have hrange : Double.AtLeast 0 ((delaySeconds transmitted simTime).scale 1000) :=
    (Double.nonnegative_atLeast _).scale (by norm_num)
  cases hms : (delaySeconds transmitted simTime).scale 1000 with
  | finite q =>
    rw [hms] at hrange hsample
    obtain rfl := Option.some.inj hsample
    exact Double.atLeast_finite_iff.mp hrange
  | inf negative =>
    rw [hms] at hsample
    cases hsample
  | nan =>
    rw [hms] at hsample
    cases hsample

theorem delaySampleOf_nonneg {s : Bookkeeping} {link : LinkKey} {c : Callback} {delayMs : ℚ}
    (h : delaySampleOf s link c = some delayMs) : 0 ≤ delayMs := by
  unfold delaySampleOf at h
  split at h
  · split_ifs at h
    exact Bookkeeping.delaySample_nonneg h
  · split_ifs at h
    exact Bookkeeping.delaySample_nonneg h
  · cases h

/-- No delay is below zero, no loss rate outside of `[0, 1]`. -/
structure LinkState.InRange (link : LinkState) : Prop where
  delayTotalMs : Double.AtLeast 0 link.observation.delayTotalMs
  lastDelayMs : Double.AtLeast 0 link.memory.lastDelayMs
  lastLossRate : Double.Within 0 1 link.memory.lastLossRate

theorem LinkState.InRange.initial : LinkState.initial.InRange :=
  ⟨.inl rfl, .inl rfl, 0, rfl, le_refl 0, by norm_num⟩

theorem LinkState.InRange.read {link : LinkState} (h : link.InRange) : link.read.InRange := by
  have hloss : link.readLoss.InRange := by
    unfold readLoss
    split_ifs
    · exact ⟨h.delayTotalMs, h.lastDelayMs, lossRate_within _⟩
    · exact h
  show link.readLoss.readDelay.InRange
  unfold readDelay
  split_ifs
  · exact ⟨.inl rfl, meanDelayMs_atLeast hloss.delayTotalMs, hloss.lastLossRate⟩
  · exact hloss

namespace SimulationExtension

def InRange (s : SimulationExtension) : Prop := ∀ key, (s.link key).InRange

variable {wsf : Wsf} {config : RuntimeConfig}

theorem InRange.step {s : SimulationExtension} (h : s.InRange) (e : Event) : (s.step wsf config e).InRange := by
  intro key
  cases e with
  | callback c =>
    obtain ⟨hdelays, hlast, hloss⟩ := h key
    refine ⟨?_, hlast, hloss⟩
    have htotal := congrArg Prod.fst (s.books.step_learns wsf c key).2
    show Double.AtLeast 0 ((s.books.step wsf c).observation key).delays.1
    rw [htotal]
    cases hsample : delaySampleOf s.books key c with
    | none => exact hdelays
    | some delayMs => exact hdelays.add (Double.atLeast_finite_iff.mpr (delaySampleOf_nonneg hsample))
  | tick scene =>
    show ((s.collectState wsf config scene).1.link key).InRange
    rw [link_collectState]
    split_ifs
    · exact (h key).read
    · exact h key

theorem run_inRange (events : List Event) : (run wsf config events).InRange :=
  List.foldlRecOn events _ (fun _ => LinkState.InRange.initial) fun _ h e _ => h.step e

theorem configuredDelayMs_atLeast (h : Double.AtLeast 0 config.defaultDelayMs) (scene : Scene) (transmitter : Device)
    (receiver : Option Device) : Double.AtLeast 0 (configuredDelayMs config scene transmitter receiver) := by
  unfold configuredDelayMs
  dsimp only
  split_ifs with hoverride hnative
  · exact h
  · exact hnative
  · exact h

theorem reported_rule {P : Double → Prop} {overridden : Bool} {configured : Double} {learned : Option Double}
    (hconfigured : P configured) (hlearned : ∀ x, learned = some x → P x) : P (reported overridden configured learned) := by
  unfold reported
  split_ifs
  · exact hconfigured
  · cases learned with
    | none => exact hconfigured
    | some x => exact hlearned x rfl

/-- What the service asks of a device entry, apart from its names and that the delay is finite. -/
structure EntryInRange (entry : DeviceConfig) : Prop where
  kind : entry.kind = str "wired" ∨ entry.kind = str "wireless"
  dataRateBps : 1 ≤ entry.dataRateBps
  delayMs : Double.AtLeast 0 entry.delayMs
  lossRate : Double.Within 0 1 entry.lossRate
  linkState : entry.linkState = str "UP" ∨ entry.linkState = str "DOWN"

theorem EntryOf.inRange {s : SimulationExtension} (hs : s.InRange) (hconfig : config.Valid) {scene : Scene}
    {r : PlatformRecord} {device : Device} {peer : Str × PeerDevice} {entry : DeviceConfig}
    (h : EntryOf config scene s r device peer entry) : EntryInRange entry := by
  obtain ⟨aggregateDataRate, rfl⟩ := h
  refine ⟨?_, le_max_uint64 _ _, ?_, ?_, ?_⟩
  · show linkKind config device = _ ∨ linkKind config device = _
    unfold linkKind
    split
    · exact .inl rfl
    · exact .inr rfl
    · split_ifs
      · exact .inl rfl
      · exact .inr rfl
  · show Double.AtLeast 0 (quality config scene device peer.2.device aggregateDataRate _).delayMs
    rw [quality_delay]
    refine reported_rule (configuredDelayMs_atLeast hconfig.delay scene device _) fun x hx => ?_
    obtain ⟨link, hlink, hdelay⟩ := Option.bind_eq_some_iff.mp hx
    obtain ⟨key, -, rfl⟩ := Option.map_eq_some_iff.mp hlink
    unfold LinkMemory.delay at hdelay
    split_ifs at hdelay
    exact Option.some.inj hdelay ▸ (hs key).read.lastDelayMs
  · show Double.Within 0 1 (quality config scene device peer.2.device aggregateDataRate _).lossRate
    rw [quality_loss]
    refine reported_rule hconfig.loss fun x hx => ?_
    obtain ⟨link, hlink, hloss⟩ := Option.bind_eq_some_iff.mp hx
    obtain ⟨key, -, rfl⟩ := Option.map_eq_some_iff.mp hlink
    unfold LinkMemory.loss at hloss
    split_ifs at hloss
    exact Option.some.inj hloss ▸ (hs key).read.lastLossRate
  · show (if _ then str "UP" else str "DOWN") = _ ∨ (if _ then str "UP" else str "DOWN") = _
    split_ifs
    · exact .inl rfl
    · exact .inr rfl

/-- **Every device entry is in range**, whatever the environment holds and whatever has happened. -/
theorem reported_in_range (getenv : Environment) (stod : Bytes → Except Bytes Double) (wsf : Wsf) (events : List Event)
    (scene : Scene) :
    ∀ e ∈ ((run wsf (.ofEnvironment getenv stod) events).collectState wsf (.ofEnvironment getenv stod)
      scene).2.entities,
      ∀ entry ∈ e.devices, EntryInRange entry := by
  intro e he entry hentry
  obtain ⟨platform, -, -, device, -, peer, -, hof⟩ := entry_of_mem _ _ scene _ he hentry
  exact hof.inRange (run_inRange events) (ofEnvironment_valid getenv stod)

end SimulationExtension

theorem radio_in_range : ∃ e ∈ ((SimulationExtension.run plainWsf plainConfig radioLoss).collectState plainWsf
    plainConfig (radioScene 2)).2.entities, ∃ entry ∈ e.devices, SimulationExtension.EntryInRange entry := by
  obtain ⟨e, he, hne⟩ := radio_entries
  obtain ⟨entry, hentry⟩ := List.exists_mem_of_ne_nil _ hne
  exact ⟨e, he, entry, hentry, SimulationExtension.reported_in_range _ _ plainWsf radioLoss (radioScene 2) e he entry hentry⟩

end AfsimNs3.Plugin
