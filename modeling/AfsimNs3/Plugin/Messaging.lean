import AfsimNs3.Adapter.Gates
import AfsimNs3.Lib.Trace
import AfsimNs3.Plugin.Extension
import Mathlib.Data.Finset.Basic

/-!
# Message bookkeeping of the plugin

Four callbacks of the simulation tell the plugin about a message: `messageTransmitted`, `messageDeliveryAttempt`
(where the gate decides), `messageReceived` and `messageDiscarded`. What the plugin learns about a link is in its
`LinkObservation`; which outcomes it must not learn from is kept in two sets, `mExternallyGatedMessages` and
`mExternallyDroppedMessages`, whose keys are the transmitter and the serial number alone.

* `unlearned_iff`: no outcome of a gated attempt is learned from exactly when each outcome finds its key as its own
  attempt left it (`Recognised`); a key attempted again only after the outcome of its earlier attempt always is;
* `overlapping_attempts_learned`: two attempts of one message towards two receivers mix up their outcomes.
-/

namespace AfsimNs3.Plugin
open AfsimNs3.Adapter (MessageTransportGate)
open Trace

/-! ## What the callbacks are given -/

/-- A `Comm` as the bookkeeping sees it: its address, its name and the index of its platform. -/
structure CommRef extends Endpoint where
  address : ℕ

structure WsfMessage extends Message where
  sizeBits : ℤ

inductive DisconnectReason where
  | linkConnected
  | unknownError
  | noRouterBridge
  | signalLevelInsufficient

/-- The parts of `wsf::comm::Result` that the plugin reads and writes. -/
structure Result where
  mCheckedStatus : UInt32
  mFailedStatus : UInt32
  mDataRate : Double
  mReason : Option (DisconnectReason × Bytes)

/-- What the simulation, the standard library and the compiler supply: the `SIGNAL_LEVEL` bit, `std::to_string` of a
double, and what becomes of `static_cast<double>(UINT64_MAX)`, which is beyond the type, as a `std::uint64_t`. -/
structure Wsf where
  signalLevel : UInt32
  toText : Double → Bytes
  largestRate : UInt64

/-! ## The containers -/

/-- The devices at the two ends of a link. -/
abbrev LinkKey := ℕ × ℕ

/-- A transmitter and a serial number. -/
abbrev MessageKey := ℕ × UInt32

structure LinkObservation where
  completed : UInt64
  failures : UInt64
  delayTotalMs : Double
  delaySamples : UInt64
  lastDataRateBps : UInt64
  hasDataRate : Bool

def LinkObservation.initial : LinkObservation := ⟨0, 0, .finite 0, 0, 0, false⟩

structure Bookkeeping where
  flows : Extension
  mLinkObservations : Dict LinkKey LinkObservation
  mTransmitTimes : Dict MessageKey ℚ
  mExternallyGatedMessages : Finset MessageKey
  mExternallyDroppedMessages : Finset MessageKey

def Bookkeeping.new (intervalSeconds : Double) : Bookkeeping :=
  ⟨Extension.new intervalSeconds, Dict.empty, Dict.empty, ∅, ∅⟩

/-- `static_cast<std::uint64_t>(std::min(rate, static_cast<double>(UINT64_MAX)))`. -/
def Wsf.rateBps (wsf : Wsf) (rate : ℚ) : UInt64 :=
  if rate < 2 ^ 64 then UInt64.ofNat ⌊rate⌋.toNat else wsf.largestRate

namespace LinkObservation

/-- A rate that is finite and positive becomes the last one seen. -/
def setDataRate (wsf : Wsf) (observation : LinkObservation) : Double → LinkObservation
  | .finite rate =>
    if 0 < rate then { observation with lastDataRateBps := wsf.rateBps rate, hasDataRate := true } else observation
  | _ => observation

/-- `UpdateObservedDataRate`. -/
def updateObservedDataRate (wsf : Wsf) (observation : LinkObservation) (result : Result) : LinkObservation :=
  observation.setDataRate wsf result.mDataRate

/-- One more outcome, a failure or not. -/
def countOutcome (observation : LinkObservation) (failed : Bool) : LinkObservation :=
  { observation with
    completed := observation.completed + 1
    failures := if failed then observation.failures + 1 else observation.failures }

/-- The delay of an outcome, as a sample. -/
def addSample (observation : LinkObservation) (delaySeconds : Double) : LinkObservation :=
  match delaySeconds.scale 1000 with
  | .finite delayMs =>
    { observation with
      delayTotalMs := observation.delayTotalMs.add (.finite delayMs)
      delaySamples := observation.delaySamples + 1 }
  | _ => observation

/-- The rate that a message of this size and delay shows. -/
def inferDataRate (wsf : Wsf) (observation : LinkObservation) (delaySeconds : Double) (sizeBits : ℤ) :
    LinkObservation :=
  match delaySeconds with
  | .finite seconds =>
    if 0 < seconds ∧ 0 < sizeBits then observation.setDataRate wsf (Double.ofRat (sizeBits / seconds)) else observation
  | _ => observation

end LinkObservation

/-! ## The callbacks -/

namespace Bookkeeping

/-- `mLinkObservations[link]`, as it would be read. -/
def observation (s : Bookkeeping) (link : LinkKey) : LinkObservation :=
  (s.mLinkObservations.get? link).getD LinkObservation.initial

def setObservation (s : Bookkeeping) (link : LinkKey) (observation : LinkObservation) : Bookkeeping :=
  { s with mLinkObservations := s.mLinkObservations.put link observation }

/-- `RecordFlow`. -/
def recordFlow (s : Bookkeeping) (simTime : ℚ) (transmitter receiver : Option CommRef) (message : WsfMessage) :
    Bookkeeping :=
  { s with
    flows := Plugin.recordFlow s.flows simTime (transmitter.map CommRef.toEndpoint) (receiver.map CommRef.toEndpoint)
      message.toMessage }

def delaySeconds (transmitted simTime : ℚ) : Double := (Double.ofRat (simTime - transmitted)).nonnegative

/-- `UpdateObservedDelayAndRate`: the observation is the one the caller refers to. -/
def updateObservedDelayAndRate (wsf : Wsf) (s : Bookkeeping) (simTime : ℚ) (key : MessageKey) (message : WsfMessage)
    (observation : LinkObservation) (inferRate : Bool) : Bookkeeping × LinkObservation :=
  match s.mTransmitTimes.get? key with
  | some transmitted =>
    let delay := delaySeconds transmitted simTime
    let observation := observation.addSample delay
    ({ s with mTransmitTimes := s.mTransmitTimes.erase key },
      if inferRate then observation.inferDataRate wsf delay message.sizeBits else observation)
  | none => (s, observation)

/-- What both outcomes do with the delay: a gated message has none, its transmit time is only forgotten. -/
def settleDelay (wsf : Wsf) (s : Bookkeeping) (simTime : ℚ) (key : MessageKey) (message : WsfMessage)
    (observation : LinkObservation) (externallyGated inferRate : Bool) : Bookkeeping × LinkObservation :=
  if !externallyGated then s.updateObservedDelayAndRate wsf simTime key message observation inferRate
  else ({ s with mTransmitTimes := s.mTransmitTimes.erase key }, observation)

/-- `MessageTransmitted`. The receiver is the device the network manager has at the destination's address. -/
def messageTransmitted (s : Bookkeeping) (simTime : ℚ) (transmitter receiver : Option CommRef) (message : WsfMessage) :
    Bookkeeping :=
  match transmitter with
  | some tx =>
    let s := { s with mTransmitTimes := s.mTransmitTimes.put (tx.address, message.serialNumber) simTime }
    s.recordFlow simTime transmitter receiver message
  | none => s

section Attempt
variable (wsf : Wsf)

/-- The result of an attempt that is not delivered. -/
def refuse (result : Result) (reason : DisconnectReason) (text : Bytes) : Result :=
  { result with
    mCheckedStatus := result.mCheckedStatus ||| wsf.signalLevel
    mFailedStatus := result.mFailedStatus ||| wsf.signalLevel
    mReason := some (reason, ascii "AFSIM_NS3_GATE_DROP:" ++ text) }

/-- `MessageDeliveryAttempt`, with the gate as it is then. -/
def messageDeliveryAttempt (s : Bookkeeping) (simTime : ℚ) (transmitter receiver : Option CommRef)
    (message : WsfMessage) (result : Result) (gate : MessageTransportGate) : Bookkeeping × Result :=
  match transmitter, receiver with
  | some tx, some rx =>
    let key : MessageKey := (tx.address, message.serialNumber)
    let s := { s with mExternallyGatedMessages := insert key s.mExternallyGatedMessages }
    let s := s.recordFlow simTime transmitter receiver message
    let link : LinkKey := (tx.address, rx.address)
    let s := s.setObservation link ((s.observation link).updateObservedDataRate wsf result)
    match tx.platform, rx.platform with
    | some source, some target =>
      let decision := gate.decide (natBytes source) (natBytes target) message.serialNumber.toUInt64
      match decision.disposition with
      | .deliver =>
        ({ s with mExternallyDroppedMessages := s.mExternallyDroppedMessages.erase key },
          { result with
            mCheckedStatus := result.mCheckedStatus ||| wsf.signalLevel
            mReason := some (.linkConnected, ascii "AFSIM_NS3_GATE_TOTAL_DELAY_SECONDS:" ++
              wsf.toText (Double.ofRat (max 0 decision.delayMs / 1000))) })
      | .noLink =>
        ({ s with mExternallyDroppedMessages := insert key s.mExternallyDroppedMessages },
          refuse wsf result .noRouterBridge decision.reason)
      | .drop =>
        ({ s with mExternallyDroppedMessages := insert key s.mExternallyDroppedMessages },
          refuse wsf result .signalLevelInsufficient decision.reason)
    | _, _ =>
      ({ s with mExternallyDroppedMessages := insert key s.mExternallyDroppedMessages },
        refuse wsf result .unknownError (ascii "PLATFORM_NOT_FOUND"))
  | _, _ => (s, result)

end Attempt

/-- `MessageReceived`. -/
def messageReceived (wsf : Wsf) (s : Bookkeeping) (simTime : ℚ) (transmitter receiver : Option CommRef)
    (message : WsfMessage) (result : Result) : Bookkeeping :=
  match transmitter, receiver with
  | some tx, some rx =>
    let s := s.recordFlow simTime transmitter receiver message
    let link : LinkKey := (tx.address, rx.address)
    let key : MessageKey := (tx.address, message.serialNumber)
    let externallyGated := decide (key ∈ s.mExternallyGatedMessages)
    let s := { s with mExternallyGatedMessages := s.mExternallyGatedMessages.erase key }
    let observation := (s.observation link).countOutcome (result.mFailedStatus ≠ 0)
    let settled := s.settleDelay wsf simTime key message observation externallyGated true
    settled.1.setObservation link (settled.2.updateObservedDataRate wsf result)
  | _, _ => s

/-- `MessageDiscarded`. The receiver is the device the network manager has at the destination's address. -/
def messageDiscarded (wsf : Wsf) (s : Bookkeeping) (simTime : ℚ) (transmitter receiver : Option CommRef)
    (message : WsfMessage) : Bookkeeping :=
  match transmitter, receiver with
  | some tx, some rx =>
    let s := s.recordFlow simTime transmitter receiver message
    let link : LinkKey := (tx.address, rx.address)
    let key : MessageKey := (tx.address, message.serialNumber)
    let externallyDropped := decide (key ∈ s.mExternallyDroppedMessages)
    let externallyGated := decide (key ∈ s.mExternallyGatedMessages)
    let s := { s with
      mExternallyDroppedMessages := s.mExternallyDroppedMessages.erase key
      mExternallyGatedMessages := s.mExternallyGatedMessages.erase key }
    if !externallyDropped then
      let observation := (s.observation link).countOutcome true
      let settled := s.settleDelay wsf simTime key message observation externallyGated false
      settled.1.setObservation link settled.2
    else s.setObservation link (s.observation link)
  | _, _ => s

end Bookkeeping

/-! ## Runs -/

inductive Callback where
  | transmitted (simTime : ℚ) (transmitter receiver : Option CommRef) (message : WsfMessage)
  | deliveryAttempt (simTime : ℚ) (transmitter receiver : Option CommRef) (message : WsfMessage) (result : Result)
    (gate : MessageTransportGate)
  | received (simTime : ℚ) (transmitter receiver : Option CommRef) (message : WsfMessage) (result : Result)
  | discarded (simTime : ℚ) (transmitter receiver : Option CommRef) (message : WsfMessage)

def Bookkeeping.step (wsf : Wsf) (s : Bookkeeping) : Callback → Bookkeeping
  | .transmitted simTime tx rx message => s.messageTransmitted simTime tx rx message
  | .deliveryAttempt simTime tx rx message result gate => (s.messageDeliveryAttempt wsf simTime tx rx message result gate).1
  | .received simTime tx rx message result => s.messageReceived wsf simTime tx rx message result
  | .discarded simTime tx rx message => s.messageDiscarded wsf simTime tx rx message

namespace Callback

def messageKey (transmitter : Option CommRef) (message : WsfMessage) : Option MessageKey :=
  transmitter.map fun tx => (tx.address, message.serialNumber)

def key : Callback → Option MessageKey
  | .transmitted _ tx _ message => messageKey tx message
  | .deliveryAttempt _ tx _ message _ _ => messageKey tx message
  | .received _ tx _ message _ => messageKey tx message
  | .discarded _ tx _ message => messageKey tx message

def IsAttempt : Callback → Prop
  | .deliveryAttempt .. => True
  | _ => False

def IsOutcome : Callback → Prop
  | .received .. => True
  | .discarded .. => True
  | _ => False

/-- What the gate decides in an attempt. An attempt without one of the devices does not reach the gate; without one of
the platforms there is no link. -/
def verdict : Callback → Option MessageTransportGate.Disposition
  | .deliveryAttempt _ (some tx) (some rx) message _ gate =>
    match tx.platform, rx.platform with
    | some source, some target =>
      some (gate.decide (natBytes source) (natBytes target) message.serialNumber.toUInt64).disposition
    | _, _ => some .noLink
  | _ => none

/-- The gate decided to deliver. -/
def Delivered (attempt : Callback) : Prop := attempt.verdict = some .deliver

/-- The gate decided not to deliver. -/
def Undelivered (attempt : Callback) : Prop := attempt.verdict ≠ none ∧ ¬ attempt.Delivered

/-- The attempt can have this outcome: the transmitter and the message are the same, and a reception has the receiver
of the attempt, which the gate did not refuse. -/
def OutcomeOf (outcome attempt : Callback) : Prop :=
  attempt.IsAttempt ∧ outcome.key = attempt.key ∧
    match outcome, attempt with
    | .received _ _ rx _ _, .deliveryAttempt _ _ rx' _ _ _ =>
      rx.map CommRef.address = rx'.map CommRef.address ∧ ¬ attempt.Undelivered
    | _, _ => True

end Callback

/-- Every reception and every discard is preceded by its own attempt, at the position `own` gives. -/
structure Matched (callbacks : List Callback) (own : ℕ → ℕ) : Prop where
  matching : Matching Callback.IsOutcome callbacks own
  attempt : ∀ i c, callbacks[i]? = some c → c.IsOutcome → ∃ a, callbacks[own i]? = some a ∧ c.OutcomeOf a

/-! ## What is learned -/

/-- The counters a loss goes into. -/
def LinkObservation.losses (observation : LinkObservation) : UInt64 × UInt64 :=
  (observation.completed, observation.failures)

/-- The counters a delay goes into. -/
def LinkObservation.delays (observation : LinkObservation) : Double × UInt64 :=
  (observation.delayTotalMs, observation.delaySamples)

namespace Bookkeeping

/-- Every observation has the losses it had. -/
def SameLosses (s s' : Bookkeeping) : Prop := ∀ link, (s'.observation link).losses = (s.observation link).losses

/-- Every observation has the delays it had. -/
def SameDelays (s s' : Bookkeeping) : Prop := ∀ link, (s'.observation link).delays = (s.observation link).delays

/-- The delay sample that an outcome of the key would add. -/
def delaySample (s : Bookkeeping) (simTime : ℚ) (key : MessageKey) : Option ℚ :=
  (s.mTransmitTimes.get? key).bind fun transmitted =>
    match (delaySeconds transmitted simTime).scale 1000 with
    | .finite delayMs => some delayMs
    | _ => none

/-- The containers hold the key of the outcome as its own attempt left it, as far as the outcome is concerned. -/
def Recognised (s : Bookkeeping) (attempt : Callback) : Callback → Prop
  | .received simTime (some tx) (some _) message _ =>
    attempt.Delivered → (tx.address, message.serialNumber) ∈ s.mExternallyGatedMessages ∨
      s.delaySample simTime (tx.address, message.serialNumber) = none
  | .discarded simTime (some tx) (some _) message =>
    (attempt.Undelivered → (tx.address, message.serialNumber) ∈ s.mExternallyDroppedMessages) ∧
      (attempt.Delivered → (tx.address, message.serialNumber) ∈ s.mExternallyDroppedMessages ∨
        (tx.address, message.serialNumber) ∈ s.mExternallyGatedMessages ∨
        s.delaySample simTime (tx.address, message.serialNumber) = none)
  | _ => True

theorem SameLosses.refl (s : Bookkeeping) : s.SameLosses s := fun _ => rfl

theorem SameDelays.refl (s : Bookkeeping) : s.SameDelays s := fun _ => rfl

end Bookkeeping

/-- **Nothing is learned from the gate's own doing** at any position of the run: an undelivered attempt adds to no
losses, an attempt that reached the gate adds to no delays. -/
structure Unlearned (state : ℕ → Bookkeeping) (callbacks : List Callback) (own : ℕ → ℕ) : Prop where
  losses : ∀ i c a, callbacks[i]? = some c → c.IsOutcome → callbacks[own i]? = some a → a.Undelivered →
    (state i).SameLosses (state (i + 1))
  delays : ∀ i c a, callbacks[i]? = some c → c.IsOutcome → callbacks[own i]? = some a → a.verdict ≠ none →
    (state i).SameDelays (state (i + 1))
  attempts : ∀ i c, callbacks[i]? = some c → ¬ c.IsOutcome →
    (state i).SameLosses (state (i + 1)) ∧ (state i).SameDelays (state (i + 1))

/-! ## One callback -/

theorem LinkObservation.setDataRate_counters (wsf : Wsf) (o : LinkObservation) (rate : Double) :
    (o.setDataRate wsf rate).losses = o.losses ∧ (o.setDataRate wsf rate).delays = o.delays := by
  unfold LinkObservation.setDataRate
  split
  · split_ifs <;> exact ⟨rfl, rfl⟩
  · exact ⟨rfl, rfl⟩

theorem LinkObservation.inferDataRate_counters (wsf : Wsf) (o : LinkObservation) (delaySeconds : Double)
    (sizeBits : ℤ) :
    (o.inferDataRate wsf delaySeconds sizeBits).losses = o.losses ∧
      (o.inferDataRate wsf delaySeconds sizeBits).delays = o.delays := by
  unfold LinkObservation.inferDataRate
  split
  · split_ifs
    · exact o.setDataRate_counters wsf _
    · exact ⟨rfl, rfl⟩
  · exact ⟨rfl, rfl⟩

theorem LinkObservation.addSample_losses (o : LinkObservation) (delaySeconds : Double) :
    (o.addSample delaySeconds).losses = o.losses := by
  unfold LinkObservation.addSample
  split <;> rfl

theorem add_one_ne (n : UInt64) : n + 1 ≠ n := by
  intro h
  have hnat := congrArg UInt64.toNat h
  have hlt := n.toNat_lt
  rw [UInt64.toNat_add, UInt64.toNat_one] at hnat
  omega

/-- A sample is added exactly when the delay is finite. -/
theorem LinkObservation.addSample_delays_iff (o : LinkObservation) (delaySeconds : Double) :
    (o.addSample delaySeconds).delays = o.delays ↔ (delaySeconds.scale 1000).isFinite = false := by
  unfold LinkObservation.addSample
  split
  · rename_i delayMs heq
    rw [heq]
    simp only [LinkObservation.delays, Prod.mk.injEq, Double.isFinite, Bool.true_eq_false, iff_false, not_and]
    exact fun _ => add_one_ne _
  · rename_i hne
    refine iff_of_true rfl ?_
    cases hd : delaySeconds.scale 1000 with
    | finite delayMs => exact absurd hd (hne delayMs)
    | _ => rfl

namespace Bookkeeping
variable {s : Bookkeeping} {simTime : ℚ} {key : MessageKey} {message : WsfMessage} {o : LinkObservation}

theorem observation_setObservation (s : Bookkeeping) (link link' : LinkKey) (o : LinkObservation) :
    (s.setObservation link o).observation link' = if link' = link then o else s.observation link' := by
  unfold setObservation observation
  rw [Dict.get?_put]
  split_ifs <;> rfl

theorem delaySample_eq_none_iff : s.delaySample simTime key = none ↔
    ∀ transmitted, s.mTransmitTimes.get? key = some transmitted →
      ((delaySeconds transmitted simTime).scale 1000).isFinite = false := by
  unfold delaySample
  cases s.mTransmitTimes.get? key with
  | none => simp
  | some transmitted =>
    simp only [Option.bind_some, Option.some.injEq, forall_eq']
    split
    · rename_i heq
      simp [heq, Double.isFinite]
    · rename_i hne
      refine iff_of_true rfl ?_
      cases hd : (delaySeconds transmitted simTime).scale 1000 with
      | finite delayMs => exact absurd hd (hne delayMs)
      | _ => rfl

/-- What `updateObservedDelayAndRate` touches: the transmit times, and the delays of the observation where there is a
sample. -/
theorem updateObservedDelayAndRate_spec (wsf : Wsf) (s : Bookkeeping) (simTime : ℚ) (key : MessageKey)
    (message : WsfMessage) (o : LinkObservation) (inferRate : Bool) :
    (∀ link, (s.updateObservedDelayAndRate wsf simTime key message o inferRate).1.observation link =
        s.observation link) ∧
      (s.updateObservedDelayAndRate wsf simTime key message o inferRate).1.mExternallyGatedMessages =
        s.mExternallyGatedMessages ∧
      (s.updateObservedDelayAndRate wsf simTime key message o inferRate).1.mExternallyDroppedMessages =
        s.mExternallyDroppedMessages ∧
      (s.updateObservedDelayAndRate wsf simTime key message o inferRate).2.losses = o.losses ∧
      ((s.updateObservedDelayAndRate wsf simTime key message o inferRate).2.delays = o.delays ↔
        s.delaySample simTime key = none) := by
  unfold updateObservedDelayAndRate
  cases ht : s.mTransmitTimes.get? key with
  | none =>
    refine ⟨fun _ => rfl, rfl, rfl, rfl, iff_of_true rfl ?_⟩
    rw [delaySample, ht]
    rfl
  | some transmitted =>
    refine ⟨fun _ => rfl, rfl, rfl, ?_, ?_⟩
    · cases inferRate with
      | false => exact o.addSample_losses _
      | true => exact ((o.addSample _).inferDataRate_counters wsf _ _).1.trans (o.addSample_losses _)
    · have hdelays : ∀ b, (if b = true then (o.addSample (delaySeconds transmitted simTime)).inferDataRate wsf
          (delaySeconds transmitted simTime) message.sizeBits else o.addSample (delaySeconds transmitted simTime)).delays =
          (o.addSample (delaySeconds transmitted simTime)).delays := by
        intro b
        cases b with
        | false => rfl
        | true => exact ((o.addSample _).inferDataRate_counters wsf _ _).2
      show (if inferRate = true then _ else _ : LinkObservation).delays = _ ↔ _
      rw [hdelays, LinkObservation.addSample_delays_iff, delaySample_eq_none_iff, ht]
      simp

theorem sameDelays_setObservation {t : Bookkeeping} (ht : ∀ link, t.observation link = s.observation link)
    (link : LinkKey) (o : LinkObservation) :
    s.SameDelays (t.setObservation link o) ↔ o.delays = (s.observation link).delays := by
  refine ⟨fun h => ?_, fun h link' => ?_⟩
  · have hlink := h link
    rwa [observation_setObservation, if_pos rfl] at hlink
  · rw [observation_setObservation]
    split_ifs with heq
    · rw [heq, h]
    · rw [ht link']

theorem sameLosses_setObservation {t : Bookkeeping} (ht : ∀ link, t.observation link = s.observation link)
    (link : LinkKey) (o : LinkObservation) :
    s.SameLosses (t.setObservation link o) ↔ o.losses = (s.observation link).losses := by
  refine ⟨fun h => ?_, fun h link' => ?_⟩
  · have hlink := h link
    rwa [observation_setObservation, if_pos rfl] at hlink
  · rw [observation_setObservation]
    split_ifs with heq
    · rw [heq, h]
    · rw [ht link']

/-- What `settleDelay` touches: a gated message has no sample. -/
theorem settleDelay_spec (wsf : Wsf) (s : Bookkeeping) (simTime : ℚ) (key : MessageKey) (message : WsfMessage)
    (o : LinkObservation) (externallyGated inferRate : Bool) :
    (∀ link, (s.settleDelay wsf simTime key message o externallyGated inferRate).1.observation link =
        s.observation link) ∧
      (s.settleDelay wsf simTime key message o externallyGated inferRate).1.mExternallyGatedMessages =
        s.mExternallyGatedMessages ∧
      (s.settleDelay wsf simTime key message o externallyGated inferRate).1.mExternallyDroppedMessages =
        s.mExternallyDroppedMessages ∧
      (s.settleDelay wsf simTime key message o externallyGated inferRate).2.losses = o.losses ∧
      ((s.settleDelay wsf simTime key message o externallyGated inferRate).2.delays = o.delays ↔
        externallyGated = true ∨ s.delaySample simTime key = none) := by
  cases externallyGated with
  | true => exact ⟨fun _ => rfl, rfl, rfl, rfl, iff_of_true rfl (Or.inl rfl)⟩
  | false =>
    obtain ⟨hobservation, hgated, hdropped, hlosses, hdelays⟩ :=
      updateObservedDelayAndRate_spec wsf s simTime key message o inferRate
    exact ⟨hobservation, hgated, hdropped, hlosses, hdelays.trans (by simp)⟩

theorem countOutcome_delays (o : LinkObservation) (failed : Bool) : (o.countOutcome failed).delays = o.delays := rfl

theorem countOutcome_losses_ne (o : LinkObservation) (failed : Bool) : (o.countOutcome failed).losses ≠ o.losses := by
  intro h
  exact add_one_ne o.completed (congrArg Prod.fst h)

section Outcome
variable (wsf : Wsf) (s) (simTime) (tx rx : CommRef) (message) (result : Result)

theorem messageReceived_spec :
    (s.messageReceived wsf simTime (some tx) (some rx) message result).mExternallyGatedMessages =
        s.mExternallyGatedMessages.erase (tx.address, message.serialNumber) ∧
      (s.messageReceived wsf simTime (some tx) (some rx) message result).mExternallyDroppedMessages =
        s.mExternallyDroppedMessages ∧
      (s.SameDelays (s.messageReceived wsf simTime (some tx) (some rx) message result) ↔
        (tx.address, message.serialNumber) ∈ s.mExternallyGatedMessages ∨
          s.delaySample simTime (tx.address, message.serialNumber) = none) := by
  let key : MessageKey := (tx.address, message.serialNumber)
  let link : LinkKey := (tx.address, rx.address)
  let t : Bookkeeping := { s.recordFlow simTime (some tx) (some rx) message with
    mExternallyGatedMessages := s.mExternallyGatedMessages.erase key }
  let o := (s.observation link).countOutcome (result.mFailedStatus ≠ 0)
  obtain ⟨hobservation, hgated, hdropped, -, hdelays⟩ :=
    settleDelay_spec wsf t simTime key message o (decide (key ∈ s.mExternallyGatedMessages)) true
  have heq : s.messageReceived wsf simTime (some tx) (some rx) message result =
      (t.settleDelay wsf simTime key message o (decide (key ∈ s.mExternallyGatedMessages)) true).1.setObservation link
        ((t.settleDelay wsf simTime key message o (decide (key ∈ s.mExternallyGatedMessages))
          true).2.updateObservedDataRate wsf result) := rfl
  rw [heq]
  refine ⟨hgated, hdropped, ?_⟩
  have hrate := fun o' : LinkObservation => (o'.setDataRate_counters wsf result.mDataRate).2
  rw [sameDelays_setObservation (s := s) hobservation, LinkObservation.updateObservedDataRate, hrate,
    ← countOutcome_delays (s.observation link) (result.mFailedStatus ≠ 0), hdelays, decide_eq_true_eq]
  exact Iff.rfl

theorem messageDiscarded_spec :
    (s.messageDiscarded wsf simTime (some tx) (some rx) message).mExternallyGatedMessages =
        s.mExternallyGatedMessages.erase (tx.address, message.serialNumber) ∧
      (s.messageDiscarded wsf simTime (some tx) (some rx) message).mExternallyDroppedMessages =
        s.mExternallyDroppedMessages.erase (tx.address, message.serialNumber) ∧
      (s.SameLosses (s.messageDiscarded wsf simTime (some tx) (some rx) message) ↔
        (tx.address, message.serialNumber) ∈ s.mExternallyDroppedMessages) ∧
      (s.SameDelays (s.messageDiscarded wsf simTime (some tx) (some rx) message) ↔
        (tx.address, message.serialNumber) ∈ s.mExternallyDroppedMessages ∨
          (tx.address, message.serialNumber) ∈ s.mExternallyGatedMessages ∨
          s.delaySample simTime (tx.address, message.serialNumber) = none) := by
  let key : MessageKey := (tx.address, message.serialNumber)
  let link : LinkKey := (tx.address, rx.address)
  let t : Bookkeeping := { s.recordFlow simTime (some tx) (some rx) message with
    mExternallyDroppedMessages := s.mExternallyDroppedMessages.erase key
    mExternallyGatedMessages := s.mExternallyGatedMessages.erase key }
  let o := (s.observation link).countOutcome true
  have heq : s.messageDiscarded wsf simTime (some tx) (some rx) message =
      if !decide (key ∈ s.mExternallyDroppedMessages) then
        (t.settleDelay wsf simTime key message o
          (decide (key ∈ s.mExternallyGatedMessages)) false).1.setObservation link
          (t.settleDelay wsf simTime key message o (decide (key ∈ s.mExternallyGatedMessages)) false).2
      else t.setObservation link (s.observation link) := rfl
  rw [heq]
  by_cases hd : key ∈ s.mExternallyDroppedMessages
  · rw [decide_eq_true hd]
    refine ⟨rfl, rfl, iff_of_true ?_ hd, iff_of_true ?_ (Or.inl hd)⟩
    · exact (sameLosses_setObservation (fun _ => rfl) link _).mpr rfl
    · exact (sameDelays_setObservation (fun _ => rfl) link _).mpr rfl
  · obtain ⟨hobservation, hgated, hdropped, hlosses, hdelays⟩ :=
      settleDelay_spec wsf t simTime key message o (decide (key ∈ s.mExternallyGatedMessages)) false
    rw [decide_eq_false hd]
    refine ⟨hgated, hdropped, iff_of_false (fun h => ?_) hd, ?_⟩
    · have hsame := (sameLosses_setObservation hobservation link _).mp h
      exact countOutcome_losses_ne _ true (hlosses.symm.trans hsame)
    · show s.SameDelays (setObservation _ link _) ↔ _
      rw [sameDelays_setObservation (s := s) hobservation, ← countOutcome_delays (s.observation link) true, hdelays,
        decide_eq_true_eq, or_iff_right hd]
      exact Iff.rfl

end Outcome

/-- An attempt records its verdict: the key is gated, and dropped unless it is to be delivered. -/
theorem messageDeliveryAttempt_spec (wsf : Wsf) (s : Bookkeeping) (simTime : ℚ) (tx rx : CommRef) (message : WsfMessage)
    (result : Result) (gate : MessageTransportGate) :
    ∃ disposition, (Callback.deliveryAttempt simTime (some tx) (some rx) message result gate).verdict =
        some disposition ∧
      (s.messageDeliveryAttempt wsf simTime (some tx) (some rx) message result gate).1 =
        { (s.recordFlow simTime (some tx) (some rx) message).setObservation (tx.address, rx.address)
            ((s.observation (tx.address, rx.address)).updateObservedDataRate wsf result) with
          mExternallyGatedMessages := insert (tx.address, message.serialNumber) s.mExternallyGatedMessages
          mExternallyDroppedMessages := if disposition = .deliver
            then s.mExternallyDroppedMessages.erase (tx.address, message.serialNumber)
            else insert (tx.address, message.serialNumber) s.mExternallyDroppedMessages } := by
  unfold messageDeliveryAttempt Callback.verdict
  dsimp only
  cases hs : tx.platform with
  | none => exact ⟨.noLink, rfl, rfl⟩
  | some source =>
    cases ht : rx.platform with
    | none => exact ⟨.noLink, rfl, rfl⟩
    | some target =>
      refine ⟨_, rfl, ?_⟩
      dsimp only
      cases (gate.decide (natBytes source) (natBytes target) message.serialNumber.toUInt64).disposition <;> rfl

variable (wsf : Wsf)

/-- A callback other than an outcome adds to no losses and no delays. -/
theorem step_keeps {c : Callback} (h : ¬ c.IsOutcome) :
    s.SameLosses (s.step wsf c) ∧ s.SameDelays (s.step wsf c) := by
  cases c with
  | transmitted simTime tx rx message => cases tx <;> exact ⟨SameLosses.refl s, SameDelays.refl s⟩
  | deliveryAttempt simTime tx rx message result gate =>
    rcases tx with _ | tx
    · exact ⟨SameLosses.refl s, SameDelays.refl s⟩
    · rcases rx with _ | rx
      · exact ⟨SameLosses.refl s, SameDelays.refl s⟩
      · obtain ⟨d, -, heq⟩ := messageDeliveryAttempt_spec wsf s simTime tx rx message result gate
        obtain ⟨hlosses, hdelays⟩ := (s.observation (tx.address, rx.address)).setDataRate_counters wsf result.mDataRate
        rw [step, heq]
        exact ⟨(sameLosses_setObservation (s := s) (t := s) (fun _ => rfl) _ _).mpr hlosses,
          (sameDelays_setObservation (s := s) (t := s) (fun _ => rfl) _ _).mpr hdelays⟩
  | received => exact absurd trivial h
  | discarded => exact absurd trivial h

/-- A callback touches the sets at its own key alone, a transmission not at all. -/
theorem step_sets_of_ne {c : Callback} {k : MessageKey} (h : c.key ≠ some k ∨ ¬ c.IsAttempt ∧ ¬ c.IsOutcome) :
    (k ∈ (s.step wsf c).mExternallyGatedMessages ↔ k ∈ s.mExternallyGatedMessages) ∧
      (k ∈ (s.step wsf c).mExternallyDroppedMessages ↔ k ∈ s.mExternallyDroppedMessages) := by
  have hne : ∀ {tx : CommRef} {message : WsfMessage}, Callback.messageKey (some tx) message ≠ some k →
      k ≠ (tx.address, message.serialNumber) := fun hkey heq => hkey (congrArg some heq.symm)
  cases c with
  | transmitted simTime tx rx message => cases tx <;> exact ⟨Iff.rfl, Iff.rfl⟩
  | deliveryAttempt simTime tx rx message result gate =>
    rcases tx with _ | tx
    · exact ⟨Iff.rfl, Iff.rfl⟩
    · rcases rx with _ | rx
      · exact ⟨Iff.rfl, Iff.rfl⟩
      · obtain ⟨d, -, heq⟩ := messageDeliveryAttempt_spec wsf s simTime tx rx message result gate
        have hk := hne (h.resolve_right fun h => h.1 trivial)
        rw [step, heq]
        refine ⟨Finset.mem_insert.trans (or_iff_right hk), ?_⟩
        dsimp only
        split_ifs
        · exact Finset.mem_erase.trans (and_iff_right hk)
        · exact Finset.mem_insert.trans (or_iff_right hk)
  | received simTime tx rx message result =>
    rcases tx with _ | tx
    · exact ⟨Iff.rfl, Iff.rfl⟩
    · rcases rx with _ | rx
      · exact ⟨Iff.rfl, Iff.rfl⟩
      · obtain ⟨hgated, hdropped, -⟩ := messageReceived_spec s simTime message wsf tx rx result
        have hk := hne (h.resolve_right fun h => h.2 trivial)
        rw [step, hgated, hdropped]
        exact ⟨Finset.mem_erase.trans (and_iff_right hk), Iff.rfl⟩
  | discarded simTime tx rx message =>
    rcases tx with _ | tx
    · exact ⟨Iff.rfl, Iff.rfl⟩
    · rcases rx with _ | rx
      · exact ⟨Iff.rfl, Iff.rfl⟩
      · obtain ⟨hgated, hdropped, -, -⟩ := messageDiscarded_spec s simTime message wsf tx rx
        have hk := hne (h.resolve_right fun h => h.2 trivial)
        rw [step, hgated, hdropped]
        exact ⟨Finset.mem_erase.trans (and_iff_right hk), Finset.mem_erase.trans (and_iff_right hk)⟩

/-- After an attempt that reached the gate the sets hold its verdict. -/
theorem step_attempt {c : Callback} {k : MessageKey} (hv : c.verdict ≠ none) (hk : c.key = some k) :
    k ∈ (s.step wsf c).mExternallyGatedMessages ∧
      (k ∈ (s.step wsf c).mExternallyDroppedMessages ↔ ¬ c.Delivered) := by
  cases c with
  | deliveryAttempt simTime tx rx message result gate =>
    rcases tx with _ | tx
    · exact absurd rfl hv
    · rcases rx with _ | rx
      · exact absurd rfl hv
      · obtain ⟨d, hd, heq⟩ := messageDeliveryAttempt_spec wsf s simTime tx rx message result gate
        obtain rfl : (tx.address, message.serialNumber) = k := Option.some.inj hk
        rw [step, heq, Callback.Delivered, hd, Option.some.injEq]
        refine ⟨Finset.mem_insert_self _ _, ?_⟩
        dsimp only
        split_ifs with hdeliver <;> simp [hdeliver]
  | _ => exact absurd rfl hv

/-- One outcome: what it adds, exactly. -/
theorem recognised_iff {a c : Callback} (hc : c.IsOutcome) (hof : c.OutcomeOf a) :
    s.Recognised a c ↔ (a.Undelivered → s.SameLosses (s.step wsf c)) ∧ (a.verdict ≠ none → s.SameDelays (s.step wsf c)) := by
  have hverdict : a.verdict ≠ none ↔ a.Delivered ∨ a.Undelivered := by
    unfold Callback.Undelivered
    have hsome : a.Delivered → a.verdict ≠ none := fun h => by rw [h]; exact Option.some_ne_none _
    constructor
    · intro hv
      by_cases hd : a.Delivered
      · exact .inl hd
      · exact .inr ⟨hv, hd⟩
    · rintro (hd | hu)
      · exact hsome hd
      · exact hu.1
  cases c with
  | transmitted => exact hc.elim
  | deliveryAttempt => exact hc.elim
  | received simTime tx rx message result =>
    have hnot : ¬ a.Undelivered := by
      obtain ⟨hattempt, -, hends⟩ := hof
      cases a with
      | deliveryAttempt => exact hends.2
      | _ => exact hattempt.elim
    rcases tx with _ | tx
    · exact iff_of_true trivial ⟨fun _ => SameLosses.refl s, fun _ => SameDelays.refl s⟩
    · rcases rx with _ | rx
      · exact iff_of_true trivial ⟨fun _ => SameLosses.refl s, fun _ => SameDelays.refl s⟩
      · obtain ⟨-, -, hdelays⟩ := messageReceived_spec s simTime message wsf tx rx result
        rw [hverdict, or_iff_left hnot, step, hdelays]
        exact (and_iff_right fun h => absurd h hnot).symm
  | discarded simTime tx rx message =>
    rcases tx with _ | tx
    · exact iff_of_true trivial ⟨fun _ => SameLosses.refl s, fun _ => SameDelays.refl s⟩
    · rcases rx with _ | rx
      · exact iff_of_true trivial ⟨fun _ => SameLosses.refl s, fun _ => SameDelays.refl s⟩
      · obtain ⟨-, -, hlosses, hdelays⟩ := messageDiscarded_spec s simTime message wsf tx rx
        rw [hverdict, step, hlosses, hdelays]
        show (_ ∧ _) ↔ _
        -- what a message that was not delivered asks of the losses is enough for its delays
        rw [or_imp]
        constructor
        · rintro ⟨hlost, hgated⟩
          exact ⟨hlost, hgated, fun h => .inl (hlost h)⟩
        · rintro ⟨hlost, hgated, -⟩
          exact ⟨hlost, hgated⟩

end Bookkeeping

/-! ## Runs -/

section Run
variable (wsf : Wsf) (intervalSeconds : Double) {callbacks : List Callback} {own : ℕ → ℕ}

variable (callbacks) in
/-- The bookkeeping before the callback at position `i`. -/
def stateBefore (i : ℕ) : Bookkeeping := stateAt (Bookkeeping.step wsf) (Bookkeeping.new intervalSeconds) callbacks i

theorem stateBefore_succ {i : ℕ} {c : Callback} (h : callbacks[i]? = some c) :
    stateBefore wsf intervalSeconds callbacks (i + 1) = (stateBefore wsf intervalSeconds callbacks i).step wsf c :=
  stateAt_succ h

variable (callbacks own) in
/-- The sets hold the verdict of every attempt that still awaits its outcome. -/
def Awaited (i : ℕ) (s : Bookkeeping) : Prop :=
  ∀ j a k, Open Callback.IsOutcome callbacks own j i → callbacks[j]? = some a → a.verdict ≠ none → a.key = some k →
    k ∈ s.mExternallyGatedMessages ∧ (k ∈ s.mExternallyDroppedMessages ↔ ¬ a.Delivered)

theorem isAttempt_of_verdict {a : Callback} (h : a.verdict ≠ none) : a.IsAttempt := by
  cases a with
  | deliveryAttempt => trivial
  | _ => exact absurd rfl h

/-- **One callback** of a run that attempts no key twice at a time. -/
theorem awaited_step (hm : Matched callbacks own)
    (hseq : Sequential Callback.IsAttempt Callback.IsOutcome Callback.key callbacks own) {i : ℕ} {c : Callback}
    {s : Bookkeeping} (hc : callbacks[i]? = some c) (h : Awaited callbacks own i s) :
    Awaited callbacks own (i + 1) (s.step wsf c) := by
  intro j a k hopen ha hv hk
  by_cases hji : j = i
  · subst hji
    obtain rfl := Option.some.inj (ha.symm.trans hc)
    exact Bookkeeping.step_attempt wsf hv hk
  have hbefore := hopen.of_succ hji
  have hj := h j a k hbefore ha hv hk
  have hframe : c.key ≠ some k ∨ ¬ c.IsAttempt ∧ ¬ c.IsOutcome := by
    by_cases hkey : c.key = some k
    · refine Or.inr ⟨fun hattempt => ?_, fun houtcome => ?_⟩
      · obtain ⟨n, z, hn, hz, hresponse, hown⟩ :=
          hseq j i a c k hbefore.before ha (isAttempt_of_verdict hv) hk hc hattempt hkey
        exact hbefore.unanswered n z hn hz hresponse hown
      · obtain ⟨b, hb, hattempt, hsame, -⟩ := hm.attempt i c hc houtcome
        have hown := Open.unique hseq hbefore (hm.matching.open_own hc houtcome) ha (isAttempt_of_verdict hv) hk hb
          hattempt (hsame.symm.trans hkey)
        exact hopen.unanswered i c (Nat.lt_succ_self i) hc houtcome hown.symm
    · exact Or.inl hkey
  obtain ⟨hgated, hdropped⟩ := Bookkeeping.step_sets_of_ne (s := s) wsf hframe
  rw [hgated, hdropped]
  exact hj

theorem awaited (hm : Matched callbacks own)
    (hseq : Sequential Callback.IsAttempt Callback.IsOutcome Callback.key callbacks own) {i : ℕ}
    (hi : i ≤ callbacks.length) : Awaited callbacks own i (stateBefore wsf intervalSeconds callbacks i) :=
  stateAt_induction (P := Awaited callbacks own) (fun j _ _ hopen => absurd hopen.before (Nat.not_lt_zero j))
    (fun _ _ hc h => awaited_step wsf hm hseq hc h) hi

/-- **An outcome is recognised** in a run that attempts no key twice at a time. -/
theorem recognised_of_sequential (hm : Matched callbacks own)
    (hseq : Sequential Callback.IsAttempt Callback.IsOutcome Callback.key callbacks own) {i : ℕ} {a c : Callback}
    (hc : callbacks[i]? = some c) (houtcome : c.IsOutcome) (ha : callbacks[own i]? = some a) :
    (stateBefore wsf intervalSeconds callbacks i).Recognised a c := by
  obtain ⟨b, hb, -, hkey, -⟩ := hm.attempt i c hc houtcome
  obtain rfl := Option.some.inj (ha.symm.trans hb)
  have hi : i ≤ callbacks.length := (List.getElem?_eq_some_iff.mp hc).1.le
  have hsets := fun k => awaited wsf intervalSeconds hm hseq hi (own i) a k
    (hm.matching.open_own hc houtcome) ha
  cases c with
  | transmitted => exact houtcome.elim
  | deliveryAttempt => exact houtcome.elim
  | received simTime tx rx message result =>
    rcases tx with _ | tx
    · trivial
    · rcases rx with _ | rx
      · trivial
      · intro hdelivered
        have hv : a.verdict ≠ none := by rw [hdelivered]; exact Option.some_ne_none _
        exact Or.inl (hsets _ hv hkey.symm).1
  | discarded simTime tx rx message =>
    rcases tx with _ | tx
    · trivial
    · rcases rx with _ | rx
      · trivial
      · refine ⟨fun hundelivered => ?_, fun hdelivered => ?_⟩
        · exact (hsets _ hundelivered.1 hkey.symm).2.mpr hundelivered.2
        · have hv : a.verdict ≠ none := by rw [hdelivered]; exact Option.some_ne_none _
          exact Or.inr (Or.inl (hsets _ hv hkey.symm).1)

/-- **Nothing is learned from the gate's own doing** exactly when every outcome finds its key in the containers as its
own attempt left it, as it does in every run that attempts a key again only after the outcome of its earlier
attempt. -/
theorem unlearned_iff (hm : Matched callbacks own) :
    (Unlearned (stateBefore wsf intervalSeconds callbacks) callbacks own ↔
      ∀ i c a, callbacks[i]? = some c → c.IsOutcome → callbacks[own i]? = some a →
        (stateBefore wsf intervalSeconds callbacks i).Recognised a c) ∧
      (Sequential Callback.IsAttempt Callback.IsOutcome Callback.key callbacks own →
        Unlearned (stateBefore wsf intervalSeconds callbacks) callbacks own) := by
  have hiff : Unlearned (stateBefore wsf intervalSeconds callbacks) callbacks own ↔
      ∀ i c a, callbacks[i]? = some c → c.IsOutcome → callbacks[own i]? = some a →
        (stateBefore wsf intervalSeconds callbacks i).Recognised a c := by
    have hof : ∀ {i c a}, callbacks[i]? = some c → c.IsOutcome → callbacks[own i]? = some a → c.OutcomeOf a := by
      intro i c a hc houtcome ha
      obtain ⟨b, hb, hof⟩ := hm.attempt i c hc houtcome
      obtain rfl := Option.some.inj (ha.symm.trans hb)
      exact hof
    refine ⟨fun h i c a hc houtcome ha => ?_, fun h => ⟨?_, ?_, ?_⟩⟩
    · refine (Bookkeeping.recognised_iff wsf houtcome (hof hc houtcome ha)).mpr ⟨fun hu => ?_, fun hv => ?_⟩
      · rw [← stateBefore_succ wsf intervalSeconds hc]
        exact h.losses i c a hc houtcome ha hu
      · rw [← stateBefore_succ wsf intervalSeconds hc]
        exact h.delays i c a hc houtcome ha hv
    · intro i c a hc houtcome ha hu
      rw [stateBefore_succ wsf intervalSeconds hc]
      exact ((Bookkeeping.recognised_iff wsf houtcome (hof hc houtcome ha)).mp (h i c a hc houtcome ha)).1 hu
    · intro i c a hc houtcome ha hv
      rw [stateBefore_succ wsf intervalSeconds hc]
      exact ((Bookkeeping.recognised_iff wsf houtcome (hof hc houtcome ha)).mp (h i c a hc houtcome ha)).2 hv
    · intro i c hc hnot
      rw [stateBefore_succ wsf intervalSeconds hc]
      exact Bookkeeping.step_keeps wsf hnot
  exact ⟨hiff, fun hseq => hiff.mpr fun i c a hc houtcome ha =>
    recognised_of_sequential wsf intervalSeconds hm hseq hc houtcome ha⟩

end Run

/-! ## Broadcasts -/

def plainWsf : Wsf := ⟨1, fun _ => [], 0⟩

def plainResult : Result := ⟨0, 0, .finite 0, none⟩

def commOf (address : ℕ) : CommRef := ⟨⟨[], some address⟩, address⟩

def broadcastMessage : WsfMessage := ⟨⟨[], [], 7, 64⟩, 512⟩

/-- A gate with a profile for the link from platform 1 to platform 2 and for no other. -/
def oneLinkGate : MessageTransportGate :=
  ⟨Dict.empty.put (natBytes 1, natBytes 2) ⟨true, 10, 0⟩, 1⟩

def attemptTo (address : ℕ) : Callback :=
  .deliveryAttempt 0 (some (commOf 1)) (some (commOf address)) broadcastMessage plainResult oneLinkGate

/-- One message from device 1 towards two devices, of which device 2 gets it. -/
def broadcast (first second : ℕ) : List Callback := [
  attemptTo first,
  attemptTo second,
  .transmitted 0 (some (commOf 1)) (some (commOf 3)) broadcastMessage,
  .discarded 1 (some (commOf 1)) (some (commOf 3)) broadcastMessage,
  .received 2 (some (commOf 1)) (some (commOf 2)) broadcastMessage plainResult]

/-- A message that the gate refuses, and its discard. -/
def refusal : List Callback := [attemptTo 3, .discarded 1 (some (commOf 1)) (some (commOf 3)) broadcastMessage]

theorem refusal_unlearned : Unlearned (stateBefore plainWsf (.finite 1) refusal) refusal (fun _ => 0) := by
  have houtcome : ∀ i c, refusal[i]? = some c → c.IsOutcome → i = 1 := by
    intro i c hc h
    rcases i with _ | _ | i
    · cases hc
      exact h.elim
    · rfl
    · cases hc
  have hattempt : ∀ i c, refusal[i]? = some c → c.IsAttempt → i = 0 := by
    intro i c hc h
    rcases i with _ | _ | i
    · rfl
    · cases hc
      exact h.elim
    · cases hc
  have hm : Matched refusal (fun _ => 0) := by
    refine ⟨⟨fun i c hc h => ?_, fun i j c c' hc h hc' h' _ => ?_⟩, fun i c hc h => ⟨attemptTo 3, rfl, ?_⟩⟩
    · rw [houtcome i c hc h]
      exact Nat.one_pos
    · rw [houtcome i c hc h, houtcome j c' hc' h']
    · obtain rfl := houtcome i c hc h
      cases hc
      exact ⟨trivial, rfl, trivial⟩
  refine (unlearned_iff plainWsf (.finite 1) hm).2 fun j i c c' k hji hc h _ hc' h' _ => ?_
  rw [hattempt i c' hc' h'] at hji
  exact absurd hji (Nat.not_lt_zero j)

/-- **Two attempts of one message** towards two receivers: the later verdict replaces the earlier one, so the discard of
the refused attempt counts as a loss of the link; and the outcome of one takes the key from the set, so the reception of
the other adds its delay. -/
theorem overlapping_attempts_learned :
    (Matched (broadcast 3 2) (fun i => i - 3) ∧
      ¬ Unlearned (stateBefore plainWsf (.finite 1) (broadcast 3 2)) (broadcast 3 2) (fun i => i - 3)) ∧
    (Matched (broadcast 2 3) (fun i => 4 - i) ∧
      ¬ Unlearned (stateBefore plainWsf (.finite 1) (broadcast 2 3)) (broadcast 2 3) (fun i => 4 - i)) := by
  have houtcome : ∀ first second i c, (broadcast first second)[i]? = some c → c.IsOutcome → i = 3 ∨ i = 4 := by
    intro first second i c hc h
    rcases i with _ | _ | _ | _ | _ | i
    · cases hc
      exact h.elim
    · cases hc
      exact h.elim
    · cases hc
      exact h.elim
    · exact Or.inl rfl
    · exact Or.inr rfl
    · cases hc
  have hverdict : (attemptTo 3).Undelivered ∧ (attemptTo 2).verdict ≠ none ∧ ¬ (attemptTo 2).Undelivered := by
    have h₃ : (attemptTo 3).verdict = some .noLink := by decide +kernel
    have h₂ : (attemptTo 2).verdict = some .deliver := by decide +kernel
    refine ⟨⟨by simp [h₃], by simp [Callback.Delivered, h₃]⟩, by simp [h₂], fun h => h.2 h₂⟩
  refine ⟨⟨⟨⟨fun i c hc h => ?_, fun i j c c' hc h hc' h' heq => ?_⟩, fun i c hc h => ?_⟩, fun h => ?_⟩,
    ⟨⟨⟨fun i c hc h => ?_, fun i j c c' hc h hc' h' heq => ?_⟩, fun i c hc h => ?_⟩, fun h => ?_⟩⟩
  · rcases houtcome 3 2 i c hc h with rfl | rfl <;> decide
  · rcases houtcome 3 2 i c hc h with rfl | rfl <;> rcases houtcome 3 2 j c' hc' h' with rfl | rfl <;> simp_all
  · rcases houtcome 3 2 i c hc h with rfl | rfl
    · cases hc
      exact ⟨_, rfl, trivial, rfl, trivial⟩
    · cases hc
      exact ⟨_, rfl, trivial, rfl, rfl, hverdict.2.2⟩
  · have hsame := congrArg Prod.fst (h.losses 3 _ _ rfl trivial rfl hverdict.1 (1, 3))
    have hcount : ((stateBefore plainWsf (.finite 1) (broadcast 3 2) 4).observation (1, 3)).completed = 1 ∧
        ((stateBefore plainWsf (.finite 1) (broadcast 3 2) 3).observation (1, 3)).completed = 0 := by decide +kernel
    exact absurd (hcount.1.symm.trans (hsame.trans hcount.2)) (by decide)
  · rcases houtcome 2 3 i c hc h with rfl | rfl <;> decide
  · rcases houtcome 2 3 i c hc h with rfl | rfl <;> rcases houtcome 2 3 j c' hc' h' with rfl | rfl <;> simp_all
  · rcases houtcome 2 3 i c hc h with rfl | rfl
    · cases hc
      exact ⟨_, rfl, trivial, rfl, trivial⟩
    · cases hc
      exact ⟨_, rfl, trivial, rfl, rfl, hverdict.2.2⟩
  · have hsame := congrArg Prod.snd (h.delays 4 _ _ rfl trivial rfl hverdict.2.1 (1, 2))
    have hcount : ((stateBefore plainWsf (.finite 1) (broadcast 2 3) 5).observation (1, 2)).delaySamples = 1 ∧
        ((stateBefore plainWsf (.finite 1) (broadcast 2 3) 4).observation (1, 2)).delaySamples = 0 := by decide +kernel
    exact absurd (hcount.1.symm.trans (hsame.trans hcount.2)) (by decide)

end AfsimNs3.Plugin
