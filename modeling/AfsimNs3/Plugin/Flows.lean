import AfsimNs3.Plugin.Delays
import AfsimNs3.Plugin.FlowIds

/-!
# The flows of a run

Every callback passes its message to `recordFlow`, so the flows of the plugin are those of the observations its
callbacks make (`run_flows`), and a recorded flow is in the ranges the service asks for (`run_flowsInRange`).
-/

namespace AfsimNs3.Plugin
open AfsimNs3.Adapter (FlowConfig)

/-- The message of a callback, as `recordFlow` sees it. -/
def Callback.observed : Callback → Observed
  | .transmitted simTime tx rx message =>
    ⟨simTime, tx.map CommRef.toEndpoint, rx.map CommRef.toEndpoint, message.toMessage⟩
  | .deliveryAttempt simTime tx rx message _ _ =>
    ⟨simTime, tx.map CommRef.toEndpoint, rx.map CommRef.toEndpoint, message.toMessage⟩
  | .received simTime tx rx message _ =>
    ⟨simTime, tx.map CommRef.toEndpoint, rx.map CommRef.toEndpoint, message.toMessage⟩
  | .discarded simTime tx rx message =>
    ⟨simTime, tx.map CommRef.toEndpoint, rx.map CommRef.toEndpoint, message.toMessage⟩

theorem recordFlow_of_none {ext : Extension} {o : Observed} (h : o.transmitter = none ∨ o.receiver = none) :
    recordFlow ext o.simTime o.transmitter o.receiver o.message = ext := by
  refine recordFlow_of_not_recorded ?_
  obtain ⟨simTime, transmitter, receiver, message⟩ := o
  unfold Observed.ends
  rcases h with h | h
  · cases h
    rfl
  · cases h
    rcases transmitter with _ | ⟨name, _ | platform⟩ <;> rfl

theorem Bookkeeping.setObservation_flows (s : Bookkeeping) (link : LinkKey) (o : LinkObservation) :
    (s.setObservation link o).flows = s.flows := rfl

theorem Bookkeeping.settleDelay_flows (wsf : Wsf) (s : Bookkeeping) (simTime : ℚ) (key : MessageKey)
    (message : WsfMessage) (o : LinkObservation) (externallyGated inferRate : Bool) :
    (s.settleDelay wsf simTime key message o externallyGated inferRate).1.flows = s.flows := by
  cases externallyGated with
  | true => rfl
  | false =>
    show (s.updateObservedDelayAndRate wsf simTime key message o inferRate).1.flows = s.flows
    unfold updateObservedDelayAndRate
    split <;> rfl

/-- **One callback** records the flow of its message. -/
theorem Bookkeeping.step_flows (wsf : Wsf) (s : Bookkeeping) (c : Callback) :
    s.flows.step c.observed = some (s.step wsf c).flows := by
  have hnone : ∀ {o : Observed}, o.transmitter = none ∨ o.receiver = none → s.flows.step o = some s.flows :=
    fun h => congrArg some (recordFlow_of_none h)
  cases c with
  | transmitted simTime tx rx message =>
    rcases tx with _ | tx
    · exact hnone (.inl rfl)
    · rfl
  | deliveryAttempt simTime tx rx message result gate =>
    rcases tx with _ | tx
    · exact hnone (.inl rfl)
    · rcases rx with _ | rx
      · exact hnone (.inr rfl)
      · obtain ⟨d, -, heq⟩ := messageDeliveryAttempt_spec wsf s simTime tx rx message result gate
        rw [step, heq]
        rfl
  | received simTime tx rx message result =>
    rcases tx with _ | tx
    · exact hnone (.inl rfl)
    · rcases rx with _ | rx
      · exact hnone (.inr rfl)
      · unfold step messageReceived
        dsimp only
        rw [setObservation_flows, settleDelay_flows]
        rfl
  | discarded simTime tx rx message =>
    rcases tx with _ | tx
    · exact hnone (.inl rfl)
    · rcases rx with _ | rx
      · exact hnone (.inr rfl)
      · unfold step messageDiscarded
        dsimp only
        split_ifs
        · rw [setObservation_flows, settleDelay_flows]
          rfl
        · rfl

namespace SimulationExtension
variable {wsf : Wsf} {config : RuntimeConfig}

def Event.observed? : Event → Option Observed
  | .callback c => some c.observed
  | .tick _ => none

/-- What the callbacks of a run observe. -/
def observedLog (events : List Event) : List Observed := events.filterMap Event.observed?

/-- **The flows of a run** are those of its observations; ticks leave them alone. -/
theorem run_flows (events : List Event) :
    Machine.run Extension.step (Extension.new config.intervalSeconds) (observedLog events) =
      some (run wsf config events).books.flows := by
  induction events using List.reverseRecOn with
  | nil => rfl
  | append_singleton events e ih =>
    have hrun : run wsf config (events ++ [e]) = (run wsf config events).step wsf config e := List.foldl_append
    have hlog : observedLog (events ++ [e]) = observedLog events ++ e.observed?.toList := by
      unfold observedLog
      rw [List.filterMap_append]
      cases e <;> rfl
    rw [hrun, hlog, Machine.run_append]
    refine ⟨_, ih, ?_⟩
    cases e with
    | callback c =>
      exact Machine.run_cons.mpr ⟨_, (run wsf config events).books.step_flows wsf c, rfl⟩
    | tick scene =>
      exact congrArg (fun c => some c.1) (containers_collectEntities wsf config scene (run wsf config events)).symm

end SimulationExtension

/-! ## Ranges -/

/-- What the service asks of a flow, apart from its names. -/
structure ObservedFlow.InRange (flow : ObservedFlow) : Prop where
  packetSizeBytes : 64 ≤ flow.packetSizeBytes
  intervalMs : 1 ≤ flow.intervalMs
  durationMs : 100 ≤ flow.durationMs

theorem le_milliseconds (seconds : Double) (minimum : UInt32) : minimum ≤ milliseconds seconds minimum := by
  unfold milliseconds
  split
  · split_ifs
    · have hlt := minimum.toNat_lt
      rw [UInt32.le_iff_toNat_le]
      show minimum.toNat ≤ 4294967295
      omega
    · exact le_max_uint32 _ _
  · exact UInt32.le_refl _

theorem newFlow_inRange (intervalSeconds : Double) (source sourceComm target targetComm type subType : Str) :
    (newFlow intervalSeconds source sourceComm target targetComm type subType).InRange :=
  ⟨by show (64 : UInt32) ≤ 64; decide, le_milliseconds _ _, le_milliseconds _ _⟩

theorem ObservedFlow.InRange.observe {flow : ObservedFlow} (h : flow.InRange) (simTime : ℚ) {message : Message}
    (hsize : message.sizeBytes < 2 ^ 32) : (flow.observe simTime message).InRange := by
  have hpacket : 64 ≤ UInt32.ofNat (max 64 message.sizeBytes).toNat := by
    rw [UInt32.le_iff_toNat_le, UInt32.toNat_ofNat_of_lt' (by
      show (max 64 message.sizeBytes).toNat < 2 ^ 32
      omega)]
    show 64 ≤ (max 64 message.sizeBytes).toNat
    omega
  unfold ObservedFlow.observe
  dsimp only
  split_ifs
  · exact ⟨hpacket, le_milliseconds _ _, h.durationMs⟩
  · exact ⟨hpacket, h.intervalMs, h.durationMs⟩
  · exact ⟨hpacket, h.intervalMs, h.durationMs⟩

/-- Every flow is in range. -/
def Extension.InRange (ext : Extension) : Prop := ∀ key flow, ext.mObservedFlows.get? key = some flow → flow.InRange

theorem Extension.InRange.step {ext : Extension} (h : ext.InRange) {o : Observed}
    (hsize : o.message.sizeBytes < 2 ^ 32) {ext' : Extension} (hstep : ext.step o = some ext') : ext'.InRange := by
  obtain rfl := Option.some.inj hstep
  unfold recordFlow
  split
  · split_ifs
    · exact h
    · intro key flow hget
      rw [Dict.get?_put] at hget
      split_ifs at hget
      · obtain rfl := Option.some.inj hget
        refine ObservedFlow.InRange.observe ?_ _ hsize
        cases hold : ext.mObservedFlows.get? _ with
        | none => exact newFlow_inRange ..
        | some old => exact h _ old hold
      · exact h key flow hget
  · exact h

/-- **Every recorded flow is in range**, as long as sizes are those of 32-bit integers. -/
theorem run_flowsInRange {intervalSeconds : Double} {log : List Observed} {ext : Extension}
    (h : Machine.run Extension.step (Extension.new intervalSeconds) log = some ext)
    (hsizes : ∀ o ∈ log, o.message.sizeBytes < 2 ^ 32) : ext.InRange := by
  induction log using List.reverseRecOn generalizing ext with
  | nil =>
    obtain rfl := Option.some.inj h
    exact nofun
  | append_singleton log o ih =>
    obtain ⟨t, hrun, hlast⟩ := Machine.run_append.mp h
    obtain ⟨u, hstep, hu⟩ := Machine.run_cons.mp hlast
    obtain rfl := Option.some.inj hu
    exact (ih hrun fun o ho => hsizes o (List.mem_append_left _ ho)).step
      (hsizes o (List.mem_append_right _ (List.mem_singleton_self o))) hstep

end AfsimNs3.Plugin
