import AfsimNs3.Bridge.Identity
import AfsimNs3.Lib.Machine
import AfsimNs3.System.Agreement

/-!
# Restarts of the service

One client process and any number of service instances after one another. An instance starts with an empty store, so
its revisions start again at 1; the gates live on, and with them their latest revisions.

* `resynced_after_restart`: in a run in which every result the client handles is `New` to its gates, they answer from
  the last result of the current instance once all its lines are handled;
* `restart_keeps_dead_result`: without that they keep answering from a dead instance.
-/

namespace AfsimNs3.System
open Bridge Adapter

/-! ## The system -/

/-- The service instance that runs and the client. `broadcasts` and `handled` belong to this instance, `buffered` is
on its way over the connection. -/
structure World where
  store : StateStore
  broadcasts : List Broadcast
  buffered : List Broadcast
  handled : List Broadcast
  synced : Bool
  gates : Gates

namespace World

def start : World := ⟨StateStore.new, [], [], [], false, Gates.new⟩

inductive Action where
  /-- The service dies, and with it the connection; a new instance starts. -/
  | restart
  /-- The connection is lost and made again. -/
  | reconnect
  /-- A request is accepted. -/
  | accept (op : StoreOp)
  /-- The result for the newest state is broadcast. -/
  | result (requestId : Str) (computeMs : ℚ) (measured : Dict ℕ Ns3Runner.MetricValues) (queueState : QueueState)
  /-- A failed computation is broadcast. -/
  | failed (response : ErrorResponse)
  /-- The client handles the next line. -/
  | handle

/-- The response to a snapshot. -/
def responseTo (snapshot : StateSnapshot) (requestId : Str) (computeMs : ℚ)
    (measured : Dict ℕ Ns3Runner.MetricValues) (queueState : QueueState) : Response :=
  let result := Ns3Runner.computeResult snapshot requestId computeMs measured
  ⟨result, queueState, evaluateEffects snapshot result.metrics⟩

def broadcast (w : World) (message : Broadcast) : World :=
  { w with broadcasts := w.broadcasts ++ [message], buffered := w.buffered ++ [message] }

/-- A request changes the store; an accepted `afsim_init` is the client's full snapshot. -/
def accept (w : World) (op : StoreOp) : Option World :=
  (w.store.step op).map fun store =>
    match op with
    | .init _ _ => { w with store := store, synced := true }
    | .delta _ _ => { w with store := store }

section
variable (stod : Bytes → Except Bytes Double) (floatText : ℚ → Bytes)

def handleNext (w : World) : Option World :=
  match w.buffered with
  | [] => none
  | message :: buffered =>
    some { w with
      buffered := buffered
      handled := w.handled ++ [message]
      gates := w.gates.onJsonLine stod (dumps floatText (.obj message.fields)) }

def step (w : World) : Action → Option World
  | .restart => some { start with gates := w.gates }
  | .reconnect => some { w with buffered := [], synced := false }
  | .accept op => w.accept op
  | .result requestId computeMs measured queueState =>
    w.store.snapshot.toOption.map fun snapshot =>
      w.broadcast (.metrics (responseTo snapshot requestId computeMs measured queueState))
  | .failed response => some (w.broadcast (.error response))
  | .handle => w.handleNext stod floatText

end

end World

/-! ## What the gates should answer -/

/-- The gates give the same answers. -/
structure AnswerAlike (gates gates' : Gates) : Prop where
  decide : ∀ source target messageSerial, gates.mMessageGate.decide source target messageSerial =
    gates'.mMessageGate.decide source target messageSerial
  getState : ∀ entityId subsystemId, gates.mGate.getState entityId subsystemId =
    gates'.mGate.getState entityId subsystemId

def resultOf : Broadcast → Option Response
  | .metrics response => some response
  | .error _ => none

/-- The last result among some lines. -/
def lastResult (broadcasts : List Broadcast) : Option Response := (broadcasts.filterMap resultOf).getLast?

section
variable (stod : Bytes → Except Bytes Double) (floatText : ℚ → Bytes)

/-- Once the client's snapshot is accepted and every line of the instance is handled, the gates answer as fresh ones
that were handed the instance's last result. -/
def Resynced (w : World) : Prop :=
  w.synced = true → w.handled = w.broadcasts → ∀ response, lastResult w.broadcasts = some response →
    AnswerAlike w.gates (Gates.new.onJsonLine stod (lineOf floatText (.broadcast response)))

/-- A result that replaces everything the gates hold: it can be read, its revision is above the latest of either gate,
and it has an effect for every subsystem the effect gate does not hold to be blocked. -/
structure New (gates : Gates) (response : Response) : Prop where
  readable : EveryField (FieldReadable stod floatText) (.broadcast response)
  message : gates.mMessageGate.mLatestRevision < UInt64.ofNat response.measured.revision
  effect : gates.mGate.mLatestRevision < UInt64.ofNat response.measured.revision
  covers : ∀ key ∈ gates.mGate.mStates.keys, gates.mGate.getState key.1 key.2 ≠ .blocked →
    ∃ effect ∈ response.effects, (utf8 effect.entityId, utf8 effect.policy.subsystemId) = key

instance (gates : Gates) (response : Response) : Decidable (New stod floatText gates response) :=
  decidable_of_iff (_ ∧ _ ∧ _ ∧ _) ⟨fun ⟨h, h', h'', h'''⟩ => ⟨h, h', h'', h'''⟩,
    fun h => ⟨h.readable, h.message, h.effect, h.covers⟩⟩

/-- The result the client handles in a step, if it is one, is new to the gates. -/
def HandlesNew (w : World) : World.Action → Prop
  | .handle => ∀ response ∈ w.buffered.head?.bind resultOf, New stod floatText w.gates response
  | _ => True

instance (w : World) : (action : World.Action) → Decidable (HandlesNew stod floatText w action)
  | .handle =>
    match h : w.buffered.head?.bind resultOf with
    | none => .isTrue fun _ hmem => nomatch h ▸ hmem
    | some response => decidable_of_iff (New stod floatText w.gates response)
        ⟨fun hnew _ hmem => Option.some.inj (h.symm.trans hmem) ▸ hnew, fun hnew => hnew response h⟩
  | .restart => .isTrue trivial
  | .reconnect => .isTrue trivial
  | .accept _ => .isTrue trivial
  | .result _ _ _ _ => .isTrue trivial
  | .failed _ => .isTrue trivial

end

/-! ## A line handled -/

section
variable {stod : Bytes → Except Bytes Double} {floatText : ℚ → Bytes} (hfloat : NumberText floatText)
  (hstod : StopsAtDelimiter stod floatText)
include hfloat hstod

/-- An `ns3_error` changes nothing. -/
theorem onJsonLine_error (gates : Gates) (response : ErrorResponse) :
    gates.onJsonLine stod (dumps floatText (.obj response.fields)) = gates := by
  have hname : FieldName (str "message_type") := by decide
  have hiff : FieldRead stod floatText response.fields (str "message_type") ↔
      FieldReadable stod floatText response.fields (str "message_type") :=
    read_iff_of_loud hfloat hstod hname rfl rfl (loud_of_flat trivial) fun _ => Json.noConfusion
  have hread : FieldRead stod floatText response.fields (str "message_type") := by
    refine hiff.mpr ⟨?_, ?_⟩
    · have hahead : ahead (str "message_type") response.fields = [(str "protocol_version", .str protocolVersion)] := rfl
      rw [Unshadowed, hahead]
      decide
    · show Plain (str "ns3_error")
      decide
  have htype : jsonString (dumps floatText (.obj response.fields)) (ascii "message_type") = .ok (ascii "ns3_error") :=
    hread.2
  have hmessage : MessageTransportGate.readMetrics stod (dumps floatText (.obj response.fields)) = .ok none := by
    rw [MessageTransportGate.readMetrics, htype, Except.ok_bind, if_pos (by decide)]
  rw [Gates.onJsonLine, MessageTransportGate.updateFromMetricsJson, NetworkEffectGate.updateFromMetricsJson, hmessage,
    readEffects_of_none hmessage]
  rfl

/-- A readable result above the latest revision of either gate is adopted by both. -/
theorem onJsonLine_result {gates : Gates} {response : Response}
    (hreadable : EveryField (FieldReadable stod floatText) (.broadcast response))
    (hmessage : gates.mMessageGate.mLatestRevision < UInt64.ofNat response.measured.revision)
    (heffect : gates.mGate.mLatestRevision < UInt64.ofNat response.measured.revision) :
    gates.onJsonLine stod (lineOf floatText (.broadcast response)) =
      ⟨⟨decodedProfiles (.broadcast response), UInt64.ofNat response.measured.revision⟩,
        ⟨NetworkEffectGate.setStates gates.mGate.mStates
          (response.effects.map (decodedDecision response.measured.revision)),
          UInt64.ofNat response.measured.revision⟩⟩ := by
  have hread := (gates_read_iff hfloat hstod _).mpr hreadable
  have hprofiles : MessageTransportGate.readMetrics stod (lineOf floatText (.broadcast response)) =
      .ok (some (UInt64.ofNat response.measured.revision, decodedProfiles (.broadcast response))) := hread.profiles
  have hdecisions : NetworkEffectGate.readMetrics (lineOf floatText (.broadcast response)) =
      .ok (some (UInt64.ofNat response.measured.revision,
        response.effects.map (decodedDecision response.measured.revision))) := hread.decisions
  rw [Gates.onJsonLine, MessageTransportGate.updateFromMetricsJson, NetworkEffectGate.updateFromMetricsJson, hprofiles,
    hdecisions]
  simp only [Except.map, MessageTransportGate.accept, NetworkEffectGate.accept, UInt64.not_le.mpr hmessage,
    UInt64.not_le.mpr heffect, if_false]

end

/-- The decisions of a line settle the subsystems they are about, whatever was held before. -/
theorem setStates_get? (states states' : Dict (Bytes × Bytes) Adapter.EffectState) (decisions : List EffectDecision)
    (key : Bytes × Bytes) :
    (NetworkEffectGate.setStates states decisions).get? key = (NetworkEffectGate.setStates states' decisions).get? key ∨
      (∀ decision ∈ decisions, (decision.entityId, decision.subsystemId) ≠ key) ∧
        (NetworkEffectGate.setStates states decisions).get? key = states.get? key ∧
        (NetworkEffectGate.setStates states' decisions).get? key = states'.get? key := by
  induction decisions using List.reverseRecOn with
  | nil => exact .inr ⟨fun _ h => absurd h List.not_mem_nil, rfl, rfl⟩
  | append_singleton decisions decision ih =>
    simp only [NetworkEffectGate.setStates, List.foldl_append, List.foldl_cons, List.foldl_nil] at ih ⊢
    by_cases hkey : (decision.entityId, decision.subsystemId) = key
    · rw [hkey, Dict.get?_put_self, Dict.get?_put_self]
      exact .inl rfl
    · rw [Dict.get?_put_of_ne _ _ (Ne.symm hkey), Dict.get?_put_of_ne _ _ (Ne.symm hkey)]
      rcases ih with hsame | ⟨hnone, hget⟩
      · exact .inl hsame
      · refine .inr ⟨fun d hd => ?_, hget⟩
        rcases List.mem_append.mp hd with hd | hd
        · exact hnone d hd
        · rwa [List.mem_singleton.mp hd]

section
variable {stod : Bytes → Except Bytes Double} {floatText : ℚ → Bytes} (hfloat : NumberText floatText)
  (hstod : StopsAtDelimiter stod floatText)
include hfloat hstod

/-- **A new result** leaves nothing of what the gates held. -/
theorem answerAlike_of_new {gates : Gates} {response : Response} (hnew : New stod floatText gates response) :
    AnswerAlike (gates.onJsonLine stod (lineOf floatText (.broadcast response)))
      (Gates.new.onJsonLine stod (lineOf floatText (.broadcast response))) := by
  have hpos : ∀ latest : UInt64, latest < UInt64.ofNat response.measured.revision →
      0 < UInt64.ofNat response.measured.revision := by
    intro latest hlt
    rw [UInt64.lt_iff_toNat_lt] at hlt ⊢
    exact lt_of_le_of_lt (Nat.zero_le _) hlt
  rw [onJsonLine_result hfloat hstod hnew.readable hnew.message hnew.effect,
    onJsonLine_result hfloat hstod hnew.readable (hpos _ hnew.message) (hpos _ hnew.effect)]
  refine ⟨fun _ _ _ => rfl, fun entityId subsystemId => ?_⟩
  rw [NetworkEffectGate.getState, NetworkEffectGate.getState]
  dsimp only
  rcases setStates_get? gates.mGate.mStates Gates.new.mGate.mStates
    (response.effects.map (decodedDecision response.measured.revision)) (entityId, subsystemId)
    with hsame | ⟨hnone, hheld, hfresh⟩
  · rw [hsame]
  · rw [hheld, hfresh]
    by_contra hne
    have hkey : (entityId, subsystemId) ∈ gates.mGate.mStates.keys := by
      by_contra hnot
      rw [Dict.get?_eq_none_iff.mpr hnot] at hne
      exact hne rfl
    obtain ⟨effect, heffect, hsame⟩ := hnew.covers _ hkey fun hblocked => hne hblocked
    exact hnone _ (List.mem_map_of_mem heffect) hsame

/-- The gates answer from the last result the client has handled of the current instance. -/
def Answering (stod : Bytes → Except Bytes Double) (floatText : ℚ → Bytes) (w : World) : Prop :=
  ∀ response, lastResult w.handled = some response →
    AnswerAlike w.gates (Gates.new.onJsonLine stod (lineOf floatText (.broadcast response)))

omit hfloat hstod in
theorem lastResult_append (broadcasts : List Broadcast) (message : Broadcast) :
    lastResult (broadcasts ++ [message]) = (resultOf message).or (lastResult broadcasts) := by
  rw [lastResult, List.filterMap_append, lastResult]
  cases message with
  | metrics response => simp [resultOf]
  | error response => simp [resultOf]

theorem answering_handle {w w' : World} (h : Answering stod floatText w) (hnew : HandlesNew stod floatText w .handle)
    (hstep : w.handleNext stod floatText = some w') : Answering stod floatText w' := by
  rw [World.handleNext] at hstep
  cases hbuffered : w.buffered with
  | nil => rw [hbuffered] at hstep; cases hstep
  | cons message buffered =>
    rw [hbuffered] at hstep
    obtain rfl := Option.some.inj hstep
    intro response hlast
    rw [lastResult_append] at hlast
    cases message with
    | metrics result =>
      obtain rfl := Option.some.inj hlast
      have hline : dumps floatText (.obj (Broadcast.metrics result).fields) = lineOf floatText (.broadcast result) := rfl
      dsimp only
      rw [hline]
      exact answerAlike_of_new hfloat hstod (hnew result (by rw [hbuffered]; rfl))
    | error error =>
      have hsame : w.gates.onJsonLine stod (dumps floatText (.obj (Broadcast.error error).fields)) = w.gates :=
        onJsonLine_error hfloat hstod w.gates error
      dsimp only
      rw [hsame]
      exact h response hlast

theorem answering_step {w w' : World} {action : World.Action} (h : Answering stod floatText w)
    (hnew : HandlesNew stod floatText w action) (hstep : w.step stod floatText action = some w') :
    Answering stod floatText w' := by
  cases action with
  | restart =>
    obtain rfl := Option.some.inj hstep
    exact fun response hlast => nomatch hlast
  | reconnect =>
    obtain rfl := Option.some.inj hstep
    exact h
  | accept op =>
    obtain ⟨store, -, rfl⟩ := Option.map_eq_some_iff.mp hstep
    cases op <;> exact h
  | result requestId computeMs measured queueState =>
    obtain ⟨snapshot, -, rfl⟩ := Option.map_eq_some_iff.mp hstep
    exact h
  | failed response =>
    obtain rfl := Option.some.inj hstep
    exact h
  | handle => exact answering_handle hfloat hstod h hnew hstep

/-- **Resynchronisation.** When every result the client handles is new to its gates, then, whatever restarts and
reconnections there are, the gates answer from the last result of the current instance once its lines are handled. -/
theorem resynced_after_restart {actions : List World.Action} {w : World}
    (hnew : Machine.Along (World.step stod floatText) (HandlesNew stod floatText) World.start actions)
    (hrun : Machine.run (World.step stod floatText) World.start actions = some w) : Resynced stod floatText w := by
  have hstart : Answering stod floatText World.start := fun response hlast =>
    absurd hlast (Option.some_ne_none response).symm
  have hanswering : Answering stod floatText w :=
    Machine.along_invariant (Answering stod floatText)
      (fun _ _ _ h hok hstep => answering_step hfloat hstod h hok hstep) hstart hnew hrun
  intro _ hhandled response hlast
  rw [← hhandled] at hlast
  exact hanswering response hlast

end

/-! ## A second instance -/

/-- Without a reconnection no line of the instance is lost. -/
theorem nothing_lost {stod : Bytes → Except Bytes Double} {floatText : ℚ → Bytes} {actions : List World.Action}
    {w : World} (hrun : Machine.run (World.step stod floatText) World.start actions = some w)
    (hconnected : ∀ action ∈ actions, action ≠ .reconnect) : w.handled ++ w.buffered = w.broadcasts := by
  refine Machine.along_invariant (fun w => w.handled ++ w.buffered = w.broadcasts) ?_ rfl
    (Machine.along_of_forall hconnected World.start) hrun
  intro w action w' h hne hstep
  cases action with
  | restart =>
    obtain rfl := Option.some.inj hstep
    rfl
  | reconnect => exact absurd rfl hne
  | accept op =>
    obtain ⟨store, -, rfl⟩ := Option.map_eq_some_iff.mp hstep
    cases op <;> exact h
  | result requestId computeMs measured queueState =>
    obtain ⟨snapshot, -, rfl⟩ := Option.map_eq_some_iff.mp hstep
    rw [World.broadcast, ← List.append_assoc, h]
  | failed response =>
    obtain rfl := Option.some.inj hstep
    rw [World.broadcast, ← List.append_assoc, h]
  | handle =>
    rw [World.step, World.handleNext] at hstep
    cases hbuffered : w.buffered with
    | nil => rw [hbuffered] at hstep; cases hstep
    | cons message buffered =>
      rw [hbuffered] at hstep h
      obtain rfl := Option.some.inj hstep
      rw [List.append_assoc]
      exact h

def allArrived : Dict ℕ Ns3Runner.MetricValues :=
  Ns3Runner.measured [⟨0, ⟨true, .finite 6, .finite 0, .finite 8000, 10, 10, str "UP"⟩⟩]

/-- One instance's result for a scenario, then a second instance that accepts another one `count` times before its
result. -/
def secondInstance (first second : Fields) (count : ℕ) : List World.Action :=
  [.accept (.init first 7), .result (str "r1") 3 allArrived ⟨false, none⟩, .handle, .restart] ++
    List.replicate count (.accept (.init second 8)) ++ [.result (str "r2") 3 allArrived ⟨false, none⟩, .handle]

def emptyScenario : Fields := [(str "entities", .arr []), (str "flows", .arr [])]

theorem secondInstance_connected (first second : Fields) (count : ℕ) :
    ∀ action ∈ secondInstance first second count, action ≠ .reconnect := by
  simp only [secondInstance, List.mem_append, List.mem_cons, List.mem_replicate, List.not_mem_nil, or_false]
  rintro action (((rfl | rfl | rfl | rfl) | ⟨-, rfl⟩) | (rfl | rfl)) <;> exact World.Action.noConfusion

theorem resynced_second_instance : ∃ w, Machine.run (World.step wholeStod wholeText) World.start
    (secondInstance emptyScenario (radarInit (str "A") (str "R")) 2) = some w ∧ w.synced = true ∧ w.handled = w.broadcasts ∧
      Resynced wholeStod wholeText w := by
  have hend : (Machine.run (World.step wholeStod wholeText) World.start
      (secondInstance emptyScenario (radarInit (str "A") (str "R")) 2)).map
      (fun w => (w.synced, w.buffered.isEmpty)) = some (true, true) := by decide +kernel
  obtain ⟨w, hrun, hw⟩ := Option.map_eq_some_iff.mp hend
  obtain ⟨hsynced, hbuffered⟩ := Prod.mk.inj hw
  have hlost := nothing_lost hrun (secondInstance_connected _ _ _)
  rw [List.isEmpty_iff.mp hbuffered, List.append_nil] at hlost
  exact ⟨w, hrun, hsynced, hlost, resynced_after_restart wholeText_number wholeStod_stops (by decide +kernel) hrun⟩

/-- **After a restart** the gates keep answering from the dead instance: the second instance's result has revision 1
again. -/
theorem restart_keeps_dead_result : ∃ w, Machine.run (World.step wholeStod wholeText) World.start
    (secondInstance (radarInit (str "A") (str "R")) emptyScenario 1) = some w ∧ w.synced = true ∧ w.handled = w.broadcasts ∧
      ¬ Resynced wholeStod wholeText w := by
  have hend : (Machine.run (World.step wholeStod wholeText) World.start
      (secondInstance (radarInit (str "A") (str "R")) emptyScenario 1)).map
      (fun w => (w.synced, w.buffered.isEmpty, (lastResult w.broadcasts).map (fun response =>
        decide (w.gates.mGate.getState (ascii "A") (ascii "R") =
          (Gates.new.onJsonLine wholeStod (lineOf wholeText (.broadcast response))).mGate.getState (ascii "A")
            (ascii "R"))))) = some (true, true, some false) := by decide +kernel
  obtain ⟨w, hrun, hw⟩ := Option.map_eq_some_iff.mp hend
  obtain ⟨hsynced, hw⟩ := Prod.mk.inj hw
  obtain ⟨hbuffered, hw⟩ := Prod.mk.inj hw
  obtain ⟨response, hlast, hdiffer⟩ := Option.map_eq_some_iff.mp hw
  have hlost := nothing_lost hrun (secondInstance_connected _ _ _)
  rw [List.isEmpty_iff.mp hbuffered, List.append_nil] at hlost
  refine ⟨w, hrun, hsynced, hlost, fun h => ?_⟩
  exact of_decide_eq_false hdiffer ((h hsynced hlost response hlast).getState _ _)

end AfsimNs3.System
