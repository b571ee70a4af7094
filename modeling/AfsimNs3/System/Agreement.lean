import AfsimNs3.Adapter.GateRuns
import AfsimNs3.System.Reading

/-!
# The revisions of the two gates

`OnJsonLine` hands a line to the message gate and then to the effect gate, and an exception of the second leaves the
first changed. `revisions_agree_iff`: along a run of lines the gates stay on one revision exactly when every line with
a new result for the message gate has effects the effect gate can read.
-/

namespace AfsimNs3.System
open Bridge Adapter

/-- The effects of a line, its IDs and states, can be read. -/
def EffectsReadable (line : Bytes) : Prop :=
  ∃ objects, objectArray line (ascii "effects") = .ok objects ∧
    ∀ object ∈ objects, ∃ decision, NetworkEffectGate.readEffect 0 object = .ok decision

section Agreement
variable {stod : Bytes → Except Bytes Double}

/-- Both gates are at one revision. -/
def GatesAgree (gates : Gates) : Prop := gates.mMessageGate.mLatestRevision = gates.mGate.mLatestRevision

variable (stod) in
/-- The gates after some lines. -/
def gatesAfter (lines : List Bytes) : Gates := lines.foldl (Gates.onJsonLine stod) Gates.new

theorem gatesAfter_append (lines : List Bytes) (line : Bytes) :
    gatesAfter stod (lines ++ [line]) = (gatesAfter stod lines).onJsonLine stod line := by
  rw [gatesAfter, List.foldl_append]
  rfl

/-- Whatever becomes of the effects, the message gate handles the line. -/
theorem onJsonLine_message (gates : Gates) (line : Bytes) :
    (gates.onJsonLine stod line).mMessageGate = gates.mMessageGate.handle stod line := by
  rw [Gates.onJsonLine, MessageTransportGate.handle]
  rcases gates.mMessageGate.updateFromMetricsJson stod line with e | message
  · rfl
  · dsimp only
    rcases gates.mGate.updateFromMetricsJson line with e | effect <;> rfl

theorem gatesAfter_message (lines : List Bytes) :
    (gatesAfter stod lines).mMessageGate = MessageTransportGate.afterLines stod lines := by
  induction lines using List.reverseRecOn with
  | nil => rfl
  | append_singleton lines line ih =>
    rw [gatesAfter_append, onJsonLine_message, ih, MessageTransportGate.afterLines_append]

/-- The revision of a decision is the line's; whether an object can be read does not depend on it. -/
theorem readEffect_ok_iff (revision : UInt64) (object : Bytes) :
    (∃ decision, NetworkEffectGate.readEffect revision object = .ok decision) ↔
      ∃ decision, NetworkEffectGate.readEffect 0 object = .ok decision := by
  simp only [NetworkEffectGate.readEffect, Except.bind_ok_iff, Except.pure_ok_iff]
  constructor
  · rintro ⟨decision, entityId, he, subsystemId, hs, subsystemType, ht, peer, hp, state, hstate, -⟩
    exact ⟨_, entityId, he, subsystemId, hs, subsystemType, ht, peer, hp, state, hstate, rfl⟩
  · rintro ⟨decision, entityId, he, subsystemId, hs, subsystemType, ht, peer, hp, state, hstate, -⟩
    exact ⟨_, entityId, he, subsystemId, hs, subsystemType, ht, peer, hp, state, hstate, rfl⟩

/-- The effect gate's reading of a line the message gate has read as a result. -/
theorem readEffects_eq {line : Bytes} {revision : UInt64} {profiles : Profiles}
    (h : MessageTransportGate.readMetrics stod line = .ok (some (revision, profiles))) :
    NetworkEffectGate.readMetrics line = (do
      let effects ← objectArray line (ascii "effects")
      let decisions ← effects.mapM (NetworkEffectGate.readEffect revision)
      pure (some (revision, decisions))) := by
  rw [MessageTransportGate.readMetrics, Except.bind_ok_iff] at h
  obtain ⟨messageType, htype, h⟩ := h
  split_ifs at h with hmetrics
  · cases h
  obtain ⟨r, hrevision, h⟩ := Except.bind_ok_iff.mp h
  have hr : r = revision := by
    simp only [Except.bind_ok_iff, Except.pure_ok_iff] at h
    obtain ⟨_, -, _, -, _, -, _, -, heq⟩ := h
    exact (Prod.mk.inj (Option.some.inj heq)).1
  rw [NetworkEffectGate.readMetrics, htype, Except.ok_bind, if_neg hmetrics, hrevision, hr]
  rfl

theorem readEffects_ok_iff {line : Bytes} {revision : UInt64} {profiles : Profiles}
    (h : MessageTransportGate.readMetrics stod line = .ok (some (revision, profiles))) :
    (∃ decisions, NetworkEffectGate.readMetrics line = .ok (some (revision, decisions))) ↔ EffectsReadable line := by
  have hmapM : ∀ objects : List Bytes,
      (∃ decisions, objects.mapM (NetworkEffectGate.readEffect revision) = .ok decisions) ↔
        ∀ object ∈ objects, ∃ decision, NetworkEffectGate.readEffect 0 object = .ok decision := by
    intro objects
    have hall : (∃ decisions, List.Forall₂ (fun object decision =>
        NetworkEffectGate.readEffect revision object = .ok decision) objects decisions ∧ ∀ _ ∈ decisions, True) ↔ _ :=
      Except.exists_forall₂_iff
    simp only [implies_true, and_true, readEffect_ok_iff] at hall
    simp only [Except.mapM_ok_iff]
    exact hall
  rw [readEffects_eq h]
  simp only [Except.bind_ok_iff, Except.pure_ok_iff, EffectsReadable]
  constructor
  · rintro ⟨_, objects, hobjects, decisions, hdecisions, -⟩
    exact ⟨objects, hobjects, (hmapM objects).mp ⟨decisions, hdecisions⟩⟩
  · rintro ⟨objects, hobjects, hall⟩
    obtain ⟨decisions, hdecisions⟩ := (hmapM objects).mpr hall
    exact ⟨decisions, objects, hobjects, decisions, hdecisions, rfl⟩

theorem readEffects_of_none {line : Bytes} (h : MessageTransportGate.readMetrics stod line = .ok none) :
    NetworkEffectGate.readMetrics line = .ok none := by
  rw [MessageTransportGate.readMetrics, Except.bind_ok_iff] at h
  obtain ⟨messageType, htype, h⟩ := h
  split_ifs at h with hmetrics
  · rw [NetworkEffectGate.readMetrics, htype, Except.ok_bind, if_pos hmetrics]
  · simp only [Except.bind_ok_iff, Except.pure_ok_iff] at h
    obtain ⟨_, -, _, -, _, -, _, -, _, -, heq⟩ := h
    cases heq

/-- A result whose effects cannot be read makes the effect gate raise. -/
theorem readEffects_error {line : Bytes} {revision : UInt64} {profiles : Profiles}
    (h : MessageTransportGate.readMetrics stod line = .ok (some (revision, profiles))) (hnot : ¬ EffectsReadable line) :
    ∃ e, NetworkEffectGate.readMetrics line = .error e := by
  cases hread : NetworkEffectGate.readMetrics line with
  | error e => exact ⟨e, rfl⟩
  | ok result =>
    rw [readEffects_eq h] at hread
    simp only [Except.bind_ok_iff, Except.pure_ok_iff] at hread
    obtain ⟨objects, hobjects, decisions, hdecisions, -⟩ := hread
    refine absurd ((readEffects_ok_iff h).mp ⟨decisions, ?_⟩) hnot
    rw [readEffects_eq h, hobjects, Except.ok_bind, hdecisions]
    rfl

/-- **A line handled** keeps the gates together exactly if a new result has readable effects. -/
theorem agree_onJsonLine_iff {gates : Gates} (hagree : GatesAgree gates) (line : Bytes) :
    GatesAgree (gates.onJsonLine stod line) ↔ ∀ revision profiles,
      MessageTransportGate.readMetrics stod line = .ok (some (revision, profiles)) →
        gates.mMessageGate.mLatestRevision < revision → EffectsReadable line := by
  rw [Gates.onJsonLine, MessageTransportGate.updateFromMetricsJson, NetworkEffectGate.updateFromMetricsJson]
  rcases hread : MessageTransportGate.readMetrics stod line with e | (_ | ⟨revision, profiles⟩)
  · refine iff_of_true hagree fun _ _ h => ?_
    cases h
  · rw [readEffects_of_none hread]
    refine iff_of_true hagree fun _ _ h => ?_
    cases h
  · simp only [Except.map, MessageTransportGate.accept]
    by_cases hreadable : EffectsReadable line
    · obtain ⟨decisions, hdecisions⟩ := (readEffects_ok_iff hread).mpr hreadable
      rw [hdecisions]
      refine iff_of_true ?_ fun _ _ _ _ => hreadable
      have hsame : gates.mMessageGate.mLatestRevision = gates.mGate.mLatestRevision := hagree
      simp only [NetworkEffectGate.accept, ← hsame]
      split_ifs
      · exact hagree
      · rfl
    · obtain ⟨e, herror⟩ := readEffects_error hread hreadable
      rw [herror]
      dsimp only
      have hsame : gates.mMessageGate.mLatestRevision = gates.mGate.mLatestRevision := hagree
      split_ifs with hle
      · exact iff_of_true hagree fun r p heq hlt => by
          obtain ⟨rfl, rfl⟩ := Prod.mk.inj (Option.some.inj (Except.ok.inj heq))
          exact absurd hlt (UInt64.not_lt.mpr hle)
      · refine iff_of_false (fun h => ?_) fun h => hreadable (h revision profiles rfl (UInt64.not_le.mp hle))
        have hlatest : revision = gates.mGate.mLatestRevision := h
        exact hle (UInt64.le_of_eq (hlatest.trans hsame.symm))

/-- **One revision.** Along any lines, the gates are at one revision after each of them exactly if every line with a
result above all before it has effects that can be read. -/
theorem revisions_agree_iff (stod : Bytes → Except Bytes Double) (lines : List Bytes) :
    (∀ done, done <+: lines → GatesAgree (gatesAfter stod done)) ↔
      ∀ done line, done ++ [line] <+: lines → ∀ revision ∈ MessageTransportGate.revision? stod line,
        MessageTransportGate.highest stod done < revision → EffectsReadable line := by
  have hstep : ∀ done line, GatesAgree (gatesAfter stod done) →
      (GatesAgree (gatesAfter stod (done ++ [line])) ↔ ∀ revision ∈ MessageTransportGate.revision? stod line,
        MessageTransportGate.highest stod done < revision → EffectsReadable line) := by
    intro done line hagree
    rw [gatesAfter_append, agree_onJsonLine_iff hagree, gatesAfter_message]
    simp only [UInt64.lt_iff_toNat_lt, (MessageTransportGate.afterLines_eq done).2,
      MessageTransportGate.mem_revision?_iff]
    exact ⟨fun h n ⟨revision, profiles, hread, hn⟩ hlt => h revision profiles hread (hn ▸ hlt),
      fun h revision profiles hread hlt => h revision.toNat ⟨revision, profiles, hread, rfl⟩ hlt⟩
  constructor
  · intro h done line hpre
    have hdone : done <+: lines := (List.prefix_append done [line]).trans hpre
    exact (hstep done line (h done hdone)).mp (h _ hpre)
  · intro h done hdone
    induction done using List.reverseRecOn with
    | nil => rfl
    | append_singleton done line ih =>
      have hpre : done <+: lines := (List.prefix_append done [line]).trans hdone
      exact (hstep done line (ih hpre)).mpr (h done line hdone)

end Agreement

/-- **A subsystem whose ID takes a numeric escape** sets the gates apart: the message gate adopts the result, the effect
gate raises. -/
theorem escaped_subsystem_splits_gates :
    (StateStore.new.initializeStore (radarInit (str "A") (str "R" ++ [1])) 7 >>= StateStore.snapshot).toOption =
      some (radarSnapshot (str "A") (str "R" ++ [1])) ∧
    ¬ GatesAgree (gatesAfter wholeStod [lineOf wholeText (radarMessage (str "A") (str "R" ++ [1]) (str "r1"))]) := by
  refine ⟨by decide +kernel, ?_⟩
  rw [GatesAgree]
  decide +kernel

end AfsimNs3.System
