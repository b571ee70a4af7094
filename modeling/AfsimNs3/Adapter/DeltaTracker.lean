import AfsimNs3.Adapter.Protocol
import AfsimNs3.Lib.Dict
import AfsimNs3.Lib.Except

/-!
# The delta tracker (`StateDeltaTracker`)

The tracker keeps the last frame as two maps and `update` returns what changed since. `same` compares records
field by field with the `==` of each field's type, so a record holding a NaN differs from itself.
-/

namespace AfsimNs3.Adapter

def Position.same (left right : Position) : Bool :=
  Double.eq left.xM right.xM && Double.eq left.yM right.yM && Double.eq left.zM right.zM

def Velocity.same (left right : Velocity) : Bool :=
  Double.eq left.vxMps right.vxMps && Double.eq left.vyMps right.vyMps && Double.eq left.vzMps right.vzMps

def DeviceConfig.same (left right : DeviceConfig) : Bool :=
  left.deviceId = right.deviceId && left.peerEntityId = right.peerEntityId && left.kind = right.kind &&
    left.dataRateBps = right.dataRateBps && Double.eq left.delayMs right.delayMs &&
    Double.eq left.lossRate right.lossRate && left.linkState = right.linkState

def EffectPolicy.same (left right : EffectPolicy) : Bool :=
  left.subsystemId = right.subsystemId && left.subsystemType = right.subsystemType &&
    left.peerEntityId = right.peerEntityId && Double.eq left.maxDelayMs right.maxDelayMs &&
    Double.eq left.maxLossRate right.maxLossRate && Double.eq left.minThroughputBps right.minThroughputBps &&
    left.violationState = right.violationState

/-- `SameVector`: the sizes first, then index by index. -/
def sameVector {α : Type} (same : α → α → Bool) (left right : List α) : Bool :=
  left.length = right.length && (left.zip right).all (fun p => same p.1 p.2)

def EntityState.same (left right : EntityState) : Bool :=
  left.entityId = right.entityId && left.businessNodeId = right.businessNodeId &&
    left.parentEntityId = right.parentEntityId && left.hasParent = right.hasParent &&
    Position.same left.position right.position && Velocity.same left.velocity right.velocity &&
    Double.eq left.headingDeg right.headingDeg && left.alive = right.alive &&
    sameVector DeviceConfig.same left.devices right.devices &&
    sameVector EffectPolicy.same left.effectPolicies right.effectPolicies

def FlowConfig.same (left right : FlowConfig) : Bool :=
  left.flowId = right.flowId && left.sourceEntityId = right.sourceEntityId &&
    left.targetEntityId = right.targetEntityId && left.packetSizeBytes = right.packetSizeBytes &&
    left.intervalMs = right.intervalMs && left.durationMs = right.durationMs && left.active = right.active

theorem sameVector_sound {α : Type} {same : α → α → Bool} (hsound : ∀ a b, same a b = true → a = b)
    {left right : List α} (h : sameVector same left right = true) : left = right := by
  simp only [sameVector, Bool.and_eq_true, decide_eq_true_eq, List.all_eq_true] at h
  refine List.ext_getElem h.1 fun i hi hi' => hsound _ _ ?_
  have hmem : (left[i], right[i]) ∈ left.zip right := by
    rw [← List.getElem_zip (h := by simp only [List.length_zip]; omega)]
    exact List.getElem_mem _
  exact h.2 _ hmem

theorem positionSame_sound {a b : Position} (h : Position.same a b = true) : a = b := by
  simp only [Position.same, Bool.and_eq_true] at h
  cases a; cases b
  simp only [Position.mk.injEq]
  exact ⟨Double.eq_sound h.1.1, Double.eq_sound h.1.2, Double.eq_sound h.2⟩

theorem velocitySame_sound {a b : Velocity} (h : Velocity.same a b = true) : a = b := by
  simp only [Velocity.same, Bool.and_eq_true] at h
  cases a; cases b
  simp only [Velocity.mk.injEq]
  exact ⟨Double.eq_sound h.1.1, Double.eq_sound h.1.2, Double.eq_sound h.2⟩

theorem deviceSame_sound (a b : DeviceConfig) (h : DeviceConfig.same a b = true) : a = b := by
  simp only [DeviceConfig.same, Bool.and_eq_true, decide_eq_true_eq] at h
  obtain ⟨⟨⟨⟨⟨⟨h₁, h₂⟩, h₃⟩, h₄⟩, h₅⟩, h₆⟩, h₇⟩ := h
  cases a; cases b
  simp only [DeviceConfig.mk.injEq]
  exact ⟨h₁, h₂, h₃, h₄, Double.eq_sound h₅, Double.eq_sound h₆, h₇⟩

theorem policySame_sound (a b : EffectPolicy) (h : EffectPolicy.same a b = true) : a = b := by
  simp only [EffectPolicy.same, Bool.and_eq_true, decide_eq_true_eq] at h
  obtain ⟨⟨⟨⟨⟨⟨h₁, h₂⟩, h₃⟩, h₄⟩, h₅⟩, h₆⟩, h₇⟩ := h
  cases a; cases b
  simp only [EffectPolicy.mk.injEq]
  exact ⟨h₁, h₂, h₃, Double.eq_sound h₄, Double.eq_sound h₅, Double.eq_sound h₆, h₇⟩

/-- Records that compare the same are equal. -/
theorem entitySame_sound (a b : EntityState) (h : EntityState.same a b = true) : a = b := by
  simp only [EntityState.same, Bool.and_eq_true, decide_eq_true_eq] at h
  obtain ⟨⟨⟨⟨⟨⟨⟨⟨⟨h₁, h₂⟩, h₃⟩, h₄⟩, h₅⟩, h₆⟩, h₇⟩, h₈⟩, h₉⟩, h₁₀⟩ := h
  cases a; cases b
  simp only [EntityState.mk.injEq]
  exact ⟨h₁, h₂, h₃, h₄, positionSame_sound h₅, velocitySame_sound h₆, Double.eq_sound h₇, h₈,
    sameVector_sound deviceSame_sound h₉, sameVector_sound policySame_sound h₁₀⟩

theorem flowSame_sound (a b : FlowConfig) (h : FlowConfig.same a b = true) : a = b := by
  simp only [FlowConfig.same, Bool.and_eq_true, decide_eq_true_eq] at h
  obtain ⟨⟨⟨⟨⟨⟨h₁, h₂⟩, h₃⟩, h₄⟩, h₅⟩, h₆⟩, h₇⟩ := h
  cases a; cases b
  simp only [FlowConfig.mk.injEq]
  exact ⟨h₁, h₂, h₃, h₄, h₅, h₆, h₇⟩

/-- The text of the `std::invalid_argument` of `Index`. -/
def duplicateId : Str := str "state contains an empty or duplicate ID"

/-- One turn of the loop of `Index`. -/
def indexValue {α : Type} (idGetter : α → Str) (indexed : Dict Str α) (value : α) : Except Str (Dict Str α) :=
  if idGetter value = [] ∨ indexed.contains (idGetter value) then .error duplicateId
  else .ok (indexed.put (idGetter value) value)

/-- `Index`: the values by ID. -/
def index {α : Type} (idGetter : α → Str) (values : List α) : Except Str (Dict Str α) :=
  values.foldlM (indexValue idGetter) Dict.empty

structure StateDeltaTracker where
  mEntities : Dict Str EntityState
  mFlows : Dict Str FlowConfig
  mInitialized : Bool

namespace StateDeltaTracker

def new : StateDeltaTracker := ⟨Dict.empty, Dict.empty, false⟩

/-- `Reset`, with the exception it ends in if any. The entities are assigned before the flows are indexed. -/
def reset (t : StateDeltaTracker) (entities : List EntityState) (flows : List FlowConfig) :
    StateDeltaTracker × Option Str :=
  match index EntityState.entityId entities with
  | .error e => (t, some e)
  | .ok mEntities =>
    match index FlowConfig.flowId flows with
    | .error e => ({ t with mEntities }, some e)
    | .ok mFlows => (⟨mEntities, mFlows, true⟩, none)

/-- The records that are new or not the same as before, by ID. -/
def upserts {α : Type} (same : α → α → Bool) (old current : Dict Str α) : List α :=
  (current.sorted.filter (fun entry =>
    match old.get? entry.1 with
    | none => true
    | some value => !same value entry.2)).map Prod.snd

/-- The IDs that are gone. -/
def removals {α : Type} (old current : Dict Str α) : List Str :=
  (old.sorted.filter (fun entry => !current.contains entry.1)).map Prod.fst

/-- `Update`; when it throws, the baseline is as before. -/
def update (t : StateDeltaTracker) (entities : List EntityState) (flows : List FlowConfig) :
    Except Str (StateDeltaTracker × DeltaState) := do
  let currentEntities ← index EntityState.entityId entities
  let currentFlows ← index FlowConfig.flowId flows
  pure (⟨currentEntities, currentFlows, true⟩,
    { entityUpserts := upserts EntityState.same t.mEntities currentEntities
      entityRemovals := removals t.mEntities currentEntities
      flowUpserts := upserts FlowConfig.same t.mFlows currentFlows
      flowRemovals := removals t.mFlows currentFlows })

end StateDeltaTracker

def DeltaState.empty (delta : DeltaState) : Bool :=
  delta.entityUpserts.isEmpty && delta.entityRemovals.isEmpty && delta.flowUpserts.isEmpty &&
    delta.flowRemovals.isEmpty

end AfsimNs3.Adapter
