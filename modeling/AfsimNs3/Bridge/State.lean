import AfsimNs3.Bridge.Models
import AfsimNs3.Lib.Dict

/-!
# The state store (`state.py`)

`StateStore` owns the full state while the wire carries increments. The records are kept as the raw objects that
came in; `snapshot` reads them again. `initializeStore` (the source's `initialize`) replaces the state,
`applyDelta` works on copies and commits them together once `validateReferences` has passed.

Entities and flows go through the same loops, so each loop is written once (`indexRecords`, `removeOne`,
`upsertOne`) and used at both kinds of record.
-/

namespace AfsimNs3.Bridge

structure StateSnapshot where
  timestampMs : ℤ
  entities : List EntityState
  flows : List FlowConfig
  revision : ℕ
  deriving DecidableEq

structure StateStore where
  entities : Dict Str Fields
  flows : Dict Str Fields
  timestampMs : ℤ
  revision : ℕ
  initialized : Bool

namespace StateStore

def new : StateStore := ⟨Dict.empty, Dict.empty, 0, 0, false⟩

/-! ## The loops -/

/-- The value of one field of `_merge_entity`: positions and velocities merge one level deep. -/
def mergeField (key : Str) (old : Option Json) (value : Json) : Json :=
  match old, value with
  | some (.obj o), .obj v => if key = str "position" ∨ key = str "velocity" then .obj (Assoc.merge o v) else .obj v
  | _, v => v

def mergeEntity (current update : Fields) : Fields := Assoc.mergeWith mergeField current update

/-- The record an entity upsert leaves under its key. -/
def mergedEntity (current : Option Fields) (update : Fields) : Fields :=
  match current with
  | some current => mergeEntity current update
  | none => update

/-- The record a flow upsert leaves under its key: `{**flows.get(flow_id, {}), **update}`. -/
def mergedFlow (current : Option Fields) (update : Fields) : Fields := Assoc.merge (current.getD []) update

section Loops
variable {ρ : Type} (parse : Fields → Except PyError ρ)

/-- One turn of an `initializeStore` loop. -/
def indexOne (fromDict : Json → Except PyError ρ) (idOf : ρ → Str) (idKey : Str) (records : Dict Str Fields)
    (raw : Json) : Except PyError (Dict Str Fields) := do
  let parsed ← fromDict raw
  if records.contains (idOf parsed) then .error (.protocol 1002 (str "duplicate " ++ idKey ++ str ": " ++ idOf parsed))
  else .ok (records.put (idOf parsed) raw.fields)

def indexRecords (fromDict : Json → Except PyError ρ) (idOf : ρ → Str) (idKey : Str) (raws : List Json) :
    Except PyError (Dict Str Fields) :=
  raws.foldlM (indexOne fromDict idOf idKey) Dict.empty

/-- One turn of a removal loop. -/
def removeOne (what : Str) (records : Dict Str Fields) (id : Json) : Except PyError (Dict Str Fields) :=
  match id with
  | .str id => if id = [] then .error (.protocol 1002 (what ++ str " must contain IDs")) else .ok (records.erase id)
  | _ => .error (.protocol 1002 (what ++ str " must contain IDs"))

/-- One turn of an upsert loop. The key is the ID as it is written in the update. -/
def upsertOne (merged : Option Fields → Fields → Fields) (what idKey : Str) (records : Dict Str Fields)
    (update : Json) : Except PyError (Dict Str Fields) :=
  match update with
  | .obj update =>
    match Fields.get update idKey with
    | .str id =>
      if id = [] then .error (.protocol 1002 (what ++ str " requires " ++ idKey))
      else do
        let _ ← parse (merged (records.get? id) update)
        pure (records.put id (merged (records.get? id) update))
    | _ => .error (.protocol 1002 (what ++ str " requires " ++ idKey))
  | _ => .error (.protocol 1002 (what ++ str " entries must be objects"))

/-- The ID texts of the records in a list. -/
def recordTexts (idKey : Str) (updates : List Json) : List Str :=
  updates.filterMap (fun update => (Fields.get update.fields idKey).text?)

/-- The ID texts of a removal list. -/
def removalTexts (removals : List Json) : List Str := removals.filterMap Json.text?

end Loops

def upsertEntity : Dict Str Fields → Json → Except PyError (Dict Str Fields) :=
  upsertOne EntityState.ofFields mergedEntity (str "entity_upserts") (str "entity_id")

def upsertFlow : Dict Str Fields → Json → Except PyError (Dict Str Fields) :=
  upsertOne FlowConfig.ofFields mergedFlow (str "flow_upserts") (str "flow_id")

/-! ## Reference validation -/

def checkKnown (ids : List Str) (what id : Str) : Except PyError PUnit :=
  if id ∈ ids then .ok ⟨⟩ else .error (.protocol 1002 (what ++ id))

def validateParent (ids : List Str) : Option Str → Except PyError PUnit
  | some parent => checkKnown ids (str "unknown parent_entity_id: ") parent
  | none => .ok ⟨⟩

/-- The references of one entity. -/
def validateEntity (ids : List Str) (entity : EntityState) : Except PyError PUnit := do
  validateParent ids entity.parentEntityId
  forM entity.devices (fun device => checkKnown ids (str "unknown peer_entity_id: ") device.peerEntityId)
  forM entity.effectPolicies (fun policy => checkKnown ids (str "unknown policy peer_entity_id: ") policy.peerEntityId)

/-- The references of one flow. -/
def validateFlow (ids : List Str) (flow : FlowConfig) : Except PyError PUnit := do
  checkKnown ids (str "unknown flow source: ") flow.sourceEntityId
  checkKnown ids (str "unknown flow target: ") flow.targetEntityId

def validateReferences (entities flows : Dict Str Fields) : Except PyError PUnit := do
  let parsedEntities ← entities.values.mapM EntityState.ofFields
  forM parsedEntities (validateEntity entities.keys)
  forM flows.values (fun raw => FlowConfig.ofFields raw >>= validateFlow entities.keys)

/-! ## The operations -/

def initializeStore (s : StateStore) (payload : Fields) (timestampMs : ℤ) : Except PyError StateStore := do
  let (entities, flows) ← arrays (payload.get (str "entities")) (payload.get (str "flows"))
    (str "afsim_init requires entities and flows")
  let entityMap ← indexRecords EntityState.fromDict EntityState.entityId (str "entity_id") entities
  let flowMap ← indexRecords FlowConfig.fromDict FlowConfig.flowId (str "flow_id") flows
  validateReferences entityMap flowMap
  pure ⟨entityMap, flowMap, timestampMs, s.revision + 1, true⟩

/-- The four lists of a delta. -/
structure DeltaLists where
  entityUpserts : List Json
  entityRemovals : List Json
  flowUpserts : List Json
  flowRemovals : List Json

def deltaLists (payload : Fields) : Except PyError DeltaLists :=
  match payload.getD (str "entity_upserts") (.arr []), payload.getD (str "entity_removals") (.arr []),
    payload.getD (str "flow_upserts") (.arr []), payload.getD (str "flow_removals") (.arr []) with
  | .arr eu, .arr er, .arr fu, .arr fr => .ok ⟨eu, er, fu, fr⟩
  | _, _, _, _ => .error (.protocol 1002 (str "delta fields must be arrays"))

def applyDelta (s : StateStore) (payload : Fields) (timestampMs : ℤ) : Except PyError StateStore := do
  if !s.initialized then .error (.protocol 1002 (str "afsim_init must be sent before afsim_delta"))
  else if timestampMs < s.timestampMs then .error (.protocol 1002 (str "timestamp_ms must not move backwards"))
  else do
    let lists ← deltaLists payload
    let entities ← lists.entityRemovals.foldlM (removeOne (str "entity_removals")) s.entities
    let entities ← lists.entityUpserts.foldlM upsertEntity entities
    let flows ← lists.flowRemovals.foldlM (removeOne (str "flow_removals")) s.flows
    let flows ← lists.flowUpserts.foldlM upsertFlow flows
    validateReferences entities flows
    pure ⟨entities, flows, timestampMs, s.revision + 1, s.initialized⟩

def snapshot (s : StateStore) : Except PyError StateSnapshot := do
  if !s.initialized then .error (.protocol 1002 (str "state is not initialized"))
  else do
    let entities ← (s.entities.sorted.map Prod.snd).mapM EntityState.ofFields
    let flows ← (s.flows.sorted.map Prod.snd).mapM FlowConfig.ofFields
    pure ⟨s.timestampMs, entities, flows, s.revision⟩

end StateStore

end AfsimNs3.Bridge
