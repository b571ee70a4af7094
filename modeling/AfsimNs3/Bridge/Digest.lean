import AfsimNs3.Bridge.Models
import AfsimNs3.Lib.Utf8
import Mathlib.Data.List.Sort

/-!
# The digest of a request (`server.py`)

`process` recognises a request by the SHA-256 digest of its canonical text: `json.dumps` with sorted keys, encoded
as UTF-8. The encoding fails on a lone surrogate. The hash is a parameter.
-/

namespace AfsimNs3.Bridge

/-- `sorted(o.items())`. -/
def sortFields (fields : Fields) : Fields := fields.insertionSort (fun a b => a.1 ≤ b.1)

mutual

/-- A value with the keys of its objects in order. -/
def sortKeys : Json → Json
  | .arr items => .arr (sortItems items)
  | .obj fields => .obj (sortFields (sortValues fields))
  | v => v

def sortItems : List Json → List Json
  | [] => []
  | v :: items => sortKeys v :: sortItems items

def sortValues : Fields → Fields
  | [] => []
  | (k, v) :: fields => (k, sortKeys v) :: sortValues fields

end

/-- The canonical text of a value. -/
def canonical (floatText : ℚ → Bytes) (payload : Json) : Except PyError Bytes :=
  if (sortKeys payload).strings.all encodable then .ok (dumps floatText (sortKeys payload)) else .error .unicode

/-- The digest of the canonical text. -/
def requestDigest {δ : Type} (floatText : ℚ → Bytes) (sha256 : Bytes → δ) (payload : Json) : Except PyError δ :=
  (canonical floatText payload).map sha256

/-! ## The order of the keys does not matter -/

theorem find?_orderedInsert (field : Str × Json) (fields : Fields) (key : Str) :
    Assoc.find? (fields.orderedInsert (fun a b => a.1 ≤ b.1) field) key = Assoc.find? (field :: fields) key := by
  induction fields with
  | nil => rfl
  | cons next fields ih =>
    rw [List.orderedInsert_cons]
    split_ifs with hle
    · rfl
    · rw [Assoc.find?_cons next, ih, Assoc.find?_cons field, Assoc.find?_cons field, Assoc.find?_cons next]
      by_cases hnext : next.1 = key
      · have hfield : field.1 ≠ key := fun h => hle (h.trans hnext.symm ▸ le_refl field.1)
        rw [if_pos hnext, if_neg hfield, if_pos hnext]
      · rw [if_neg hnext, if_neg hnext]

theorem find?_sortFields (fields : Fields) (key : Str) : Assoc.find? (sortFields fields) key = Assoc.find? fields key := by
  unfold sortFields
  induction fields with
  | nil => rfl
  | cons field fields ih => rw [List.insertionSort_cons, find?_orderedInsert, Assoc.find?_cons, ih, Assoc.find?_cons]

theorem find?_sortValues (fields : Fields) (key : Str) :
    Assoc.find? (sortValues fields) key = (Assoc.find? fields key).map sortKeys := by
  induction fields with
  | nil => rfl
  | cons field fields ih =>
    rw [sortValues, Assoc.find?_cons, Assoc.find?_cons, ih]
    split_ifs
    · rfl
    · rfl

theorem get_sorted (fields : Fields) (key : Str) :
    Fields.get (sortFields (sortValues fields)) key = sortKeys (fields.get key) := by
  unfold Fields.get Fields.getD
  rw [find?_sortFields, find?_sortValues]
  cases Assoc.find? fields key with
  | none => rfl
  | some v => rfl

/-- The envelope is read alike from a value and from the same value in order. -/
theorem validateEnvelope_sortKeys (payload : Json) : validateEnvelope (sortKeys payload) = validateEnvelope payload := by
  cases payload with
  | obj fields =>
    have hversion : checkVersion (sortKeys (Fields.get fields (str "protocol_version"))) =
        checkVersion (Fields.get fields (str "protocol_version")) := by
      cases Fields.get fields (str "protocol_version") <;> rfl
    have htext : ∀ key, requiredText (sortFields (sortValues fields)) key = requiredText fields key := by
      intro key
      unfold requiredText
      rw [get_sorted]
      cases Fields.get fields key <;> rfl
    have hinteger : ∀ key minimum, integer (sortFields (sortValues fields)) key minimum = integer fields key minimum := by
      intro key minimum
      unfold integer
      rw [get_sorted]
      cases Fields.get fields key <;> rfl
    show (do
      checkVersion (Fields.get (sortFields (sortValues fields)) (str "protocol_version"))
      let messageType ← requiredText (sortFields (sortValues fields)) (str "message_type") >>= MessageType.parse
      let requestId ← requiredText (sortFields (sortValues fields)) (str "request_id")
      let timestampMs ← integer (sortFields (sortValues fields)) (str "timestamp_ms") (some 0)
      pure (⟨messageType, requestId, timestampMs⟩ : Envelope)) = _
    rw [get_sorted, hversion, htext, htext, hinteger]
    rfl
  | _ => rfl

theorem canonical_congr {floatText : ℚ → Bytes} {payload payload' : Json} (h : sortKeys payload' = sortKeys payload) :
    canonical floatText payload' = canonical floatText payload := by
  rw [canonical, canonical, h]

theorem validateEnvelope_congr {payload payload' : Json} (h : sortKeys payload' = sortKeys payload) :
    validateEnvelope payload' = validateEnvelope payload := by
  rw [← validateEnvelope_sortKeys, h, validateEnvelope_sortKeys]

end AfsimNs3.Bridge
