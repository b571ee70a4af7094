import AfsimNs3.Lib.Assoc
import AfsimNs3.Lib.Double
import AfsimNs3.Lib.Text

/-!
# JSON values

A JSON value as an interpreter holds it after decoding: integers of any size apart from floats, an object as its
bindings in order.
-/

inductive Json where
  | null
  | bool (b : Bool)
  | int (n : ℤ)
  | float (x : Double)
  | str (s : Str)
  | arr (items : List Json)
  | obj (fields : List (Str × Json))

/-- The bindings of an object. -/
abbrev Fields := List (Str × Json)

namespace Json

/-- A finite number. -/
def ofRat (q : ℚ) : Json := .float (.finite q)

/-- An array of objects. -/
def objects {α : Type} (fields : α → Fields) (items : List α) : Json := .arr ((items.map fields).map .obj)

mutual

/-- The strings of a value, the names of fields included. -/
def strings : Json → List Str
  | .str s => [s]
  | .arr items => itemStrings items
  | .obj fields => fieldStrings fields
  | _ => []

def itemStrings : List Json → List Str
  | [] => []
  | v :: items => strings v ++ itemStrings items

def fieldStrings : List (Str × Json) → List Str
  | [] => []
  | (k, v) :: fields => k :: (strings v ++ fieldStrings fields)

end

theorem strings_arr (items : List Json) : (arr items).strings = items.flatMap strings := by
  rw [strings]
  induction items with
  | nil => rfl
  | cons v items ih => rw [itemStrings, List.flatMap_cons, ih]

theorem strings_obj (fields : Fields) :
    (obj fields).strings = fields.flatMap (fun field => field.1 :: field.2.strings) := by
  rw [strings]
  induction fields with
  | nil => rfl
  | cons field fields ih => rw [fieldStrings, List.flatMap_cons, ih, List.cons_append]

/-- The bindings of a value that is an object. -/
def fields : Json → Fields
  | obj o => o
  | _ => []

/-- The text of a value that is a string. -/
def text? : Json → Option Str
  | str s => some s
  | _ => none

@[simp] theorem text?_eq_some_iff {v : Json} {s : Str} : v.text? = some s ↔ v = str s := by
  cases v <;> simp [text?]

end Json

namespace Fields

/-- `o.get(key, default)`. -/
def getD (o : Fields) (key : Str) (default : Json) : Json := (Assoc.find? o key).getD default

/-- `o.get(key)`: a missing key reads as `null`. -/
def get (o : Fields) (key : Str) : Json := o.getD key .null

end Fields
