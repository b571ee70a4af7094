import AfsimNs3.Lib.Json
import AfsimNs3.Lib.Utf8

/-!
# Values whose strings can be encoded

`Json.Encodable v`: no string of the value, the names of fields included, has a lone surrogate. Lookups and merges stay
within such values.
-/

namespace Str

theorem encodable_append {s t : Str} : encodable (s ++ t) = true ↔ encodable s = true ∧ encodable t = true := by
  unfold encodable
  rw [List.all_append, Bool.and_eq_true]

/-- A literal has no surrogates, as no character of a `String` is one. -/
@[simp] theorem encodable_literal (s : String) : encodable (str s) = true := by
  rw [encodable_iff, str, List.forall_mem_map]
  intro c _
  have hvalid := c.valid
  have hval : (Fin.ofNat 0x110000 c.toNat : CodePoint).val = c.toNat % 0x110000 := rfl
  simp only [surrogate, Bool.and_eq_false_iff, decide_eq_false_iff_not, hval]
  simp only [UInt32.isValidChar, Nat.isValidChar] at hvalid
  have htoNat : c.toNat = c.val.toNat := rfl
  omega

theorem surrogate_of_isSpace {c : CodePoint} (h : isSpace c = true) : surrogate c = false := by
  simp only [isSpace, Bool.or_eq_true, Bool.and_eq_true, decide_eq_true_eq] at h
  simp only [surrogate, Bool.and_eq_false_iff, decide_eq_false_iff_not]
  omega

/-- What is stripped has no surrogates. -/
theorem encodable_strip {s : Str} : encodable (strip s) = true ↔ encodable s = true := by
  have hleft : s.takeWhile isSpace ++ s.dropWhile isSpace = s := List.takeWhile_append_dropWhile
  have hright : strip s ++ (s.dropWhile isSpace).rtakeWhile isSpace = s.dropWhile isSpace :=
    List.rdropWhile_append_rtakeWhile
  rw [← hright] at hleft
  have hspaces : ∀ {t : Str}, (∀ c ∈ t, isSpace c = true) → encodable t = true := fun h =>
    encodable_iff.mpr fun c hc => surrogate_of_isSpace (h c hc)
  conv_rhs => rw [← hleft, encodable_append, encodable_append]
  rw [and_iff_right (hspaces fun c => List.mem_takeWhile_imp), and_iff_left (hspaces fun c => List.mem_rtakeWhile_imp)]

end Str

namespace Json

def Encodable (v : Json) : Prop := ∀ s ∈ v.strings, encodable s = true

theorem encodable_str {s : Str} : (str s).Encodable ↔ encodable s = true := by
  rw [Encodable, strings, List.forall_mem_singleton]

theorem encodable_arr {items : List Json} : (arr items).Encodable ↔ ∀ v ∈ items, v.Encodable := by
  rw [Encodable, strings_arr, List.forall_mem_flatMap]
  exact Iff.rfl

theorem encodable_obj {fields : Fields} :
    (obj fields).Encodable ↔ ∀ field ∈ fields, encodable field.1 = true ∧ field.2.Encodable := by
  rw [Encodable, strings_obj, List.forall_mem_flatMap]
  exact forall₂_congr fun field _ => List.forall_mem_cons

@[simp] theorem encodable_null : null.Encodable := List.forall_mem_nil _

@[simp] theorem encodable_bool (b : Bool) : (bool b).Encodable := List.forall_mem_nil _

@[simp] theorem encodable_int (n : ℤ) : (int n).Encodable := List.forall_mem_nil _

@[simp] theorem encodable_float (x : Double) : (float x).Encodable := List.forall_mem_nil _

theorem Encodable.fields {v : Json} (h : v.Encodable) : (obj v.fields).Encodable := by
  cases v with
  | obj o => exact h
  | _ => exact encodable_obj.mpr (List.forall_mem_nil _)

end Json

namespace Fields

theorem encodable_find? {o : Fields} (h : (Json.obj o).Encodable) {key : Str} {v : Json}
    (hv : Assoc.find? o key = some v) : v.Encodable :=
  (Json.encodable_obj.mp h _ (Assoc.mem_of_find? hv)).2

theorem encodable_getD {o : Fields} (h : (Json.obj o).Encodable) (key : Str) {default : Json}
    (hdefault : default.Encodable) : (o.getD key default).Encodable := by
  unfold getD
  cases hv : Assoc.find? o key with
  | none => exact hdefault
  | some v => exact encodable_find? h hv

theorem encodable_get {o : Fields} (h : (Json.obj o).Encodable) (key : Str) : (o.get key).Encodable :=
  encodable_getD h key Json.encodable_null

/-- The text under a key. -/
theorem encodable_of_get {o : Fields} (h : (Json.obj o).Encodable) {key s : Str} (hs : o.get key = .str s) :
    encodable s = true := by
  have hv := encodable_get h key
  rw [hs] at hv
  exact Json.encodable_str.mp hv

theorem encodable_mergeWith {f : Str → Option Json → Json → Json} {a b : Fields}
    (hf : ∀ k old v, (∀ w ∈ old, w.Encodable) → v.Encodable → (f k old v).Encodable)
    (ha : (Json.obj a).Encodable) (hb : (Json.obj b).Encodable) : (Json.obj (Assoc.mergeWith f a b)).Encodable := by
  rw [Json.encodable_obj] at ha
  rw [Json.encodable_obj, Assoc.mergeWith, List.forall_mem_append, List.forall_mem_map, List.forall_mem_map]
  constructor
  · intro field hfield
    obtain ⟨hkey, hvalue⟩ := ha field hfield
    refine ⟨hkey, ?_⟩
    dsimp only
    cases hw : Assoc.find? b field.1 with
    | none => exact hvalue
    | some w => exact hf _ _ _ (fun v hv => Option.some.inj hv ▸ hvalue) (encodable_find? hb hw)
  · intro field hfield
    obtain ⟨hkey, hvalue⟩ := Json.encodable_obj.mp hb field (List.mem_of_mem_filter hfield)
    refine ⟨hkey, hf _ _ _ (fun v hv => ?_) hvalue⟩
    cases hv

theorem encodable_merge {a b : Fields} (ha : (Json.obj a).Encodable) (hb : (Json.obj b).Encodable) :
    (Json.obj (Assoc.merge a b)).Encodable :=
  encodable_mergeWith (fun _ _ _ _ hv => hv) ha hb

end Fields
