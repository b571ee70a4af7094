import AfsimNs3.Adapter.Search

/-!
# Which field of an object `ValueStart` finds

`Unshadowed name fields`: among the strings ahead of the field `name`, nested ones included, none shadows the name,
except that the value right before the field may be a string that does. `valueStart_field_iff`: in the text of the
object the position found is the one of the field itself exactly then, if the value right before the field is `Loud`,
that is a string, or a value whose text has a colon behind every string that could shadow the name.
-/

namespace AfsimNs3.Adapter

/-! ## Names of fields as needles -/

section Names
variable {name : Str} (hname : FieldName name)
include hname

theorem escape_eq_utf8 : escape name = utf8 name := by
  have hletters := hname.2
  clear hname
  induction name with
  | nil => rfl
  | cons c name ih =>
    rw [List.forall_mem_cons] at hletters
    rw [escape, utf8, List.flatMap_cons, List.flatMap_cons, escapeChar_of_letter hletters.1,
      utf8Char_of_lt (by omega : c.val < 128)]
    exact congrArg _ (ih hletters.2)

theorem needleOf_utf8 : needleOf (utf8 name) = quoted name := by
  rw [quoted, escape_eq_utf8 hname]
  rfl

/-- Only quotes and letters stand in a quoted name. -/
theorem toNat_of_mem_quoted {d : UInt8} (hd : d ∈ quoted name) : d = 34 ∨ 95 ≤ d.toNat ∧ d.toNat ≤ 122 := by
  rw [quoted, List.mem_cons, List.mem_append, List.mem_singleton] at hd
  rcases hd with rfl | hd | rfl
  · exact .inl rfl
  · obtain ⟨c, hc, hd⟩ := List.mem_flatMap.mp hd
    have hletter := hname.2 c hc
    rw [escapeChar_of_letter hletter, List.mem_singleton] at hd
    rw [hd, UInt8.toNat_ofNat', Nat.mod_eq_of_lt (by omega)]
    exact .inr hletter
  · exact .inl rfl

theorem colon_notMem_quoted : (58 : UInt8) ∉ quoted name := fun h =>
  (toNat_of_mem_quoted hname h).elim (by decide) (by decide)

end Names

/-! ## The text ahead of a field -/

/-- The fields ahead of a name. -/
def ahead (name : Str) (fields : Fields) : Fields := fields.takeWhile (fun field => field.1 ≠ name)

theorem split_of_find? {name : Str} {fields : Fields} {v : Json} (h : Assoc.find? fields name = some v) :
    ∃ after, fields = ahead name fields ++ (name, v) :: after := by
  induction fields with
  | nil => cases h
  | cons field fields ih =>
    obtain ⟨k, w⟩ := field
    by_cases hk : k = name
    · subst hk
      rw [Assoc.find?_cons_self] at h
      exact ⟨fields, by simp [ahead, Option.some.inj h]⟩
    · rw [Assoc.find?_cons_of_ne hk] at h
      obtain ⟨after, hafter⟩ := ih h
      refine ⟨after, ?_⟩
      rw [ahead, List.takeWhile_cons_of_pos (by simpa using hk), List.cons_append, ← ahead, ← hafter]

theorem ahead_append {name : Str} {before : Fields} (h : name ∈ before.map Prod.fst) (after : Fields) :
    ahead name (before ++ after) = ahead name before := by
  induction before with
  | nil => exact absurd h List.not_mem_nil
  | cons field before ih =>
    by_cases hk : field.1 = name
    · simp [ahead, hk]
    · have hmem : name ∈ before.map Prod.fst := (List.mem_cons.mp h).resolve_left (Ne.symm hk)
      rw [List.cons_append, ahead, ahead, List.takeWhile_cons_of_pos (by simpa using hk),
        List.takeWhile_cons_of_pos (by simpa using hk)]
      exact congrArg _ (ih hmem)

section
variable (floatText : ℚ → Bytes)

/-- The text of fields each of which a comma follows. -/
def fieldsText (fields : Fields) : Bytes := fields.flatMap (fun field => dumpsField floatText field ++ [44])

/-- The position of the value of a field in the text of its object. -/
def ownPosition (name : Str) (fields : Fields) : ℕ :=
  (123 :: fieldsText floatText (ahead name fields) ++ quoted name ++ [58]).length

theorem dumps_split {name : Str} {fields : Fields} {v : Json} (h : Assoc.find? fields name = some v) :
    ∃ d rest, (d = 44 ∨ d = 125) ∧ dumps floatText (.obj fields) =
      123 :: fieldsText floatText (ahead name fields) ++ (quoted name ++ 58 :: (dumps floatText v ++ d :: rest)) := by
  obtain ⟨after, hafter⟩ := split_of_find? h
  have htext : dumps floatText (.obj fields) = 123 :: fieldsText floatText (ahead name fields) ++
      (quoted name ++ 58 :: (dumps floatText v ++
        (after.flatMap (fun field => 44 :: dumpsField floatText field) ++ [125]))) := by
    rw [dumps_obj, hafter, List.map_append, List.map_cons, commaJoin_split, ← hafter]
    simp only [fieldsText, dumpsField, List.flatMap_map, List.append_assoc, List.cons_append]
  cases after with
  | nil => exact ⟨125, [], .inr rfl, htext⟩
  | cons field after => exact ⟨44, _, .inl rfl, htext⟩

theorem fieldsText_end (fields : Fields) :
    ∃ a d, 123 :: fieldsText floatText fields = a ++ [d] ∧ (d = 123 ∨ d = 44) := by
  rcases List.eq_nil_or_concat fields with rfl | ⟨fields, field, rfl⟩
  · exact ⟨[], 123, rfl, .inl rfl⟩
  · refine ⟨123 :: (fieldsText floatText fields ++ dumpsField floatText field), 44, ?_, .inr rfl⟩
    simp [fieldsText]

end

/-! ## Strings ahead of a field -/

/-- No string of the fields shadows the name, except that the last value may be a string that does. -/
def Quiet (name : Str) : Fields → Prop
  | [] => True
  | [(k, v)] => ¬ Shadows name k ∧ (v.text?.isSome ∨ ¬ Mentions name v)
  | (k, v) :: field :: fields => ¬ Shadows name k ∧ ¬ Mentions name v ∧ Quiet name (field :: fields)

def Quiet.decide (name : Str) : (fields : Fields) → Decidable (Quiet name fields)
  | [] => .isTrue trivial
  | [(_, _)] => inferInstanceAs (Decidable (_ ∧ _))
  | (_, _) :: field :: fields =>
    have := Quiet.decide name (field :: fields)
    inferInstanceAs (Decidable (_ ∧ _ ∧ Quiet name (field :: fields)))

instance (name : Str) (fields : Fields) : Decidable (Quiet name fields) := Quiet.decide name fields

/-- No string ahead of the field shadows its name, except perhaps the value right before it. -/
def Unshadowed (name : Str) (fields : Fields) : Prop := Quiet name (ahead name fields)

instance (name : Str) (fields : Fields) : Decidable (Unshadowed name fields) :=
  inferInstanceAs (Decidable (Quiet _ _))

section Harmless
variable {needle a b : Bytes} {name : Str}

theorem harmless_nil : Harmless needle [] b := fun _ hne hs => absurd (List.suffix_nil.mp hs) hne

theorem harmless_cons_of_ne {c : UInt8} (hc : c ≠ 34) :
    Harmless (quoted name) (c :: a) b ↔ Harmless (quoted name) a b := by
  constructor
  · exact fun h s hne hs => h s hne (hs.trans (List.suffix_cons c a))
  · intro h s hne hs hpre
    rcases List.suffix_cons_iff.mp hs with rfl | hs
    · exact absurd (List.cons_prefix_cons.mp hpre).1.symm hc
    · exact h s hne hs hpre

/-- A string with a comma behind it. -/
theorem harmless_str (hname : FieldName name) (s : Str) : Harmless (quoted name) (quoted s ++ [44]) b := by
  intro t hne hs hpre
  have hcomma : (58 : UInt8) ∉ ([44] : Bytes) := by decide
  rcases suffix_append_cases hs with hs | ⟨t', hne', hs', rfl⟩
  · exact fun hmem => hcomma (hs.subset hmem)
  · rw [List.append_assoc] at hpre
    have hplace := in_string hname.2 hname.1 (delimited_cons (.inl (by decide))) hne' hs' hpre
    rw [hplace.1, List.mem_append, not_or]
    exact ⟨colon_notMem_quoted hname, hcomma⟩

end Harmless

/-- Where the value stands right before a field, its text is harmless only if the value is a string, or none of its
strings shadows the name. -/
def Loud (floatText : ℚ → Bytes) (name : Str) (v : Json) : Prop :=
  ∀ b, Harmless (quoted name) (dumps floatText v ++ [44]) b → v.text?.isSome ∨ ¬ Mentions name v

/-- The text of a value begins with no space. -/
theorem dumps_head {floatText : ℚ → Bytes} (hfloat : NumberText floatText) (v : Json) (b : Bytes) :
    ∀ c ∈ (dumps floatText v ++ b).head?, isSpace c = false := by
  have hscalar : ∀ {text : Bytes}, text ≠ [] → (∀ c ∈ text, isScalar c = true) →
      ∀ c ∈ (text ++ b).head?, isSpace c = false := by
    intro text hne htext c hc
    cases text with
    | nil => exact absurd rfl hne
    | cons d text => exact Option.some.inj hc ▸ isSpace_of_isScalar (htext d List.mem_cons_self)
  cases v with
  | null => exact fun c hc => Option.some.inj hc ▸ rfl
  | bool v => cases v <;> exact fun c hc => Option.some.inj hc ▸ rfl
  | int n =>
    rw [dumps]
    exact hscalar (intBytes_ne_nil n) (isScalar_intBytes n)
  | float x =>
    rw [dumps]
    exact hscalar (floatBytes_ne_nil hfloat x) (isScalar_floatBytes hfloat x)
  | str s => exact fun c hc => Option.some.inj hc ▸ rfl
  | arr items =>
    rw [dumps_arr]
    exact fun c hc => Option.some.inj hc ▸ rfl
  | obj fields =>
    rw [dumps_obj]
    exact fun c hc => Option.some.inj hc ▸ rfl

/-- Neither an array nor an object. -/
def Flat : Json → Prop
  | .arr _ => False
  | .obj _ => False
  | _ => True

section Fields
variable {floatText : ℚ → Bytes} (hfloat : NumberText floatText) {name : Str} (hname : FieldName name)
include hfloat hname

theorem harmless_last {v : Json} (hloud : Loud floatText name v) (b : Bytes) :
    Harmless (quoted name) (dumps floatText v ++ [44]) b ↔ v.text?.isSome ∨ ¬ Mentions name v := by
  refine ⟨hloud b, ?_⟩
  have hcomma : Delimited ([44] ++ b) := delimited_cons (.inl (by decide))
  rintro (hstr | hnone)
  · obtain ⟨s, hs⟩ := Option.isSome_iff_exists.mp hstr
    rw [Json.text?_eq_some_iff.mp hs, dumps]
    exact harmless_str hname s
  · refine Clear.harmless (clear_append.mpr ⟨?_, ?_⟩)
    · exact (clear_dumps hfloat hname.2 hname.1 v _ hcomma).mpr hnone
    · exact (clear_cons_of_ne (by decide)).mpr clear_nil

theorem clear_field (field : Str × Json) (b : Bytes) :
    Clear (quoted name) (dumpsField floatText field ++ [44]) b ↔ ¬ Shadows name field.1 ∧ ¬ Mentions name field.2 := by
  have hcomma : Delimited ([44] ++ b) := delimited_cons (.inl (by decide))
  rw [clear_append, clear_dumpsField hname.2 hname.1 field (clear_dumps hfloat hname.2 hname.1 field.2) _ hcomma,
    clear_cons_of_ne (by decide), and_iff_left clear_nil]

theorem harmless_fieldsText {fields : Fields} (hloud : ∀ field ∈ fields.getLast?, Loud floatText name field.2)
    (b : Bytes) : Harmless (quoted name) (fieldsText floatText fields) b ↔ Quiet name fields := by
  induction fields with
  | nil => exact ⟨fun _ => trivial, fun _ => harmless_nil⟩
  | cons field fields ih =>
    obtain ⟨k, v⟩ := field
    cases fields with
    | nil =>
      have hcolon : Delimited (58 :: (dumps floatText v ++ [44]) ++ b) := delimited_cons (.inl (by decide))
      have htext : fieldsText floatText [(k, v)] = quoted k ++ 58 :: (dumps floatText v ++ [44]) := by
        simp [fieldsText, dumpsField]
      rw [htext, harmless_append List.mem_cons_self, clear_quoted hname.2 hname.1 hcolon,
        harmless_cons_of_ne (by decide), harmless_last hfloat hname (hloud (k, v) rfl) b, Quiet]
    | cons field fields =>
      have hmem : (58 : UInt8) ∈ fieldsText floatText (field :: fields) := by
        simp [fieldsText, dumpsField]
      have hnext := ih (by rwa [List.getLast?_cons_cons] at hloud)
      have htext : fieldsText floatText ((k, v) :: field :: fields) =
          dumpsField floatText (k, v) ++ [44] ++ fieldsText floatText (field :: fields) := List.flatMap_cons
      rw [htext, harmless_append hmem, clear_field hfloat hname, hnext, Quiet, and_assoc]

/-- **Which field is found**: the field itself, exactly when no string ahead of it shadows its name. -/
theorem valueStart_field_iff {fields : Fields} {v : Json} (hv : Assoc.find? fields name = some v)
    (hloud : ∀ field ∈ (ahead name fields).getLast?, Loud floatText name field.2) :
    valueStart (dumps floatText (.obj fields)) (utf8 name) = .ok (ownPosition floatText name fields) ↔
      Unshadowed name fields := by
  obtain ⟨d, rest, -, htext⟩ := dumps_split floatText hv
  obtain ⟨a, e, hend, he⟩ := fieldsText_end floatText (ahead name fields)
  have he' : e ∉ quoted name := fun hmem => by
    rcases toNat_of_mem_quoted hname hmem with h | h <;> rcases he with rfl | rfl <;> revert h <;> decide
  rw [ownPosition, ← needleOf_utf8 hname, hend]
  rw [hend, ← needleOf_utf8 hname] at htext
  rw [valueStart_own_iff (needleOf_utf8 hname ▸ he') (needleOf_utf8 hname ▸ colon_notMem_quoted hname)
    (dumps_head hfloat v _) htext, ← hend, needleOf_utf8 hname, harmless_cons_of_ne (by decide),
    harmless_fieldsText hfloat hname hloud]
  rfl

omit hfloat hname in
theorem loud_of_not_mentions {v : Json} (h : ¬ Mentions name v) : Loud floatText name v := fun _ _ => .inr h

omit hfloat hname in
theorem loud_of_flat {v : Json} (h : Flat v) : Loud floatText name v := by
  intro b _
  cases v with
  | str s => exact .inl rfl
  | arr items => exact h.elim
  | obj fields => exact h.elim
  | _ => exact .inr fun ⟨s, hs, _⟩ => absurd hs List.not_mem_nil

/-- Objects whose last fields are silent: behind every string before these stands a colon. -/
theorem loud_objects {α : Type} (fields : α → Fields) (items : List α)
    (h : ∀ item ∈ items.getLast?, ∃ before field, fields item = before ++ [field] ∧ ¬ Shadows name field.1 ∧
      ¬ Mentions name field.2) : Loud floatText name (Json.objects fields items) := by
  intro b hharmless
  right
  rcases List.eq_nil_or_concat items with rfl | ⟨items, item, rfl⟩
  · simp [Json.objects, mentions_arr_iff]
  · obtain ⟨before, field, hfields, hkey, hvalue⟩ := h item (by simp)
    have htext : dumps floatText (Json.objects fields (items.concat item)) ++ [44] =
        91 :: (((items.map fields).map .obj).map (dumps floatText)).flatMap (fun t => t ++ [44]) ++
          123 :: (before.map (dumpsField floatText)).flatMap (fun t => t ++ [44]) ++
          (dumpsField floatText field ++ [125, 93, 44]) := by
      rw [Json.objects, dumps_arr, List.concat_eq_append, List.map_append, List.map_append, List.map_append,
        List.map_singleton, List.map_singleton, List.map_singleton, commaJoin_split, hfields, dumps_obj,
        List.map_append, List.map_singleton, commaJoin_split]
      simp only [List.flatMap_nil, List.append_nil, List.append_assoc, List.cons_append, List.nil_append]
    have hclosing : Delimited ([125, 93, 44] ++ b) := delimited_cons (.inr (by decide))
    have hcomma : Delimited ([44] ++ b) := delimited_cons (.inl (by decide))
    have hcolon : (58 : UInt8) ∈ dumpsField floatText field ++ [125, 93, 44] := by simp [dumpsField]
    have hend : Clear (quoted name) (dumpsField floatText field ++ [125, 93, 44]) b := by
      rw [clear_append, clear_dumpsField hname.2 hname.1 field (clear_dumps hfloat hname.2 hname.1 field.2) _ hclosing]
      exact ⟨⟨hkey, hvalue⟩, clear_of_notMem (by decide)⟩
    have hclear : Clear (quoted name) (dumps floatText (Json.objects fields (items.concat item)) ++ [44]) b := by
      rw [htext] at hharmless ⊢
      exact (harmless_of_clear_end hcolon hend).mp hharmless
    exact (clear_dumps hfloat hname.2 hname.1 _ _ hcomma).mp (clear_append.mp hclear).1

end Fields

end AfsimNs3.Adapter
