import AfsimNs3.Adapter.Scan

/-!
# Arrays of objects, whatever their layout

The texts of the JSON grammar, with white space between their tokens and every escape in their strings, are passed over
by the scan of `MatchingEnd` (`skips_value`). So `MatchingEnd` gives the last octet of a container
(`matchingEnd_value`), and `ObjectArray` the texts of the objects of an array (`objectArray_text`).
-/

namespace AfsimNs3.Adapter
open Grammar

section
variable {opening closing : UInt8}

theorem skipsInString_char {char : Bytes} (h : CharText char) : SkipsInString opening closing char := by
  cases h with
  | plain _ hquote hback => exact skipsInString_of_plain (List.forall_mem_singleton.mpr ⟨hquote, hback⟩)
  | @short c _ => exact skipsInString_backslash c
  | @unit digits _ hdigits =>
    have hplain : ∀ c ∈ digits, c ≠ 34 ∧ c ≠ 92 := by
      intro c hc
      have hhex := hdigits c hc
      constructor <;> rintro rfl <;> exact absurd hhex (by decide)
    exact (skipsInString_backslash 117).append (skipsInString_of_plain hplain)

theorem skipsInString_chars {chars : List Bytes} (h : ∀ char ∈ chars, CharText char) :
    SkipsInString opening closing chars.flatten := by
  induction chars with
  | nil => exact fun _ _ _ => rfl
  | cons char chars ih =>
    rw [List.forall_mem_cons] at h
    rw [List.flatten_cons]
    exact (skipsInString_char h.1).append (ih h.2)

variable (hbrackets : Brackets opening closing)
include hbrackets

theorem skips_stringText {text : Bytes} (h : StringText text) : Skips opening closing text := by
  obtain ⟨chars⟩ := h
  exact skips_string hbrackets (skipsInString_chars chars)

theorem skips_blank {text : Bytes} (h : Blank text) : Skips opening closing text := by
  induction text with
  | nil => exact skips_nil
  | cons c text ih =>
    obtain ⟨hc, hrest⟩ := List.forall_mem_cons.mp h
    have hne : ∀ d, isBlank d = false → c ≠ d := by
      rintro d hd rfl
      rw [hc] at hd
      exact Bool.noConfusion hd
    refine (skips_singleton (hne 34 rfl) (hne _ ?_) (hne _ ?_)).append (ih hrest)
    · rcases hbrackets with ⟨rfl, -⟩ | ⟨rfl, -⟩ <;> rfl
    · rcases hbrackets with ⟨-, rfl⟩ | ⟨-, rfl⟩ <;> rfl

theorem skips_slot {slot : Slot} (hspaced : slot.Spaced) (htext : Skips opening closing slot.text) :
    Skips opening closing slot.whole :=
  (skips_blank hbrackets hspaced.before).append (htext.append (skips_blank hbrackets hspaced.after))

theorem skips_member {member : Member} (hnamed : member.Named) (hvalue : Skips opening closing member.value.text) :
    Skips opening closing member.whole := by
  have hcolon : (58 : UInt8) ≠ opening ∧ (58 : UInt8) ≠ closing := by
    rcases hbrackets with ⟨rfl, rfl⟩ | ⟨rfl, rfl⟩ <;> decide
  have hname := skips_slot hbrackets hnamed.name (skips_stringText hbrackets hnamed.text)
  exact hname.append ((skips_singleton (by decide) hcolon.1 hcolon.2).append
    (skips_slot hbrackets hnamed.value hvalue))

/-- What stands between the brackets of an array. -/
theorem skips_slots {slots : List Slot} (hspaced : ∀ slot ∈ slots, slot.Spaced)
    (htexts : ∀ slot ∈ slots, Skips opening closing slot.text) :
    Skips opening closing (commaJoin (slots.map Slot.whole)) :=
  skips_commaJoin hbrackets (List.forall_mem_map.mpr fun slot hslot =>
    skips_slot hbrackets (hspaced slot hslot) (htexts slot hslot))

/-- What stands between the brackets of an object. -/
theorem skips_members {members : List Member} (hnamed : ∀ member ∈ members, member.Named)
    (hvalues : ∀ member ∈ members, Skips opening closing member.value.text) :
    Skips opening closing (commaJoin (members.map Member.whole)) :=
  skips_commaJoin hbrackets (List.forall_mem_map.mpr fun member hmember =>
    skips_member hbrackets (hnamed member hmember) (hvalues member hmember))

/-- Every value of the grammar is passed over: by induction on how its text is made up. -/
theorem skips_value {text : Bytes} (h : ValueText text) : Skips opening closing text := by
  induction h with
  | keyword hkeyword =>
    simp only [List.mem_cons, List.not_mem_nil, or_false] at hkeyword
    rcases hkeyword with rfl | rfl | rfl <;> exact skips_scalar hbrackets (forall_of_all (by decide))
  | numeral hnumeral => exact skips_scalar hbrackets hnumeral.isScalar
  | string hstring => exact skips_stringText hbrackets hstring
  | emptyArray hblank => exact skips_container hbrackets (.inl ⟨rfl, rfl⟩) (skips_blank hbrackets hblank)
  | array hspaced _ ih => exact skips_container hbrackets (.inl ⟨rfl, rfl⟩) (skips_slots hbrackets hspaced ih)
  | emptyObject hblank => exact skips_container hbrackets (.inr ⟨rfl, rfl⟩) (skips_blank hbrackets hblank)
  | object hnamed _ ih => exact skips_container hbrackets (.inr ⟨rfl, rfl⟩) (skips_members hbrackets hnamed ih)

end

/-! ## The end of a container -/

/-- A container of the grammar, split at its brackets. -/
theorem container_inner {text : Bytes} (h : ValueText text) {opening closing : UInt8}
    (hbrackets : Brackets opening closing) (hopen : text.head? = some opening) :
    ∃ inner, text = opening :: (inner ++ [closing]) ∧ Skips opening closing inner := by
  have hscalar : isScalar opening = false := by rcases hbrackets with ⟨rfl, -⟩ | ⟨rfl, -⟩ <;> decide
  have hquote : opening ≠ 34 := by rcases hbrackets with ⟨rfl, -⟩ | ⟨rfl, -⟩ <;> decide
  have hbegins : ∀ {c : UInt8} {rest : Bytes}, text = c :: rest → c = opening := by
    intro c rest htext
    rw [htext] at hopen
    exact Option.some.inj hopen
  have hnot : ¬ ∀ c ∈ text, isScalar c = true := by
    intro hall
    rw [hall opening (List.mem_of_mem_head? hopen)] at hscalar
    exact Bool.noConfusion hscalar
  have harray : ∀ {inner : Bytes}, text = 91 :: (inner ++ [93]) → Skips opening closing inner →
      ∃ inner, text = opening :: (inner ++ [closing]) ∧ Skips opening closing inner := by
    intro inner htext hinner
    have hc := hbegins htext
    rcases hbrackets with ⟨rfl, rfl⟩ | ⟨rfl, rfl⟩
    · exact ⟨inner, htext, hinner⟩
    · exact absurd hc (by decide)
  have hobject : ∀ {inner : Bytes}, text = 123 :: (inner ++ [125]) → Skips opening closing inner →
      ∃ inner, text = opening :: (inner ++ [closing]) ∧ Skips opening closing inner := by
    intro inner htext hinner
    have hc := hbegins htext
    rcases hbrackets with ⟨rfl, rfl⟩ | ⟨rfl, rfl⟩
    · exact absurd hc (by decide)
    · exact ⟨inner, htext, hinner⟩
  cases h with
  | keyword hkeyword =>
    refine absurd ?_ hnot
    simp only [List.mem_cons, List.not_mem_nil, or_false] at hkeyword
    rcases hkeyword with rfl | rfl | rfl <;> exact forall_of_all (by decide)
  | numeral hnumeral => exact absurd hnumeral.isScalar hnot
  | string hstring =>
    obtain ⟨chars⟩ := hstring
    exact absurd (hbegins rfl).symm hquote
  | emptyArray hblank => exact harray rfl (skips_blank hbrackets hblank)
  | array hspaced hvalues =>
    exact harray rfl (skips_slots hbrackets hspaced fun slot hslot => skips_value hbrackets (hvalues slot hslot))
  | emptyObject hblank => exact hobject rfl (skips_blank hbrackets hblank)
  | object hnamed hvalues =>
    exact hobject rfl (skips_members hbrackets hnamed fun member hmember =>
      skips_value hbrackets (hvalues member hmember))

/-- `MatchingEnd` from the first octet of a container gives its last one. -/
theorem matchingEnd_value {json a text rest : Bytes} (h : ValueText text) {opening closing : UInt8}
    (hbrackets : Brackets opening closing) (hopen : text.head? = some opening) (hjson : json = a ++ (text ++ rest)) :
    matchingEnd json a.length opening closing = .ok (a.length + (text.length - 1)) := by
  obtain ⟨inner, htext, hinner⟩ := container_inner h hbrackets hopen
  have hplace : json = a ++ (opening :: (inner ++ closing :: rest)) := by
    rw [hjson, htext]
    simp only [List.cons_append, List.append_assoc, List.nil_append]
  have hlast : a.length + (text.length - 1) = a.length + 1 + inner.length := by
    rw [htext]
    simp only [List.length_cons, List.length_append, List.length_nil]
    omega
  rw [matchingEnd_eq hbrackets hinner hplace, hlast]

/-! ## The objects of an array -/

theorem gap_of_blank {text : Bytes} (h : Blank text) : Gap text := by
  intro c hc
  have hblank := h c hc
  simp only [isBlank, Bool.or_eq_true, decide_eq_true_eq] at hblank
  rcases hblank with ((rfl | rfl) | rfl) | rfl <;> decide

theorem objectText_value {text : Bytes} (h : IsObject text) : ObjectText text :=
  container_inner h.1 (.inr ⟨rfl, rfl⟩) h.2

/-- `EffectObjects`: the loops of `ObjectArray`, down to the texts of the errors. -/
def effectObjects (json : Bytes) : Except Bytes (List Bytes) := objectArray json (ascii "effects")

/-- `ObjectArray` gives the texts of the objects in order. -/
theorem objectArray_text {json key a text rest : Bytes} {texts : List Bytes} (h : ObjectsText text texts)
    (hjson : json = a ++ (text ++ rest)) (hfound : valueStart json key = .ok a.length) :
    objectArray json key = .ok texts := by
  cases h with
  | @empty blank hblank =>
    have hpieces : Pieces [] blank := ⟨List.forall_mem_nil _, gap_of_blank hblank, List.forall_mem_nil _⟩
    have hskips : Skips 91 93 (spread [] blank) := skips_blank (.inl ⟨rfl, rfl⟩) hblank
    have hplace : json = a ++ (91 :: (spread [] blank ++ 93 :: rest)) := by
      rw [hjson]
      simp only [List.cons_append, List.append_assoc, List.nil_append]
      rfl
    exact objectArray_spread hpieces hskips hplace hfound
  | @slots slots hspaced hobjects =>
    have hskips : Skips 91 93 (commaJoin (slots.map Slot.whole)) :=
      skips_slots (.inl ⟨rfl, rfl⟩) hspaced fun slot hslot => skips_value (.inl ⟨rfl, rfl⟩) (hobjects slot hslot).1
    have hplace : json = a ++ (91 :: (commaJoin (slots.map Slot.whole) ++ 93 :: rest)) := by
      rw [hjson]
      simp only [List.cons_append, List.append_assoc, List.nil_append]
    refine objectArray_slots ?_ hskips hplace hfound
    intro slot hslot
    have hblank := hspaced slot hslot
    exact ⟨gap_of_blank hblank.before, gap_of_blank hblank.after, objectText_value (hobjects slot hslot)⟩

end AfsimNs3.Adapter
