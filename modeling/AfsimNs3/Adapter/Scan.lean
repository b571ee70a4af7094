import AfsimNs3.Adapter.JsonFields
import AfsimNs3.Lib.Grammar

/-!
# Containers in a JSON text

`Skips`: inside a container the scan of `MatchingEnd` passes over a text and is at the same depth again. The text of
every value is so (`skips_dumps`), so `MatchingEnd` finds the end of a container (`matchingEnd_eq`) and `ObjectArray`
the texts of the objects of an array (`objectsFrom_eq`).
-/

namespace AfsimNs3.Adapter
open Grammar

/-- The two kinds of containers. -/
def Brackets (opening closing : UInt8) : Prop := opening = 91 ∧ closing = 93 ∨ opening = 123 ∧ closing = 125

section Scan
variable {opening closing : UInt8}

/-- Inside a container the scan passes over the text. -/
def Skips (opening closing : UInt8) (text : Bytes) : Prop :=
  ∀ (position : ℕ) (depth : ℤ) (rest : Bytes), 1 ≤ depth →
    scanEnd opening closing position depth false false (text ++ rest) =
      scanEnd opening closing (position + text.length) depth false false rest

/-- Inside a string the scan passes over the text. -/
def SkipsInString (opening closing : UInt8) (text : Bytes) : Prop :=
  ∀ (position : ℕ) (depth : ℤ) (rest : Bytes),
    scanEnd opening closing position depth true false (text ++ rest) =
      scanEnd opening closing (position + text.length) depth true false rest

theorem SkipsInString.append {a b : Bytes} (ha : SkipsInString opening closing a)
    (hb : SkipsInString opening closing b) : SkipsInString opening closing (a ++ b) := by
  intro position depth rest
  rw [List.append_assoc, ha, hb, List.length_append, Nat.add_assoc]

theorem skipsInString_of_plain {text : Bytes} (h : ∀ c ∈ text, c ≠ 34 ∧ c ≠ 92) :
    SkipsInString opening closing text := by
  induction text with
  | nil => exact fun _ _ _ => rfl
  | cons c text ih =>
    rw [List.forall_mem_cons] at h
    intro position depth rest
    rw [List.cons_append, scanEnd, if_pos rfl, if_neg Bool.false_ne_true, if_neg h.1.2, if_neg h.1.1, ih h.2,
      List.length_cons, Nat.add_right_comm, Nat.add_assoc]

/-- Whatever follows a backslash is passed over. -/
theorem skipsInString_backslash (d : UInt8) : SkipsInString opening closing [92, d] := by
  intro position depth rest
  rw [List.cons_append, List.cons_append, scanEnd, if_pos rfl, if_neg Bool.false_ne_true, if_pos rfl, scanEnd,
    if_pos rfl, if_pos rfl]
  rfl

theorem plain_controlEscape : ∀ n < 32, ∀ c ∈ (controlEscape n).drop 2, c ≠ 34 ∧ c ≠ 92 := by
  have hall : ∀ n < 32, ((controlEscape n).drop 2).all (fun c => decide (c ≠ 34 ∧ c ≠ 92)) = true := by decide
  exact fun n hn => forall_of_all (hall n hn)

/-- No octet of a plain character is a quote or a backslash. -/
theorem plain_utf8Char {c : CodePoint} (hquote : c.val ≠ 34) (hback : c.val ≠ 92) :
    ∀ d ∈ utf8Char c, d ≠ 34 ∧ d ≠ 92 := by
  rcases toNat_utf8Char c with ⟨hc, heq⟩ | hhigh
  · rw [heq, List.forall_mem_singleton, Ne, Ne, UInt8.ext_iff, UInt8.ext_iff, UInt8.toNat_ofNat',
      Nat.mod_eq_of_lt (by omega)]
    exact ⟨hquote, hback⟩
  · intro d hd
    have := hhigh d hd
    constructor
    · rintro rfl
      exact absurd this (by decide)
    · rintro rfl
      exact absurd this (by decide)

theorem skipsInString_escapeChar (c : CodePoint) : SkipsInString opening closing (escapeChar c) := by
  have hform := escaped c
  generalize escapeChar c = text at hform ⊢
  cases hform with
  | short d => exact skipsInString_backslash d
  | control h => exact (skipsInString_backslash 117).append (skipsInString_of_plain (plain_controlEscape c.val h))
  | plain h hquote hback => exact skipsInString_of_plain (plain_utf8Char hquote hback)

theorem skipsInString_escape (s : Str) : SkipsInString opening closing (escape s) := by
  induction s with
  | nil => exact fun _ _ _ => rfl
  | cons c s ih =>
    rw [escape, List.flatMap_cons]
    exact (skipsInString_escapeChar c).append ih

theorem skips_nil : Skips opening closing [] := fun _ _ _ _ => rfl

theorem Skips.append {a b : Bytes} (ha : Skips opening closing a) (hb : Skips opening closing b) :
    Skips opening closing (a ++ b) := by
  intro position depth rest hdepth
  rw [List.append_assoc, ha _ _ _ hdepth, hb _ _ _ hdepth, List.length_append, Nat.add_assoc]

theorem skips_singleton {c : UInt8} (hquote : c ≠ 34) (hopening : c ≠ opening) (hclosing : c ≠ closing) :
    Skips opening closing [c] := by
  intro position depth rest _
  rw [List.singleton_append, scanEnd, if_neg Bool.false_ne_true, if_neg hquote, if_neg hopening, if_neg hclosing]
  rfl

variable (hbrackets : Brackets opening closing)
include hbrackets

theorem skips_scalar {text : Bytes} (h : ∀ c ∈ text, isScalar c = true) : Skips opening closing text := by
  induction text with
  | nil => exact skips_nil
  | cons c text ih =>
    rw [List.forall_mem_cons] at h
    have hne : ∀ d, isScalar d = false → c ≠ d := fun d hd hc => by
      rw [← hc, h.1] at hd
      exact Bool.noConfusion hd
    refine (skips_singleton (hne 34 rfl) (hne _ ?_) (hne _ ?_)).append (ih h.2)
    · rcases hbrackets with ⟨rfl, -⟩ | ⟨rfl, -⟩ <;> rfl
    · rcases hbrackets with ⟨-, rfl⟩ | ⟨-, rfl⟩ <;> rfl

/-- A string. -/
theorem skips_string {body : Bytes} (hbody : SkipsInString opening closing body) :
    Skips opening closing (34 :: (body ++ [34])) := by
  have hne : (34 : UInt8) ≠ opening ∧ (34 : UInt8) ≠ closing := by
    rcases hbrackets with ⟨rfl, rfl⟩ | ⟨rfl, rfl⟩ <;> decide
  intro position depth rest _
  rw [List.cons_append, List.append_assoc, scanEnd, if_neg Bool.false_ne_true, if_pos rfl, hbody,
    List.singleton_append, scanEnd, if_pos rfl, if_neg Bool.false_ne_true, if_neg (by decide), if_pos rfl]
  congr 1
  simp only [List.length_cons, List.length_append, List.length_nil]
  omega

theorem skips_quoted (s : Str) : Skips opening closing (quoted s) := skips_string hbrackets (skipsInString_escape s)

/-- A container of either kind. -/
theorem skips_container {c d : UInt8} (hcd : Brackets c d) {inner : Bytes} (hinner : Skips opening closing inner) :
    Skips opening closing (c :: (inner ++ [d])) := by
  by_cases hsame : c = opening
  · have hd : d = closing := by
      rcases hbrackets with ⟨rfl, rfl⟩ | ⟨rfl, rfl⟩ <;> rcases hcd with ⟨rfl, rfl⟩ | ⟨rfl, rfl⟩ <;>
        first | rfl | exact absurd hsame (by decide)
    subst hsame hd
    have hne : c ≠ 34 ∧ d ≠ 34 ∧ d ≠ c := by rcases hcd with ⟨rfl, rfl⟩ | ⟨rfl, rfl⟩ <;> decide
    intro position depth rest hdepth
    rw [List.cons_append, List.append_assoc, scanEnd, if_neg Bool.false_ne_true, if_neg hne.1, if_pos rfl,
      hinner _ _ _ (by omega), List.singleton_append, scanEnd, if_neg Bool.false_ne_true, if_neg hne.2.1,
      if_neg hne.2.2, if_pos rfl, if_neg (by omega), Int.add_sub_cancel]
    congr 1
    simp only [List.length_cons, List.length_append, List.length_nil]
    omega
  · have hne : (c ≠ 34 ∧ c ≠ closing) ∧ d ≠ 34 ∧ d ≠ opening ∧ d ≠ closing := by
      rcases hbrackets with ⟨rfl, rfl⟩ | ⟨rfl, rfl⟩ <;> rcases hcd with ⟨rfl, rfl⟩ | ⟨rfl, rfl⟩ <;>
        first | exact absurd rfl hsame | decide
    exact (skips_singleton hne.1.1 hsame hne.1.2).append
      (hinner.append (skips_singleton hne.2.1 hne.2.2.1 hne.2.2.2))

theorem skips_comma : Skips opening closing [44] := by
  have hne : (44 : UInt8) ≠ opening ∧ (44 : UInt8) ≠ closing := by
    rcases hbrackets with ⟨rfl, rfl⟩ | ⟨rfl, rfl⟩ <;> decide
  exact skips_singleton (by decide) hne.1 hne.2

theorem skips_commaJoin {texts : List Bytes} (h : ∀ text ∈ texts, Skips opening closing text) :
    Skips opening closing (commaJoin texts) := by
  induction texts with
  | nil => exact skips_nil
  | cons text texts ih =>
    rw [List.forall_mem_cons] at h
    cases texts with
    | nil =>
      rw [commaJoin_singleton]
      exact h.1
    | cons text' texts =>
      rw [commaJoin_cons_cons]
      exact h.1.append ((skips_comma hbrackets).append (ih h.2))

/-- **Every value** is passed over. -/
theorem skips_dumps {floatText : ℚ → Bytes} (hfloat : NumberText floatText) (v : Json) :
    Skips opening closing (dumps floatText v) := by
  induction v using Json.ind with
  | null =>
    rw [dumps]
    exact skips_scalar hbrackets (forall_of_all (by decide))
  | bool b =>
    cases b <;> rw [dumps] <;> exact skips_scalar hbrackets (forall_of_all (by decide))
  | int n =>
    rw [dumps]
    exact skips_scalar hbrackets (isScalar_intBytes n)
  | float x =>
    rw [dumps]
    exact skips_scalar hbrackets (isScalar_floatBytes hfloat x)
  | str s =>
    rw [dumps]
    exact skips_quoted hbrackets s
  | arr items ih =>
    rw [dumps_arr]
    exact skips_container hbrackets (.inl ⟨rfl, rfl⟩) (skips_commaJoin hbrackets (List.forall_mem_map.mpr ih))
  | obj fields ih =>
    have hcolon : (58 : UInt8) ≠ opening ∧ (58 : UInt8) ≠ closing := by
      rcases hbrackets with ⟨rfl, rfl⟩ | ⟨rfl, rfl⟩ <;> decide
    rw [dumps_obj]
    refine skips_container hbrackets (.inr ⟨rfl, rfl⟩) (skips_commaJoin hbrackets (List.forall_mem_map.mpr ?_))
    intro field hfield
    exact (skips_quoted hbrackets field.1).append
      ((skips_singleton (by decide) hcolon.1 hcolon.2).append (ih field hfield))

/-- **The end of a container.** -/
theorem matchingEnd_eq {json a inner rest : Bytes} (hinner : Skips opening closing inner)
    (hjson : json = a ++ (opening :: (inner ++ closing :: rest))) :
    matchingEnd json a.length opening closing = .ok (a.length + 1 + inner.length) := by
  have hne : opening ≠ 34 ∧ closing ≠ 34 ∧ closing ≠ opening := by
    rcases hbrackets with ⟨rfl, rfl⟩ | ⟨rfl, rfl⟩ <;> decide
  rw [matchingEnd, hjson, List.drop_left, scanEnd, if_neg Bool.false_ne_true, if_neg hne.1, if_pos rfl,
    hinner _ _ _ (by omega), scanEnd, if_neg Bool.false_ne_true, if_neg hne.2.1, if_neg hne.2.2, if_pos rfl,
    if_pos (by omega)]

end Scan

/-! ## Arrays of objects -/

/-- The text of an object. -/
def ObjectText (text : Bytes) : Prop := ∃ inner, text = 123 :: (inner ++ [125]) ∧ Skips 123 125 inner

theorem objectText_dumps {floatText : ℚ → Bytes} (hfloat : NumberText floatText) (fields : Fields) :
    ObjectText (dumps floatText (.obj fields)) := by
  have hbrackets : Brackets 123 125 := .inr ⟨rfl, rfl⟩
  have hcolon : Skips 123 125 [58] := skips_singleton (by decide) (by decide) (by decide)
  refine ⟨_, dumps_obj floatText fields, skips_commaJoin hbrackets (List.forall_mem_map.mpr ?_)⟩
  intro field _
  exact (skips_quoted hbrackets field.1).append (hcolon.append (skips_dumps hbrackets hfloat field.2))

/-- Octets between objects. -/
def Gap (text : Bytes) : Prop := ∀ c ∈ text, isGap c = true

/-- Texts with gaps before them, and a gap after the last. -/
def spread (pieces : List (Bytes × Bytes)) (last : Bytes) : Bytes :=
  pieces.flatMap (fun piece => piece.1 ++ piece.2) ++ last

theorem spread_cons (piece : Bytes × Bytes) (pieces : List (Bytes × Bytes)) (last : Bytes) :
    spread (piece :: pieces) last = piece.1 ++ (piece.2 ++ spread pieces last) := by
  unfold spread
  rw [List.flatMap_cons, List.append_assoc, List.append_assoc]

structure Pieces (pieces : List (Bytes × Bytes)) (last : Bytes) : Prop where
  gaps : ∀ piece ∈ pieces, Gap piece.1
  last : Gap last
  objects : ∀ piece ∈ pieces, ObjectText piece.2

/-- The loop of `ObjectArray`, at the end of `a`. -/
theorem objectsFrom_eq {json key rest last : Bytes} {pieces : List (Bytes × Bytes)} (hpieces : Pieces pieces last)
    {a : Bytes} (hjson : json = a ++ (spread pieces last ++ 93 :: rest)) {fuel : ℕ} (hfuel : pieces.length < fuel) :
    objectsFrom json key (a ++ spread pieces last).length fuel a.length = .ok (pieces.map Prod.snd) := by
  induction pieces generalizing a fuel with
  | nil =>
    obtain ⟨fuel, rfl⟩ : ∃ n, fuel = n + 1 := ⟨fuel - 1, by omega⟩
    have hspread : spread [] last = last := rfl
    have hskip : ((json.drop a.length).take ((a ++ last).length - a.length)).takeWhile isGap = last := by
      rw [hjson, hspread, List.drop_left, List.length_append, Nat.add_sub_cancel_left, List.take_left,
        List.takeWhile_eq_self_iff.mpr hpieces.last]
    rw [hspread, objectsFrom]
    split_ifs
    · rfl
    · dsimp only
      rw [hskip, if_pos List.length_append.symm]
      rfl
  | cons piece pieces ih =>
    obtain ⟨fuel, rfl⟩ : ∃ n, fuel = n + 1 := ⟨fuel - 1, by omega⟩
    obtain ⟨hgap, hgaps⟩ := List.forall_mem_cons.mp hpieces.gaps
    obtain ⟨htext, htexts⟩ := List.forall_mem_cons.mp hpieces.objects
    rcases piece with ⟨gap, text⟩
    obtain ⟨inner, htext, hinner⟩ := htext
    dsimp only at hgap htext
    rw [spread_cons] at hjson ⊢
    dsimp only at hjson ⊢
    have hplace : json = a ++ gap ++ (123 :: (inner ++ 125 :: (spread pieces last ++ 93 :: rest))) := by
      rw [hjson, htext]
      simp only [List.append_assoc, List.cons_append, List.nil_append]
    have hend : (a ++ (gap ++ (text ++ spread pieces last))).length = (a ++ gap ++ text ++ spread pieces last).length := by
      simp only [List.append_assoc]
    have hlong : a.length + gap.length + 2 ≤ (a ++ (gap ++ (text ++ spread pieces last))).length := by
      rw [htext]
      simp only [List.length_append, List.length_cons]
      omega
    have hskip : ((json.drop a.length).take
        ((a ++ (gap ++ (text ++ spread pieces last))).length - a.length)).takeWhile isGap = gap := by
      rw [hjson, List.drop_left, List.length_append, Nat.add_sub_cancel_left, List.take_left,
        List.takeWhile_append_of_pos hgap, htext, List.cons_append, List.takeWhile_cons_of_neg (by decide),
        List.append_nil]
    have hopen : json[a.length + gap.length]? = some 123 := by
      rw [hplace, ← List.length_append, List.getElem?_append_right (Nat.le_refl _), Nat.sub_self]
      rfl
    have hmatch : matchingEnd json (a.length + gap.length) 123 125 =
        .ok (a.length + gap.length + 1 + inner.length) := by
      have h := matchingEnd_eq (.inr ⟨rfl, rfl⟩) hinner hplace
      rwa [List.length_append] at h
    have hnext : a.length + gap.length + 1 + inner.length + 1 = (a ++ gap ++ text).length := by
      rw [htext]
      simp only [List.length_append, List.length_cons, List.length_nil]
      omega
    have htaken : (json.drop (a.length + gap.length)).take
        (a.length + gap.length + 1 + inner.length - (a.length + gap.length) + 1) = text := by
      have hlength : a.length + gap.length + 1 + inner.length - (a.length + gap.length) + 1 = text.length := by
        rw [htext]
        simp only [List.length_append, List.length_cons, List.length_nil]
        omega
      rw [hlength, hjson, ← List.length_append, List.append_assoc, List.append_assoc, ← List.append_assoc a,
        List.drop_left, List.take_left]
    have hrest : objectsFrom json key (a ++ (gap ++ (text ++ spread pieces last))).length fuel
        (a ++ gap ++ text).length = .ok (pieces.map Prod.snd) := by
      rw [hend]
      exact ih ⟨hgaps, hpieces.last, htexts⟩ (by rw [hjson]; simp only [List.append_assoc]) (by simpa using hfuel)
    rw [objectsFrom, if_neg (by omega)]
    dsimp only
    rw [hskip, if_neg (by omega), if_neg (not_not_intro hopen), hmatch, Except.ok_bind, hnext, hrest, Except.ok_bind,
      htaken]
    rfl

theorem Pieces.length_le {pieces : List (Bytes × Bytes)} {last : Bytes} (h : Pieces pieces last) :
    pieces.length ≤ (spread pieces last).length := by
  obtain ⟨-, -, objects⟩ := h
  induction pieces with
  | nil => exact Nat.zero_le _
  | cons piece pieces ih =>
    rw [List.forall_mem_cons] at objects
    obtain ⟨inner, htext, -⟩ := objects.1
    have hle := ih objects.2
    rw [spread_cons, htext]
    simp only [List.length_append, List.length_cons]
    omega

/-- `ObjectArray` on objects with gaps between them. -/
theorem objectArray_spread {json key a rest last : Bytes} {pieces : List (Bytes × Bytes)} (hpieces : Pieces pieces last)
    (hskips : Skips 91 93 (spread pieces last)) (hjson : json = a ++ (91 :: (spread pieces last ++ 93 :: rest)))
    (hfound : valueStart json key = .ok a.length) : objectArray json key = .ok (pieces.map Prod.snd) := by
  have hopen : json[a.length]? = some 91 := by
    rw [hjson, List.getElem?_append_right (Nat.le_refl _), Nat.sub_self]
    rfl
  have hmatch := matchingEnd_eq (.inl ⟨rfl, rfl⟩) hskips hjson
  have hfuel : pieces.length < json.length := by
    have hle := hpieces.length_le
    rw [hjson]
    simp only [List.length_append, List.length_cons]
    omega
  have hplace : json = a ++ [91] ++ (spread pieces last ++ 93 :: rest) := by
    rw [hjson]
    simp only [List.append_assoc, List.cons_append, List.nil_append]
  have hobjects : objectsFrom json key _ json.length _ = .ok (pieces.map Prod.snd) :=
    objectsFrom_eq hpieces hplace hfuel
  rw [objectArray, hfound, Except.ok_bind, if_neg (not_not_intro hopen), hmatch, Except.ok_bind]
  rwa [List.length_append, List.length_append, List.length_singleton] at hobjects

/-- Items with commas between them, after a gap. -/
theorem commaJoin_spread {gap : Bytes} (hgap : Gap gap) {slots : List Slot}
    (hslots : ∀ slot ∈ slots, Gap slot.before ∧ Gap slot.after ∧ ObjectText slot.text) :
    ∃ pieces last, gap ++ commaJoin (slots.map Slot.whole) = spread pieces last ∧ Pieces pieces last ∧
      pieces.map Prod.snd = slots.map Slot.text := by
  induction slots generalizing gap with
  | nil =>
    have hnil : gap ++ commaJoin ([].map Slot.whole) = spread [] gap := List.append_nil gap
    exact ⟨[], gap, hnil, ⟨List.forall_mem_nil _, hgap, List.forall_mem_nil _⟩, rfl⟩
  | cons slot slots ih =>
    obtain ⟨⟨hbefore, hafter, hobject⟩, hslots⟩ := List.forall_mem_cons.mp hslots
    have hcomma : Gap (slot.after ++ [44]) := List.forall_mem_append.mpr ⟨hafter, forall_of_all (by decide)⟩
    obtain ⟨next, hnext, hjoin⟩ : ∃ next, Gap next ∧ commaJoin ((slot :: slots).map Slot.whole) =
        slot.before ++ (slot.text ++ (next ++ commaJoin (slots.map Slot.whole))) := by
      rcases slots with _ | ⟨slot', slots⟩
      · refine ⟨slot.after, hafter, ?_⟩
        rw [List.map_singleton, commaJoin_singleton, Slot.whole, List.map_nil, commaJoin_nil, List.append_nil]
      · refine ⟨slot.after ++ [44], hcomma, ?_⟩
        rw [List.map_cons, List.map_cons, commaJoin_cons_cons, Slot.whole]
        simp only [List.append_assoc, List.cons_append, List.nil_append]
    obtain ⟨pieces, last, hspread, hpieces, htexts⟩ := ih hnext hslots
    refine ⟨(gap ++ slot.before, slot.text) :: pieces, last, ?_, ?_, ?_⟩
    · rw [spread_cons, hjoin, hspread, List.append_assoc]
    · refine ⟨List.forall_mem_cons.mpr ⟨?_, hpieces.gaps⟩, hpieces.last, List.forall_mem_cons.mpr ⟨hobject, hpieces.objects⟩⟩
      exact List.forall_mem_append.mpr ⟨hgap, hbefore⟩
    · rw [List.map_cons, List.map_cons, htexts]

/-- `ObjectArray` on objects with commas between them. -/
theorem objectArray_slots {json key a rest : Bytes} {slots : List Slot}
    (hslots : ∀ slot ∈ slots, Gap slot.before ∧ Gap slot.after ∧ ObjectText slot.text)
    (hskips : Skips 91 93 (commaJoin (slots.map Slot.whole)))
    (hjson : json = a ++ (91 :: (commaJoin (slots.map Slot.whole) ++ 93 :: rest)))
    (hfound : valueStart json key = .ok a.length) : objectArray json key = .ok (slots.map Slot.text) := by
  obtain ⟨pieces, last, hspread, hpieces, htexts⟩ := commaJoin_spread (List.forall_mem_nil _) hslots
  rw [List.nil_append] at hspread
  rw [hspread] at hskips hjson
  rw [← htexts]
  exact objectArray_spread hpieces hskips hjson hfound

/-- **The objects of an array**, wherever the array is found. -/
theorem objectArray_eq {floatText : ℚ → Bytes} (hfloat : NumberText floatText) {json key a rest : Bytes}
    (objects : List Fields) (hjson : json = a ++ (dumps floatText (.arr (objects.map .obj)) ++ rest))
    (hfound : valueStart json key = .ok a.length) :
    objectArray json key = .ok (objects.map (fun fields => dumps floatText (.obj fields))) := by
  let slotOf (fields : Fields) : Slot := ⟨[], dumps floatText (.obj fields), []⟩
  have hwhole : (objects.map slotOf).map Slot.whole = (objects.map Json.obj).map (dumps floatText) := by
    rw [List.map_map, List.map_map]
    exact List.map_congr_left fun fields _ => List.append_nil _
  have hslots : ∀ slot ∈ objects.map slotOf, Gap slot.before ∧ Gap slot.after ∧ ObjectText slot.text :=
    List.forall_mem_map.mpr fun fields _ =>
      ⟨List.forall_mem_nil _, List.forall_mem_nil _, objectText_dumps hfloat fields⟩
  have hskips : Skips 91 93 (commaJoin ((objects.map slotOf).map Slot.whole)) := by
    rw [hwhole]
    exact skips_commaJoin (.inl ⟨rfl, rfl⟩) (List.forall_mem_map.mpr fun v _ => skips_dumps (.inl ⟨rfl, rfl⟩) hfloat v)
  rw [dumps_arr, ← hwhole] at hjson
  simp only [List.cons_append, List.append_assoc, List.nil_append] at hjson
  have h := objectArray_slots hslots hskips hjson hfound
  rwa [List.map_map] at h

end AfsimNs3.Adapter
