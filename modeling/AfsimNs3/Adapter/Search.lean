import AfsimNs3.Adapter.JsonFields
import AfsimNs3.Lib.Dumps

/-!
# What `ValueStart` finds in a JSON text

`Clear needle a b`: in the text `a ++ b` the needle starts nowhere in `a`. A quoted name starts in the text of a value
only where a string of the value is the name, or ends with a quote and the name (`Shadows`, `Mentions`,
`clear_dumps`).

`valueStart_own_iff`: the position found is the one of the field itself exactly when every earlier place where the
name starts has no colon behind it (`Harmless`).
-/

namespace AfsimNs3.Adapter

/-! ## Places where a needle starts -/

/-- The needle starts nowhere in `a`, as the beginning of `a ++ b`. -/
def Clear (needle a b : Bytes) : Prop := ∀ s, s ≠ [] → s <:+ a → ¬ needle <+: s ++ b

theorem suffix_append_cases {s a a' : Bytes} (h : s <:+ a ++ a') :
    s <:+ a' ∨ ∃ s', s' ≠ [] ∧ s' <:+ a ∧ s = s' ++ a' := by
  rcases List.suffix_or_suffix_of_suffix h (List.suffix_append a a') with hs | ⟨s', rfl⟩
  · exact .inl hs
  · by_cases hne : s' = []
    · exact .inl (hne ▸ List.suffix_refl _)
    · exact .inr ⟨s', hne, List.suffix_append_self_iff.mp h, rfl⟩

section Clear
variable {needle a a' b : Bytes}

theorem clear_nil : Clear needle [] b := fun _ hne hs => absurd (List.suffix_nil.mp hs) hne

theorem clear_cons {c : UInt8} : Clear needle (c :: a) b ↔ ¬ needle <+: c :: a ++ b ∧ Clear needle a b := by
  constructor
  · intro h
    exact ⟨h _ (List.cons_ne_nil _ _) (List.suffix_refl _), fun s hne hs => h s hne (hs.trans (List.suffix_cons _ _))⟩
  · rintro ⟨hfirst, hrest⟩ s hne hs
    rcases List.suffix_cons_iff.mp hs with rfl | hs
    · exact hfirst
    · exact hrest s hne hs

theorem clear_append : Clear needle (a ++ a') b ↔ Clear needle a (a' ++ b) ∧ Clear needle a' b := by
  induction a with
  | nil => exact ⟨fun h => ⟨clear_nil, h⟩, And.right⟩
  | cons c a ih => rw [List.cons_append, clear_cons, ih, clear_cons, ← and_assoc, List.cons_append, List.append_assoc,
      ← List.cons_append]

theorem clear_of_notMem {q : UInt8} {rest : Bytes} (h : q ∉ a) : Clear (q :: rest) a b := by
  intro s hne hs hpre
  cases s with
  | nil => exact hne rfl
  | cons c s =>
    rw [List.cons_append, List.cons_prefix_cons] at hpre
    exact h (hpre.1 ▸ hs.subset List.mem_cons_self)

/-- The first place where a needle starts. -/
theorem exists_first {s : Bytes} (hne : s ≠ []) (hs : s <:+ a) (hpre : needle <+: s ++ b) :
    ∃ x t, a = x ++ t ∧ t ≠ [] ∧ needle <+: t ++ b ∧ Clear needle x (t ++ b) ∧ s <:+ t := by
  induction a with
  | nil => exact absurd (List.suffix_nil.mp hs) hne
  | cons c a ih =>
    by_cases hfirst : needle <+: c :: a ++ b
    · exact ⟨[], c :: a, rfl, List.cons_ne_nil _ _, hfirst, clear_nil, hs⟩
    · rcases List.suffix_cons_iff.mp hs with rfl | hs
      · exact absurd hpre hfirst
      · obtain ⟨x, t, rfl, ht, hpre, hclear, hst⟩ := ih hs
        refine ⟨c :: x, t, rfl, ht, hpre, clear_cons.mpr ⟨?_, hclear⟩, hst⟩
        rwa [List.cons_append, List.append_assoc, ← List.cons_append] at hfirst

theorem indexOf_of_clear (h : Clear needle a b) (hpre : needle <+: b) : indexOf needle (a ++ b) = some a.length := by
  induction a with
  | nil =>
    rw [List.nil_append]
    cases b with
    | nil => rw [indexOf, if_pos (List.prefix_nil.mp hpre)]; rfl
    | cons c b => rw [indexOf, if_pos (List.isPrefixOf_iff_prefix.mpr hpre)]; rfl
  | cons c a ih =>
    obtain ⟨hfirst, hrest⟩ := clear_cons.mp h
    have hnot : ¬ needle.isPrefixOf (c :: (a ++ b)) = true := fun hp => hfirst (List.isPrefixOf_iff_prefix.mp hp)
    rw [List.cons_append, indexOf, if_neg hnot, ih hrest]
    rfl

end Clear

/-! ## Names and strings -/

/-- A text like the names of fields: small letters and underscores. -/
def FieldName (name : Str) : Prop := name ≠ [] ∧ ∀ c ∈ name, 95 ≤ c.val ∧ c.val ≤ 122

-- Not by the instance for quantifiers over `Fin`, which would go through all code points.
instance (name : Str) : Decidable (FieldName name) :=
  have := List.decidableBAll (fun c : CodePoint => 95 ≤ c.val ∧ c.val ≤ 122) name
  inferInstanceAs (Decidable (_ ∧ _))

/-- A string in whose text the quoted name starts. -/
def Shadows (name s : Str) : Prop := s = name ∨ (34 : CodePoint) :: name <:+ s

instance (name s : Str) : Decidable (Shadows name s) := inferInstanceAs (Decidable (_ ∨ _))

/-- A string of the value shadows the name. -/
def Mentions (name : Str) (v : Json) : Prop := ∃ s ∈ v.strings, Shadows name s

instance (name : Str) (v : Json) : Decidable (Mentions name v) := inferInstanceAs (Decidable (∃ s ∈ v.strings, _))

theorem mentions_str_iff {name s : Str} : Mentions name (.str s) ↔ Shadows name s := by
  simp only [Mentions, Json.strings, List.mem_singleton, exists_eq_left]

theorem mentions_arr_iff {name : Str} {items : List Json} :
    Mentions name (.arr items) ↔ ∃ v ∈ items, Mentions name v := by
  simp only [Mentions, Json.strings_arr, List.mem_flatMap]
  exact ⟨fun ⟨s, ⟨v, hv, hs⟩, h⟩ => ⟨v, hv, s, hs, h⟩, fun ⟨v, hv, s, hs, h⟩ => ⟨s, ⟨v, hv, hs⟩, h⟩⟩

theorem mentions_obj_iff {name : Str} {fields : Fields} :
    Mentions name (.obj fields) ↔ ∃ field ∈ fields, Shadows name field.1 ∨ Mentions name field.2 := by
  simp only [Mentions, Json.strings_obj, List.mem_flatMap, List.mem_cons]
  constructor
  · rintro ⟨s, ⟨field, hfield, rfl | hs⟩, h⟩
    · exact ⟨field, hfield, .inl h⟩
    · exact ⟨field, hfield, .inr ⟨s, hs, h⟩⟩
  · rintro ⟨field, hfield, h | ⟨s, hs, h⟩⟩
    · exact ⟨field.1, ⟨field, hfield, .inl rfl⟩, h⟩
    · exact ⟨s, ⟨field, hfield, .inr hs⟩, h⟩

/-- The text does not begin like a field name. -/
def Delimited (b : Bytes) : Prop := ∀ c ∈ b.head?, c.toNat < 95 ∨ 122 < c.toNat

theorem delimited_cons {c : UInt8} {b : Bytes} (h : c.toNat < 95 ∨ 122 < c.toNat) : Delimited (c :: b) := by
  intro d hd
  rwa [← Option.some.inj hd]

/-- The octets of a plain character, none of which is ASCII unless the character is. -/
theorem mem_utf8Char {c : CodePoint} {d : UInt8} (h : d ∈ utf8Char c) : d.toNat = c.val ∨ 128 ≤ d.toNat := by
  rcases toNat_utf8Char c with ⟨hc, heq⟩ | hhigh
  · rw [heq, List.mem_singleton] at h
    rw [h, UInt8.toNat_ofNat', Nat.mod_eq_of_lt (by omega)]
    exact .inl rfl
  · exact .inr (hhigh d h)

theorem escapeChar_of_letter {c : CodePoint} (h : 95 ≤ c.val ∧ c.val ≤ 122) : escapeChar c = [UInt8.ofNat c.val] := by
  rw [← utf8Char_of_lt (by omega)]
  unfold escapeChar
  simp only [show ¬ c.val = 34 by omega, show ¬ c.val = 92 by omega, show ¬ c.val = 8 by omega,
    show ¬ c.val = 12 by omega, show ¬ c.val = 10 by omega, show ¬ c.val = 13 by omega, show ¬ c.val = 9 by omega,
    show ¬ c.val < 32 by omega, if_false]

/-- The text of a character begins with a letter only if the character is that letter, and never with a quote. -/
theorem escapeChar_head (c : CodePoint) :
    ∃ d rest, escapeChar c = d :: rest ∧ d ≠ 34 ∧ (95 ≤ d.toNat ∧ d.toNat ≤ 122 → d.toNat = c.val) := by
  have hform := escaped c
  generalize escapeChar c = text at hform ⊢
  cases hform with
  | short d => exact ⟨92, [d], rfl, by decide, fun h => absurd h (by decide)⟩
  | control => exact ⟨92, _, rfl, by decide, fun h => absurd h (by decide)⟩
  | plain h hquote hback =>
    cases heq : utf8Char c with
    | nil => exact absurd heq (utf8Char_ne_nil c)
    | cons d rest =>
      have hd := mem_utf8Char (heq ▸ List.mem_cons_self : d ∈ utf8Char c)
      refine ⟨d, rest, rfl, ?_, fun hletter => hd.resolve_right (by omega)⟩
      rintro rfl
      have h34 : (34 : UInt8).toNat = 34 := rfl
      omega

theorem quote_notMem_controlEscape : ∀ n < 32, (34 : UInt8) ∉ controlEscape n := by decide

/-- Apart from the quote itself, no character has a quote in its text. -/
theorem quote_notMem_escapeChar {c : CodePoint} (h : c ≠ 34) : (34 : UInt8) ∉ escapeChar c := by
  have hval : c.val ≠ 34 := fun hval => h (Fin.ext hval)
  have hform := escaped c
  generalize escapeChar c = text at hform ⊢
  cases hform with
  | short d hd =>
    have hquote : ∀ e ∈ shortEscapes, 34 = e.1 → e.2 = 34 := by decide
    rw [List.mem_cons, List.mem_singleton, not_or]
    exact ⟨by decide, fun h => hval (hquote _ hd h)⟩
  | control hc => exact quote_notMem_controlEscape c.val hc
  | plain hc =>
    intro hmem
    have h34 : (34 : UInt8).toNat = 34 := rfl
    rcases mem_utf8Char hmem with h | h <;> omega

theorem escapeChar_quote : escapeChar 34 = [92, 34] := by decide

/-! ## A quoted name in the text of a string -/

section Strings
variable {name : Str} (hname : ∀ c ∈ name, 95 ≤ c.val ∧ c.val ≤ 122)
include hname

/-- Behind a quote, the name and a quote follow only if the string that starts there is the name. -/
theorem prefix_escape_iff (s : Str) (b : Bytes) : escape name ++ [34] <+: escape s ++ 34 :: b ↔ s = name := by
  induction s generalizing name with
  | nil =>
    cases name with
    | nil => simp [escape]
    | cons k name =>
      rw [List.forall_mem_cons] at hname
      simp only [escape, List.flatMap_nil, List.nil_append, List.flatMap_cons, escapeChar_of_letter hname.1,
        List.cons_append, List.cons_prefix_cons, reduceCtorEq, iff_false, not_and]
      intro h
      have := congrArg UInt8.toNat h
      rw [UInt8.toNat_ofNat', Nat.mod_eq_of_lt (by omega)] at this
      have h34 : (34 : UInt8).toNat = 34 := rfl
      omega
  | cons c s ih =>
    obtain ⟨d, rest, hescape, hquote, hletter⟩ := escapeChar_head c
    cases name with
    | nil =>
      simp only [escape, List.flatMap_nil, List.nil_append, List.flatMap_cons, hescape, List.cons_append,
        List.cons_prefix_cons, reduceCtorEq, iff_false, not_and]
      exact fun h => absurd h.symm hquote
    | cons k name =>
      rw [List.forall_mem_cons] at hname
      by_cases hk : c = k
      · subst hk
        have htail := ih hname.2
        simp only [escape, List.flatMap_cons, escapeChar_of_letter hname.1, List.cons_append, List.nil_append,
          List.cons_prefix_cons, true_and, List.cons.injEq] at htail ⊢
        exact htail
      · simp only [escape, List.flatMap_cons, escapeChar_of_letter hname.1, hescape, List.cons_append,
          List.cons_prefix_cons, List.cons.injEq, hk, false_and, iff_false, not_and]
        intro h
        have hval := congrArg UInt8.toNat h
        rw [UInt8.toNat_ofNat', Nat.mod_eq_of_lt (by omega)] at hval
        exact absurd (Fin.ext (hletter (by omega) ▸ hval.symm ▸ rfl)) hk

theorem quoted_prefix_iff (s : Str) (b : Bytes) : quoted name <+: quoted s ++ b ↔ s = name := by
  rw [quoted, quoted, List.cons_append, List.cons_prefix_cons, List.append_assoc, List.singleton_append,
    prefix_escape_iff hname]
  exact and_iff_right rfl

/-- The closing quote of a string begins no quoted name. -/
theorem not_prefix_closing (hne : name ≠ []) {b : Bytes} (hb : Delimited b) : ¬ quoted name <+: 34 :: b := by
  cases name with
  | nil => exact absurd rfl hne
  | cons k name =>
    rw [List.forall_mem_cons] at hname
    intro h
    rw [quoted, List.cons_prefix_cons, escape, List.flatMap_cons, escapeChar_of_letter hname.1] at h
    cases b with
    | nil => exact absurd (List.prefix_nil.mp h.2) (List.cons_ne_nil _ _)
    | cons d b =>
      have hd := congrArg UInt8.toNat (List.cons_prefix_cons.mp h.2).1
      rw [UInt8.toNat_ofNat', Nat.mod_eq_of_lt (by omega)] at hd
      have := hb d rfl
      omega

/-- A place inside a string, its closing quote included, where the quoted name starts. -/
theorem inside_string (hne : name ≠ []) {b : Bytes} (hb : Delimited b) {t : Bytes} (ht : t ≠ []) (s : Str)
    (hs : t <:+ escape s ++ [34]) (hpre : quoted name <+: t ++ b) :
    t = quoted name ∧ (34 : CodePoint) :: name <:+ s := by
  induction s with
  | nil =>
    rcases List.suffix_cons_iff.mp hs with rfl | hs
    · exact absurd hpre (not_prefix_closing hname hne hb)
    · exact absurd (List.suffix_nil.mp hs) ht
  | cons c s ih =>
    have hskip : t <:+ escape s ++ [34] → t = quoted name ∧ (34 : CodePoint) :: name <:+ c :: s :=
      fun h => (ih h).imp_right fun h => h.trans (List.suffix_cons c s)
    rw [escape, List.flatMap_cons, List.append_assoc] at hs
    by_cases hc : c = 34
    · subst hc
      rw [escapeChar_quote] at hs
      rcases List.suffix_cons_iff.mp hs with rfl | hs
      · exact absurd (List.cons_prefix_cons.mp hpre).1 (by decide)
      rcases List.suffix_cons_iff.mp hs with rfl | hs
      · have hs : s = name := (quoted_prefix_iff hname s b).mp hpre
        subst hs
        exact ⟨rfl, List.suffix_refl _⟩
      · exact hskip hs
    · have hclear : Clear (quoted name) (escapeChar c) (escape s ++ [34] ++ b) :=
        clear_of_notMem (quote_notMem_escapeChar hc)
      rcases suffix_append_cases hs with hs | ⟨t', hne', ht', rfl⟩
      · exact hskip hs
      · rw [List.append_assoc] at hpre
        exact absurd hpre (hclear t' hne' ht')

/-- **A string**: the quoted name starts in it only if it shadows the name, and then ends with it. -/
theorem in_string (hne : name ≠ []) {b : Bytes} (hb : Delimited b) {t : Bytes} (ht : t ≠ []) {s : Str}
    (hs : t <:+ quoted s) (hpre : quoted name <+: t ++ b) : t = quoted name ∧ Shadows name s := by
  rcases List.suffix_cons_iff.mp hs with rfl | hs
  · have hs : s = name := (quoted_prefix_iff hname s b).mp hpre
    subst hs
    exact ⟨rfl, .inl rfl⟩
  · exact (inside_string hname hne hb ht s hs hpre).imp_right .inr

theorem clear_quoted (hne : name ≠ []) {b : Bytes} (hb : Delimited b) (s : Str) :
    Clear (quoted name) (quoted s) b ↔ ¬ Shadows name s := by
  constructor
  · rintro hclear (rfl | ⟨x, rfl⟩)
    · exact hclear (quoted s) (List.cons_ne_nil _ _) (List.suffix_refl _) (List.prefix_append _ _)
    · refine hclear (quoted name) (List.cons_ne_nil _ _) ⟨34 :: (escape x ++ [92]), ?_⟩ (List.prefix_append _ _)
      simp [quoted, escape, escapeChar_quote]
  · exact fun hs t ht hsuffix hpre => hs (in_string hname hne hb ht hsuffix hpre).2

end Strings

/-! ## A quoted name in the text of a value -/

section Values
variable {floatText : ℚ → Bytes} (hfloat : NumberText floatText) {name : Str}

theorem clear_cons_of_ne {c : UInt8} {a b : Bytes} (hc : c ≠ 34) :
    Clear (quoted name) (c :: a) b ↔ Clear (quoted name) a b := by
  rw [clear_cons, and_iff_right]
  exact fun h => hc (List.cons_prefix_cons.mp h).1.symm

theorem clear_commaJoin {α : Type} {f : α → Bytes} {P : α → Prop} {xs : List α}
    (h : ∀ x ∈ xs, ∀ b, Delimited b → (Clear (quoted name) (f x) b ↔ P x)) {b : Bytes} (hb : Delimited b) :
    Clear (quoted name) (commaJoin (xs.map f)) b ↔ ∀ x ∈ xs, P x := by
  induction xs with
  | nil => exact ⟨fun _ x hx => absurd hx List.not_mem_nil, fun _ => clear_nil⟩
  | cons x xs ih =>
    rw [List.forall_mem_cons] at h ⊢
    cases xs with
    | nil =>
      rw [List.map_singleton, commaJoin_singleton, h.1 b hb]
      exact ⟨fun hx => ⟨hx, fun y hy => absurd hy List.not_mem_nil⟩, And.left⟩
    | cons x' xs =>
      have hcomma : Delimited (44 :: commaJoin ((x' :: xs).map f) ++ b) := delimited_cons (.inl (by decide))
      rw [List.map_cons, List.map_cons, commaJoin_cons_cons, ← List.map_cons, clear_append, h.1 _ hcomma,
        clear_cons_of_ne (by decide), ih h.2]

theorem clear_scalar {a b : Bytes} (h : ∀ c ∈ a, isScalar c = true) : Clear (quoted name) a b :=
  clear_of_notMem fun hmem => absurd (h 34 hmem) (by decide)

variable (hname : ∀ c ∈ name, 95 ≤ c.val ∧ c.val ≤ 122)
include hname

theorem clear_dumpsField (hne : name ≠ []) (field : Str × Json)
    (h : ∀ b, Delimited b → (Clear (quoted name) (dumps floatText field.2) b ↔ ¬ Mentions name field.2)) (b : Bytes)
    (hb : Delimited b) :
    Clear (quoted name) (dumpsField floatText field) b ↔ ¬ Shadows name field.1 ∧ ¬ Mentions name field.2 := by
  have hcolon : Delimited (58 :: dumps floatText field.2 ++ b) := delimited_cons (.inl (by decide))
  rw [dumpsField, clear_append, clear_quoted hname hne hcolon, clear_cons_of_ne (by decide), h b hb]

include hfloat

/-- **A value**: the quoted name starts in its text exactly if a string of it shadows the name. -/
theorem clear_dumps (hne : name ≠ []) (v : Json) : ∀ b, Delimited b →
    (Clear (quoted name) (dumps floatText v) b ↔ ¬ Mentions name v) := by
  have hliteral : ∀ {text : Bytes} {v : Json} {b : Bytes}, (∀ c ∈ text, isScalar c = true) → (¬ Mentions name v) →
      (Clear (quoted name) text b ↔ ¬ Mentions name v) := fun htext hv =>
    ⟨fun _ => hv, fun _ => clear_scalar htext⟩
  induction v using Json.ind with
  | null => exact fun b _ => hliteral (by rw [dumps]; exact forall_of_all (by decide)) (by simp [Mentions, Json.strings])
  | bool v =>
    intro b _
    cases v with
    | false => exact hliteral (by rw [dumps]; exact forall_of_all (by decide)) (by simp [Mentions, Json.strings])
    | true => exact hliteral (by rw [dumps]; exact forall_of_all (by decide)) (by simp [Mentions, Json.strings])
  | int n => exact fun b _ => hliteral (by rw [dumps]; exact isScalar_intBytes n) (by simp [Mentions, Json.strings])
  | float x => exact fun b _ => hliteral (by rw [dumps]; exact isScalar_floatBytes hfloat x) (by simp [Mentions, Json.strings])
  | str s =>
    intro b hb
    rw [dumps, clear_quoted hname hne hb, mentions_str_iff]
  | arr items ih =>
    intro b hb
    have hclosing : Delimited (93 :: b) := delimited_cons (.inl (by decide))
    rw [dumps_arr, clear_cons_of_ne (by decide), clear_append, clear_cons_of_ne (by decide),
      and_iff_left clear_nil, List.singleton_append, clear_commaJoin ih hclosing, mentions_arr_iff]
    push Not
    exact Iff.rfl
  | obj fields ih =>
    intro b hb
    have hclosing : Delimited (125 :: b) := delimited_cons (.inr (by decide))
    rw [dumps_obj, clear_cons_of_ne (by decide), clear_append, clear_cons_of_ne (by decide),
      and_iff_left clear_nil, List.singleton_append,
      clear_commaJoin (fun field hfield => clear_dumpsField hname hne field (ih field hfield)) hclosing, mentions_obj_iff]
    push Not
    exact Iff.rfl

end Values

/-! ## The position found -/

/-- Wherever the needle starts in `a`, no colon follows up to the end of `a`. -/
def Harmless (needle a b : Bytes) : Prop := ∀ s, s ≠ [] → s <:+ a → needle <+: s ++ b → (58 : UInt8) ∉ s

section Harmless
variable {needle a a' b : Bytes}

theorem Clear.harmless (h : Clear needle a b) : Harmless needle a b :=
  fun s hne hs hpre => absurd hpre (h s hne hs)

theorem harmless_append (hcolon : (58 : UInt8) ∈ a') :
    Harmless needle (a ++ a') b ↔ Clear needle a (a' ++ b) ∧ Harmless needle a' b := by
  constructor
  · intro h
    refine ⟨fun s hne hs hpre => ?_, fun s hne hs => h s hne (hs.trans (List.suffix_append a a'))⟩
    rw [← List.append_assoc] at hpre
    exact h (s ++ a') (List.append_ne_nil_of_left_ne_nil hne a') (List.suffix_append_self_iff.mpr hs) hpre
      (List.mem_append_right s hcolon)
  · rintro ⟨hclear, hharmless⟩ s hne hs hpre
    rcases suffix_append_cases hs with hs | ⟨s', hne', hs', rfl⟩
    · exact hharmless s hne hs hpre
    · rw [List.append_assoc] at hpre
      exact absurd hpre (hclear s' hne' hs')

/-- A clear end with a colon leaves nothing harmless before it. -/
theorem harmless_of_clear_end (hcolon : (58 : UInt8) ∈ a') (hend : Clear needle a' b) :
    Harmless needle (a ++ a') b ↔ Clear needle (a ++ a') b := by
  rw [harmless_append hcolon, clear_append, and_iff_left hend.harmless, and_iff_left hend]

end Harmless

theorem skipSpaces_eq {json a b : Bytes} (hjson : json = a ++ b) (hb : ∀ c ∈ b.head?, isSpace c = false) :
    skipSpaces json a.length = a.length := by
  rw [skipSpaces, hjson, List.drop_left]
  cases b with
  | nil => rfl
  | cons c b =>
    rw [List.takeWhile_cons_of_neg]
    · rfl
    · rw [hb c rfl]
      exact Bool.false_ne_true

/-- Spaces are skipped up to the first octet that is none. -/
theorem skipSpaces_le {json a b c : Bytes} {d : UInt8} (hjson : json = a ++ b ++ d :: c) (hd : isSpace d = false) :
    skipSpaces json a.length ≤ (a ++ b).length := by
  rw [skipSpaces, hjson, List.append_assoc, List.drop_left, List.length_append, Nat.add_le_add_iff_left]
  have hpre : (b ++ d :: c).takeWhile isSpace <+: b := by
    rw [List.takeWhile_append, List.takeWhile_cons_of_neg (by rw [hd]; exact Bool.false_ne_true), List.append_nil]
    split_ifs
    · exact List.prefix_refl b
    · exact List.takeWhile_prefix isSpace
  exact hpre.length_le

theorem indexOf_colon {a b : Bytes} (ha : (58 : UInt8) ∉ a) : indexOf [58] (a ++ 58 :: b) = some a.length :=
  indexOf_of_clear (clear_of_notMem ha) (List.cons_prefix_cons.mpr ⟨rfl, List.nil_prefix⟩)

/-- Where `ValueStart` goes from the first place the quoted key starts. -/
theorem valueStart_eq {json key x c r : Bytes} (hjson : json = x ++ (needleOf key ++ (c ++ 58 :: r)))
    (hclear : Clear (needleOf key) x (needleOf key ++ (c ++ 58 :: r))) (hc : (58 : UInt8) ∉ c) :
    valueStart json key = .ok (skipSpaces json (x ++ needleOf key ++ c ++ [58]).length) := by
  have hfirst : find json (needleOf key) 0 = some x.length := by
    rw [find, List.drop_zero, hjson, indexOf_of_clear hclear (List.prefix_append _ _)]
    simp
  have hcolon : find json [58] (x.length + (needleOf key).length) =
      some (x.length + (needleOf key).length + c.length) := by
    have hdrop : json.drop (x.length + (needleOf key).length) = c ++ 58 :: r := by
      rw [hjson, ← List.append_assoc, ← List.length_append, List.drop_left]
    rw [find, hdrop, indexOf_colon hc]
    rfl
  rw [valueStart, hfirst]
  dsimp only
  rw [hcolon]
  simp only [List.length_append, List.length_singleton]

/-- The end of a text is no part of the needle, so a place ahead of it holds the needle whole. -/
theorem prefix_of_end {needle a b t : Bytes} {d : UInt8} (hd : d ∉ needle) (ht : t ≠ []) (hs : t <:+ a ++ [d])
    (hpre : needle <+: t ++ b) : needle <+: t := by
  have hmem : d ∈ t := by
    rcases suffix_append_cases hs with hs | ⟨s, -, -, rfl⟩
    · rcases List.suffix_cons_iff.mp hs with rfl | hs
      · exact List.mem_singleton_self d
      · exact absurd (List.suffix_nil.mp hs) ht
    · exact List.mem_append_right s (List.mem_singleton_self d)
  rcases List.prefix_or_prefix_of_prefix hpre (List.prefix_append t b) with h | h
  · exact h
  · exact absurd (h.subset hmem) hd

/-- A first place with no colon behind it leads to the colon of the key itself. -/
theorem valueStart_of_harmless {json key a rest : Bytes} {d : UInt8} (hd : d ∉ needleOf key)
    (hcolon : (58 : UInt8) ∉ needleOf key) (hrest : ∀ c ∈ rest.head?, isSpace c = false)
    (hjson : json = a ++ [d] ++ (needleOf key ++ 58 :: rest))
    (h : Harmless (needleOf key) (a ++ [d]) (needleOf key ++ 58 :: rest)) :
    valueStart json key = .ok (a ++ [d] ++ needleOf key ++ [58]).length := by
  have hend : skipSpaces json (a ++ [d] ++ needleOf key ++ [58]).length = (a ++ [d] ++ needleOf key ++ [58]).length :=
    skipSpaces_eq (b := rest) (by rw [hjson]; simp) hrest
  by_cases hclear : Clear (needleOf key) (a ++ [d]) (needleOf key ++ 58 :: rest)
  · have hfound := valueStart_eq (c := []) hjson hclear List.not_mem_nil
    rwa [List.append_nil, hend] at hfound
  · unfold Clear at hclear
    push Not at hclear
    obtain ⟨s, hne, hs, hpre⟩ := hclear
    obtain ⟨x, t, hx, ht, hfirst, hclear, -⟩ := exists_first hne hs hpre
    have hsuffix : t <:+ a ++ [d] := hx ▸ List.suffix_append x t
    obtain ⟨c, rfl⟩ := prefix_of_end hd ht hsuffix hfirst
    have hnone := h _ ht hsuffix hfirst
    rw [List.mem_append, not_or] at hnone
    have htext : json = x ++ (needleOf key ++ (c ++ needleOf key ++ 58 :: rest)) := by
      rw [hjson, hx]
      simp only [List.append_assoc]
    have hfound := valueStart_eq htext (by simpa using hclear)
      (by rw [List.mem_append, not_or]; exact ⟨hnone.2, hcolon⟩)
    have hplace : x ++ needleOf key ++ (c ++ needleOf key) ++ [58] = a ++ [d] ++ needleOf key ++ [58] := by
      rw [hx]
      simp
    rwa [hplace, hend] at hfound

/-- A place with a colon behind it leads to that colon, or to an earlier one. -/
theorem valueStart_of_harm {json key a rest s : Bytes} {d : UInt8} (hd : d ∉ needleOf key)
    (hcolon : (58 : UInt8) ∉ needleOf key) (hjson : json = a ++ [d] ++ (needleOf key ++ 58 :: rest)) (hne : s ≠ [])
    (hs : s <:+ a ++ [d]) (hpre : needleOf key <+: s ++ (needleOf key ++ 58 :: rest)) (hmem : (58 : UInt8) ∈ s) :
    ∃ position, valueStart json key = .ok position ∧ position ≤ (a ++ [d]).length := by
  obtain ⟨x, t, hx, ht, hfirst, hclear, hst⟩ := exists_first hne hs hpre
  obtain ⟨c, rfl⟩ := prefix_of_end hd ht (hx ▸ List.suffix_append x t) hfirst
  have hmem : (58 : UInt8) ∈ c := (List.mem_append.mp (hst.subset hmem)).resolve_left hcolon
  obtain ⟨c₁, c₂, rfl, hc₁⟩ := List.eq_append_cons_of_mem hmem
  have htext : json = x ++ (needleOf key ++ (c₁ ++ 58 :: (c₂ ++ (needleOf key ++ 58 :: rest)))) := by
    rw [hjson, hx]
    simp only [List.append_assoc, List.cons_append]
  have hfound := valueStart_eq htext (by simpa using hclear) hc₁
  refine ⟨_, hfound, ?_⟩
  have hplace : a ++ [d] = x ++ needleOf key ++ c₁ ++ [58] ++ c₂ := by
    rw [hx]
    simp
  rw [hplace]
  refine skipSpaces_le (d := 34) (c := key ++ [34] ++ 58 :: rest) ?_ rfl
  rw [hjson, hplace]
  rfl

/-- **The field found is the key's own** exactly when every earlier place where the key starts is harmless. -/
theorem valueStart_own_iff {json key a rest : Bytes} {d : UInt8} (hd : d ∉ needleOf key)
    (hcolon : (58 : UInt8) ∉ needleOf key) (hrest : ∀ c ∈ rest.head?, isSpace c = false)
    (hjson : json = a ++ [d] ++ (needleOf key ++ 58 :: rest)) :
    valueStart json key = .ok (a ++ [d] ++ needleOf key ++ [58]).length ↔
      Harmless (needleOf key) (a ++ [d]) (needleOf key ++ 58 :: rest) := by
  constructor
  · intro hfound s hne hs hpre hmem
    obtain ⟨position, hposition, hle⟩ := valueStart_of_harm hd hcolon hjson hne hs hpre hmem
    have heq := Except.ok.inj (hposition.symm.trans hfound)
    simp only [List.length_append, List.length_singleton] at hle heq
    omega
  · exact valueStart_of_harmless hd hcolon hrest hjson

end AfsimNs3.Adapter
