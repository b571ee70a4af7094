import AfsimNs3.Lib.Loads
import AfsimNs3.Lib.Utf8

/-!
# Texts of JSON values

`Reads` says that a text is scanned into a value wherever it stands; `reads_arr` and `reads_obj` put such texts
together. A `Doc` is a value with a text of it, built up as the value is: the constructors keep the text `Faithful`,
which is to say that it comes through UTF-8, holds no control character and is read as the value.
-/

namespace Loads

/-! ## Lists of texts -/

/-- Texts with commas between them. -/
def commaText (texts : List Str) : Str := List.intercalate [44] texts

def arrayText (texts : List Str) : Str := 91 :: (commaText texts ++ [93])

/-- The text of one binding, given the text of its value. -/
def memberText (member : Str × Str) : Str := quotedText member.1 ++ 58 :: member.2

def objectText (members : List (Str × Str)) : Str := 123 :: (commaText (members.map memberText) ++ [125])

theorem commaText_cons_cons (text text' : Str) (texts : List Str) :
    commaText (text :: text' :: texts) = text ++ 44 :: commaText (text' :: texts) := by
  rw [commaText, List.intercalate_cons_cons, List.append_assoc]
  rfl

theorem commaText_cons (text : Str) (texts : List Str) :
    commaText (text :: texts) = text ++ texts.flatMap (fun t => 44 :: t) := by
  induction texts generalizing text with
  | nil => rw [commaText, List.intercalate_singleton, List.flatMap_nil, List.append_nil]
  | cons text' texts ih => rw [commaText_cons_cons, ih, List.flatMap_cons, List.cons_append]

section
variable {α : Type}

/-- The text is scanned into the item, and begins like one. -/
structure Scanned (item : Str → Option (α × Str)) (close : CodePoint) (text : Str) (a : α) : Prop where
  scan : ∀ rest, Stops rest → item (text ++ rest) = some (a, rest)
  head : ∃ c s, text = c :: s ∧ isSpace c = false ∧ c ≠ close

/-- A closing bracket. -/
structure Closing (close : CodePoint) : Prop where
  stops : ∀ rest, Stops (close :: rest)
  isSpace : isSpace close = false
  comma : close ≠ 44

theorem closing_bracket : Closing 93 := ⟨fun _ _ h => Option.some.inj h ▸ by decide, rfl, by decide⟩

theorem closing_brace : Closing 125 := ⟨fun _ _ h => Option.some.inj h ▸ by decide, rfl, by decide⟩

theorem stops_comma (rest : Str) : Stops (44 :: rest) := fun _ h => Option.some.inj h ▸ by decide

theorem skip_of_head {c : CodePoint} {s : Str} (h : isSpace c = false) : skip (c :: s) = c :: s :=
  List.dropWhile_cons_of_neg (by rw [h]; exact Bool.false_ne_true)

variable {item : Str → Option (α × Str)} {close : CodePoint}

theorem commaText_head (text : Str) (texts : List Str) (rest : Str) :
    ∃ u, commaText (text :: texts) ++ rest = text ++ u := by
  cases texts with
  | nil => exact ⟨rest, by rw [commaText, List.intercalate_singleton]⟩
  | cons text' texts => exact ⟨_, by rw [commaText_cons_cons, List.append_assoc]⟩

/-- White space is not skipped where an item begins. -/
theorem skip_commaText {text : Str} {a : α} (h : Scanned item close text a) (texts : List Str) (rest : Str) :
    skip (commaText (text :: texts) ++ rest) = commaText (text :: texts) ++ rest := by
  obtain ⟨c, s, hhead, hspace, -⟩ := h.head
  obtain ⟨u, hu⟩ := commaText_head text texts rest
  rw [hu, hhead, List.cons_append, skip_of_head hspace]

theorem length_commaText {texts : List Str} {as : List α} (h : List.Forall₂ (Scanned item close) texts as) :
    texts.length ≤ (commaText texts).length := by
  induction h with
  | nil => exact Nat.zero_le _
  | @cons text a texts as htext htexts ih =>
    obtain ⟨c, s, hhead, -, -⟩ := htext.head
    have hpos : 0 < text.length := by rw [hhead]; exact Nat.succ_pos _
    cases texts with
    | nil =>
      rw [commaText, List.intercalate_singleton]
      exact hpos
    | cons text' texts =>
      rw [commaText_cons_cons]
      simp only [List.length_append, List.length_cons] at ih ⊢
      omega

theorem items_texts (hclose : Closing close) {texts : List Str} {as : List α}
    (h : List.Forall₂ (Scanned item close) texts as) (hne : texts ≠ []) (n : ℕ) (hn : texts.length ≤ n) (rest : Str) :
    items item close n (commaText texts ++ close :: rest) = some (as, rest) := by
  induction h generalizing n with
  | nil => exact absurd rfl hne
  | @cons text a texts as htext htexts ih =>
    cases n with
    | zero => exact absurd hn (Nat.not_succ_le_zero _)
    | succ n =>
      cases htexts with
      | nil =>
        have hone : commaText [text] = text := List.intercalate_singleton
        rw [hone, items, htext.scan _ (hclose.stops rest)]
        simp only [Option.bind_eq_bind, Option.bind_some, skip_of_head hclose.isSpace, if_pos]
      | @cons text' a' texts as htext' htexts =>
        have hnext := ih (List.cons_ne_nil _ _) n (Nat.le_of_succ_le_succ hn)
        have hcomma : (44 : CodePoint) ≠ close := hclose.comma.symm
        rw [commaText_cons_cons, List.append_assoc, List.cons_append, items, htext.scan _ (stops_comma _)]
        simp only [Option.bind_eq_bind, Option.bind_some, skip_of_head (show isSpace 44 = false from rfl), if_neg hcomma]
        rw [skip_commaText htext', hnext]
        rfl

theorem enclosed_texts (hclose : Closing close) {texts : List Str} {as : List α}
    (h : List.Forall₂ (Scanned item close) texts as) (rest : Str) :
    enclosed item close (commaText texts ++ close :: rest) = some (as, rest) := by
  cases h with
  | nil =>
    have hnil : commaText [] = [] := rfl
    rw [hnil, List.nil_append, enclosed, skip_of_head hclose.isSpace]
    exact if_pos rfl
  | @cons text a texts as htext htexts =>
    have hlength := length_commaText (List.Forall₂.cons htext htexts)
    have hitems : items item close (commaText (text :: texts) ++ close :: rest).length
        (commaText (text :: texts) ++ close :: rest) = some (a :: as, rest) := by
      refine items_texts hclose (List.Forall₂.cons htext htexts) (List.cons_ne_nil _ _) _ ?_ rest
      rw [List.length_append]
      omega
    obtain ⟨c, s, hhead, -, hc⟩ := htext.head
    obtain ⟨u, hu⟩ := commaText_head text texts (close :: rest)
    rw [enclosed, skip_commaText htext]
    rw [hu, hhead, List.cons_append] at hitems ⊢
    dsimp only
    rw [if_neg hc, hitems]

end

/-! ## Values -/

section
variable (number : Numeral → Option Json)

/-- The text is scanned into the value wherever it stands. -/
def Reads (text : Str) (v : Json) : Prop :=
  ∀ fuel, text.length ≤ fuel → ∀ rest, Stops rest → value number fuel (text ++ rest) = some (v, rest)

variable {number}

/-- What no value begins with. -/
theorem value_none {c : CodePoint} (hc : c ∈ ([32, 9, 10, 13, 93] : Str)) (fuel : ℕ) (s : Str) :
    value number fuel (c :: s) = none := by
  cases fuel with
  | zero => rfl
  | succ fuel =>
    simp only [List.mem_cons, List.not_mem_nil, or_false] at hc
    rcases hc with rfl | rfl | rfl | rfl | rfl <;> rfl

theorem Reads.scanned {text : Str} {v : Json} (h : Reads number text v) {fuel : ℕ} (hfuel : text.length ≤ fuel) :
    Scanned (value number fuel) 93 text v := by
  refine ⟨h fuel hfuel, ?_⟩
  have hscan := h fuel hfuel [] fun _ hc => nomatch hc
  rw [List.append_nil] at hscan
  cases text with
  | nil => cases fuel <;> exact nomatch hscan
  | cons c s =>
    have hc : c ∉ ([32, 9, 10, 13, 93] : Str) := by
      intro hc
      rw [value_none hc] at hscan
      cases hscan
    simp only [List.mem_cons, List.not_mem_nil, or_false, not_or] at hc
    refine ⟨c, s, rfl, ?_, hc.2.2.2.2⟩
    have hval : ∀ d : CodePoint, c ≠ d → c.val ≠ d.val := fun d hd h => hd (Fin.ext h)
    simp only [isSpace, Bool.or_eq_false_iff, decide_eq_false_iff_not]
    exact ⟨⟨⟨hval 32 hc.1, hval 9 hc.2.1⟩, hval 10 hc.2.2.1⟩, hval 13 hc.2.2.2.1⟩

/-- **A text that is read is read by itself.** -/
theorem Reads.loads {text : Str} {v : Json} (h : Reads number text v) : loads number text = some v := by
  obtain ⟨c, s, hhead, hspace, -⟩ := (h.scanned (Nat.le_refl _)).head
  have hscan := h text.length (Nat.le_refl _) [] fun _ hc => nomatch hc
  rw [List.append_nil] at hscan
  have hskip : skip text = text := by rw [hhead, skip_of_head hspace]
  rw [Loads.loads, hskip, hscan]
  rfl

theorem value_quote (fuel : ℕ) (s : Str) :
    value number (fuel + 1) (34 :: s) = (scanString s).map (fun p => (.str p.1, p.2)) := rfl

theorem value_bracket (fuel : ℕ) (s : Str) : value number (fuel + 1) (91 :: s) =
    (enclosed (value number fuel) 93 s).map (fun p => (.arr p.1, p.2)) := rfl

theorem value_brace (fuel : ℕ) (s : Str) : value number (fuel + 1) (123 :: s) =
    (enclosed (member (value number fuel)) 125 s).map (fun p => (.obj (bindings p.1), p.2)) := rfl

theorem reads_null : Reads number (str "null") .null := by
  intro fuel hfuel rest _
  cases fuel with
  | zero => exact absurd hfuel (by decide)
  | succ fuel => rfl

theorem reads_true : Reads number (str "true") (.bool true) := by
  intro fuel hfuel rest _
  cases fuel with
  | zero => exact absurd hfuel (by decide)
  | succ fuel => rfl

theorem reads_false : Reads number (str "false") (.bool false) := by
  intro fuel hfuel rest _
  cases fuel with
  | zero => exact absurd hfuel (by decide)
  | succ fuel => rfl

theorem reads_str (s : Str) : Reads number (quotedText s) (.str s) := by
  intro fuel hfuel rest _
  cases fuel with
  | zero => exact absurd hfuel (Nat.not_succ_le_zero _)
  | succ fuel =>
    rw [quotedText, List.cons_append, List.append_assoc, List.singleton_append, value_quote, scanString_escaped]
    rfl

/-- **The literal of a number is read as what the number becomes.** -/
theorem reads_numeral {n : Numeral} (hn : n.Valid) {v : Json} (hv : number n = some v) : Reads number n.text v := by
  intro fuel hfuel rest hrest
  have hscan := scanNumber_text hn hrest
  have hhead : ∃ c s, n.text = c :: s ∧ (c.val = 45 ∨ 48 ≤ c.val ∧ c.val ≤ 57) := by
    cases hw : n.whole with
    | nil => exact absurd hw hn.nonempty
    | cons c digits =>
      have hc := isDigit_iff.mp (hn.whole c (hw ▸ List.mem_cons_self))
      rw [Numeral.text, hw]
      cases n.negative with
      | true => exact ⟨45, _, rfl, .inl rfl⟩
      | false => exact ⟨c, _, rfl, .inr hc⟩
  obtain ⟨c, s, htext, hc⟩ := hhead
  cases fuel with
  | zero =>
    rw [htext] at hfuel
    exact absurd hfuel (Nat.not_succ_le_zero _)
  | succ fuel =>
    have hkeyword : keyword (c :: (s ++ rest)) = none := by
      have hne : ∀ d : CodePoint, 57 < d.val → (d == c) = false := fun d hd => by
        rw [beq_eq_false_iff_ne]
        rintro rfl
        omega
      have hpre : ∀ (d : CodePoint) (t : Str), 57 < d.val → (d :: t).isPrefixOf (c :: (s ++ rest)) = false :=
        fun d t hd => by rw [List.isPrefixOf_cons_cons, hne d hd, Bool.false_and]
      have hnull : (str "null").isPrefixOf (c :: (s ++ rest)) = false := hpre 110 _ (by decide)
      have htrue : (str "true").isPrefixOf (c :: (s ++ rest)) = false := hpre 116 _ (by decide)
      have hfalse : (str "false").isPrefixOf (c :: (s ++ rest)) = false := hpre 102 _ (by decide)
      unfold keyword
      rw [hnull, htrue, hfalse]
      rfl
    rw [htext, List.cons_append] at hscan ⊢
    rw [value, if_neg (by omega), if_neg (by omega), if_neg (by omega), hkeyword]
    simp only [hscan, Option.bind_eq_bind, Option.bind_some, hv]

theorem forall₂_scanned {texts : List Str} {vs : List Json} (h : List.Forall₂ (Reads number) texts vs) (fuel : ℕ)
    (hfuel : (commaText texts).length ≤ fuel) :
    List.Forall₂ (Scanned (value number fuel) 93) texts vs := by
  induction h with
  | nil => exact .nil
  | @cons text v texts vs hread htexts ih =>
    cases texts with
    | nil =>
      rw [commaText, List.intercalate_singleton] at hfuel
      exact .cons (hread.scanned hfuel) (ih (Nat.zero_le _))
    | cons text' texts =>
      rw [commaText_cons_cons, List.length_append, List.length_cons] at hfuel
      exact .cons (hread.scanned (by omega)) (ih (by omega))

theorem reads_arr {texts : List Str} {vs : List Json} (h : List.Forall₂ (Reads number) texts vs) :
    Reads number (arrayText texts) (.arr vs) := by
  intro fuel hfuel rest _
  cases fuel with
  | zero => exact absurd hfuel (Nat.not_succ_le_zero _)
  | succ fuel =>
    rw [arrayText, List.length_cons, List.length_append] at hfuel
    have hscanned := forall₂_scanned h fuel (by omega)
    rw [arrayText, List.cons_append, List.append_assoc, List.singleton_append, value_bracket,
      enclosed_texts closing_bracket hscanned]
    rfl

/-- The text of a binding is scanned into it. -/
theorem member_scanned {key text : Str} {v : Json} (h : Reads number text v) {fuel : ℕ} (hfuel : text.length ≤ fuel) :
    Scanned (member (value number fuel)) 125 (memberText (key, text)) (key, v) := by
  have hscanned := h.scanned hfuel
  refine ⟨fun rest hrest => ?_, 34, _, rfl, rfl, by decide⟩
  obtain ⟨c, s, hhead, hspace, -⟩ := hscanned.head
  have hskip : skip (text ++ rest) = text ++ rest := by rw [hhead, List.cons_append, skip_of_head hspace]
  have hscan := hscanned.scan rest hrest
  have htext : memberText (key, text) ++ rest = 34 :: (key.flatMap escapeText ++ 34 :: 58 :: (text ++ rest)) := by
    simp only [memberText, quotedText, List.append_assoc, List.cons_append, List.nil_append]
  rw [htext, member]
  simp only [scanString_escaped, Option.bind_eq_bind, Option.bind_some, skip_of_head (show isSpace 58 = false from rfl),
    hskip, hscan]
  rfl

/-- What is read into an object: the names, and the texts of the values. -/
def MembersRead (number : Numeral → Option Json) (members : List (Str × Str)) (fields : Fields) : Prop :=
  List.Forall₂ (fun m field => m.1 = field.1 ∧ Reads number m.2 field.2) members fields

theorem members_scanned {members : List (Str × Str)} {fields : Fields} (h : MembersRead number members fields)
    (fuel : ℕ) (hfuel : (commaText (members.map memberText)).length ≤ fuel) :
    List.Forall₂ (Scanned (member (value number fuel)) 125) (members.map memberText) fields := by
  unfold MembersRead at h
  induction h with
  | nil => exact .nil
  | @cons m field members fields hm hrest ih =>
    obtain ⟨key, text⟩ := m
    obtain ⟨key', v⟩ := field
    obtain ⟨rfl, hread⟩ := hm
    have hlength : text.length ≤ (memberText (key, text)).length := by
      simp only [memberText, List.length_append, List.length_cons]
      omega
    rw [List.map_cons] at hfuel ⊢
    cases members with
    | nil =>
      rw [List.map_nil, commaText, List.intercalate_singleton] at hfuel
      exact .cons (member_scanned hread (hlength.trans hfuel)) (ih (Nat.zero_le _))
    | cons m members =>
      rw [List.map_cons, commaText_cons_cons, List.length_append, List.length_cons] at hfuel
      have htext : text.length ≤ fuel := by omega
      refine .cons (member_scanned hread htext) (ih ?_)
      rw [List.map_cons]
      omega

/-- Distinct names are bound in their order. -/
theorem bindings_of_nodup {fields : Fields} (h : (fields.map Prod.fst).Nodup) : bindings fields = fields := by
  have hfold : ∀ done rest : Fields, ((done ++ rest).map Prod.fst).Nodup →
      rest.foldl (fun o field => Assoc.put o field.1 field.2) done = done ++ rest := by
    intro done rest
    induction rest generalizing done with
    | nil => exact fun _ => (List.append_nil done).symm
    | cons field rest ih =>
      intro hnodup
      have hfresh : field.1 ∉ done.map Prod.fst := by
        rw [List.map_append, List.map_cons, List.nodup_append] at hnodup
        exact fun hmem => hnodup.2.2 _ hmem _ List.mem_cons_self rfl
      have hput : Assoc.put done field.1 field.2 = done ++ [field] := if_neg hfresh
      rw [List.foldl_cons, hput, ih, List.append_assoc, List.singleton_append]
      rwa [List.append_assoc, List.singleton_append]
  exact hfold [] fields h

theorem reads_obj {members : List (Str × Str)} {fields : Fields} (h : MembersRead number members fields)
    (hnodup : (fields.map Prod.fst).Nodup) : Reads number (objectText members) (.obj fields) := by
  intro fuel hfuel rest _
  cases fuel with
  | zero => exact absurd hfuel (Nat.not_succ_le_zero _)
  | succ fuel =>
    rw [objectText, List.length_cons, List.length_append] at hfuel
    have hscanned := members_scanned h fuel (by omega)
    rw [objectText, List.cons_append, List.append_assoc, List.singleton_append, value_brace,
      enclosed_texts closing_brace hscanned, Option.map_some, bindings_of_nodup hnodup]

end

/-! ## Values with their texts -/

/-- A character that may stand in JSON text as UTF-8 carries it: no control character, no surrogate. -/
def Printable (c : CodePoint) : Prop := 32 ≤ c.val ∧ surrogate c = false

/-- A value and a text of it. -/
structure Doc where
  text : Str
  value : Json

/-- The text is read as the value, and nothing in it has to be escaped. -/
structure Doc.Faithful (d : Doc) : Prop where
  reads : Reads (fun n => some n.value) d.text d.value
  printable : ∀ c ∈ d.text, Printable c

namespace Doc

def string (s : Str) : Doc := ⟨quotedText s, .str s⟩

def null : Doc := ⟨str "null", .null⟩

def bool (b : Bool) : Doc := ⟨if b then str "true" else str "false", .bool b⟩

def numeral (n : Numeral) : Doc := ⟨n.text, n.value⟩

def nat (n : ℕ) : Doc := numeral (Numeral.ofNat n)

def arr (docs : List Doc) : Doc := ⟨arrayText (docs.map text), .arr (docs.map value)⟩

def obj (members : List (Str × Doc)) : Doc :=
  ⟨objectText (members.map (fun m => (m.1, m.2.text))), .obj (members.map (fun m => (m.1, m.2.value)))⟩

end Doc

theorem printable_of_ascii {c : CodePoint} (hlow : 32 ≤ c.val) (hhigh : c.val < 128) : Printable c := by
  refine ⟨hlow, ?_⟩
  rw [surrogate, Bool.and_eq_false_iff, decide_eq_false_iff_not]
  omega

instance (c : CodePoint) : Decidable (Printable c) := inferInstanceAs (Decidable (_ ∧ _))

/-- A text of fixed characters. -/
theorem printable_of_all {s : Str} (h : s.all (fun c => 32 ≤ c.val && c.val < 128) = true) : ∀ c ∈ s, Printable c := by
  intro c hc
  have hrange := List.all_eq_true.mp h c hc
  rw [Bool.and_eq_true, decide_eq_true_eq, decide_eq_true_eq] at hrange
  exact printable_of_ascii hrange.1 hrange.2

theorem printable_of_isDigit {c : CodePoint} (h : isDigit c = true) : Printable c := by
  rw [isDigit_iff] at h
  exact printable_of_ascii (by omega) (by omega)

theorem printable_quotedText {s : Str} (h : encodable s = true) : ∀ c ∈ quotedText s, Printable c := by
  have hquote : Printable 34 := printable_of_ascii (by decide) (by decide)
  have hescape : ∀ d : CodePoint, surrogate d = false → ∀ c ∈ escapeText d, Printable c := by
    intro d hd
    unfold escapeText
    split_ifs with h1 h2 h3 h4 h5 h6 h7 h8
    · exact printable_of_all rfl
    · exact printable_of_all rfl
    · exact printable_of_all rfl
    · exact printable_of_all rfl
    · exact printable_of_all rfl
    · exact printable_of_all rfl
    · exact printable_of_all rfl
    · have hdigit : ∀ n, n < 16 →
          Printable (Fin.ofNat 0x110000 (if n < 10 then 48 + n else 87 + n)) := fun n hn => by
        interval_cases n <;> decide
      intro c hc
      simp only [controlText, List.mem_cons, List.not_mem_nil, or_false] at hc
      rcases hc with rfl | rfl | rfl | rfl | rfl | rfl
      · decide
      · decide
      · decide
      · decide
      · split_ifs <;> decide
      · exact hdigit _ (Nat.mod_lt _ (by decide))
    · intro c hc
      obtain rfl := List.mem_singleton.mp hc
      exact ⟨by omega, hd⟩
  rw [encodable_iff] at h
  unfold quotedText
  simp only [List.forall_mem_cons, List.forall_mem_append, List.forall_mem_flatMap, List.not_mem_nil, false_imp_iff,
    implies_true, and_true]
  exact ⟨hquote, fun d hd => hescape d (h d hd), hquote⟩

theorem printable_numeral {n : Numeral} (h : n.Valid) : ∀ c ∈ n.text, Printable c := by
  have hfraction : ∀ c ∈ n.fraction.elim [] (fun digits => 46 :: digits), Printable c := by
    cases hf : n.fraction with
    | none => exact fun _ hc => nomatch hc
    | some digits =>
      rw [Option.elim_some, List.forall_mem_cons]
      exact ⟨by decide, fun c hc => printable_of_isDigit ((h.fraction digits hf).2 c hc)⟩
  have hexponent : ∀ c ∈ n.exponent.elim [] Exponent.text, Printable c := by
    cases he : n.exponent with
    | none => exact fun _ hc => nomatch hc
    | some e =>
      have hvalid := h.exponent e he
      rw [Option.elim_some, Exponent.text, List.forall_mem_cons, List.forall_mem_append]
      refine ⟨?_, fun c hc => ?_, fun c hc => printable_of_isDigit (hvalid.digits c hc)⟩
      · rcases hvalid.mark with hmark | hmark <;> exact printable_of_ascii (by omega) (by omega)
      · rcases hvalid.sign c (Option.mem_toList.mp hc) with hsign | hsign <;>
          exact printable_of_ascii (by omega) (by omega)
  have hsign : ∀ c ∈ (if n.negative then [45] else [] : Str), Printable c := by
    split_ifs
    · exact printable_of_all rfl
    · exact printable_of_all rfl
  unfold Numeral.text
  simp only [List.forall_mem_append]
  exact ⟨⟨⟨hsign, fun c hc => printable_of_isDigit (h.whole c hc)⟩, hfraction⟩, hexponent⟩

theorem printable_commaText {texts : List Str} (h : ∀ text ∈ texts, ∀ c ∈ text, Printable c) :
    ∀ c ∈ commaText texts, Printable c := by
  induction texts with
  | nil => exact fun _ hc => nomatch hc
  | cons text texts ih =>
    rw [List.forall_mem_cons] at h
    cases texts with
    | nil =>
      rw [commaText, List.intercalate_singleton]
      exact h.1
    | cons text' texts =>
      rw [commaText_cons_cons, List.forall_mem_append, List.forall_mem_cons]
      exact ⟨h.1, by decide, ih h.2⟩

namespace Doc

theorem string_faithful {s : Str} (h : encodable s = true) : (string s).Faithful :=
  ⟨reads_str s, printable_quotedText h⟩

theorem null_faithful : null.Faithful := ⟨reads_null, printable_of_all rfl⟩

theorem bool_faithful (b : Bool) : (bool b).Faithful := by
  cases b with
  | true => exact ⟨reads_true, printable_of_all rfl⟩
  | false => exact ⟨reads_false, printable_of_all rfl⟩

theorem numeral_faithful {n : Numeral} (h : n.Valid) : (numeral n).Faithful :=
  ⟨reads_numeral h rfl, printable_numeral h⟩

theorem nat_value (n : ℕ) : (nat n).value = .int n := Numeral.ofNat_value n

theorem nat_faithful (n : ℕ) : (nat n).Faithful := numeral_faithful (Numeral.ofNat_valid n)

theorem arr_faithful {docs : List Doc} (h : ∀ d ∈ docs, d.Faithful) : (arr docs).Faithful := by
  constructor
  · refine reads_arr ?_
    rw [List.forall₂_map_left_iff, List.forall₂_map_right_iff, List.forall₂_same]
    exact fun d hd => (h d hd).reads
  · have hcomma : ∀ c ∈ commaText (docs.map text), Printable c :=
      printable_commaText (List.forall_mem_map.mpr fun d hd => (h d hd).printable)
    show ∀ c ∈ 91 :: (commaText (docs.map text) ++ [93]), Printable c
    rw [List.forall_mem_cons, List.forall_mem_append]
    exact ⟨by decide, hcomma, printable_of_all rfl⟩

/-- The names of an object are written in quotes, so they must not hold surrogates either. -/
theorem obj_faithful {members : List (Str × Doc)} (hkeys : ∀ m ∈ members, encodable m.1 = true)
    (hnodup : (members.map Prod.fst).Nodup) (h : ∀ m ∈ members, m.2.Faithful) : (obj members).Faithful := by
  constructor
  · refine reads_obj ?_ ?_
    · rw [MembersRead, List.forall₂_map_left_iff, List.forall₂_map_right_iff, List.forall₂_same]
      exact fun m hm => ⟨rfl, (h m hm).reads⟩
    · rw [List.map_map]
      exact hnodup
  · have hcomma := printable_commaText
      (List.forall_mem_map.mpr fun member hmember => ?_ : ∀ t ∈ (members.map (fun m => (m.1, m.2.text))).map memberText,
        ∀ c ∈ t, Printable c)
    · show ∀ c ∈ 123 :: (commaText ((members.map (fun m => (m.1, m.2.text))).map memberText) ++ [125]), Printable c
      rw [List.forall_mem_cons, List.forall_mem_append]
      exact ⟨by decide, hcomma, printable_of_all rfl⟩
    · obtain ⟨m, hm, rfl⟩ := List.mem_map.mp hmember
      rw [memberText, List.forall_mem_append, List.forall_mem_cons]
      exact ⟨printable_quotedText (hkeys m hm), by decide, (h m hm).printable⟩

/-- The octets of a number are the digits of its text. -/
theorem utf8_nat (n : ℕ) : utf8 (nat n).text = natBytes n := by
  have hdigits : ∀ digits : List Char, (∀ d ∈ digits, d.toNat < 128) →
      utf8 (digits.map (fun d => Fin.ofNat 0x110000 d.toNat)) = digits.map (fun d => UInt8.ofNat d.toNat) := by
    intro digits
    induction digits with
    | nil => exact fun _ => rfl
    | cons d digits ih =>
      intro h
      rw [List.forall_mem_cons] at h
      have hval : (Fin.ofNat 0x110000 d.toNat : CodePoint).val = d.toNat := by
        rw [Fin.val_ofNat, Nat.mod_eq_of_lt (by omega)]
      rw [List.map_cons, List.map_cons, utf8_cons, ih h.2, utf8Char_of_lt (by rw [hval]; exact h.1), hval]
      rfl
  show utf8 (Numeral.ofNat n).text = natBytes n
  rw [Numeral.ofNat_text, natText, natBytes]
  refine hdigits _ fun d hd => ?_
  have hbound := (val_digit hd).2.2
  omega

/-- **A faithful text comes through UTF-8 and is read as its value.** -/
theorem Faithful.loads {d : Doc} (h : d.Faithful) :
    decode (utf8 d.text) = some d.text ∧ Loads.loads (fun n => some n.value) d.text = some d.value :=
  ⟨decode_utf8 (encodable_iff.mpr fun c hc => (h.printable c hc).2), h.reads.loads⟩

theorem Faithful.octets {d : Doc} (h : d.Faithful) : ∀ b ∈ utf8 d.text, 32 ≤ b.toNat :=
  le_utf8 (by decide) fun c hc => (h.printable c hc).1

end Doc

end Loads
