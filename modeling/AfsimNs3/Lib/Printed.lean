import AfsimNs3.Lib.Doc
import AfsimNs3.Lib.Strings

/-!
# What is printed is read

`Regular v` says what a value must not have if `loads` is to read `dumps` of it as the same value: no name twice in an
object, no float without a literal. Then the text is that of a `Doc`, constructor by constructor (`Regular.doc`), and is
read back (`Regular.loads`).
-/

namespace Loads

/-- The text of the float is a literal of it. -/
def Literal (floatText : ℚ → Bytes) (x : Double) : Prop :=
  ∃ n : Numeral, n.Valid ∧ n.value = .float x ∧ utf8 n.text = floatBytes floatText x

/-- Every float of the value has a literal, and the names of each object are distinct. -/
inductive Regular (floatText : ℚ → Bytes) : Json → Prop where
  | null : Regular floatText .null
  | bool (b : Bool) : Regular floatText (.bool b)
  | int (n : ℤ) : Regular floatText (.int n)
  | float (x : Double) (h : Literal floatText x) : Regular floatText (.float x)
  | str (s : Str) : Regular floatText (.str s)
  | arr (items : List Json) (h : ∀ v ∈ items, Regular floatText v) : Regular floatText (.arr items)
  | obj (fields : Fields) (hnames : (fields.map Prod.fst).Nodup) (h : ∀ field ∈ fields, Regular floatText field.2) :
    Regular floatText (.obj fields)

/-- Literals are one text only where they are written alike. -/
theorem str_inj {s t : String} : str s = str t ↔ s = t := by
  refine ⟨fun h => ?_, congrArg str⟩
  have hlt : ∀ c : Char, c.toNat < 0x110000 := by
    intro c
    have hvalid := c.valid
    simp only [UInt32.isValidChar, Nat.isValidChar] at hvalid
    have htoNat : c.toNat = c.val.toNat := rfl
    omega
  have hchar : Function.Injective fun c : Char => (Fin.ofNat 0x110000 c.toNat : CodePoint) := by
    intro c d hcd
    have hval := congrArg Fin.val hcd
    simp only [Fin.val_ofNat, Nat.mod_eq_of_lt (hlt _)] at hval
    exact Char.toNat_inj.mp hval
  exact String.toList_inj.mp (List.map_injective_iff.mpr hchar h)

theorem regular_objects {α : Type} {floatText : ℚ → Bytes} {fields : α → Fields} {items : List α}
    (h : ∀ item ∈ items, Regular floatText (.obj (fields item))) : Regular floatText (Json.objects fields items) := by
  refine .arr _ (List.forall_mem_map.mpr ?_)
  exact List.forall_mem_map.mpr h

/-! ## The texts -/

theorem utf8_escapeText (c : CodePoint) : utf8 (escapeText c) = escapeChar c := by
  have hascii : ∀ d : CodePoint, d.val < 128 → utf8Char d = [UInt8.ofNat d.val] := fun d => utf8Char_of_lt
  unfold escapeText escapeChar
  split_ifs with h1 h2 h3 h4 h5 h6 h7 h8
  · rfl
  · rfl
  · rfl
  · rfl
  · rfl
  · rfl
  · rfl
  · have hdigit : ∀ n, n < 16 → utf8Char (Fin.ofNat 0x110000 (if n < 10 then 48 + n else 87 + n)) =
        [UInt8.ofNat (if n < 10 then 48 + n else 87 + n)] := by
      intro n hn
      interval_cases n <;> rfl
    have hfirst : utf8Char (if c.val < 16 then 48 else 49) = [if c.val < 16 then 48 else 49] := by
      split_ifs <;> rfl
    have hlast := hdigit (c.val % 16) (Nat.mod_lt _ (by decide))
    simp only [controlText, controlEscape, utf8_cons, hfirst, hlast]
    rfl
  · rw [utf8_cons]
    exact List.append_nil _

theorem utf8_quotedText (s : Str) : utf8 (quotedText s) = quoted s := by
  have hescape : utf8 (s.flatMap escapeText) = escape s := by
    induction s with
    | nil => rfl
    | cons c s ih =>
      rw [List.flatMap_cons, utf8_append, utf8_escapeText, ih]
      rfl
  rw [quotedText, utf8_cons, utf8_append, hescape]
  rfl

theorem utf8_commaText (texts : List Str) : utf8 (commaText texts) = commaJoin (texts.map utf8) := by
  induction texts with
  | nil => rfl
  | cons text texts ih =>
    cases texts with
    | nil => rw [commaText, List.intercalate_singleton, List.map_singleton, commaJoin_singleton]
    | cons next texts =>
      rw [commaText_cons_cons, utf8_append, utf8_cons, ih, List.map_cons, List.map_cons, List.map_cons, commaJoin_cons_cons]
      rfl

/-! ### Integers -/

def Numeral.ofInt (n : ℤ) : Numeral := ⟨decide (n < 0), natText n.natAbs, none, none⟩

theorem Numeral.ofInt_valid (n : ℤ) : (Numeral.ofInt n).Valid := by
  have hnat := Numeral.ofNat_valid n.natAbs
  exact ⟨hnat.whole, hnat.nonempty, hnat.leading, hnat.fraction, hnat.exponent⟩

theorem Numeral.ofInt_value (n : ℤ) : (Numeral.ofInt n).value = .int n := by
  have hvalue : (Numeral.ofInt n).value = .int (if decide (n < 0) then -(digitsValue (natText n.natAbs) : ℤ)
      else digitsValue (natText n.natAbs)) := rfl
  rw [hvalue, digitsValue_natText, Json.int.injEq]
  split_ifs with h <;> rw [decide_eq_true_eq] at h <;> omega

theorem Numeral.utf8_ofInt (n : ℤ) : utf8 (Numeral.ofInt n).text = intBytes n := by
  have hdigits : utf8 (natText n.natAbs) = natBytes n.natAbs := by
    rw [← Doc.utf8_nat, ← Numeral.ofNat_text]
    rfl
  have htext : (Numeral.ofInt n).text = (if decide (n < 0) then [45] else []) ++ natText n.natAbs := by
    show (if decide (n < 0) then [45] else []) ++ natText n.natAbs ++ [] ++ [] = _
    rw [List.append_nil, List.append_nil]
  rw [htext, utf8_append, hdigits, intBytes]
  by_cases h : n < 0
  · rw [if_pos h, if_pos (decide_eq_true h)]
    rfl
  · rw [if_neg h, if_neg (by rwa [decide_eq_true_eq])]
    rfl

/-! ## Values -/

variable {floatText : ℚ → Bytes}

instance : Inhabited Doc := ⟨Doc.null⟩

/-- **A printed value is a text of the value.** -/
theorem Regular.doc {v : Json} (h : Regular floatText v) (hv : v.Encodable) :
    ∃ d : Doc, d.Faithful ∧ d.value = v ∧ utf8 d.text = dumps floatText v := by
  induction h with
  | null =>
    refine ⟨Doc.null, Doc.null_faithful, rfl, ?_⟩
    rw [dumps]
    rfl
  | bool b =>
    refine ⟨Doc.bool b, Doc.bool_faithful b, rfl, ?_⟩
    cases b <;> rw [dumps] <;> rfl
  | int n =>
    refine ⟨Doc.numeral (.ofInt n), Doc.numeral_faithful (Numeral.ofInt_valid n), Numeral.ofInt_value n, ?_⟩
    rw [dumps]
    exact Numeral.utf8_ofInt n
  | float x hx =>
    obtain ⟨n, hvalid, hvalue, htext⟩ := hx
    refine ⟨Doc.numeral n, Doc.numeral_faithful hvalid, hvalue, ?_⟩
    rw [dumps]
    exact htext
  | str s =>
    refine ⟨Doc.string s, Doc.string_faithful (Json.encodable_str.mp hv), rfl, ?_⟩
    rw [dumps]
    exact utf8_quotedText s
  | arr items _ ih =>
    have hitems := fun v hmem => ih v hmem (Json.encodable_arr.mp hv v hmem)
    choose! doc hdoc using hitems
    refine ⟨Doc.arr (items.map doc), Doc.arr_faithful (List.forall_mem_map.mpr fun v hmem => (hdoc v hmem).1), ?_, ?_⟩
    · have hvalues : items.map (Doc.value ∘ doc) = items.map id := List.map_congr_left fun v hmem => (hdoc v hmem).2.1
      show Json.arr ((items.map doc).map Doc.value) = .arr items
      rw [List.map_map, hvalues, List.map_id]
    · have htexts : ((items.map doc).map Doc.text).map utf8 = items.map (dumps floatText) := by
        rw [List.map_map, List.map_map]
        exact List.map_congr_left fun v hmem => (hdoc v hmem).2.2
      show utf8 (91 :: (commaText ((items.map doc).map Doc.text) ++ [93])) = _
      rw [dumps_arr, utf8_cons, utf8_append, utf8_commaText, htexts]
      rfl
  | obj fields hnames _ ih =>
    rw [Json.encodable_obj] at hv
    have hfields := fun field hmem => ih field hmem (hv field hmem).2
    choose! doc hdoc using hfields
    refine ⟨Doc.obj (fields.map fun field => (field.1, doc field)), Doc.obj_faithful ?_ ?_ ?_, ?_, ?_⟩
    · exact List.forall_mem_map.mpr fun field hmem => (hv field hmem).1
    · rw [List.map_map]
      exact hnames
    · exact List.forall_mem_map.mpr fun field hmem => (hdoc field hmem).1
    · have hvalues : fields.map ((fun m => (m.1, m.2.value)) ∘ fun field => (field.1, doc field)) = fields.map id := by
        refine List.map_congr_left fun field hmem => ?_
        show (field.1, (doc field).value) = field
        rw [(hdoc field hmem).2.1]
      show Json.obj ((fields.map fun field => (field.1, doc field)).map fun m => (m.1, m.2.value)) = .obj fields
      rw [List.map_map, hvalues, List.map_id]
    · have htexts : ((((fields.map fun field => (field.1, doc field)).map fun m => (m.1, m.2.text)).map memberText).map
          utf8) = fields.map (dumpsField floatText) := by
        rw [List.map_map, List.map_map, List.map_map]
        refine List.map_congr_left fun field hmem => ?_
        show utf8 (quotedText field.1 ++ 58 :: (doc field).text) = _
        rw [utf8_append, utf8_cons, utf8_quotedText, (hdoc field hmem).2.2]
        rfl
      show utf8 (123 :: (commaText _ ++ [125])) = _
      rw [dumps_obj, utf8_cons, utf8_append, utf8_commaText, htexts]
      rfl

/-- **What is printed is read**, as the value it was printed from. -/
theorem Regular.loads {v : Json} (h : Regular floatText v) (hv : v.Encodable) :
    ∃ text, decode (dumps floatText v) = some text ∧ Loads.loads (fun n => some n.value) text = some v := by
  obtain ⟨d, hfaithful, rfl, htext⟩ := h.doc hv
  rw [← htext]
  exact ⟨d.text, hfaithful.loads⟩

end Loads
