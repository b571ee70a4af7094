import AfsimNs3.Lib.Ctype
import AfsimNs3.Lib.Json

/-!
# JSON text

`dumps` writes a JSON value without spaces and without escapes for non-ASCII characters, as
`json.dumps(value, ensure_ascii=False, separators=(",", ":"))` encoded as UTF-8 does. The text of a finite float is a
parameter.

`Json.ind` is induction over a value with hypotheses for the items of an array and the values of an object;
`dumps_arr` and `dumps_obj` are the texts of the two as comma-separated lists.
-/

/-- `\\u00XX`. -/
def controlEscape (n : ℕ) : Bytes :=
  ascii "\\u00" ++ [if n < 16 then 48 else 49, UInt8.ofNat (if n % 16 < 10 then 48 + n % 16 else 87 + n % 16)]

/-- The text of a character inside quotes. -/
def escapeChar (c : CodePoint) : Bytes :=
  if c.val = 34 then [92, 34]
  else if c.val = 92 then [92, 92]
  else if c.val = 8 then [92, 98]
  else if c.val = 12 then [92, 102]
  else if c.val = 10 then [92, 110]
  else if c.val = 13 then [92, 114]
  else if c.val = 9 then [92, 116]
  else if c.val < 32 then controlEscape c.val
  else utf8Char c

def escape (s : Str) : Bytes := s.flatMap escapeChar

/-- The text of a string. -/
def quoted (s : Str) : Bytes := 34 :: (escape s ++ [34])

/-- `",".join`. -/
def commaJoin (texts : List Bytes) : Bytes := List.intercalate [44] texts

section
variable (floatText : ℚ → Bytes)

def floatBytes : Double → Bytes
  | .finite q => floatText q
  | .inf false => ascii "Infinity"
  | .inf true => ascii "-Infinity"
  | .nan => ascii "NaN"

mutual

def dumps : Json → Bytes
  | .null => ascii "null"
  | .bool true => ascii "true"
  | .bool false => ascii "false"
  | .int n => intBytes n
  | .float x => floatBytes floatText x
  | .str s => quoted s
  | .arr items => 91 :: (commaJoin (dumpsItems items) ++ [93])
  | .obj fields => 123 :: (commaJoin (dumpsFields fields) ++ [125])

def dumpsItems : List Json → List Bytes
  | [] => []
  | v :: items => dumps v :: dumpsItems items

def dumpsFields : List (Str × Json) → List Bytes
  | [] => []
  | (k, v) :: fields => (quoted k ++ 58 :: dumps v) :: dumpsFields fields

end

/-- The text of one field. -/
def dumpsField (field : Str × Json) : Bytes := quoted field.1 ++ 58 :: dumps floatText field.2

theorem dumps_arr (items : List Json) :
    dumps floatText (.arr items) = 91 :: (commaJoin (items.map (dumps floatText)) ++ [93]) := by
  have hitems : dumpsItems floatText items = items.map (dumps floatText) := by
    induction items with
    | nil => rw [dumpsItems, List.map_nil]
    | cons v items ih => rw [dumpsItems, List.map_cons, ih]
  rw [dumps, hitems]

theorem dumps_obj (fields : List (Str × Json)) :
    dumps floatText (.obj fields) = 123 :: (commaJoin (fields.map (dumpsField floatText)) ++ [125]) := by
  have hfields : dumpsFields floatText fields = fields.map (dumpsField floatText) := by
    induction fields with
    | nil => rw [dumpsFields, List.map_nil]
    | cons field fields ih => rw [dumpsFields, List.map_cons, ih, dumpsField]
  rw [dumps, hfields]

end

namespace Json

/-- Induction over a value, through arrays and objects. -/
@[elab_as_elim]
theorem ind {P : Json → Prop} (null : P .null) (bool : ∀ b, P (.bool b)) (int : ∀ n, P (.int n))
    (float : ∀ x, P (.float x)) (str : ∀ s, P (.str s)) (arr : ∀ items, (∀ v ∈ items, P v) → P (.arr items))
    (obj : ∀ fields, (∀ field ∈ fields, P field.2) → P (.obj fields)) : ∀ v, P v
  | .null => null
  | .bool b => bool b
  | .int n => int n
  | .float x => float x
  | .str s => str s
  | .arr items => arr items fun v _ => ind null bool int float str arr obj v
  | .obj fields => obj fields fun field _ => ind null bool int float str arr obj field.2
termination_by v => sizeOf v
decreasing_by
  · have := List.sizeOf_lt_of_mem ‹v ∈ items›
    simp only [Json.arr.sizeOf_spec]
    omega
  · have := List.sizeOf_lt_of_mem ‹field ∈ fields›
    obtain ⟨k, w⟩ := field
    simp only [Json.obj.sizeOf_spec, Prod.mk.sizeOf_spec] at *
    omega

end Json

/-! ## Comma-separated texts -/

@[simp] theorem commaJoin_nil : commaJoin [] = [] := rfl

@[simp] theorem commaJoin_singleton (text : Bytes) : commaJoin [text] = text := List.intercalate_singleton

theorem commaJoin_cons_cons (text text' : Bytes) (texts : List Bytes) :
    commaJoin (text :: text' :: texts) = text ++ 44 :: commaJoin (text' :: texts) := by
  rw [commaJoin, List.intercalate_cons_cons, List.append_assoc]
  rfl

/-- One text singled out: those before it end in commas, those after it begin with them. -/
theorem commaJoin_split (before after : List Bytes) (text : Bytes) :
    commaJoin (before ++ text :: after) =
      before.flatMap (fun t => t ++ [44]) ++ (text ++ after.flatMap (fun t => 44 :: t)) := by
  induction before with
  | nil =>
    rw [List.nil_append, List.flatMap_nil, List.nil_append]
    induction after generalizing text with
    | nil => rw [commaJoin_singleton, List.flatMap_nil, List.append_nil]
    | cons text' after ih => rw [commaJoin_cons_cons, ih, List.flatMap_cons, List.cons_append]
  | cons t before ih =>
    cases before with
    | nil => rw [List.nil_append] at ih; rw [List.singleton_append, commaJoin_cons_cons, ih]; simp
    | cons t' before => rw [List.cons_append, List.cons_append, commaJoin_cons_cons, ← List.cons_append, ih]; simp

/-! ## Characters -/

/-- The escapes of one letter, with the character each stands for. -/
def shortEscapes : List (UInt8 × ℕ) := [(34, 34), (92, 92), (98, 8), (102, 12), (110, 10), (114, 13), (116, 9)]

/-- The three forms of a character in quotes. -/
inductive Escaped (c : CodePoint) : Bytes → Prop where
  | short (d : UInt8) (h : (d, c.val) ∈ shortEscapes) : Escaped c [92, d]
  | control (h : c.val < 32) (hshort : c.val ∉ shortEscapes.map Prod.snd) : Escaped c (controlEscape c.val)
  | plain (h : 32 ≤ c.val) (hquote : c.val ≠ 34) (hback : c.val ≠ 92) : Escaped c (utf8Char c)

theorem escaped (c : CodePoint) : Escaped c (escapeChar c) := by
  have hshort : ∀ {d : UInt8} {n : ℕ}, (d, n) ∈ shortEscapes → c.val = n → Escaped c [92, d] :=
    fun hmem hc => .short _ (hc ▸ hmem)
  unfold escapeChar
  split_ifs with h1 h2 h3 h4 h5 h6 h7 h8
  · exact hshort (by decide) h1
  · exact hshort (by decide) h2
  · exact hshort (by decide) h3
  · exact hshort (by decide) h4
  · exact hshort (by decide) h5
  · exact hshort (by decide) h6
  · exact hshort (by decide) h7
  · refine .control h8 ?_
    simp only [shortEscapes, List.map_cons, List.map_nil, List.mem_cons, List.not_mem_nil, or_false]
    omega
  · exact .plain (by omega) h1 h2

theorem utf8Char_of_lt {c : CodePoint} (h : c.val < 128) : utf8Char c = [UInt8.ofNat c.val] := by
  rw [utf8Char, if_pos h]

theorem utf8Char_ne_nil (c : CodePoint) : utf8Char c ≠ [] := by
  unfold utf8Char
  split_ifs <;> exact List.cons_ne_nil _ _

theorem toNat_utf8Char (c : CodePoint) : (c.val < 128 ∧ utf8Char c = [UInt8.ofNat c.val]) ∨
    ∀ b ∈ utf8Char c, 128 ≤ b.toNat := by
  have hc := c.isLt
  unfold utf8Char
  split_ifs with h1 h2 h3
  · exact .inl ⟨h1, rfl⟩
  all_goals
    right
    simp only [List.forall_mem_cons, List.not_mem_nil, false_imp_iff, implies_true, and_true, UInt8.toNat_ofNat']
    omega

/-- No other text has the octets of an ASCII text. -/
theorem utf8_eq_iff {t : Str} (ht : ∀ c ∈ t, c.val < 128) (s : Str) : utf8 s = utf8 t ↔ s = t := by
  refine ⟨fun h => ?_, congrArg utf8⟩
  induction t generalizing s with
  | nil =>
    cases s with
    | nil => rfl
    | cons d s =>
      rw [utf8, utf8, List.flatMap_cons, List.flatMap_nil, List.append_eq_nil_iff] at h
      exact absurd h.1 (utf8Char_ne_nil d)
  | cons c t ih =>
    rw [List.forall_mem_cons] at ht
    have hc : utf8 (c :: t) = UInt8.ofNat c.val :: utf8 t := by
      rw [utf8, List.flatMap_cons, utf8Char_of_lt ht.1]
      rfl
    rw [hc] at h
    cases s with
    | nil => exact absurd h.symm (List.cons_ne_nil _ _)
    | cons d s =>
      rw [utf8, List.flatMap_cons] at h
      rcases toNat_utf8Char d with ⟨hd, heq⟩ | hhigh
      · rw [heq, List.singleton_append] at h
        obtain ⟨hhead, htail⟩ := List.cons.inj h
        have hval := congrArg UInt8.toNat hhead
        rw [UInt8.toNat_ofNat', UInt8.toNat_ofNat', Nat.mod_eq_of_lt (by omega), Nat.mod_eq_of_lt (by omega)] at hval
        rw [Fin.ext hval, ih ht.2 s htail]
      · cases hchar : utf8Char d with
        | nil => exact absurd hchar (utf8Char_ne_nil d)
        | cons e rest =>
          rw [hchar, List.cons_append] at h
          have he := hhigh e (hchar ▸ List.mem_cons_self)
          rw [(List.cons.inj h).1, UInt8.toNat_ofNat', Nat.mod_eq_of_lt (by omega)] at he
          omega

/-- The octets of numbers and literals: digits, letters, signs and the point. -/
def isScalar (c : UInt8) : Bool :=
  isDigit c || (65 ≤ c && c ≤ 90) || (97 ≤ c && c ≤ 122) || c = 43 || c = 45 || c = 46

/-- What the text of a float is made of. -/
structure NumberText (floatText : ℚ → Bytes) : Prop where
  scalar : ∀ q, ∀ c ∈ floatText q, isScalar c = true
  ne_nil : ∀ q, floatText q ≠ []

theorem isScalar_intBytes (n : ℤ) : ∀ c ∈ intBytes n, isScalar c = true := by
  have hnat : ∀ c ∈ natBytes n.natAbs, isScalar c = true := fun c hc => by
    rw [isScalar, isDigit_of_mem_natBytes hc]
    rfl
  unfold intBytes
  split_ifs
  · rw [List.forall_mem_cons]
    exact ⟨by decide, hnat⟩
  · exact hnat

theorem isScalar_floatBytes {floatText : ℚ → Bytes} (h : NumberText floatText) (x : Double) :
    ∀ c ∈ floatBytes floatText x, isScalar c = true := by
  unfold floatBytes
  split
  · exact h.scalar _
  · exact forall_of_all (by decide)
  · exact forall_of_all (by decide)
  · exact forall_of_all (by decide)

theorem intBytes_ne_nil (n : ℤ) : intBytes n ≠ [] := by
  unfold intBytes
  split_ifs
  · exact List.cons_ne_nil _ _
  · exact natBytes_ne_nil _

theorem floatBytes_ne_nil {floatText : ℚ → Bytes} (h : NumberText floatText) (x : Double) :
    floatBytes floatText x ≠ [] := by
  unfold floatBytes
  split
  · exact h.ne_nil _
  · decide
  · decide
  · decide

/-- Letters, signs and the point are no white space either. -/
theorem isSpace_of_isScalar {c : UInt8} (h : isScalar c = true) : isSpace c = false := by
  have hlow : 33 ≤ c.toNat := by
    simp only [isScalar, Bool.or_eq_true, Bool.and_eq_true, decide_eq_true_eq, isDigit_iff,
      UInt8.le_iff_toNat_le] at h
    rcases h with ((((h | h) | h) | rfl) | rfl) | rfl
    · omega
    · exact le_trans (by decide) h.1
    · exact le_trans (by decide) h.1
    · decide
    · decide
    · decide
  simp only [isSpace, Bool.or_eq_false_iff, Bool.and_eq_false_iff, decide_eq_false_iff_not, UInt8.le_iff_toNat_le,
    UInt8.ext_iff]
  have h32 : (32 : UInt8).toNat = 32 := rfl
  have h13 : (13 : UInt8).toNat = 13 := rfl
  omega
