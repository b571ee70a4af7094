import AfsimNs3.Adapter.Fields
import AfsimNs3.Adapter.Scan

/-!
# What the gates make of a field

`FieldRead`: the text of an object, searched for a field, is read at the field itself and as the value a JSON decoder
gives for it. `fieldRead_iff`: this is so exactly when no string ahead of the field shadows its name and the value is
`Readable`.
-/

namespace AfsimNs3.Adapter

/-! ## Strings -/

/-- The character needs no numeric escape. -/
def PlainChar (c : CodePoint) : Prop := 32 ≤ c.val ∨ c.val ∈ [8, 9, 10, 12, 13]

instance (c : CodePoint) : Decidable (PlainChar c) := inferInstanceAs (Decidable (_ ∨ _))

/-- The text of the string needs no numeric escape. -/
def Plain (s : Str) : Prop := ∀ c ∈ s, PlainChar c

instance (s : Str) : Decidable (Plain s) := List.decidableBAll PlainChar s

theorem plain_nil : Plain [] := fun _ h => absurd h List.not_mem_nil

theorem plain_cons {c : CodePoint} {s : Str} : Plain (c :: s) ↔ PlainChar c ∧ Plain s := List.forall_mem_cons

theorem unquote_quote (b : Bytes) : unquote (34 :: b) = .ok [] := by
  cases b with
  | nil => rfl
  | cons c b => rfl

theorem unquote_cons {c : UInt8} (hquote : c ≠ 34) (hback : c ≠ 92) {b : Bytes} (hb : b ≠ []) :
    unquote (c :: b) = (unquote b).map (c :: ·) := by
  cases b with
  | nil => exact absurd rfl hb
  | cons d b => rw [unquote, if_neg hquote, if_pos hback]

theorem unquote_plain {a b : Bytes} (ha : ∀ c ∈ a, c ≠ 34 ∧ c ≠ 92) (hb : b ≠ []) :
    unquote (a ++ b) = (unquote b).map (a ++ ·) := by
  induction a with
  | nil =>
    rw [List.nil_append]
    cases unquote b <;> rfl
  | cons c a ih =>
    rw [List.forall_mem_cons] at ha
    rw [List.cons_append, unquote_cons ha.1.1 ha.1.2 (List.append_ne_nil_of_right_ne_nil a hb), ih ha.2]
    cases unquote b <;> rfl

theorem unquote_short {c : CodePoint} {d : UInt8} (h : (d, c.val) ∈ shortEscapes) (b : Bytes) :
    unquote ([92, d] ++ b) = (unquote b).map (utf8Char c ++ ·) := by
  have htable : ∀ e ∈ shortEscapes, unescapeChar e.1 = some (UInt8.ofNat e.2) ∧ e.2 < 128 := by decide
  obtain ⟨hd, hc⟩ := htable _ h
  rw [List.cons_append, List.cons_append, List.nil_append, unquote, if_neg (by decide), if_neg (by decide), hd,
    utf8Char_of_lt hc]
  rfl

/-- One character of a quoted string. -/
theorem unquote_escapeChar (c : CodePoint) {b : Bytes} (hb : b ≠ []) :
    unquote (escapeChar c ++ b) = if PlainChar c then (unquote b).map (utf8Char c ++ ·)
      else .error (ascii "unsupported JSON string escape") := by
  have hform := escaped c
  generalize escapeChar c = text at hform ⊢
  cases hform with
  | short d h =>
    have htable : ∀ e ∈ shortEscapes, 32 ≤ e.2 ∨ e.2 ∈ [8, 9, 10, 12, 13] := by decide
    have hplain : PlainChar c := htable _ h
    rw [if_pos hplain, unquote_short h]
  | control h hshort =>
    have hplain : ¬ PlainChar c := by
      simp only [shortEscapes, List.map_cons, List.map_nil, List.mem_cons, List.not_mem_nil, or_false] at hshort
      simp only [PlainChar, List.mem_cons, List.not_mem_nil, or_false]
      omega
    rw [if_neg hplain]
    rfl
  | plain h hquote hback => rw [if_pos (.inl h), unquote_plain (plain_utf8Char hquote hback) hb]

/-- **A quoted string** is read back when its text needs no numeric escape, and raises otherwise. -/
theorem unquote_escape (s : Str) (b : Bytes) : unquote (escape s ++ 34 :: b) =
    if Plain s then .ok (utf8 s) else .error (ascii "unsupported JSON string escape") := by
  induction s with
  | nil =>
    rw [if_pos plain_nil]
    exact unquote_quote b
  | cons c s ih =>
    have hne : escape s ++ 34 :: b ≠ [] := List.append_ne_nil_of_right_ne_nil _ (List.cons_ne_nil _ _)
    have hcons : escape (c :: s) ++ 34 :: b = escapeChar c ++ (escape s ++ 34 :: b) := by
      rw [escape, List.flatMap_cons, List.append_assoc]
      rfl
    rw [hcons, unquote_escapeChar c hne, ih]
    by_cases hc : PlainChar c
    · by_cases hs : Plain s
      · rw [if_pos hc, if_pos hs, if_pos (plain_cons.mpr ⟨hc, hs⟩)]
        rfl
      · rw [if_pos hc, if_neg hs, if_neg fun h => hs (plain_cons.mp h).2]
        rfl
    · rw [if_neg hc, if_neg fun h => hc (plain_cons.mp h).1]

/-! ## Integers -/

theorem le_foldl_digits (digits : Bytes) (value : ℕ) :
    value ≤ digits.foldl (fun value c => 10 * value + (c.toNat - 48)) value := by
  induction digits generalizing value with
  | nil => exact Nat.le_refl value
  | cons c digits ih =>
    have hle := ih (10 * value + (c.toNat - 48))
    rw [List.foldl_cons]
    omega

theorem digitOf_toNat {c : UInt8} (h : isDigit c = true) : (digitOf c).toNat = c.toNat - 48 ∧ (digitOf c).toNat ≤ 9 := by
  rw [isDigit_iff] at h
  have hsub : (c - 48).toNat = c.toNat - 48 := UInt8.toNat_sub_of_le _ _ (UInt8.le_iff_toNat_le.mpr h.1)
  rw [digitOf, UInt8.toNat_toUInt64, hsub]
  omega

/-- What the test of a turn tells about the integers. -/
theorem exceeds_iff {value digit : UInt64} (hdigit : digit.toNat ≤ 9) :
    (uint64Max - digit) / 10 < value ↔ 2 ^ 64 ≤ value.toNat * 10 + digit.toNat := by
  have hmax : uint64Max.toNat = 2 ^ 64 - 1 := rfl
  have hsub : (uint64Max - digit).toNat = 2 ^ 64 - 1 - digit.toNat := by
    rw [UInt64.toNat_sub_of_le _ _ (UInt64.le_iff_toNat_le.mpr (by omega)), hmax]
  rw [UInt64.lt_iff_toNat_lt, UInt64.toNat_div, hsub]
  show (2 ^ 64 - 1 - digit.toNat) / 10 < value.toNat ↔ _
  omega

/-- Behind the test neither the product nor the sum wraps. -/
theorem turn_exact {value digit : UInt64} (hdigit : digit.toNat ≤ 9) (h : ¬ (uint64Max - digit) / 10 < value) :
    (value * 10).toNat = value.toNat * 10 ∧ (value * 10 + digit).toNat = value.toNat * 10 + digit.toNat := by
  rw [exceeds_iff hdigit] at h
  have hten : (10 : UInt64).toNat = 10 := rfl
  have hproduct : (value * 10).toNat = value.toNat * 10 := by
    rw [UInt64.toNat_mul, hten, Nat.mod_eq_of_lt (by omega)]
  refine ⟨hproduct, ?_⟩
  rw [UInt64.toNat_add, hproduct, Nat.mod_eq_of_lt (by omega)]

/-- The digits of `JsonUint64`: the value, while it fits. -/
theorem uint64Digits_eq {digits rest : Bytes} (hdigits : ∀ c ∈ digits, isDigit c = true)
    (hrest : ∀ c ∈ rest.head?, isDigit c = false) {value : UInt64} {n : ℕ}
    (hn : digits.foldl (fun value c => 10 * value + (c.toNat - 48)) value.toNat = n) :
    uint64Digits value (digits ++ rest) =
      if n < 2 ^ 64 then .ok (UInt64.ofNat n) else .error (ascii "JSON integer exceeds uint64 range") := by
  induction digits generalizing value with
  | nil =>
    rw [List.foldl_nil] at hn
    rw [List.nil_append, ← hn, if_pos value.toNat_lt, UInt64.ofNat_toNat]
    cases rest with
    | nil => rfl
    | cons c rest => rw [uint64Digits, hrest c rfl, if_neg Bool.false_ne_true]
  | cons c digits ih =>
    rw [List.forall_mem_cons] at hdigits
    obtain ⟨hc, hnine⟩ := digitOf_toNat hdigits.1
    have hle := le_foldl_digits digits (10 * value.toNat + (c.toNat - 48))
    rw [List.foldl_cons] at hn
    rw [List.cons_append, uint64Digits, if_pos hdigits.1]
    by_cases hexceeds : (uint64Max - digitOf c) / 10 < value
    · have hover := (exceeds_iff hnine).mp hexceeds
      rw [if_pos hexceeds, if_neg (by omega)]
    · have hturn := (turn_exact hnine hexceeds).2
      rw [hc, Nat.mul_comm] at hturn
      rw [if_neg hexceeds]
      apply ih hdigits.2
      rw [hturn, hn]

/-- **The digits at the value are read as the integer they denote**, or refused. -/
theorem jsonUint64_digits {json key digits rest : Bytes} {position : ℕ} (hstart : valueStart json key = .ok position)
    (hjson : json.drop position = digits ++ rest) (hne : digits ≠ []) (hdigits : ∀ c ∈ digits, isDigit c = true)
    (hrest : ∀ c ∈ rest.head?, isDigit c = false) :
    jsonUint64 json key = if digitsValue digits < 2 ^ 64 then .ok (UInt64.ofNat (digitsValue digits))
      else .error (ascii "JSON integer exceeds uint64 range") := by
  have hloop : uint64Digits 0 (digits ++ rest) = if digitsValue digits < 2 ^ 64 then
      .ok (UInt64.ofNat (digitsValue digits)) else .error (ascii "JSON integer exceeds uint64 range") :=
    uint64Digits_eq hdigits hrest rfl
  obtain ⟨c, digits, rfl⟩ := List.exists_cons_of_ne_nil hne
  rw [List.cons_append] at hjson hloop
  rw [jsonUint64, hstart, Except.ok_bind, hjson]
  dsimp only
  rw [if_pos (hdigits c List.mem_cons_self), hloop]

/-! ## Fields -/

/-- The gate's reading of a field, against the value a decoder gives. -/
def Reads (stod : Bytes → Except Bytes Double) (floatText : ℚ → Bytes) (json key : Bytes) : Json → Prop
  | .bool b => jsonBool json key = .ok b
  | .int n => (jsonUint64 json key).map (fun value => (value.toNat : ℤ)) = .ok n
  | .float x => ∃ q, x = .finite q ∧ jsonDouble stod json key = .ok q
  | .str s => jsonString json key = .ok (utf8 s)
  | .arr items => objectArray json key = .ok (items.map (dumps floatText))
  | _ => False

/-- The value has a form the gates can read: a string without numeric escapes, an unsigned integer of 64 bits, a
finite number whose text `std::stod` reads back. -/
def Readable (stod : Bytes → Except Bytes Double) (floatText : ℚ → Bytes) : Json → Prop
  | .bool _ => True
  | .int n => 0 ≤ n ∧ n < 2 ^ 64
  | .float (.finite q) => (stod (floatText q)).toOption = some (.finite q)
  | .str s => Plain s
  | .arr _ => True
  | _ => False

instance (stod : Bytes → Except Bytes Double) (floatText : ℚ → Bytes) :
    (v : Json) → Decidable (Readable stod floatText v)
  | .null => .isFalse id
  | .bool _ => .isTrue trivial
  | .int n => inferInstanceAs (Decidable (0 ≤ n ∧ n < 2 ^ 64))
  | .float (.finite q) => inferInstanceAs (Decidable ((stod (floatText q)).toOption = some (.finite q)))
  | .float (.inf _) => .isFalse id
  | .float .nan => .isFalse id
  | .str s => inferInstanceAs (Decidable (Plain s))
  | .arr _ => .isTrue trivial
  | .obj _ => .isFalse id

/-- `std::stod` stops where the text of a number ends. -/
def StopsAtDelimiter (stod : Bytes → Except Bytes Double) (floatText : ℚ → Bytes) : Prop :=
  ∀ x d rest, d = 44 ∨ d = 125 → stod (floatBytes floatText x ++ d :: rest) = stod (floatBytes floatText x)

section Reading
variable {stod : Bytes → Except Bytes Double} {floatText : ℚ → Bytes} {json key a rest : Bytes} {d : UInt8}
  (hd : d = 44 ∨ d = 125) (hfound : valueStart json key = .ok a.length)

section
include hfound

theorem jsonString_eq (s : Str) (hjson : json = a ++ (quoted s ++ d :: rest)) :
    jsonString json key = if Plain s then .ok (utf8 s) else .error (ascii "unsupported JSON string escape") := by
  have hdrop : json.drop a.length = 34 :: (escape s ++ 34 :: (d :: rest)) := by
    rw [hjson, List.drop_left, quoted]
    simp only [List.cons_append, List.append_assoc, List.nil_append]
  rw [jsonString, hfound, Except.ok_bind, hdrop]
  exact unquote_escape s (d :: rest)

theorem jsonBool_eq (b : Bool) (hjson : json = a ++ (dumps floatText (.bool b) ++ rest)) :
    jsonBool json key = .ok b := by
  rw [jsonBool, hfound, Except.ok_bind, hjson, List.drop_left]
  cases b <;> rw [dumps] <;> rfl

include hd

theorem jsonUint64_eq (n : ℕ) (hjson : json = a ++ (natBytes n ++ d :: rest)) :
    jsonUint64 json key =
      if n < 2 ^ 64 then .ok (UInt64.ofNat n) else .error (ascii "JSON integer exceeds uint64 range") := by
  have hrest : ∀ c ∈ (d :: rest).head?, isDigit c = false := by
    intro c hc
    rcases hd with rfl | rfl <;> exact Option.some.inj hc ▸ rfl
  have hread := jsonUint64_digits hfound (by rw [hjson, List.drop_left]) (natBytes_ne_nil n)
    (fun c hc => isDigit_of_mem_natBytes hc) hrest
  rw [hread, digitsValue_natBytes]

theorem jsonUint64_reads_iff (n : ℤ) (hjson : json = a ++ (intBytes n ++ d :: rest)) :
    (jsonUint64 json key).map (fun value => (value.toNat : ℤ)) = .ok n ↔ 0 ≤ n ∧ n < 2 ^ 64 := by
  by_cases hneg : n < 0
  · have herror : jsonUint64 json key = .error (ascii "JSON field is not an unsigned integer: " ++ key) := by
      rw [jsonUint64, hfound, Except.ok_bind, hjson, List.drop_left, intBytes, if_pos hneg, List.cons_append]
      exact if_neg (by decide)
    rw [herror]
    exact iff_of_false Except.error_ne_ok fun h => absurd h.1 (by omega)
  · rw [intBytes, if_neg hneg] at hjson
    rw [jsonUint64_eq hd hfound _ hjson]
    split_ifs with hfits
    · refine ⟨fun _ => by omega, fun _ => ?_⟩
      have hvalue : (UInt64.ofNat n.natAbs).toNat = n.natAbs := by
        rw [UInt64.toNat_ofNat', Nat.mod_eq_of_lt hfits]
      rw [Except.map, hvalue]
      congr 1
      omega
    · exact iff_of_false Except.error_ne_ok fun h => absurd h.2 (by omega)

theorem jsonDouble_reads_iff (hstod : StopsAtDelimiter stod floatText) (x : Double)
    (hjson : json = a ++ (floatBytes floatText x ++ d :: rest)) (q : ℚ) :
    jsonDouble stod json key = .ok q ↔ stod (floatBytes floatText x) = .ok (.finite q) := by
  rw [jsonDouble, hfound, Except.ok_bind, hjson, List.drop_left, hstod x d rest hd, Except.bind_ok_iff]
  constructor
  · rintro ⟨y, hy, hfinite⟩
    cases y with
    | finite p => exact Except.ok.inj hfinite ▸ hy
    | inf negative => cases hfinite
    | nan => cases hfinite
  · exact fun h => ⟨.finite q, h, rfl⟩

end

include hd hfound

/-- **A value at the position found** is read as itself exactly if it is readable. -/
theorem reads_iff (hfloat : NumberText floatText) (hstod : StopsAtDelimiter stod floatText) {v : Json}
    (harray : ∀ items, v = .arr items → ∃ objects : List Fields, items = objects.map .obj)
    (hjson : json = a ++ (dumps floatText v ++ d :: rest)) :
    Reads stod floatText json key v ↔ Readable stod floatText v := by
  cases v with
  | null => exact Iff.rfl
  | bool b => exact ⟨fun _ => trivial, fun _ => jsonBool_eq hfound b hjson⟩
  | int n =>
    rw [dumps] at hjson
    exact jsonUint64_reads_iff hd hfound n hjson
  | float x =>
    rw [dumps] at hjson
    cases x with
    | finite q =>
      have hread := jsonDouble_reads_iff hd hfound hstod _ hjson q
      rw [floatBytes] at hread
      rw [Readable, Except.toOption_eq_some_iff, ← hread]
      constructor
      · rintro ⟨p, hp, h⟩
        exact Double.finite.inj hp ▸ h
      · exact fun h => ⟨q, rfl, h⟩
    | inf negative =>
      refine iff_of_false ?_ id
      rintro ⟨_, h, _⟩
      cases h
    | nan =>
      refine iff_of_false ?_ id
      rintro ⟨_, h, _⟩
      cases h
  | str s =>
    rw [dumps] at hjson
    rw [Reads, Readable, jsonString_eq hfound s hjson]
    split_ifs with hs
    · exact ⟨fun _ => hs, fun _ => rfl⟩
    · exact iff_of_false not_false hs
  | arr items =>
    obtain ⟨objects, rfl⟩ := harray items rfl
    refine ⟨fun _ => trivial, fun _ => ?_⟩
    rw [Reads, objectArray_eq hfloat objects hjson hfound, List.map_map]
    rfl
  | obj fields => exact Iff.rfl

end Reading

/-- Searched for the field in the text of its object, the gate finds the field itself, and reads its value. -/
def FieldRead (stod : Bytes → Except Bytes Double) (floatText : ℚ → Bytes) (fields : Fields) (name : Str) : Prop :=
  valueStart (dumps floatText (.obj fields)) (utf8 name) = .ok (ownPosition floatText name fields) ∧
    Reads stod floatText (dumps floatText (.obj fields)) (utf8 name) (fields.get name)

/-- **A field is read** exactly when no string ahead of it shadows its name, and its value is readable. -/
theorem fieldRead_iff {stod : Bytes → Except Bytes Double} {floatText : ℚ → Bytes} (hfloat : NumberText floatText)
    (hstod : StopsAtDelimiter stod floatText) {name : Str} (hname : FieldName name) {fields : Fields} {v : Json}
    (hv : Assoc.find? fields name = some v)
    (hloud : ∀ field ∈ (ahead name fields).getLast?, Loud floatText name field.2)
    (harray : ∀ items, v = .arr items → ∃ objects : List Fields, items = objects.map .obj) :
    FieldRead stod floatText fields name ↔ Unshadowed name fields ∧ Readable stod floatText v := by
  have hget : fields.get name = v := by
    rw [Fields.get, Fields.getD, hv]
    rfl
  obtain ⟨d, rest, hd, htext⟩ := dumps_split floatText hv
  rw [FieldRead, hget, ← valueStart_field_iff hfloat hname hv hloud]
  have hplace : dumps floatText (.obj fields) = 123 :: fieldsText floatText (ahead name fields) ++ quoted name ++ [58] ++
      (dumps floatText v ++ d :: rest) := by
    rw [htext]
    simp only [List.append_assoc, List.cons_append, List.nil_append]
  exact and_congr_right fun hfound => reads_iff hd hfound hfloat hstod harray hplace

end AfsimNs3.Adapter
