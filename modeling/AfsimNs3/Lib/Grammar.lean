import AfsimNs3.Lib.Ctype
import AfsimNs3.Lib.Dumps

/-!
# The grammar of JSON in octets

`ValueText` holds of the texts of values, with any white space between the tokens: no value is built, only the text is
described. `ObjectsText` gives the texts of the objects of an array along with the text of the whole.
-/

namespace Grammar

/-! ## Tokens -/

/-- White space. -/
def isBlank (c : UInt8) : Bool := c = 32 || c = 9 || c = 10 || c = 13

def Blank (text : Bytes) : Prop := ∀ c ∈ text, isBlank c = true

def Digits (text : Bytes) : Prop := text ≠ [] ∧ ∀ c ∈ text, isDigit c = true

inductive WholeText : Bytes → Prop where
  | zero : WholeText [48]
  | digits {c : UInt8} {rest : Bytes} : isDigit c = true → c ≠ 48 → (∀ d ∈ rest, isDigit d = true) → WholeText (c :: rest)

inductive FractionText : Bytes → Prop where
  | none : FractionText []
  | digits {text : Bytes} : Digits text → FractionText (46 :: text)

inductive ExponentText : Bytes → Prop where
  | none : ExponentText []
  | digits {mark : UInt8} {sign text : Bytes} : mark ∈ [69, 101] → sign ∈ [[], [43], [45]] → Digits text →
      ExponentText (mark :: (sign ++ text))

inductive NumeralText : Bytes → Prop where
  | mk {sign whole fraction exponent : Bytes} : sign ∈ [[], [45]] → WholeText whole → FractionText fraction →
      ExponentText exponent → NumeralText (sign ++ (whole ++ (fraction ++ exponent)))

def isHexDigit (c : UInt8) : Bool := isDigit c || (65 ≤ c && c ≤ 70) || (97 ≤ c && c ≤ 102)

/-- A character of a string. -/
inductive CharText : Bytes → Prop where
  | plain {c : UInt8} : 32 ≤ c → c ≠ 34 → c ≠ 92 → CharText [c]
  | short {c : UInt8} : c ∈ ascii "\"\\/bfnrt" → CharText [92, c]
  | unit {digits : Bytes} : digits.length = 4 → (∀ c ∈ digits, isHexDigit c = true) → CharText (92 :: 117 :: digits)

inductive StringText : Bytes → Prop where
  | mk {chars : List Bytes} : (∀ char ∈ chars, CharText char) → StringText (34 :: (chars.flatten ++ [34]))

/-! ## What the tokens are made of -/

theorem isScalar_of_isDigit {c : UInt8} (h : isDigit c = true) : isScalar c = true := by
  rw [isScalar, h]
  rfl

theorem isScalar_digits {text : Bytes} (h : ∀ c ∈ text, isDigit c = true) : ∀ c ∈ text, isScalar c = true :=
  fun c hc => isScalar_of_isDigit (h c hc)

theorem WholeText.isScalar {text : Bytes} (h : WholeText text) : ∀ c ∈ text, isScalar c = true := by
  apply isScalar_digits
  cases h with
  | zero => exact forall_of_all (by decide)
  | digits first _ rest => exact List.forall_mem_cons.mpr ⟨first, rest⟩

theorem FractionText.isScalar {text : Bytes} (h : FractionText text) : ∀ c ∈ text, isScalar c = true := by
  cases h with
  | none => exact List.forall_mem_nil _
  | digits digits => exact List.forall_mem_cons.mpr ⟨by decide, isScalar_digits digits.2⟩

theorem isScalar_sign {sign : Bytes} (h : sign ∈ [[], [43], [45]]) : ∀ c ∈ sign, isScalar c = true := by
  simp only [List.mem_cons, List.not_mem_nil, or_false] at h
  rcases h with rfl | rfl | rfl <;> exact forall_of_all (by decide)

theorem ExponentText.isScalar {text : Bytes} (h : ExponentText text) : ∀ c ∈ text, isScalar c = true := by
  cases h with
  | none => exact List.forall_mem_nil _
  | @digits mark sign text hmark hsign digits =>
    rw [List.forall_mem_cons, List.forall_mem_append]
    refine ⟨?_, isScalar_sign hsign, isScalar_digits digits.2⟩
    simp only [List.mem_cons, List.not_mem_nil, or_false] at hmark
    rcases hmark with rfl | rfl <;> decide

theorem NumeralText.isScalar {text : Bytes} (h : NumeralText text) : ∀ c ∈ text, isScalar c = true := by
  obtain ⟨hsign, whole, fraction, exponent⟩ := h
  rw [List.forall_mem_append, List.forall_mem_append, List.forall_mem_append]
  refine ⟨isScalar_sign ?_, whole.isScalar, fraction.isScalar, exponent.isScalar⟩
  simp only [List.mem_cons, List.not_mem_nil, or_false] at hsign ⊢
  tauto

/-! ## Values -/

/-- A text with white space around it. -/
structure Slot where
  before : Bytes
  text : Bytes
  after : Bytes

def Slot.whole (slot : Slot) : Bytes := slot.before ++ (slot.text ++ slot.after)

/-- The name and the value of a binding. -/
structure Member where
  name : Slot
  value : Slot

def Member.whole (member : Member) : Bytes := member.name.whole ++ 58 :: member.value.whole

structure Slot.Spaced (slot : Slot) : Prop where
  before : Blank slot.before
  after : Blank slot.after

structure Member.Named (member : Member) : Prop where
  text : StringText member.name.text
  name : member.name.Spaced
  value : member.value.Spaced

inductive ValueText : Bytes → Prop where
  | keyword {text : Bytes} : text ∈ [ascii "null", ascii "true", ascii "false"] → ValueText text
  | numeral {text : Bytes} : NumeralText text → ValueText text
  | string {text : Bytes} : StringText text → ValueText text
  | emptyArray {blank : Bytes} : Blank blank → ValueText (91 :: (blank ++ [93]))
  | array {slots : List Slot} : (∀ slot ∈ slots, slot.Spaced) → (∀ slot ∈ slots, ValueText slot.text) →
      ValueText (91 :: (commaJoin (slots.map Slot.whole) ++ [93]))
  | emptyObject {blank : Bytes} : Blank blank → ValueText (123 :: (blank ++ [125]))
  | object {members : List Member} : (∀ member ∈ members, member.Named) →
      (∀ member ∈ members, ValueText member.value.text) →
      ValueText (123 :: (commaJoin (members.map Member.whole) ++ [125]))

/-- The text of an object. -/
def IsObject (text : Bytes) : Prop := ValueText text ∧ text.head? = some 123

/-- The text of an array of objects, with the texts of these. -/
inductive ObjectsText : Bytes → List Bytes → Prop where
  | empty {blank : Bytes} : Blank blank → ObjectsText (91 :: (blank ++ [93])) []
  | slots {slots : List Slot} : (∀ slot ∈ slots, slot.Spaced) → (∀ slot ∈ slots, IsObject slot.text) →
      ObjectsText (91 :: (commaJoin (slots.map Slot.whole) ++ [93])) (slots.map Slot.text)

theorem ObjectsText.valueText {text : Bytes} {texts : List Bytes} (h : ObjectsText text texts) : ValueText text := by
  cases h with
  | empty blank => exact .emptyArray blank
  | slots spaced objects => exact .array spaced (fun slot hslot => (objects slot hslot).1)

end Grammar
