import Mathlib.Data.FinEnum
import Mathlib.Data.List.DropRight
import Mathlib.Data.List.Infix
import Mathlib.Data.List.Lex
import Mathlib.Data.Fin.Basic

/-!
# Text as code points and as bytes

`Str` is a sequence of Unicode code points (lone surrogates included, as an interpreter's string type allows
them), `Bytes` a sequence of octets; `utf8` encodes the one as the other. `strip` removes surrounding white space.
-/

abbrev CodePoint := Fin 0x110000

abbrev Str := List CodePoint

abbrev Bytes := List UInt8

/-! Literals and membership of texts go through these two instances in every module. -/

instance CodePoint.neZero : @NeZero ℕ Zero.ofOfNat0 0x110000 := ⟨Nat.succ_ne_zero _⟩

instance Str.lawfulBEq : LawfulBEq Str := inferInstance

/-- A text literal. -/
def str (s : String) : Str := s.toList.map (fun c => Fin.ofNat 0x110000 c.toNat)

/-- A literal of ASCII characters, as octets. -/
def ascii (s : String) : Bytes := s.toList.map (fun c => UInt8.ofNat c.toNat)

/-- A literal is its characters. The kernel decodes a long one slowly, so a computation starts with rewriting these. -/
theorem ascii_ofList (cs : List Char) : ascii (String.ofList cs) = cs.map (fun c => UInt8.ofNat c.toNat) := by
  rw [ascii, String.toList_ofList]

/-- The decimal digits of a number, as octets. -/
def natBytes (n : ℕ) : Bytes := (Nat.toDigits 10 n).map (fun c => UInt8.ofNat c.toNat)

def intBytes (n : ℤ) : Bytes := if n < 0 then 45 :: natBytes n.natAbs else natBytes n.natAbs

/-- What is checked item by item holds of every item. -/
theorem forall_of_all {α : Type} {P : α → Prop} [DecidablePred P] {xs : List α}
    (h : xs.all (fun x => decide (P x)) = true) : ∀ x ∈ xs, P x := by
  simpa using h

namespace Str

/-- The code points `str.isspace` holds of. -/
def isSpace (c : CodePoint) : Bool :=
  (9 ≤ c.val && c.val ≤ 13) || (0x1c ≤ c.val && c.val ≤ 0x20) || c.val = 0x85 || c.val = 0xa0 || c.val = 0x1680 ||
    (0x2000 ≤ c.val && c.val ≤ 0x200a) || c.val = 0x2028 || c.val = 0x2029 || c.val = 0x202f || c.val = 0x205f ||
    c.val = 0x3000

/-- `text.strip()`. -/
def strip (s : Str) : Str := (s.dropWhile isSpace).rdropWhile isSpace

/-- Lower case of the ASCII letters. -/
def lower (s : Str) : Str := s.map (fun c => if 65 ≤ c.val ∧ c.val ≤ 90 then c + 32 else c)

/-- Upper case of the ASCII letters. -/
def upper (s : Str) : Str := s.map (fun c => if 97 ≤ c.val ∧ c.val ≤ 122 then c - 32 else c)

/-- The text has no surrounding white space. -/
def Trimmed (s : Str) : Prop := strip s = s

instance (s : Str) : Decidable (Trimmed s) := inferInstanceAs (Decidable (strip s = s))

theorem dropWhile_rdropWhile {s : Str} (h : s.dropWhile isSpace = s) :
    (s.rdropWhile isSpace).dropWhile isSpace = s.rdropWhile isSpace := by
  cases hr : s.rdropWhile isSpace with
  | nil => rfl
  | cons c rest =>
    obtain ⟨t, ht⟩ := List.rdropWhile_prefix isSpace (l := s)
    rw [hr, List.cons_append] at ht
    rw [← ht] at h
    rw [List.dropWhile_cons] at h ⊢
    split_ifs at h ⊢ with hc
    · have hlen := congrArg List.length h
      have hle := (List.dropWhile_suffix isSpace (l := rest ++ t)).length_le
      simp only [List.length_cons] at hlen
      omega
    · rfl

theorem strip_trimmed (s : Str) : Trimmed (strip s) := by
  unfold Trimmed strip
  have hdrop : (s.dropWhile isSpace).dropWhile isSpace = s.dropWhile isSpace :=
    List.dropWhile_idempotent isSpace s
  rw [dropWhile_rdropWhile hdrop, List.rdropWhile_idempotent]

theorem strip_strip (s : Str) : strip (strip s) = strip s := strip_trimmed s

theorem trimmed_of_forall {s : Str} (h : ∀ c ∈ s, isSpace c = false) : Trimmed s := by
  have hdrop : s.dropWhile isSpace = s := by
    rw [List.dropWhile_eq_self_iff]
    intro hl
    rw [h _ (List.getElem_mem hl)]
    exact Bool.false_ne_true
  have hrdrop : s.rdropWhile isSpace = s := by
    rw [List.rdropWhile_eq_self_iff]
    intro hl
    rw [h _ (List.getLast_mem hl)]
    exact Bool.false_ne_true
  rw [Trimmed, strip, hdrop, hrdrop]

/-- The decimal text of a number carries no white space. -/
theorem trimmed_natText (n : ℕ) : Trimmed (str (toString n)) := by
  refine trimmed_of_forall fun c hc => ?_
  obtain ⟨d, hd, rfl⟩ := List.mem_map.mp hc
  rw [Nat.toString_eq_repr, Nat.toList_repr] at hd
  have hdigit := Nat.isDigit_of_mem_toDigits (by decide) (by decide) hd
  simp only [Char.isDigit, ge_iff_le, Bool.and_eq_true, decide_eq_true_eq] at hdigit
  have hlow : 48 ≤ d.toNat := UInt32.le_iff_toNat_le.mp hdigit.1
  have hhigh : d.toNat ≤ 57 := UInt32.le_iff_toNat_le.mp hdigit.2
  have hval : (Fin.ofNat 0x110000 d.toNat : CodePoint).val = d.toNat := by
    rw [Fin.val_ofNat, Nat.mod_eq_of_lt (by omega)]
  simp only [isSpace, hval, Bool.or_eq_false_iff, Bool.and_eq_false_iff, decide_eq_false_iff_not]
  omega

end Str

/-! ## UTF-8 -/

/-- The UTF-8 octets of a code point (of a surrogate, the three octets the scheme would give it). -/
def utf8Char (c : CodePoint) : Bytes :=
  if c.val < 0x80 then [UInt8.ofNat c.val]
  else if c.val < 0x800 then [UInt8.ofNat (0xc0 + c.val / 64), UInt8.ofNat (0x80 + c.val % 64)]
  else if c.val < 0x10000 then
    [UInt8.ofNat (0xe0 + c.val / 4096), UInt8.ofNat (0x80 + c.val / 64 % 64), UInt8.ofNat (0x80 + c.val % 64)]
  else
    [UInt8.ofNat (0xf0 + c.val / 262144), UInt8.ofNat (0x80 + c.val / 4096 % 64), UInt8.ofNat (0x80 + c.val / 64 % 64),
      UInt8.ofNat (0x80 + c.val % 64)]

def utf8 (s : Str) : Bytes := s.flatMap utf8Char
