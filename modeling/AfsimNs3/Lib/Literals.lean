import AfsimNs3.Lib.Ctype
import AfsimNs3.Lib.Json
import Mathlib.Tactic.IntervalCases

/-!
# The literals of JSON text

The scanners of a number and of the rest of a string, as `json.loads` has them. A number is scanned into a `Numeral`,
the pieces of its text; a `\\u` escape stands for a UTF-16 unit, and two escaped units of a surrogate pair for one
character.

`scanNumber_text` and `scanPieces_quoted` are what a text made of a valid numeral, or of an escaped string, is scanned
into in front of anything that does not go on with it.
-/

namespace Loads

def isDigit (c : CodePoint) : Bool := 48 ≤ c.val && c.val ≤ 57

/-- White space between tokens. -/
def isSpace (c : CodePoint) : Bool := c.val = 32 || c.val = 9 || c.val = 10 || c.val = 13

def skip (s : Str) : Str := s.dropWhile isSpace

/-! ## Numbers -/

/-- The exponent of a number: `e` or `E`, a sign if there is one, and the digits. -/
structure Exponent where
  mark : CodePoint
  sign : Option CodePoint
  digits : Str

/-- A number literal. -/
structure Numeral where
  negative : Bool
  whole : Str
  fraction : Option Str
  exponent : Option Exponent

def digitsValue (digits : Str) : ℕ := digits.foldl (fun n c => 10 * n + (c.val - 48)) 0

namespace Exponent

def text (e : Exponent) : Str := e.mark :: (e.sign.toList ++ e.digits)

def value (e : Exponent) : ℤ :=
  if e.sign.any (fun c => c.val = 45) then -(digitsValue e.digits : ℤ) else digitsValue e.digits

structure Valid (e : Exponent) : Prop where
  mark : e.mark.val = 101 ∨ e.mark.val = 69
  sign : ∀ c ∈ e.sign, c.val = 43 ∨ c.val = 45
  digits : ∀ c ∈ e.digits, isDigit c = true
  nonempty : e.digits ≠ []

end Exponent

namespace Numeral

def text (n : Numeral) : Str :=
  (if n.negative then [45] else []) ++ n.whole ++ n.fraction.elim [] (fun digits => 46 :: digits) ++
    n.exponent.elim [] Exponent.text

/-- The literal is one of an integer. -/
def isInteger (n : Numeral) : Bool := n.fraction.isNone && n.exponent.isNone

/-- The rational a literal stands for. -/
def rational (n : Numeral) : ℚ :=
  let digits := n.whole ++ n.fraction.getD []
  let exponent := n.exponent.elim 0 Exponent.value - (n.fraction.getD []).length
  (if n.negative then -1 else 1) * digitsValue digits * 10 ^ exponent

/-- The value of a literal: an integer, or the nearest double. -/
def value (n : Numeral) : Json :=
  if n.isInteger then .int (if n.negative then -(digitsValue n.whole : ℤ) else digitsValue n.whole)
  else .float (Double.ofRat n.rational)

/-- The grammar of number literals. -/
structure Valid (n : Numeral) : Prop where
  whole : ∀ c ∈ n.whole, isDigit c = true
  nonempty : n.whole ≠ []
  leading : ∀ c ∈ n.whole.head?, c.val = 48 → n.whole.length = 1
  fraction : ∀ digits ∈ n.fraction, digits ≠ [] ∧ ∀ c ∈ digits, isDigit c = true
  exponent : ∀ e ∈ n.exponent, e.Valid

end Numeral

/-- An optional minus sign. -/
def scanSign : Str → Bool × Str
  | [] => (false, [])
  | c :: s => if c.val = 45 then (true, s) else (false, c :: s)

/-- A zero, or digits that do not begin with one. -/
def scanWhole : Str → Option (Str × Str)
  | [] => none
  | c :: s =>
    if c.val = 48 then some ([c], s)
    else if isDigit c then some (c :: s.takeWhile isDigit, s.dropWhile isDigit)
    else none

/-- A point with digits behind it; a point alone is left where it is. -/
def scanFraction : Str → Option Str × Str
  | [] => (none, [])
  | c :: s =>
    if c.val = 46 ∧ s.takeWhile isDigit ≠ [] then (some (s.takeWhile isDigit), s.dropWhile isDigit) else (none, c :: s)

def exponentSign : Str → Option CodePoint × Str
  | [] => (none, [])
  | c :: s => if c.val = 43 ∨ c.val = 45 then (some c, s) else (none, c :: s)

/-- An exponent with its digits; without them it is left where it is. -/
def scanExponent : Str → Option Exponent × Str
  | [] => (none, [])
  | c :: s =>
    let (sign, digits) := exponentSign s
    if (c.val = 101 ∨ c.val = 69) ∧ digits.takeWhile isDigit ≠ [] then
      (some ⟨c, sign, digits.takeWhile isDigit⟩, digits.dropWhile isDigit)
    else (none, c :: s)

def scanNumber (s : Str) : Option (Numeral × Str) :=
  let (negative, s) := scanSign s
  match scanWhole s with
  | none => none
  | some (whole, s) =>
    let (fraction, s) := scanFraction s
    let (exponent, s) := scanExponent s
    some (⟨negative, whole, fraction, exponent⟩, s)

/-- Nothing that goes on with a number. -/
def Stops (rest : Str) : Prop :=
  ∀ c ∈ rest.head?, isDigit c = false ∧ c.val ≠ 46 ∧ c.val ≠ 101 ∧ c.val ≠ 69

theorem isDigit_iff {c : CodePoint} : isDigit c = true ↔ 48 ≤ c.val ∧ c.val ≤ 57 := by
  rw [isDigit, Bool.and_eq_true, decide_eq_true_eq, decide_eq_true_eq]

/-- Digits end where something else begins. -/
theorem span_digits {digits rest : Str} (hdigits : ∀ c ∈ digits, isDigit c = true)
    (hrest : ∀ c ∈ rest.head?, isDigit c = false) :
    (digits ++ rest).takeWhile isDigit = digits ∧ (digits ++ rest).dropWhile isDigit = rest := by
  have hstop : rest.takeWhile isDigit = [] ∧ rest.dropWhile isDigit = rest := by
    cases rest with
    | nil => exact ⟨rfl, rfl⟩
    | cons c rest =>
      have hc := hrest c rfl
      rw [List.takeWhile_cons, List.dropWhile_cons, hc]
      exact ⟨rfl, rfl⟩
  rw [List.takeWhile_append_of_pos hdigits, List.dropWhile_append_of_pos hdigits, hstop.1, hstop.2, List.append_nil]
  exact ⟨rfl, rfl⟩

theorem scanExponent_text {exponent : Option Exponent} (h : ∀ e ∈ exponent, e.Valid) {rest : Str} (hrest : Stops rest) :
    scanExponent (exponent.elim [] Exponent.text ++ rest) = (exponent, rest) := by
  cases exponent with
  | none =>
    rw [Option.elim_none, List.nil_append]
    cases rest with
    | nil => rfl
    | cons c rest =>
      obtain ⟨-, -, hlower, hupper⟩ := hrest c rfl
      rw [scanExponent]
      exact if_neg fun hc => hc.1.elim hlower hupper
  | some e =>
    have he := h e rfl
    have hspan := span_digits he.digits fun c hc => (hrest c hc).1
    have hsign : exponentSign (e.sign.toList ++ e.digits ++ rest) = (e.sign, e.digits ++ rest) := by
      cases hs : e.sign with
      | none =>
        rw [Option.toList_none, List.nil_append]
        cases hdigits : e.digits with
        | nil => exact absurd hdigits he.nonempty
        | cons d digits =>
          have hd := isDigit_iff.mp (he.digits d (hdigits ▸ List.mem_cons_self))
          rw [List.cons_append, exponentSign, if_neg (by omega)]
      | some c => rw [Option.toList_some, List.singleton_append, List.cons_append, exponentSign, if_pos (he.sign c hs)]
    rw [Option.elim_some, Exponent.text, List.cons_append, scanExponent, hsign]
    dsimp only
    rw [hspan.1, hspan.2, if_pos ⟨he.mark, he.nonempty⟩]

/-- What follows the digits of a number and its fraction: an exponent, or what stops a number. -/
theorem exponent_head {exponent : Option Exponent} (h : ∀ e ∈ exponent, e.Valid) {rest : Str} (hrest : Stops rest) :
    ∀ c ∈ (exponent.elim [] Exponent.text ++ rest).head?, isDigit c = false ∧ c.val ≠ 46 := by
  cases exponent with
  | none =>
    intro c hc
    exact ⟨(hrest c hc).1, (hrest c hc).2.1⟩
  | some e =>
    intro c hc
    obtain rfl : e.mark = c := Option.some.inj hc
    have hmark := (h e rfl).mark
    rw [← Bool.not_eq_true, isDigit_iff]
    omega

theorem scanFraction_text {fraction : Option Str}
    (h : ∀ digits ∈ fraction, digits ≠ [] ∧ ∀ c ∈ digits, isDigit c = true) {rest : Str}
    (hrest : ∀ c ∈ rest.head?, isDigit c = false ∧ c.val ≠ 46) :
    scanFraction (fraction.elim [] (fun digits => 46 :: digits) ++ rest) = (fraction, rest) := by
  cases fraction with
  | none =>
    rw [Option.elim_none, List.nil_append]
    cases rest with
    | nil => rfl
    | cons c rest => rw [scanFraction, if_neg fun hc => (hrest c rfl).2 hc.1]
  | some digits =>
    obtain ⟨hne, hdigits⟩ := h digits rfl
    have hspan := span_digits hdigits fun c hc => (hrest c hc).1
    rw [Option.elim_some, List.cons_append, scanFraction, hspan.1, hspan.2, if_pos ⟨rfl, hne⟩]

/-- **A valid literal is scanned to its end.** -/
theorem scanNumber_text {n : Numeral} (hn : n.Valid) {rest : Str} (hrest : Stops rest) :
    scanNumber (n.text ++ rest) = some (n, rest) := by
  let tail : Str := n.fraction.elim [] (fun digits => 46 :: digits) ++ (n.exponent.elim [] Exponent.text ++ rest)
  have htext : n.text ++ rest = (if n.negative then [45] else []) ++ (n.whole ++ tail) := by
    rw [Numeral.text, List.append_assoc, List.append_assoc, List.append_assoc]
  have hhead := exponent_head hn.exponent hrest
  have htail : ∀ c ∈ tail.head?, isDigit c = false := by
    intro c hc
    cases hf : n.fraction with
    | none =>
      refine (hhead c ?_).1
      simpa only [tail, hf, Option.elim_none, List.nil_append] using hc
    | some digits =>
      have heq : 46 = c := by simpa [tail, hf] using hc
      rw [← heq]
      decide
  have hwhole : scanWhole (n.whole ++ tail) = some (n.whole, tail) := by
    cases hw : n.whole with
    | nil => exact absurd hw hn.nonempty
    | cons c digits =>
      have hdigits : ∀ d ∈ c :: digits, isDigit d = true := fun d hd => hn.whole d (hw ▸ hd)
      rw [List.forall_mem_cons] at hdigits
      rw [List.cons_append, scanWhole]
      by_cases hzero : c.val = 48
      · have hlength := hn.leading c (by rw [hw]; rfl) hzero
        rw [hw, List.length_cons, Nat.add_eq_right, List.length_eq_zero_iff] at hlength
        rw [if_pos hzero, hlength]
        rfl
      · have hspan := span_digits hdigits.2 htail
        rw [if_neg hzero, if_pos hdigits.1, hspan.1, hspan.2]
  have hsign : scanSign (n.text ++ rest) = (n.negative, n.whole ++ tail) := by
    rw [htext]
    cases n.negative with
    | true => rfl
    | false =>
      cases hw : n.whole with
      | nil => exact absurd hw hn.nonempty
      | cons c digits =>
        have hc := isDigit_iff.mp (hn.whole c (hw ▸ List.mem_cons_self))
        rw [if_neg Bool.false_ne_true, List.nil_append, List.cons_append, scanSign, if_neg (by omega)]
  have hfraction : scanFraction tail = (n.fraction, n.exponent.elim [] Exponent.text ++ rest) :=
    scanFraction_text hn.fraction hhead
  unfold scanNumber
  rw [hsign]
  dsimp only
  rw [hwhole]
  dsimp only
  rw [hfraction]
  dsimp only
  rw [scanExponent_text hn.exponent hrest]

/-! ### Decimal numbers -/

/-- The decimal digits of a number. -/
def natText (n : ℕ) : Str := (Nat.toDigits 10 n).map (fun c => Fin.ofNat 0x110000 c.toNat)

/-- The literal of a number without sign, fraction and exponent. -/
def Numeral.ofNat (n : ℕ) : Numeral := ⟨false, natText n, none, none⟩

/-- A digit keeps its value as a code point. -/
theorem val_digit {d : Char} {n : ℕ} (hd : d ∈ Nat.toDigits 10 n) :
    (Fin.ofNat 0x110000 d.toNat : CodePoint).val = d.toNat ∧ 48 ≤ d.toNat ∧ d.toNat ≤ 57 := by
  obtain ⟨-, hlow, hhigh⟩ := toNat_digit hd
  refine ⟨?_, hlow, hhigh⟩
  rw [Fin.val_ofNat, Nat.mod_eq_of_lt (by omega)]

theorem isDigit_of_mem_natText {n : ℕ} {c : CodePoint} (h : c ∈ natText n) : isDigit c = true := by
  obtain ⟨d, hd, rfl⟩ := List.mem_map.mp h
  obtain ⟨hval, hlow, hhigh⟩ := val_digit hd
  rw [isDigit_iff, hval]
  exact ⟨hlow, hhigh⟩

theorem foldl_digits (digits : List Char) (n : ℕ)
    (h : ∀ d ∈ digits, (Fin.ofNat 0x110000 d.toNat : CodePoint).val = d.toNat) :
    (digits.map (fun d => (Fin.ofNat 0x110000 d.toNat : CodePoint))).foldl (fun n c => 10 * n + (c.val - 48)) n =
      Nat.ofDigitChars 10 digits n := by
  induction digits generalizing n with
  | nil => rw [Nat.ofDigitChars_nil]; rfl
  | cons d digits ih =>
    rw [List.forall_mem_cons] at h
    rw [List.map_cons, List.foldl_cons, ih _ h.2, Nat.ofDigitChars_cons, h.1]
    rfl

theorem digitsValue_natText (n : ℕ) : digitsValue (natText n) = n := by
  rw [digitsValue, natText, foldl_digits _ _ fun d hd => (val_digit hd).1, Nat.ofDigitChars_ten_toDigits]

/-- Only zero begins with a zero. -/
theorem head_toDigits (n : ℕ) (hn : n ≠ 0) : (Nat.toDigits 10 n).head? ≠ some '0' := by
  induction n using Nat.strong_induction_on with
  | _ n ih =>
    by_cases hsmall : n < 10
    · rw [Nat.toDigits_of_lt_base hsmall, List.head?_cons, Ne, Option.some.injEq]
      interval_cases n <;> first | exact absurd rfl hn | decide
    · rw [Nat.toDigits_of_base_le (by decide) (by omega)]
      have hne : Nat.toDigits 10 (n / 10) ≠ [] := Nat.toDigits_ne_nil
      rw [List.head?_append_of_ne_nil _ hne]
      exact ih (n / 10) (by omega) (by omega)

theorem Numeral.ofNat_valid (n : ℕ) : (Numeral.ofNat n).Valid := by
  refine ⟨fun c hc => isDigit_of_mem_natText hc, ?_, ?_, fun _ h => (nomatch h), fun _ h => (nomatch h)⟩
  · exact fun h => Nat.toDigits_ne_nil (List.map_eq_nil_iff.mp h)
  · intro c hc hzero
    by_cases hn : n = 0
    · rw [hn]
      rfl
    · exfalso
      rw [Numeral.ofNat, natText, List.head?_map] at hc
      obtain ⟨d, hd, rfl⟩ := Option.map_eq_some_iff.mp hc
      have hmem : d ∈ Nat.toDigits 10 n := List.mem_of_head? hd
      rw [(val_digit hmem).1] at hzero
      have hchar : d = '0' := Char.toNat_inj.mp hzero
      exact head_toDigits n hn (hchar ▸ hd)

theorem Numeral.ofNat_text (n : ℕ) : (Numeral.ofNat n).text = natText n := by
  show [] ++ natText n ++ [] ++ [] = natText n
  rw [List.nil_append, List.append_nil, List.append_nil]

theorem Numeral.ofNat_value (n : ℕ) : (Numeral.ofNat n).value = .int n := by
  show Json.int (digitsValue (natText n)) = .int n
  rw [digitsValue_natText]

/-! ## Strings -/

/-- A character of a string literal as it stands or is escaped by a letter, or the UTF-16 unit of a `\\u` escape. -/
inductive Piece where
  | plain (c : CodePoint)
  | unit (n : ℕ)

def hexDigit (c : CodePoint) : Option ℕ :=
  if 48 ≤ c.val ∧ c.val ≤ 57 then some (c.val - 48)
  else if 97 ≤ c.val ∧ c.val ≤ 102 then some (c.val - 87)
  else if 65 ≤ c.val ∧ c.val ≤ 70 then some (c.val - 55)
  else none

/-- The escapes of one letter, with the character each stands for. -/
def letterEscapes : List (ℕ × CodePoint) :=
  [(34, 34), (92, 92), (47, 47), (98, 8), (102, 12), (110, 10), (114, 13), (116, 9)]

/-- What follows the opening quote, to the closing one. -/
def scanPieces : Str → Option (List Piece × Str)
  | [] => none
  | c :: s =>
    if c.val = 34 then some ([], s)
    else if c.val = 92 then
      match s with
      | [] => none
      | e :: s =>
        if e.val = 117 then
          match s with
          | h1 :: h2 :: h3 :: h4 :: s => do
            let n1 ← hexDigit h1
            let n2 ← hexDigit h2
            let n3 ← hexDigit h3
            let n4 ← hexDigit h4
            let (pieces, rest) ← scanPieces s
            some (.unit (n1 * 4096 + n2 * 256 + n3 * 16 + n4) :: pieces, rest)
          | _ => none
        else do
          let d ← Assoc.find? letterEscapes e.val
          let (pieces, rest) ← scanPieces s
          some (.plain d :: pieces, rest)
    else if c.val < 32 then none
    else do
      let (pieces, rest) ← scanPieces s
      some (.plain c :: pieces, rest)

def highUnit (n : ℕ) : Bool := 0xd800 ≤ n && n < 0xdc00

def lowUnit (n : ℕ) : Bool := 0xdc00 ≤ n && n < 0xe000

def unitChar (n : ℕ) : CodePoint := Fin.ofNat 0x110000 n

/-- The character of a surrogate pair. -/
def pairChar (high low : ℕ) : CodePoint := Fin.ofNat 0x110000 (0x10000 + (high - 0xd800) * 1024 + (low - 0xdc00))

/-- The pieces as characters, with the unit of a high surrogate that may be followed by its low one. -/
def join : Option ℕ → List Piece → Str
  | high, [] => (high.map unitChar).toList
  | high, .plain c :: pieces => (high.map unitChar).toList ++ c :: join none pieces
  | none, .unit n :: pieces => if highUnit n then join (some n) pieces else unitChar n :: join none pieces
  | some high, .unit n :: pieces =>
    if lowUnit n then pairChar high n :: join none pieces
    else unitChar high :: if highUnit n then join (some n) pieces else unitChar n :: join none pieces

def scanString (s : Str) : Option (Str × Str) := (scanPieces s).map (fun p => (join none p.1, p.2))

/-! ### The text of a string -/

/-- `\\u00XX`. -/
def controlText (n : ℕ) : Str :=
  [92, 117, 48, 48, if n < 16 then 48 else 49, Fin.ofNat 0x110000 (if n % 16 < 10 then 48 + n % 16 else 87 + n % 16)]

/-- The text of a character inside quotes: escaped by a letter, by its number, or as it stands. -/
def escapeText (c : CodePoint) : Str :=
  if c.val = 34 then [92, 34]
  else if c.val = 92 then [92, 92]
  else if c.val = 8 then [92, 98]
  else if c.val = 12 then [92, 102]
  else if c.val = 10 then [92, 110]
  else if c.val = 13 then [92, 114]
  else if c.val = 9 then [92, 116]
  else if c.val < 32 then controlText c.val
  else [c]

/-- What the text of a character is scanned into. -/
def pieceOf (c : CodePoint) : Piece := if c.val < 32 ∧ c.val ∉ [8, 12, 10, 13, 9] then .unit c.val else .plain c

def quotedText (s : Str) : Str := 34 :: (s.flatMap escapeText ++ [34])

/-- The digits of a control character's number. -/
theorem hexDigit_control {n : ℕ} (h : n < 32) :
    hexDigit (if n < 16 then 48 else 49) = some (n / 16) ∧
      hexDigit (Fin.ofNat 0x110000 (if n % 16 < 10 then 48 + n % 16 else 87 + n % 16)) = some (n % 16) := by
  constructor
  · split_ifs
    · rw [show n / 16 = 0 by omega]
      rfl
    · rw [show n / 16 = 1 by omega]
      rfl
  · have hval : ∀ m, m < 200 → (Fin.ofNat 0x110000 m : CodePoint).val = m := fun m hm => by
      rw [Fin.val_ofNat, Nat.mod_eq_of_lt (by omega)]
    unfold hexDigit
    split_ifs with hlow h1 h2 h3 <;> rw [hval _ (by omega)] at * <;> first | omega | (congr 1; omega)

theorem scanPieces_escape (c : CodePoint) (s : Str) :
    scanPieces (escapeText c ++ s) = (scanPieces s).map (fun p => (pieceOf c :: p.1, p.2)) := by
  have hletter : ∀ (e d : CodePoint), e.val ≠ 117 → Assoc.find? letterEscapes e.val = some d →
      pieceOf d = .plain d → scanPieces ([92, e] ++ s) = (scanPieces s).map (fun p => (pieceOf d :: p.1, p.2)) := by
    intro e d hu hd hpiece
    rw [List.cons_append, List.singleton_append, scanPieces.eq_def, hpiece]
    simp only [if_neg hu, hd]
    cases scanPieces s <;> rfl
  unfold escapeText
  split_ifs with h1 h2 h3 h4 h5 h6 h7 h8
  · obtain rfl : c = 34 := Fin.ext h1
    exact hletter 34 34 (by decide) rfl rfl
  · obtain rfl : c = 92 := Fin.ext h2
    exact hletter 92 92 (by decide) rfl rfl
  · obtain rfl : c = 8 := Fin.ext h3
    exact hletter 98 8 (by decide) rfl rfl
  · obtain rfl : c = 12 := Fin.ext h4
    exact hletter 102 12 (by decide) rfl rfl
  · obtain rfl : c = 10 := Fin.ext h5
    exact hletter 110 10 (by decide) rfl rfl
  · obtain rfl : c = 13 := Fin.ext h6
    exact hletter 114 13 (by decide) rfl rfl
  · obtain rfl : c = 9 := Fin.ext h7
    exact hletter 116 9 (by decide) rfl rfl
  · obtain ⟨hfirst, hsecond⟩ := hexDigit_control h8
    have hpiece : pieceOf c = .unit (0 * 4096 + 0 * 256 + c.val / 16 * 16 + c.val % 16) := by
      rw [show 0 * 4096 + 0 * 256 + c.val / 16 * 16 + c.val % 16 = c.val by omega]
      refine if_pos ⟨h8, ?_⟩
      simp only [List.mem_cons, List.not_mem_nil, or_false]
      omega
    have hzero : hexDigit 48 = some 0 := rfl
    simp only [controlText, List.cons_append, List.nil_append]
    rw [scanPieces.eq_def, hpiece]
    simp only [hzero, hfirst, hsecond, Option.bind_eq_bind, Option.bind_some]
    cases scanPieces s <;> rfl
  · have hpiece : pieceOf c = .plain c := if_neg fun h => h8 h.1
    rw [List.singleton_append, scanPieces.eq_def, hpiece]
    simp only [if_neg h1, if_neg h2, if_neg h8]
    cases scanPieces s <;> rfl

theorem join_pieces (s : Str) : join none (s.map pieceOf) = s := by
  induction s with
  | nil => rfl
  | cons c s ih =>
    rw [List.map_cons]
    by_cases hc : c.val < 32 ∧ c.val ∉ [8, 12, 10, 13, 9]
    · have hlow : highUnit c.val = false := by
        simp only [highUnit, Bool.and_eq_false_iff, decide_eq_false_iff_not]
        omega
      have hchar : unitChar c.val = c := Fin.ext (by rw [unitChar, Fin.val_ofNat, Nat.mod_eq_of_lt c.isLt])
      rw [pieceOf, if_pos hc, join, hlow, if_neg Bool.false_ne_true, hchar, ih]
    · rw [pieceOf, if_neg hc, join, Option.map_none, Option.toList_none, List.nil_append, ih]

/-- **An escaped string is scanned to its closing quote.** -/
theorem scanString_escaped (s rest : Str) : scanString (s.flatMap escapeText ++ 34 :: rest) = some (s, rest) := by
  have hpieces : scanPieces (s.flatMap escapeText ++ 34 :: rest) = some (s.map pieceOf, rest) := by
    induction s with
    | nil =>
      rw [List.flatMap_nil, List.nil_append, scanPieces.eq_def]
      exact if_pos rfl
    | cons c s ih =>
      rw [List.flatMap_cons, List.append_assoc, scanPieces_escape, ih]
      rfl
  rw [scanString, hpieces, Option.map_some, join_pieces]

end Loads
