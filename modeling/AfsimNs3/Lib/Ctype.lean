import AfsimNs3.Lib.Text

/-!
# Decimal numbers in octets

The character classes of the C locale, `std::stoull`, and what it makes of the decimal text of a number.
-/

/-- The value of a run of decimal digits. -/
def digitsValue (digits : Bytes) : ℕ := digits.foldl (fun value c => 10 * value + (c.toNat - 48)) 0

/-- `isdigit`. -/
def isDigit (c : UInt8) : Bool := 48 ≤ c && c ≤ 57

/-- `isspace`. -/
def isSpace (c : UInt8) : Bool := c = 32 || (9 ≤ c && c ≤ 13)

/-- `std::stoull` on the text after the sign. -/
def stoullDigits (negative : Bool) (text : Bytes) : Except Bytes UInt64 :=
  let digits := text.takeWhile isDigit
  if digits = [] then .error (ascii "stoull")
  else if 2 ^ 64 ≤ digitsValue digits then .error (ascii "stoull")
  else if negative then .ok (0 - UInt64.ofNat (digitsValue digits))
  else .ok (UInt64.ofNat (digitsValue digits))

/-- `std::stoull`: leading white space, a sign, digits; the rest is not looked at. -/
def stoull (text : Bytes) : Except Bytes UInt64 :=
  match text.dropWhile isSpace with
  | 45 :: rest => stoullDigits true rest
  | 43 :: rest => stoullDigits false rest
  | rest => stoullDigits false rest

theorem isDigit_iff {c : UInt8} : isDigit c = true ↔ 48 ≤ c.toNat ∧ c.toNat ≤ 57 := by
  rw [isDigit, Bool.and_eq_true, decide_eq_true_eq, decide_eq_true_eq, UInt8.le_iff_toNat_le, UInt8.le_iff_toNat_le]
  exact Iff.rfl

/-! ## The text of a number -/

theorem natBytes_ne_nil (n : ℕ) : natBytes n ≠ [] := by
  rw [natBytes, Ne, List.map_eq_nil_iff]
  exact Nat.toDigits_ne_nil

/-- A digit keeps its value as an octet. -/
theorem toNat_digit {d : Char} {n : ℕ} (hd : d ∈ Nat.toDigits 10 n) :
    (UInt8.ofNat d.toNat).toNat = d.toNat ∧ 48 ≤ d.toNat ∧ d.toNat ≤ 57 := by
  have hdigit := Nat.isDigit_of_mem_toDigits (by decide) (by decide) hd
  simp only [Char.isDigit, ge_iff_le, Bool.and_eq_true, decide_eq_true_eq] at hdigit
  have hlow : 48 ≤ d.toNat := UInt32.le_iff_toNat_le.mp hdigit.1
  have hhigh : d.toNat ≤ 57 := UInt32.le_iff_toNat_le.mp hdigit.2
  refine ⟨?_, hlow, hhigh⟩
  rw [UInt8.toNat_ofNat', Nat.mod_eq_of_lt (by omega)]

theorem isDigit_of_mem_natBytes {n : ℕ} {c : UInt8} (h : c ∈ natBytes n) : isDigit c = true := by
  obtain ⟨d, hd, rfl⟩ := List.mem_map.mp h
  obtain ⟨hval, hlow, hhigh⟩ := toNat_digit hd
  rw [isDigit_iff, hval]
  exact ⟨hlow, hhigh⟩

theorem foldl_digits (digits : List Char) (value : ℕ) (h : ∀ d ∈ digits, (UInt8.ofNat d.toNat).toNat = d.toNat) :
    (digits.map (fun d => UInt8.ofNat d.toNat)).foldl (fun value c => 10 * value + (c.toNat - 48)) value =
      Nat.ofDigitChars 10 digits value := by
  induction digits generalizing value with
  | nil => rw [Nat.ofDigitChars_nil]; rfl
  | cons d digits ih =>
    rw [List.forall_mem_cons] at h
    rw [List.map_cons, List.foldl_cons, ih _ h.2, Nat.ofDigitChars_cons, h.1]
    rfl

theorem digitsValue_natBytes (n : ℕ) : digitsValue (natBytes n) = n := by
  rw [digitsValue, natBytes, foldl_digits _ _ fun d hd => (toNat_digit hd).1, Nat.ofDigitChars_ten_toDigits]

/-- The octets of a number, in front of something that is no digit. -/
theorem takeWhile_natBytes (n : ℕ) (rest : Bytes) (hrest : ∀ c ∈ rest.head?, isDigit c = false) :
    (natBytes n ++ rest).takeWhile isDigit = natBytes n := by
  rw [List.takeWhile_append_of_pos fun c hc => isDigit_of_mem_natBytes hc]
  cases rest with
  | nil => rw [List.takeWhile_nil, List.append_nil]
  | cons c rest =>
    rw [List.takeWhile_cons_of_neg, List.append_nil]
    rw [hrest c rfl]
    exact Bool.false_ne_true

theorem natBytes_cons (n : ℕ) : ∃ c rest, natBytes n = c :: rest ∧ isDigit c = true := by
  cases h : natBytes n with
  | nil => exact absurd h (natBytes_ne_nil n)
  | cons c rest => exact ⟨c, rest, rfl, isDigit_of_mem_natBytes (h ▸ List.mem_cons_self)⟩

theorem isSpace_of_isDigit {c : UInt8} (h : isDigit c = true) : isSpace c = false := by
  rw [isDigit_iff] at h
  rw [isSpace, Bool.or_eq_false_iff, Bool.and_eq_false_iff, decide_eq_false_iff_not, decide_eq_false_iff_not,
    decide_eq_false_iff_not, UInt8.le_iff_toNat_le, UInt8.le_iff_toNat_le, UInt8.ext_iff]
  have h32 : (32 : UInt8).toNat = 32 := rfl
  have h9 : (9 : UInt8).toNat = 9 := rfl
  have h13 : (13 : UInt8).toNat = 13 := rfl
  omega

/-- `stoull` reads the text of a number back, within its range. -/
theorem stoull_natBytes (n : ℕ) :
    stoull (natBytes n) = if 2 ^ 64 ≤ n then .error (ascii "stoull") else .ok (UInt64.ofNat n) := by
  obtain ⟨c, rest, hcons, hc⟩ := natBytes_cons n
  have hdrop : (natBytes n).dropWhile isSpace = natBytes n := by
    rw [hcons, List.dropWhile_cons_of_neg]
    rw [isSpace_of_isDigit hc]
    exact Bool.false_ne_true
  have hdigits : stoullDigits false (natBytes n) =
      if 2 ^ 64 ≤ n then .error (ascii "stoull") else .ok (UInt64.ofNat n) := by
    have htake := takeWhile_natBytes n [] (by simp)
    rw [List.append_nil] at htake
    unfold stoullDigits
    rw [htake, if_neg (natBytes_ne_nil n), digitsValue_natBytes]
    rfl
  unfold stoull
  rw [hdrop]
  split
  · rename_i rest' h
    rw [hcons] at h
    rw [isDigit_iff, (List.cons.inj h).1] at hc
    exact absurd hc.1 (by decide)
  · rename_i rest' h
    rw [hcons] at h
    rw [isDigit_iff, (List.cons.inj h).1] at hc
    exact absurd hc.1 (by decide)
  · exact hdigits
