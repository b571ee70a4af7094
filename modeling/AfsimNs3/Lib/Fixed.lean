import AfsimNs3.Lib.Ctype
import AfsimNs3.Lib.Ranges

/-!
# Fixed-point numbers as text

`%.6f` and its like: a number is rounded to a fixed count of decimals, at least one, and all of them are printed. `read`
is what such a text denotes.

* `read_text`: the text of a number denotes its nearest multiple of the last decimal;
* `rounded_mono`, `rounded_le`: how the multiple lies to the number.
-/

namespace Fixed

/-- The number in units of its last decimal. -/
def units (decimals : ℕ) (q : ℚ) : ℤ := Double.roundHalfEven (q * 10 ^ decimals)

/-- The number that is printed. -/
def rounded (decimals : ℕ) (q : ℚ) : ℚ := units decimals q / 10 ^ decimals

/-- The digits of a number, with zeros in front of them. -/
def padded (width n : ℕ) : Bytes := List.replicate (width - (natBytes n).length) 48 ++ natBytes n

/-- The text of a finite number. -/
def text (decimals : ℕ) (q : ℚ) : Bytes :=
  (if q < 0 then [45] else []) ++ natBytes ((units decimals q).natAbs / 10 ^ decimals) ++
    46 :: padded decimals ((units decimals q).natAbs % 10 ^ decimals)

/-- What digits, a point and digits denote. -/
def readMagnitude (text : Bytes) : Option ℚ :=
  match text.dropWhile isDigit with
  | 46 :: fraction =>
    if text.takeWhile isDigit ≠ [] ∧ fraction ≠ [] ∧ fraction.all isDigit then
      some ((digitsValue (text.takeWhile isDigit ++ fraction) : ℚ) / 10 ^ fraction.length)
    else none
  | _ => none

/-- What a text with an optional sign denotes. -/
def read : Bytes → Option ℚ
  | 45 :: text => (readMagnitude text).map fun q => -q
  | text => readMagnitude text

/-! ## The printed number -/

theorem rounded_mono (decimals : ℕ) {q q' : ℚ} (h : q ≤ q') : rounded decimals q ≤ rounded decimals q' := by
  have hunit : (0 : ℚ) < 10 ^ decimals := by positivity
  have hunits : units decimals q ≤ units decimals q' :=
    Double.roundHalfEven_mono (mul_le_mul_of_nonneg_right h hunit.le)
  exact div_le_div_of_nonneg_right (Int.cast_le.mpr hunits) hunit.le

theorem rounded_intCast (decimals : ℕ) (n : ℤ) : rounded decimals n = n := by
  have hunit : (10 : ℚ) ^ decimals ≠ 0 := by positivity
  have hcast : (n : ℚ) * 10 ^ decimals = ((n * 10 ^ decimals : ℤ) : ℚ) := by push_cast; rfl
  unfold rounded units
  rw [hcast, Double.roundHalfEven_intCast]
  push_cast
  field_simp

/-- Rounding does not cross an integer from below. -/
theorem rounded_le (decimals : ℕ) {q : ℚ} {n : ℤ} (h : q ≤ n) : rounded decimals q ≤ n :=
  rounded_intCast decimals n ▸ rounded_mono decimals h

/-- Rounding does not cross an integer from above. -/
theorem le_rounded (decimals : ℕ) {q : ℚ} {n : ℤ} (h : n ≤ q) : n ≤ rounded decimals q :=
  rounded_intCast decimals n ▸ rounded_mono decimals h

theorem rounded_nonneg (decimals : ℕ) {q : ℚ} (h : 0 ≤ q) : 0 ≤ rounded decimals q := by
  have hle := @le_rounded decimals q 0 (by exact_mod_cast h)
  exact_mod_cast hle

/-! ## Digits -/

theorem digitsValue_append (xs ys : Bytes) :
    digitsValue (xs ++ ys) = digitsValue xs * 10 ^ ys.length + digitsValue ys := by
  have hfold : ∀ (ys : Bytes) (value : ℕ), ys.foldl (fun value c => 10 * value + (c.toNat - 48)) value =
      value * 10 ^ ys.length + digitsValue ys := by
    intro ys
    induction ys with
    | nil => intro value; rw [List.length_nil, pow_zero, mul_one]; rfl
    | cons c ys ih =>
      intro value
      have hone : digitsValue (c :: ys) = (c.toNat - 48) * 10 ^ ys.length + digitsValue ys := by
        show ys.foldl _ (10 * 0 + (c.toNat - 48)) = _
        rw [ih, mul_zero, zero_add]
      rw [List.foldl_cons, ih, hone, List.length_cons, pow_succ]
      ring
  unfold digitsValue
  rw [List.foldl_append]
  exact hfold ys _

theorem digitsValue_zeros (n : ℕ) : digitsValue (List.replicate n 48) = 0 := by
  induction n with
  | zero => rfl
  | succ n ih =>
    rw [List.replicate_succ', digitsValue_append, ih]
    rfl

theorem length_natBytes_le {width n : ℕ} (hwidth : 0 < width) (h : n < 10 ^ width) : (natBytes n).length ≤ width := by
  unfold natBytes
  rw [List.length_map]
  exact (Nat.length_toDigits_le_iff (by norm_num) hwidth).mpr h

/-- What is padded to a width has it, and keeps its value. -/
theorem padded_spec {width n : ℕ} (hwidth : 0 < width) (h : n < 10 ^ width) :
    (padded width n).length = width ∧ digitsValue (padded width n) = n ∧ ∀ c ∈ padded width n, isDigit c = true := by
  have hlen := length_natBytes_le hwidth h
  refine ⟨?_, ?_, fun c hc => ?_⟩
  · unfold padded
    rw [List.length_append, List.length_replicate]
    omega
  · unfold padded
    rw [digitsValue_append, digitsValue_zeros, zero_mul, zero_add, digitsValue_natBytes]
  · rcases List.mem_append.mp hc with hzero | hdigit
    · rw [List.eq_of_mem_replicate hzero]
      rfl
    · exact isDigit_of_mem_natBytes hdigit

/-- The characters of a text. -/
theorem mem_text {decimals : ℕ} {q : ℚ} {c : UInt8} (h : c ∈ text decimals q) : isDigit c = true ∨ c = 45 ∨ c = 46 := by
  unfold text at h
  rw [List.mem_append, List.mem_append, List.mem_cons] at h
  rcases h with (hsign | hwhole) | rfl | hpadded
  · split_ifs at hsign
    · exact .inr (.inl (List.mem_singleton.mp hsign))
    · exact absurd hsign List.not_mem_nil
  · exact .inl (isDigit_of_mem_natBytes hwhole)
  · exact .inr (.inr rfl)
  · unfold padded at hpadded
    rcases List.mem_append.mp hpadded with hzero | hdigit
    · rw [List.eq_of_mem_replicate hzero]
      exact .inl rfl
    · exact .inl (isDigit_of_mem_natBytes hdigit)

/-! ## Reading -/

theorem readMagnitude_text {decimals : ℕ} (hdecimals : 0 < decimals) (n : ℕ) :
    readMagnitude (natBytes (n / 10 ^ decimals) ++ 46 :: padded decimals (n % 10 ^ decimals)) =
      some ((n : ℚ) / 10 ^ decimals) := by
  have hunit : 0 < 10 ^ decimals := Nat.pow_pos (by norm_num)
  obtain ⟨hlen, hvalue, hdigits⟩ := padded_spec hdecimals (Nat.mod_lt n hunit)
  have htake := takeWhile_natBytes (n / 10 ^ decimals) (46 :: padded decimals (n % 10 ^ decimals))
    fun c hc => by rw [← Option.some.inj hc]; rfl
  have hdrop : (natBytes (n / 10 ^ decimals) ++ 46 :: padded decimals (n % 10 ^ decimals)).dropWhile isDigit =
      46 :: padded decimals (n % 10 ^ decimals) := by
    rw [List.dropWhile_append_of_pos fun c hc => isDigit_of_mem_natBytes hc]
    exact List.dropWhile_cons_of_neg (by decide)
  have hne : padded decimals (n % 10 ^ decimals) ≠ [] := by
    rw [← List.length_pos_iff, hlen]
    exact hdecimals
  unfold readMagnitude
  rw [hdrop, htake]
  show (if natBytes _ ≠ [] ∧ padded _ _ ≠ [] ∧ (padded _ _).all isDigit then _ else none) = _
  rw [if_pos ⟨natBytes_ne_nil _, hne, List.all_eq_true.mpr hdigits⟩, digitsValue_append, hvalue, hlen,
    digitsValue_natBytes, Nat.mul_comm, Nat.div_add_mod]

theorem read_of_digit {text : Bytes} (h : ∀ c ∈ text.head?, isDigit c = true) : read text = readMagnitude text := by
  unfold read
  split
  · exact absurd (h 45 rfl) (by decide)
  · rfl

/-- **Reading the text of a number** gives its nearest multiple of the last decimal. -/
theorem read_text {decimals : ℕ} (hdecimals : 0 < decimals) (q : ℚ) :
    read (text decimals q) = some (rounded decimals q) := by
  unfold text
  rcases lt_or_ge q 0 with hneg | hnonneg
  · have hunits : units decimals q ≤ 0 := by
      have hle : q * 10 ^ decimals ≤ ((0 : ℤ) : ℚ) := by
        rw [Int.cast_zero]
        exact mul_nonpos_of_nonpos_of_nonneg hneg.le (by positivity)
      exact Double.roundHalfEven_le hle
    rw [if_pos hneg]
    show (readMagnitude (natBytes _ ++ 46 :: _)).map _ = _
    rw [readMagnitude_text hdecimals, Option.map_some, ← neg_div]
    have habs : -(((units decimals q).natAbs : ℕ) : ℚ) = units decimals q := by
      rw [← Int.cast_natCast, Int.ofNat_natAbs_of_nonpos hunits, Int.cast_neg, neg_neg]
    rw [habs]
    rfl
  · have hunits : 0 ≤ units decimals q := Double.roundHalfEven_nonneg (mul_nonneg hnonneg (by positivity))
    rw [if_neg (not_lt.mpr hnonneg), List.nil_append, read_of_digit, readMagnitude_text hdecimals]
    · have habs : (((units decimals q).natAbs : ℕ) : ℚ) = units decimals q := by
        rw [← Int.cast_natCast, Int.natAbs_of_nonneg hunits]
      rw [habs]
      rfl
    · obtain ⟨c, rest, hcons, hc⟩ := natBytes_cons ((units decimals q).natAbs / 10 ^ decimals)
      rw [hcons]
      intro c' hc'
      obtain rfl := Option.some.inj hc'
      exact hc

example : text 6 (1 / 3) = ascii "0.333333" := by decide +kernel

end Fixed
