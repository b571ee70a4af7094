import AfsimNs3.Lib.Rounding

/-!
# Ranges of doubles

`std::max` and `std::min` with a constant, and which arithmetic keeps a number from falling below zero. No number of a
range is a NaN. An infinity is not below any bound.
-/

namespace Double

/-- `std::max(minimum, x)`. -/
def atLeast (minimum : ℚ) (x : Double) : Double := if x.above minimum then x else finite minimum

/-- `std::min(maximum, x)`. -/
def atMost (maximum : ℚ) (x : Double) : Double := if x.below maximum then x else finite maximum

/-- `x / y` for a `y` above zero. -/
def quotient : Double → Double → Double
  | finite p, finite q => ofRat (p / q)
  | finite _, inf _ => finite 0
  | inf a, finite _ => inf a
  | _, _ => nan

/-- `x - y`. -/
def sub (x : Double) : Double → Double
  | finite q => x.add (finite (-q))
  | inf negative => x.add (inf !negative)
  | nan => nan

/-- The number is not below a bound; infinity is above every bound. -/
def AtLeast (minimum : ℚ) (x : Double) : Prop := x = finite minimum ∨ x.above minimum = true

/-- The finite number is within the bounds. -/
def Within (minimum maximum : ℚ) (x : Double) : Prop := ∃ q, x = finite q ∧ minimum ≤ q ∧ q ≤ maximum

theorem atLeast_spec (minimum : ℚ) (x : Double) : AtLeast minimum (atLeast minimum x) := by
  unfold atLeast
  split_ifs with h
  · exact .inr h
  · exact .inl rfl

theorem atLeast_finite_iff {minimum q : ℚ} : AtLeast minimum (finite q) ↔ minimum ≤ q := by
  unfold AtLeast above
  rw [finite.injEq, decide_eq_true_eq]
  constructor
  · rintro (rfl | h)
    · exact le_refl _
    · exact h.le
  · intro h
    rcases h.eq_or_lt with rfl | h
    · exact .inl rfl
    · exact .inr h

/-- A number that is not below a bound is finite, or the positive infinity. -/
theorem AtLeast.cases {minimum : ℚ} {x : Double} (h : AtLeast minimum x) :
    (∃ q, x = finite q ∧ minimum ≤ q) ∨ x = inf false := by
  cases x with
  | finite q => exact .inl ⟨q, rfl, atLeast_finite_iff.mp h⟩
  | inf negative =>
    cases negative with
    | true => exact absurd (h.resolve_left nofun) Bool.false_ne_true
    | false => exact .inr rfl
  | nan => exact absurd (h.resolve_left nofun) Bool.false_ne_true

theorem atLeast_inf (minimum : ℚ) : AtLeast minimum (inf false) := .inr rfl

theorem AtLeast.atMost {minimum maximum : ℚ} (hle : minimum ≤ maximum) {x : Double} (h : AtLeast minimum x) :
    Within minimum maximum (atMost maximum x) := by
  unfold Double.atMost
  split_ifs with hx
  · rcases h.cases with ⟨q, rfl, hq⟩ | rfl
    · exact ⟨q, rfl, hq, (of_decide_eq_true hx).le⟩
    · exact absurd hx Bool.false_ne_true
  · exact ⟨maximum, rfl, hle, le_refl _⟩

/-! ## Arithmetic that does not fall below zero -/

theorem roundHalfEven_nonneg {q : ℚ} (h : 0 ≤ q) : 0 ≤ roundHalfEven q := by
  have hfloor : 0 ≤ ⌊q⌋ := Int.floor_nonneg.mpr h
  unfold roundHalfEven
  dsimp only
  split_ifs <;> omega

theorem roundDigits_nonneg {base digits : ℕ} {least : ℤ} {q : ℚ} (h : 0 ≤ q) : 0 ≤ roundDigits base digits least q := by
  unfold roundDigits
  split_ifs
  · exact le_refl _
  · have hunit : (0 : ℚ) ≤ (base : ℚ) ^ max (Int.log base |q| - (digits - 1)) least := zpow_nonneg (Nat.cast_nonneg _) _
    exact mul_nonneg (by exact_mod_cast roundHalfEven_nonneg (div_nonneg h hunit)) hunit

theorem ofRat_atLeast {q : ℚ} (h : 0 ≤ q) : AtLeast 0 (ofRat q) := by
  unfold ofRat
  dsimp only
  split_ifs
  · exact atLeast_finite_iff.mpr (roundDigits_nonneg h)
  · rw [decide_eq_false (not_lt.mpr h)]
    exact atLeast_inf 0

theorem AtLeast.add {x y : Double} (hx : AtLeast 0 x) (hy : AtLeast 0 y) : AtLeast 0 (x.add y) := by
  rcases hx.cases with ⟨p, rfl, hp⟩ | rfl
  · rcases hy.cases with ⟨q, rfl, hq⟩ | rfl
    · exact ofRat_atLeast (add_nonneg hp hq)
    · exact atLeast_inf 0
  · rcases hy.cases with ⟨q, rfl, -⟩ | rfl
    · exact atLeast_inf 0
    · exact atLeast_inf 0

theorem AtLeast.scale {x : Double} (hx : AtLeast 0 x) {k : ℚ} (hk : 0 ≤ k) : AtLeast 0 (x.scale k) := by
  rcases hx.cases with ⟨p, rfl, hp⟩ | rfl
  · exact ofRat_atLeast (mul_nonneg hp hk)
  · exact atLeast_inf 0

theorem AtLeast.quotient {x : Double} (hx : AtLeast 0 x) {q : ℚ} (hq : 0 ≤ q) : AtLeast 0 (x.quotient (finite q)) := by
  rcases hx.cases with ⟨p, rfl, hp⟩ | rfl
  · exact ofRat_atLeast (div_nonneg hp hq)
  · exact atLeast_inf 0

/-- A 64-bit integer, as a double. -/
theorem ofRat_uint64 (n : UInt64) : ∃ q, ofRat n.toNat = finite q ∧ 0 ≤ q := by
  have hnonneg := ofRat_atLeast (show (0 : ℚ) ≤ n.toNat from Nat.cast_nonneg _)
  rcases Nat.eq_zero_or_pos n.toNat with hzero | hpos
  · rw [hzero, ofRat_natCast (by norm_num)] at hnonneg ⊢
    exact ⟨_, rfl, Nat.cast_nonneg 0⟩
  · have hlt : (n.toNat : ℚ) < 2 ^ ((63 : ℤ) + 1) := by
      have hcast : (n.toNat : ℚ) < ((2 ^ 64 : ℕ) : ℚ) := Nat.cast_lt.mpr n.toNat_lt
      exact hcast.trans_le (by norm_num)
    obtain ⟨r, hr, -⟩ := ofRat_error (Nat.cast_pos.mpr hpos) hlt (by norm_num) (by norm_num)
    rw [hr, atLeast_finite_iff] at hnonneg
    exact ⟨r, hr, hnonneg⟩

theorem nonnegative_atLeast (x : Double) : AtLeast 0 x.nonnegative := atLeast_spec 0 x

/-! ## Rounding within bounds -/

/-- Rounding does not cross an integer from below. -/
theorem roundHalfEven_le {q : ℚ} {n : ℤ} (h : q ≤ n) : roundHalfEven q ≤ n := by
  rcases h.eq_or_lt with rfl | hlt
  · exact (roundHalfEven_intCast n).le
  · have hfloor : ⌊q⌋ < n := Int.floor_lt.mpr hlt
    unfold roundHalfEven
    dsimp only
    split_ifs <;> omega

/-- Rounding does not cross an integer from above. -/
theorem le_roundHalfEven {q : ℚ} {n : ℤ} (h : n ≤ q) : n ≤ roundHalfEven q := by
  have hfloor : n ≤ ⌊q⌋ := Int.le_floor.mpr h
  unfold roundHalfEven
  dsimp only
  split_ifs <;> omega

theorem roundHalfEven_mono {q q' : ℚ} (h : q ≤ q') : roundHalfEven q ≤ roundHalfEven q' := by
  rcases (Int.floor_le_floor h).eq_or_lt with heq | hlt
  · unfold roundHalfEven
    dsimp only
    rw [← heq]
    split_ifs <;> first | omega | (exfalso; linarith)
  · have hup : roundHalfEven q ≤ ⌊q'⌋ := roundHalfEven_le ((Int.lt_floor_add_one q).le.trans (by exact_mod_cast hlt))
    exact hup.trans (le_roundHalfEven (Int.floor_le q'))

section Digits
variable {base digits : ℕ} (hbase : 1 < base) {least : ℤ}
include hbase

/-- Rounding to some digits does not cross a number that has no more of them. -/
theorem roundDigits_le_zpow {q : ℚ} {bound : ℕ} {m : ℤ} (hleast : least ≤ m) (hnonneg : 0 ≤ q)
    (hle : q ≤ bound * (base : ℚ) ^ m) (hbound : bound < base ^ digits) :
    roundDigits base digits least q ≤ bound * (base : ℚ) ^ m := by
  have hbasepos : (0 : ℚ) < base := by exact_mod_cast Nat.zero_lt_of_lt hbase
  unfold roundDigits
  split_ifs with hzero
  · exact mul_nonneg (Nat.cast_nonneg bound) (zpow_nonneg hbasepos.le _)
  have hpos : 0 < |q| := abs_pos.mpr hzero
  have hlog : Int.log base |q| < digits + m := by
    refine (Int.lt_zpow_iff_log_lt hbase hpos).mp ?_
    rw [abs_of_nonneg hnonneg, zpow_add₀ hbasepos.ne', zpow_natCast]
    refine hle.trans_lt (mul_lt_mul_of_pos_right ?_ (zpow_pos hbasepos _))
    exact_mod_cast hbound
  obtain ⟨k, hk⟩ : ∃ k : ℕ, m = max (Int.log base |q| - (digits - 1)) least + k :=
    ⟨(m - max (Int.log base |q| - (digits - 1)) least).toNat, by omega⟩
  dsimp only
  generalize max (Int.log base |q| - ((digits : ℤ) - 1)) least = e at hk
  have hunit : (0 : ℚ) < (base : ℚ) ^ e := zpow_pos hbasepos e
  have hsplit : (bound : ℚ) * (base : ℚ) ^ m = ((bound * base ^ k : ℕ) : ℤ) * (base : ℚ) ^ e := by
    rw [hk, zpow_add₀ hbasepos.ne', zpow_natCast]
    push_cast
    ring
  rw [hsplit] at hle ⊢
  refine mul_le_mul_of_nonneg_right ?_ hunit.le
  exact_mod_cast roundHalfEven_le ((div_le_iff₀ hunit).mpr hle)

theorem roundDigits_le (hleast : least ≤ 0) {q : ℚ} {bound : ℕ} (hnonneg : 0 ≤ q) (hle : q ≤ bound)
    (hbound : bound < base ^ digits) : roundDigits base digits least q ≤ bound := by
  have h := @roundDigits_le_zpow _ _ hbase _ _ bound 0 hleast hnonneg (by rwa [zpow_zero, mul_one]) hbound
  rwa [zpow_zero, mul_one] at h

/-- Rounding to some digits does not cross the power of the base below. -/
theorem zpow_le_roundDigits (hdigits : 0 < digits) {q : ℚ} (hpos : 0 < q) (hlog : least ≤ Int.log base q - (digits - 1)) :
    (base : ℚ) ^ Int.log base q ≤ roundDigits base digits least q := by
  have hbasepos : (0 : ℚ) < base := by exact_mod_cast Nat.zero_lt_of_lt hbase
  unfold roundDigits
  rw [if_neg hpos.ne', abs_of_pos hpos]
  dsimp only
  rw [max_eq_left hlog]
  have hunit : (0 : ℚ) < (base : ℚ) ^ (Int.log base q - (digits - 1)) := zpow_pos hbasepos _
  have hsplit : (base : ℚ) ^ Int.log base q =
      ((base ^ (digits - 1) : ℕ) : ℤ) * (base : ℚ) ^ (Int.log base q - (digits - 1)) := by
    have hexp : Int.log base q = ((digits - 1 : ℕ) : ℤ) + (Int.log base q - (digits - 1)) := by omega
    conv_lhs => rw [hexp, zpow_add₀ hbasepos.ne', zpow_natCast]
    push_cast
    rfl
  have hlow : (base : ℚ) ^ Int.log base q ≤ q := Int.zpow_log_le_self hbase hpos
  rw [hsplit] at hlow ⊢
  refine mul_le_mul_of_nonneg_right ?_ hunit.le
  exact_mod_cast le_roundHalfEven ((le_div_iff₀ hunit).mpr hlow)

/-- **Rounding is monotone.** -/
theorem roundDigits_mono (hdigits : 0 < digits) {q q' : ℚ} (hnonneg : 0 ≤ q) (hle : q ≤ q') :
    roundDigits base digits least q ≤ roundDigits base digits least q' := by
  rcases hnonneg.eq_or_lt with rfl | hpos
  · have hzero : roundDigits base digits least 0 = 0 := if_pos rfl
    rw [hzero]
    exact roundDigits_nonneg hle
  have hpos' : 0 < q' := hpos.trans_le hle
  have hlog : Int.log base q ≤ Int.log base q' := Int.log_mono_right hpos hle
  by_cases hexp : max (Int.log base q - ((digits : ℤ) - 1)) least = max (Int.log base q' - ((digits : ℤ) - 1)) least
  · unfold roundDigits
    rw [if_neg hpos.ne', if_neg hpos'.ne', abs_of_pos hpos, abs_of_pos hpos']
    dsimp only
    rw [hexp]
    have hunit : (0 : ℚ) < (base : ℚ) ^ max (Int.log base q' - ((digits : ℤ) - 1)) least :=
      zpow_pos (by exact_mod_cast Nat.zero_lt_of_lt hbase) _
    refine mul_le_mul_of_nonneg_right ?_ hunit.le
    exact_mod_cast roundHalfEven_mono (div_le_div_of_nonneg_right hle hunit.le)
  · -- A power of the base lies between the two, and rounding crosses it from neither side.
    have hbelow : q ≤ ((1 : ℕ) : ℚ) * (base : ℚ) ^ Int.log base q' := by
      rw [Nat.cast_one, one_mul]
      exact ((Int.lt_zpow_iff_log_lt hbase hpos).mpr (by omega)).le
    have hup := @roundDigits_le_zpow _ digits hbase least _ _ _ (by omega) hpos.le hbelow
      (Nat.one_lt_pow hdigits.ne' hbase)
    rw [Nat.cast_one, one_mul] at hup
    exact hup.trans (zpow_le_roundDigits hbase hdigits hpos' (by omega))

end Digits

theorem abs_roundDigits_le {base digits : ℕ} (hbase : 1 < base) (hdigits : 0 < digits) {least : ℤ} (hleast : least ≤ 0)
    (q : ℚ) : |roundDigits base digits least q| ≤ 2 * |q| + 1 := by
  by_cases hzero : q = 0
  · subst hzero
    have hround : roundDigits base digits least 0 = 0 := if_pos rfl
    rw [hround, abs_zero]
    norm_num
  have hone : (1 : ℚ) ≤ base := by exact_mod_cast hbase.le
  have hunit : (base : ℚ) ^ max (Int.log base |q| - (digits - 1)) least ≤ |q| + 1 := by
    rcases max_choice (Int.log base |q| - ((digits : ℤ) - 1)) least with hmax | hmax
    · have hlow : (base : ℚ) ^ Int.log base |q| ≤ |q| := Int.zpow_log_le_self hbase (abs_pos.mpr hzero)
      have hmono : (base : ℚ) ^ (Int.log base |q| - ((digits : ℤ) - 1)) ≤ (base : ℚ) ^ Int.log base |q| :=
        zpow_le_zpow_right₀ hone (by omega)
      rw [hmax]
      linarith
    · have hmono : (base : ℚ) ^ least ≤ 1 := by
        rw [← zpow_zero (base : ℚ)]
        exact zpow_le_zpow_right₀ hone hleast
      rw [hmax]
      linarith [abs_nonneg q]
  have herror := roundDigits_error (Nat.zero_lt_of_lt hbase) digits least hzero
  have hsum := abs_add_le (roundDigits base digits least q - q) q
  rw [sub_add_cancel] at hsum
  linarith [abs_nonneg q]

/-- A rational that is not huge has a nearest double. -/
theorem ofRat_eq {q : ℚ} (h : |q| ≤ 2 ^ 1022) : ofRat q = finite (roundDigits 2 53 (-1074) q) := by
  have hround := abs_roundDigits_le (show 1 < 2 by norm_num) (show 0 < 53 by norm_num)
    (show (-1074 : ℤ) ≤ 0 by norm_num) q
  have hlt : |roundDigits 2 53 (-1074) q| < 2 ^ 1024 := by
    have hpow : (2 : ℚ) ^ 1024 = 2 ^ 2 * 2 ^ 1022 := pow_add 2 2 1022
    have hone : (1 : ℚ) ≤ 2 ^ 1022 := one_le_pow₀ (by norm_num)
    rw [hpow]
    generalize (2 : ℚ) ^ 1022 = bound at h hone
    linarith
  exact if_pos hlt

theorem ofRat_within {q : ℚ} {bound : ℕ} (hnonneg : 0 ≤ q) (hle : q ≤ bound) (hbound : bound < 2 ^ 53) :
    Within 0 bound (ofRat q) := by
  have hround := @roundDigits_le 2 53 (by norm_num) (-1074) (by norm_num) _ _ hnonneg hle hbound
  have hpos := @roundDigits_nonneg 2 53 (-1074) _ hnonneg
  have hlt : |roundDigits 2 53 (-1074) q| < 2 ^ 1024 := by
    rw [abs_of_nonneg hpos]
    have hcast : (bound : ℚ) < ((2 ^ 53 : ℕ) : ℚ) := Nat.cast_lt.mpr hbound
    rw [Nat.cast_pow] at hcast
    exact (hround.trans_lt hcast).trans (pow_lt_pow_right₀ (by norm_num) (by norm_num))
  exact ⟨_, if_pos hlt, hpos, hround⟩

/-- A multiple of a power of two is not crossed either. -/
theorem ofRat_within_zpow {q : ℚ} {bound m : ℕ} (hnonneg : 0 ≤ q) (hle : q ≤ bound * 2 ^ m) (hbound : bound < 2 ^ 53)
    (hm : m ≤ 900) : Within 0 (bound * 2 ^ m) (ofRat q) := by
  have hround := @roundDigits_le_zpow 2 53 (by norm_num) (-1074) _ bound m (by omega) hnonneg (by rwa [zpow_natCast])
    hbound
  rw [zpow_natCast] at hround
  have hfinite : |q| ≤ 2 ^ 1022 := by
    have hcast : (bound : ℚ) ≤ 2 ^ 53 := by exact_mod_cast hbound.le
    have hpow : (2 : ℚ) ^ m ≤ 2 ^ 900 := pow_le_pow_right₀ (by norm_num) hm
    rw [abs_of_nonneg hnonneg]
    calc q ≤ bound * 2 ^ m := hle
      _ ≤ 2 ^ 53 * 2 ^ 900 := mul_le_mul hcast hpow (by positivity) (by norm_num)
      _ = 2 ^ 953 := (pow_add 2 53 900).symm
      _ ≤ 2 ^ 1022 := pow_le_pow_right₀ (by norm_num) (by norm_num)
  exact ⟨_, ofRat_eq hfinite, roundDigits_nonneg hnonneg, hround⟩

theorem ofRat_not_above {q : ℚ} (h : q ≤ 0) : (ofRat q).above 0 = false := by
  have hround : roundDigits 2 53 (-1074) q ≤ 0 := by
    unfold roundDigits
    split_ifs
    · exact le_refl _
    · have hunit : (0 : ℚ) ≤ ((2 : ℕ) : ℚ) ^ max (Int.log 2 |q| - ((53 : ℕ) - 1)) (-1074) :=
        zpow_nonneg (Nat.cast_nonneg _) _
      refine mul_nonpos_of_nonpos_of_nonneg ?_ hunit
      exact_mod_cast roundHalfEven_le (show q / _ ≤ ((0 : ℤ) : ℚ) by
        rw [Int.cast_zero]
        exact div_nonpos_of_nonpos_of_nonneg h hunit)
  rcases h.eq_or_lt with rfl | hneg
  · have hzero : ofRat ((0 : ℕ) : ℚ) = finite ((0 : ℕ) : ℚ) := ofRat_natCast (by norm_num)
    rw [Nat.cast_zero] at hzero
    rw [hzero]
    rfl
  · unfold ofRat
    dsimp only
    split_ifs
    · exact decide_eq_false (not_lt.mpr hround)
    · rw [decide_eq_true hneg]
      rfl

/-- `std::max(0.0, x)` of a rounded number. -/
theorem nonnegative_within {q : ℚ} (bound : ℕ) (hle : q ≤ bound) (hbound : bound < 2 ^ 53) :
    Within 0 bound (ofRat q).nonnegative := by
  have hzero : Within 0 bound (finite 0) := ⟨0, rfl, le_refl 0, Nat.cast_nonneg bound⟩
  rcases le_total 0 q with hnonneg | hneg
  · unfold nonnegative
    split_ifs
    · exact ofRat_within hnonneg hle hbound
    · exact hzero
  · unfold nonnegative
    rw [ofRat_not_above hneg]
    exact hzero

/-- A quotient by a counter that has counted is not above the dividend. -/
theorem quotient_within {q : ℚ} {bound m : ℕ} {n : UInt64} (hnonneg : 0 ≤ q) (hle : q ≤ bound * 2 ^ m)
    (hbound : bound < 2 ^ 53) (hm : m ≤ 900) (hn : 0 < n) :
    Within 0 (bound * 2 ^ m) ((finite q).quotient (ofRat n.toNat)) := by
  have hone : (1 : ℚ) ≤ n.toNat := by exact_mod_cast UInt64.lt_iff_toNat_lt.mp hn
  have hround : (1 : ℚ) ≤ roundDigits 2 53 (-1074) n.toNat := by
    have hself : ofRat ((1 : ℕ) : ℚ) = finite ((1 : ℕ) : ℚ) := ofRat_natCast (by norm_num)
    rw [Nat.cast_one, ofRat_eq (by rw [abs_one]; exact one_le_pow₀ (by norm_num)), finite.injEq] at hself
    rw [← hself]
    exact roundDigits_mono (by norm_num) (by norm_num) (by norm_num) hone
  obtain ⟨c, hc, -⟩ := ofRat_uint64 n
  have hcount : c = roundDigits 2 53 (-1074) n.toNat := by
    unfold ofRat at hc
    dsimp only at hc
    split_ifs at hc
    exact (finite.inj hc).symm
  rw [hc]
  refine ofRat_within_zpow (div_nonneg hnonneg (by linarith)) ?_ hbound hm
  exact (div_le_self hnonneg (hcount ▸ hround)).trans hle

end Double
