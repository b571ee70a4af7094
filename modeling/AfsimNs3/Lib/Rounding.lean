import AfsimNs3.Lib.Double
import Mathlib.Tactic.Linarith
import Mathlib.Tactic.NormNum

/-!
# The error of rounding

What rounding to the nearest does to a rational: to the nearest integer it moves it by at most a half, to a double by
at most half a unit in the last place. Integers below `2 ^ 53` stay as they are, and from `2 ^ 1025` on a rational
becomes an infinity.
-/

namespace Double

theorem roundHalfEven_error (q : ℚ) : |(roundHalfEven q : ℚ) - q| ≤ 1 / 2 := by
  have hlow : (⌊q⌋ : ℚ) ≤ q := Int.floor_le q
  have hhigh : q < ⌊q⌋ + 1 := Int.lt_floor_add_one q
  unfold roundHalfEven
  dsimp only
  rw [abs_le]
  split_ifs with h₁ h₂ h₃
  · constructor <;> linarith
  · push_cast
    constructor <;> linarith
  · constructor <;> linarith
  · push_cast
    constructor <;> linarith

@[simp] theorem roundHalfEven_intCast (n : ℤ) : roundHalfEven (n : ℚ) = n := by
  unfold roundHalfEven
  simp

/-- The rounded rational is within half a unit of its last digit. -/
theorem roundDigits_error {base : ℕ} (hbase : 0 < base) (digits : ℕ) (least : ℤ) {q : ℚ} (hq : q ≠ 0) :
    |roundDigits base digits least q - q| ≤ (base : ℚ) ^ max (Int.log base |q| - (digits - 1)) least / 2 := by
  unfold roundDigits
  rw [if_neg hq]
  dsimp only
  have hunit : (0 : ℚ) < (base : ℚ) ^ max (Int.log base |q| - (digits - 1)) least :=
    zpow_pos (by exact_mod_cast hbase) _
  set unit := (base : ℚ) ^ max (Int.log base |q| - (digits - 1)) least with hdef
  have hfactor : (roundHalfEven (q / unit) : ℚ) * unit - q = (roundHalfEven (q / unit) - q / unit) * unit := by
    rw [sub_mul, div_mul_cancel₀ q hunit.ne']
  rw [hfactor, abs_mul, abs_of_pos hunit]
  have herror := roundHalfEven_error (q / unit)
  calc |(roundHalfEven (q / unit) : ℚ) - q / unit| * unit ≤ 1 / 2 * unit :=
        mul_le_mul_of_nonneg_right herror hunit.le
    _ = unit / 2 := by ring

/-- **A rational below `2 ^ (e + 1)` is moved by at most half a unit** in the last place of `2 ^ e`. -/
theorem ofRat_error {q : ℚ} {e : ℤ} (hpos : 0 < q) (hlt : q < 2 ^ (e + 1)) (hlow : -1022 ≤ e) (hhigh : e < 1000) :
    ∃ r, ofRat q = finite r ∧ |r - q| ≤ 2 ^ (e - 53) := by
  have hlog : Int.log 2 |q| ≤ e := by
    rw [abs_of_pos hpos, ← Int.lt_add_one_iff]
    exact (Int.lt_zpow_iff_log_lt (by norm_num) hpos).mp (by exact_mod_cast hlt)
  have hunit : ((2 : ℕ) : ℚ) ^ max (Int.log 2 |q| - ((53 : ℕ) - 1)) (-1074) ≤ 2 ^ (e - 53) * 2 := by
    rw [← zpow_add_one₀ (by norm_num)]
    refine zpow_le_zpow_right₀ (by norm_num) ?_
    push_cast
    omega
  have herror : |roundDigits 2 53 (-1074) q - q| ≤ 2 ^ (e - 53) := by
    refine (roundDigits_error (by norm_num) 53 (-1074) hpos.ne').trans ?_
    rw [div_le_iff₀ (by norm_num)]
    exact_mod_cast hunit
  have hsmall : (2 : ℚ) ^ (e - 53) ≤ 2 ^ (1000 : ℤ) := zpow_le_zpow_right₀ (by norm_num) (by omega)
  have hbig : (2 : ℚ) ^ (e + 1) ≤ 2 ^ (1000 : ℤ) := zpow_le_zpow_right₀ (by norm_num) (by omega)
  have hfinite : |roundDigits 2 53 (-1074) q| < 2 ^ 1024 := by
    calc |roundDigits 2 53 (-1074) q| ≤ |roundDigits 2 53 (-1074) q - q| + |q| := by
          simpa using abs_add_le (roundDigits 2 53 (-1074) q - q) q
      _ < 2 ^ (1000 : ℤ) + 2 ^ (1000 : ℤ) :=
          add_lt_add_of_le_of_lt (herror.trans hsmall) ((abs_of_pos hpos).trans_lt (hlt.trans_le hbig))
      _ = 2 ^ 1001 := by
          rw [← two_mul, pow_succ' (2 : ℚ) 1000]
          rfl
      _ ≤ 2 ^ 1024 := pow_le_pow_right₀ (by norm_num) (by norm_num)
  exact ⟨_, if_pos hfinite, herror⟩

/-- **A rational from `2 ^ 1025` on is beyond every double.** -/
theorem ofRat_of_le {q : ℚ} (h : 2 ^ 1025 ≤ q) : ofRat q = inf false := by
  have hpos : 0 < q := lt_of_lt_of_le (by norm_num) h
  have hlog : 1025 ≤ Int.log 2 |q| := by
    rw [abs_of_pos hpos, ← Int.zpow_le_iff_le_log (by norm_num) hpos]
    exact_mod_cast h
  have herror := roundDigits_error (show 0 < 2 by norm_num) 53 (-1074) hpos.ne'
  have hunit : ((2 : ℕ) : ℚ) ^ max (Int.log 2 |q| - ((53 : ℕ) - 1)) (-1074) ≤ q := by
    refine le_trans (zpow_le_zpow_right₀ (by norm_num) ?_) (Int.zpow_log_le_self (by norm_num) hpos)
    rw [abs_of_pos hpos] at hlog ⊢
    omega
  have hlow : 2 ^ 1024 ≤ roundDigits 2 53 (-1074) q := by
    have hhalf := (abs_le.mp (herror.trans (div_le_div_of_nonneg_right hunit (by norm_num)))).1
    rw [pow_succ] at h
    generalize (2 : ℚ) ^ 1024 = bound at h ⊢
    linarith
  unfold ofRat
  dsimp only
  rw [if_neg (not_lt.mpr (hlow.trans (le_abs_self _))), decide_eq_false (not_lt.mpr hpos.le)]

/-- **An integer below `2 ^ 53` is a double.** -/
theorem ofRat_natCast {n : ℕ} (h : n < 2 ^ 53) : ofRat n = finite n := by
  have hround : roundDigits 2 53 (-1074) (n : ℚ) = n := by
    rcases Nat.eq_zero_or_pos n with rfl | hn
    · simp [roundDigits]
    have hlog : Nat.log 2 n ≤ 52 := Nat.le_of_lt_succ (Nat.log_lt_of_lt_pow hn.ne' h)
    have hexp : max (Int.log 2 |(n : ℚ)| - ((53 : ℕ) - 1)) (-1074) = -((52 - Nat.log 2 n : ℕ) : ℤ) := by
      rw [Nat.abs_cast, Int.log_natCast]
      omega
    have hscaled : (n : ℚ) / ((2 : ℕ) : ℚ) ^ (-((52 - Nat.log 2 n : ℕ) : ℤ)) = ((n * 2 ^ (52 - Nat.log 2 n) : ℤ) : ℚ) := by
      rw [zpow_neg, zpow_natCast, div_inv_eq_mul]
      push_cast
      rfl
    have hne : (n : ℚ) ≠ 0 := by exact_mod_cast hn.ne'
    unfold roundDigits
    rw [if_neg hne]
    dsimp only
    rw [hexp, hscaled, roundHalfEven_intCast, ← hscaled]
    exact div_mul_cancel₀ _ (zpow_ne_zero _ (by norm_num))
  have hfinite : |(n : ℚ)| < 2 ^ 1024 := by
    have hcast : (n : ℚ) < 2 ^ 53 := by exact_mod_cast h
    rw [Nat.abs_cast]
    exact hcast.trans (pow_lt_pow_right₀ (by norm_num) (by norm_num))
  unfold ofRat
  dsimp only
  rw [hround, if_pos hfinite]

end Double
