import Mathlib.Analysis.InnerProductSpace.PiL2
import Mathlib.LinearAlgebra.UnitaryGroup
import Mathlib.Tactic.LinearCombination

/-!
# Coordinates in an orthonormal frame

The rows of an orthogonal matrix are the axes of a frame; the coordinates of a vector in it are the matrix applied to
the vector. Such coordinates keep distances (`dist_coordinates`). `enu` is the right-handed frame at a latitude and a
longitude given by their sines and cosines (`enu_mem`): east, north and up.
-/

namespace Rigid
open Matrix

/-! ## Distances -/

section Distance
variable {n : Type*} [Fintype n] [DecidableEq n] {A : Matrix n n ℝ}

theorem dotProduct_coordinates (hA : A ∈ orthogonalGroup n ℝ) (v : n → ℝ) : (A *ᵥ v) ⬝ᵥ (A *ᵥ v) = v ⬝ᵥ v := by
  have horth : Aᵀ * A = 1 := (mem_orthogonalGroup_iff' n ℝ).mp hA
  rw [dotProduct_mulVec, ← vecMul_transpose, vecMul_vecMul, horth, vecMul_one]

/-- **Coordinates in an orthonormal frame keep distances.** -/
theorem dist_coordinates (hA : A ∈ orthogonalGroup n ℝ) (x y origin : n → ℝ) :
    dist (WithLp.toLp 2 (A *ᵥ (x - origin))) (WithLp.toLp 2 (A *ᵥ (y - origin))) =
      dist (WithLp.toLp 2 x) (WithLp.toLp 2 y) := by
  have hnorm : ∀ v : n → ℝ, ‖WithLp.toLp 2 v‖ ^ 2 = v ⬝ᵥ v := by
    intro v
    rw [EuclideanSpace.real_norm_sq_eq]
    exact Finset.sum_congr rfl fun i _ => sq (v i)
  have hdiff : A *ᵥ (x - origin) - A *ᵥ (y - origin) = A *ᵥ (x - y) := by
    rw [← mulVec_sub, sub_sub_sub_cancel_right]
  have hsq : ‖WithLp.toLp 2 (A *ᵥ (x - y))‖ ^ 2 = ‖WithLp.toLp 2 (x - y)‖ ^ 2 := by
    rw [hnorm, hnorm, dotProduct_coordinates hA]
  rw [dist_eq_norm, dist_eq_norm, ← WithLp.toLp_sub, ← WithLp.toLp_sub, hdiff]
  exact (sq_eq_sq₀ (norm_nonneg _) (norm_nonneg _)).mp hsq

end Distance

/-! ## East, north and up -/

section Enu
variable {R : Type*} [CommRing R]

/-- The axes at a latitude and a longitude, one row each. -/
def enu (sinLat cosLat sinLon cosLon : R) : Matrix (Fin 3) (Fin 3) R :=
  !![-sinLon, cosLon, 0; -sinLat * cosLon, -sinLat * sinLon, cosLat; cosLat * cosLon, cosLat * sinLon, sinLat]

variable {sinLat cosLat sinLon cosLon : R}

theorem enu_mul_transpose (hlat : sinLat ^ 2 + cosLat ^ 2 = 1) (hlon : sinLon ^ 2 + cosLon ^ 2 = 1) :
    enu sinLat cosLat sinLon cosLon * (enu sinLat cosLat sinLon cosLon)ᵀ = 1 := by
  rw [← Matrix.ext_iff]
  simp only [enu, Fin.forall_fin_succ, Matrix.mul_apply, Fin.sum_univ_three, transpose_apply, one_apply]
  simp only [neg_mul, Fin.isValue, of_apply, cons_val', cons_val_zero, cons_val_fin_one, mul_neg, neg_neg,
    cons_val_one, cons_val, mul_zero, add_zero, ↓reduceIte, Fin.succ_zero_eq_one, zero_mul, zero_ne_one,
    Fin.succ_one_eq_two, Fin.reduceEq, cons_val_succ, IsEmpty.forall_iff, and_true, one_ne_zero, Fin.succ_ne_zero,
    Fin.succ_inj]
  refine ⟨⟨?_, ?_, ?_⟩, ⟨?_, ?_, ?_⟩, ?_, ?_, ?_⟩
  · linear_combination hlon
  · ring
  · ring
  · ring
  · linear_combination sinLat ^ 2 * hlon + hlat
  · linear_combination -(sinLat * cosLat) * hlon
  · ring
  · linear_combination -(sinLat * cosLat) * hlon
  · linear_combination cosLat ^ 2 * hlon + hlat

theorem det_enu (hlat : sinLat ^ 2 + cosLat ^ 2 = 1) (hlon : sinLon ^ 2 + cosLon ^ 2 = 1) :
    (enu sinLat cosLat sinLon cosLon).det = 1 := by
  rw [enu, det_fin_three]
  simp only [neg_mul, Fin.isValue, of_apply, cons_val', cons_val_zero, cons_val_fin_one, cons_val_one, mul_neg,
    neg_neg, cons_val, sub_neg_eq_add, zero_mul, neg_zero, add_zero, sub_zero]
  linear_combination (sinLon ^ 2 + cosLon ^ 2) * hlat + hlon

/-- **The axes at a latitude and a longitude form a right-handed orthonormal frame.** -/
theorem enu_mem (hlat : sinLat ^ 2 + cosLat ^ 2 = 1) (hlon : sinLon ^ 2 + cosLon ^ 2 = 1) :
    enu sinLat cosLat sinLon cosLon ∈ specialOrthogonalGroup (Fin 3) R :=
  mem_specialOrthogonalGroup_iff.mpr
    ⟨(mem_orthogonalGroup_iff (Fin 3) R).mpr (enu_mul_transpose hlat hlon), det_enu hlat hlon⟩

/-- The vertical direction has the coordinates of the third axis. -/
theorem enu_mulVec_up (hlat : sinLat ^ 2 + cosLat ^ 2 = 1) (hlon : sinLon ^ 2 + cosLon ^ 2 = 1) (h : R) :
    enu sinLat cosLat sinLon cosLon *ᵥ ![h * (cosLat * cosLon), h * (cosLat * sinLon), h * sinLat] = ![0, 0, h] := by
  ext i
  fin_cases i
  · simp [enu, mulVec, dotProduct, Fin.sum_univ_three]
    ring
  · simp [enu, mulVec, dotProduct, Fin.sum_univ_three]
    linear_combination -(h * sinLat * cosLat) * hlon
  · simp [enu, mulVec, dotProduct, Fin.sum_univ_three]
    linear_combination h * cosLat ^ 2 * hlon + h * hlat

end Enu

end Rigid
