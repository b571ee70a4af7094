import Mathlib.Algebra.Order.Ring.Nat
import Mathlib.Tactic.IntervalCases
import Mathlib.Tactic.NormNum

/-!
# The octets of a word

Octet `i` of a 64-bit word, the least significant first. The eight octets determine the word (`octets_injective`), also
when those of two words are taken in turn (`interleave_injective`).
-/

namespace Octets

/-- Octet `i` of a word. -/
def octet (word : UInt64) (i : ℕ) : UInt8 := (word >>> UInt64.ofNat (8 * i)).toUInt8

theorem octet_toNat (word : UInt64) {i : ℕ} (h : i < 8) : (octet word i).toNat = word.toNat / 256 ^ i % 256 := by
  have shift : (UInt64.ofNat (8 * i)).toNat % 64 = 8 * i := by
    rw [UInt64.toNat_ofNat_of_lt' (by show 8 * i < 2 ^ 64; omega)]
    omega
  have power : 2 ^ (8 * i) = 256 ^ i := by
    rw [pow_mul]
    norm_num
  unfold octet
  rw [UInt64.toNat_toUInt8, UInt64.toNat_shiftRight, shift, Nat.shiftRight_eq_div_pow, power]

/-- The low `n` octets determine the residue modulo `256 ^ n`. -/
theorem mod_eq_of_octets {x y : ℕ} (n : ℕ) (h : ∀ i < n, x / 256 ^ i % 256 = y / 256 ^ i % 256) :
    x % 256 ^ n = y % 256 ^ n := by
  induction n with
  | zero => simp [Nat.mod_one]
  | succ n ih =>
    have low := ih (fun i hi => h i (by omega))
    have top := h n (by omega)
    rw [Nat.mod_pow_succ, Nat.mod_pow_succ, low, top]

theorem octets_injective {x y : UInt64} (h : ∀ i < 8, octet x i = octet y i) : x = y := by
  have residues : x.toNat % 256 ^ 8 = y.toNat % 256 ^ 8 := by
    apply mod_eq_of_octets
    intro i hi
    rw [← octet_toNat x hi, ← octet_toNat y hi, h i hi]
  apply UInt64.toNat_inj.mp
  have hx := x.toNat_lt
  have hy := y.toNat_lt
  omega

/-- The octets of two words in turn. -/
def interleave (x y : UInt64) : List UInt8 := (List.range 8).flatMap (fun i => [octet x i, octet y i])

theorem interleave_length (x y : UInt64) : (interleave x y).length = 16 := by
  rw [interleave, List.length_flatMap]
  rfl

theorem interleave_injective {x y x' y' : UInt64} (h : interleave x y = interleave x' y') : x = x' ∧ y = y' := by
  have octets : ∀ i < 8, octet x i = octet x' i ∧ octet y i = octet y' i := by
    simp only [interleave, List.range_succ, List.range_zero, List.flatMap_cons, List.flatMap_nil, List.nil_append,
      List.cons_append, List.append_nil, List.cons.injEq, and_true] at h
    intro i hi
    interval_cases i <;> tauto
  exact ⟨octets_injective (fun i hi => (octets i hi).1), octets_injective (fun i hi => (octets i hi).2)⟩

end Octets
