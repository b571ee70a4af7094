import Mathlib.Algebra.Order.Floor.Ring
import Mathlib.Data.Rat.Floor
import Mathlib.Data.Int.Log

/-!
# Binary64 numbers

A finite double is given by the rational it denotes, so `0.0` and `-0.0` are one value; `eq` is the IEEE
comparison `==`. `ofRat` rounds to the nearest double, ties to even.
-/

inductive Double where
  | finite (q : ℚ)
  | inf (negative : Bool)
  | nan
  deriving DecidableEq

namespace Double

/-- `x == y`. -/
def eq : Double → Double → Bool
  | finite p, finite q => p = q
  | inf a, inf b => a = b
  | _, _ => false

theorem eq_sound {x y : Double} (h : eq x y = true) : x = y := by
  cases x <;> cases y <;> simp_all [eq]

/-- The nearest integer, ties to even. -/
def roundHalfEven (q : ℚ) : ℤ :=
  let f := ⌊q⌋
  if q - f < 1 / 2 then f
  else if 1 / 2 < q - f then f + 1
  else if f % 2 = 0 then f
  else f + 1

/-- Rounding to `digits` significant digits in the base, but to no multiple finer than `base ^ least`. -/
def roundDigits (base : ℕ) (digits : ℕ) (least : ℤ) (q : ℚ) : ℚ :=
  if q = 0 then 0
  else
    let unit : ℚ := (base : ℚ) ^ max (Int.log base |q| - (digits - 1)) least
    roundHalfEven (q / unit) * unit

/-- The double nearest to a rational. -/
def ofRat (q : ℚ) : Double :=
  let r := roundDigits 2 53 (-1074) q
  if |r| < 2 ^ 1024 then finite r else inf (q < 0)

def isFinite : Double → Bool
  | finite _ => true
  | _ => false

/-- The rational a finite double denotes. -/
def toRat : Double → ℚ
  | finite q => q
  | _ => 0

/-- `x < q`; a NaN compares false. -/
def below (x : Double) (q : ℚ) : Bool :=
  match x with
  | finite p => p < q
  | inf negative => negative
  | nan => false

/-- `q < x`; a NaN compares false. -/
def above (x : Double) (q : ℚ) : Bool :=
  match x with
  | finite p => q < p
  | inf negative => !negative
  | nan => false

/-- `x < y`; a NaN compares false. -/
def lt (x y : Double) : Bool :=
  match x, y with
  | finite p, y => y.above p
  | x, finite q => x.below q
  | inf a, inf b => a && !b
  | _, _ => false

/-- `y` is `x` or above it. -/
def NotBelow (x y : Double) : Prop := x = y ∨ x.lt y = true

theorem NotBelow.above {x y : Double} (h : NotBelow x y) {q : ℚ} (hx : x.above q = true) : y.above q = true := by
  rcases h with rfl | h
  · exact hx
  · rcases x with p | a | _ <;> rcases y with p' | b | _ <;> simp_all [lt, Double.above, Double.below]
    exact hx.trans h

theorem NotBelow.below {x y : Double} (h : NotBelow x y) {q : ℚ} (hy : y.below q = true) : x.below q = true := by
  rcases h with rfl | h
  · exact hy
  · rcases x with p | a | _ <;> rcases y with p' | b | _ <;> simp_all [lt, Double.above, Double.below]
    exact h.trans hy

/-- `x * k` for a positive constant. -/
def scale (x : Double) (k : ℚ) : Double :=
  match x with
  | finite q => ofRat (q * k)
  | x => x

/-- `x + y`. -/
def add : Double → Double → Double
  | finite p, finite q => ofRat (p + q)
  | finite _, inf b => inf b
  | inf a, finite _ => inf a
  | inf a, inf b => if a = b then inf a else nan
  | _, _ => nan

/-- `std::max(0.0, x)`. -/
def nonnegative (x : Double) : Double := if x.above 0 then x else finite 0

end Double
