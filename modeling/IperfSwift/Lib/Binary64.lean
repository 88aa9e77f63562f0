import Mathlib.Algebra.Order.Floor.Ring
import Mathlib.Data.Int.Log
import Mathlib.Data.Rat.Floor
import Mathlib.Tactic

/-!
Contract: the values of a `double` and its arithmetic, by rational numbers.

Owns: rounding to 53 significant bits, to nearest and ties to even, with the
smallest exponent; products, differences and quotients rounded that way;
comparison and rounding to whole numbers; how far rounding moves a number, and
which numbers it leaves alone.

A finite value may be any rational number: what holds for all of them holds for
those that are doubles.

Does not own: signed zeros, which no comparison tells apart.
-/

set_option autoImplicit false

namespace IperfSwift.Lib

variable {x : ℚ} {bits : ℤ}

/-! ### Rounding -/

/-- The nearest whole number, and the even one of two. -/
def nearestEven (x : ℚ) : ℤ :=
  if x - ⌊x⌋ < 1 / 2 then ⌊x⌋
  else if 1 / 2 < x - ⌊x⌋ then ⌊x⌋ + 1
  else if ⌊x⌋ % 2 = 0 then ⌊x⌋ else ⌊x⌋ + 1

/-- The exponent of the last bit of a significand. -/
def ulpExponent (x : ℚ) : ℤ := max (Int.log 2 |x| - 52) (-1074)

/-- The nearest number with 53 significant bits, without a largest exponent. -/
def roundBits (x : ℚ) : ℚ := nearestEven (x / 2 ^ ulpExponent x) * 2 ^ ulpExponent x

theorem nearestEven_intCast (n : ℤ) : nearestEven n = n := by
  simp [nearestEven]

theorem abs_nearestEven_sub_le (x : ℚ) : |nearestEven x - x| ≤ 1 / 2 := by
  have low := Int.floor_le x
  have high := Int.lt_floor_add_one x
  rw [nearestEven, abs_le]
  split_ifs with below above even <;> push_cast <;> constructor <;> linarith

/-- Rounding moves a number by at most half a unit in the last place. -/
theorem abs_roundBits_sub_le (x : ℚ) : |roundBits x - x| ≤ 2 ^ ulpExponent x / 2 := by
  have positive : (0 : ℚ) < 2 ^ ulpExponent x := by positivity
  have near := abs_nearestEven_sub_le (x / 2 ^ ulpExponent x)
  have scaled : roundBits x - x =
      (nearestEven (x / 2 ^ ulpExponent x) - x / 2 ^ ulpExponent x) * 2 ^ ulpExponent x := by
    rw [roundBits, sub_mul, div_mul_cancel₀ _ positive.ne']
  rw [scaled, abs_mul, abs_of_pos positive]
  have bounded := mul_le_mul_of_nonneg_right near positive.le
  linarith

/-- A unit in the last place of a number below a power of two. -/
theorem ulpExponent_le (small : |x| < 2 ^ bits) (large : 1 ≤ bits) : ulpExponent x ≤ bits - 53 := by
  rw [ulpExponent]
  refine max_le ?_ (by omega)
  rcases eq_or_lt_of_le (abs_nonneg x) with zero | positive
  · rw [← zero, Int.log_zero_right]
    omega
  · have below := (Int.zpow_log_le_self Nat.one_lt_two positive).trans_lt small
    rw [Nat.cast_ofNat, zpow_lt_zpow_iff_right₀ one_lt_two] at below
    omega

theorem abs_roundBits_sub_le_of_lt (small : |x| < 2 ^ bits) (large : 1 ≤ bits) :
    |roundBits x - x| ≤ 2 ^ (bits - 54) := by
  have exponent := ulpExponent_le small large
  calc |roundBits x - x| ≤ 2 ^ ulpExponent x / 2 := abs_roundBits_sub_le x
    _ ≤ (2 : ℚ) ^ (bits - 53) / 2 := by
      gcongr
      exact one_le_two
    _ = 2 ^ (bits - 54) := by
      rw [show bits - 53 = bits - 54 + 1 by ring, zpow_add_one₀ two_ne_zero]
      ring

/-- A whole number of units in the last place stays as it is. -/
theorem roundBits_of_units {x : ℚ} {units : ℤ} (whole : x = units * 2 ^ ulpExponent x) :
    roundBits x = x := by
  have positive : (0 : ℚ) < 2 ^ ulpExponent x := by positivity
  have count : x / 2 ^ ulpExponent x = units := by
    rw [div_eq_iff positive.ne']
    exact whole
  rw [roundBits, count, nearestEven_intCast]
  exact whole.symm

/-- Every integer of up to 53 bits is a double, and the next power of two is one, too. -/
theorem roundBits_intCast {n : ℤ} (small : |n| ≤ 2 ^ 53) : roundBits n = n := by
  rcases small.lt_or_eq with less | edge
  · have bound : |(n : ℚ)| < 2 ^ (53 : ℤ) := by exact_mod_cast less
    have exponent : ulpExponent n ≤ 0 := ulpExponent_le bound (by norm_num)
    obtain ⟨shift, shifted⟩ := Int.eq_ofNat_of_zero_le (neg_nonneg.mpr exponent)
    apply @roundBits_of_units _ (n * 2 ^ shift)
    rw [show ulpExponent n = -(shift : ℤ) by omega, zpow_neg, zpow_natCast]
    push_cast
    field_simp
  · have exponent : ulpExponent n = 1 := by
      have size : |(n : ℚ)| = ((2 ^ 53 : ℕ) : ℚ) := by exact_mod_cast edge
      rw [ulpExponent, size, Int.log_natCast, Nat.log_pow Nat.one_lt_two]
      norm_num
    rcases (abs_eq (by norm_num)).mp edge with rfl | rfl
    · apply @roundBits_of_units _ (2 ^ 52)
      rw [exponent]
      norm_num
    · apply @roundBits_of_units _ (-2 ^ 52)
      rw [exponent]
      norm_num

theorem roundBits_nonneg (nonneg : 0 ≤ x) : 0 ≤ roundBits x := by
  have positive : (0 : ℚ) < 2 ^ ulpExponent x := by positivity
  have floor : 0 ≤ ⌊x / 2 ^ ulpExponent x⌋ := Int.floor_nonneg.mpr (by positivity)
  have whole : 0 ≤ nearestEven (x / 2 ^ ulpExponent x) := by
    rw [nearestEven]
    split_ifs <;> omega
  rw [roundBits]
  exact mul_nonneg (by exact_mod_cast whole) positive.le

/-- A number below a power of two is rounded to one below the next. -/
theorem roundBits_lt (nonneg : 0 ≤ x) (small : x < 2 ^ bits) (large : 1 ≤ bits) :
    roundBits x < 2 ^ (bits + 1) := by
  have near := abs_roundBits_sub_le_of_lt (by rwa [abs_of_nonneg nonneg]) large
  have unit : (2 : ℚ) ^ (bits - 54) ≤ 2 ^ bits := zpow_le_zpow_right₀ one_le_two (by omega)
  have above := (abs_le.mp near).2
  rw [zpow_add_one₀ two_ne_zero]
  linarith

/-! ### Values -/

inductive Binary64 where
  | nan
  | infinite (negative : Bool)
  | finite (value : ℚ)
deriving DecidableEq

namespace Binary64

def isFinite : Binary64 → Bool
  | finite _ => true
  | _ => false

/-- A number that is too large for the largest exponent is infinite. -/
def ofRat (x : ℚ) : Binary64 :=
  if 2 ^ 1024 ≤ |roundBits x| then infinite (roundBits x < 0) else finite (roundBits x)

/-- `x <= y`, which is false for a NaN. -/
def le : Binary64 → Binary64 → Bool
  | nan, _ => false
  | _, nan => false
  | infinite true, _ => true
  | _, infinite false => true
  | finite x, finite y => x ≤ y
  | _, _ => false

/-- `x == y`. -/
def beq (x y : Binary64) : Bool := le x y && le y x

/-- `min(x, y)`. -/
def min (x y : Binary64) : Binary64 := if le x y || !le y x then x else y

/-- The product with a finite number that is not zero. -/
def scale (x : Binary64) (factor : ℚ) : Binary64 :=
  match x with
  | finite value => ofRat (value * factor)
  | infinite negative => infinite (negative != decide (factor < 0))
  | nan => nan

/-- `x.rounded(.towardZero)`. -/
def towardZero : Binary64 → Binary64
  | finite value => finite (if 0 ≤ value then ⌊value⌋ else ⌈value⌉ : ℤ)
  | other => other

/-- `x.rounded(.up)`. -/
def roundedUp : Binary64 → Binary64
  | finite value => finite (⌈value⌉ : ℤ)
  | other => other

/-- The fraction `x - x.rounded(.down)`; there is none of an infinite value. -/
def fraction : Binary64 → Binary64
  | finite value => ofRat (value - ⌊value⌋)
  | _ => nan

/-- The conversion to an integer of a range, which stops the program when there is no such
integer. -/
def toInteger (low high : ℤ) : Binary64 → Option ℤ
  | finite value =>
      let whole : ℤ := if 0 ≤ value then ⌊value⌋ else ⌈value⌉
      if low ≤ whole ∧ whole ≤ high then some whole else none
  | _ => none

theorem finite_of_ofRat (small : |roundBits x| < 2 ^ 1024) : ofRat x = finite (roundBits x) := by
  rw [ofRat, if_neg (not_le.mpr small)]

/-- Rounding leaves a number finite that is far enough below the largest exponent. -/
theorem ofRat_of_lt (nonneg : 0 ≤ x) (small : x < 2 ^ bits) (large : 1 ≤ bits)
    (finite : bits < 1024) : ofRat x = .finite (roundBits x) := by
  apply finite_of_ofRat
  rw [abs_of_nonneg (roundBits_nonneg nonneg)]
  calc roundBits x < 2 ^ (bits + 1) := roundBits_lt nonneg small large
    _ ≤ (2 : ℚ) ^ (1024 : ℤ) := zpow_le_zpow_right₀ one_le_two (by omega)
    _ = 2 ^ 1024 := zpow_ofNat 2 1024

end Binary64

end IperfSwift.Lib
