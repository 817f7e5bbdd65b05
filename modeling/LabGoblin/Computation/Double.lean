import Mathlib.Algebra.Order.Field.Basic
import Mathlib.Algebra.Order.Floor.Ring
import Mathlib.Data.Int.Log
import Mathlib.Data.Rat.Floor
import Mathlib.Order.WithBot
import Mathlib.Tactic.FieldSimp
import Mathlib.Tactic.Linarith
import Mathlib.Tactic.Positivity

/-!
# Double precision

The numbers of IEEE 754 binary64 by their values: finite ones are rational numbers with 53 digits
of a last unit of at least 2^-1074, and there are two infinities. The result of an operation is
the exact one rounded to the nearest double, and to the one with an even last digit where two are
equally near. The two zeros have one value.

Whole numbers up to 2^53 are doubles, and two fractions of whole numbers below 2^26 that differ
are rounded to different doubles.
-/

set_option autoImplicit false

namespace LabGoblin.Double

/-- The value of a double that is a number, finite or not. -/
abbrev Value := WithBot (WithTop ℚ)

/-- A finite value. -/
def finite (q : ℚ) : Value := ((q : WithTop ℚ) : WithBot (WithTop ℚ))

/-- The nearest integer, or the even one of the two nearest. -/
def roundHalfEven (x : ℚ) : ℤ :=
  if x - ⌊x⌋ < 1 / 2 then ⌊x⌋
  else if 1 / 2 < x - ⌊x⌋ then ⌊x⌋ + 1
  else if ⌊x⌋ % 2 = 0 then ⌊x⌋
  else ⌊x⌋ + 1

/-- The exponent of the last unit of the doubles around a number. -/
def unitExponent (q : ℚ) : ℤ := max (Int.log 2 |q| - 52) (-1074)

/-- The last unit of the doubles around a number. -/
def unit (q : ℚ) : ℚ := 2 ^ unitExponent q

/-- The nearest number with 53 digits. -/
def nearest (q : ℚ) : ℚ := roundHalfEven (q / unit q) * unit q

/-- From here on a number is infinite. -/
def overflow : ℚ := 2 ^ 1024

/-- The double that an operation with this exact result gives. -/
def round (q : ℚ) : Value :=
  if overflow ≤ nearest q then ⊤
  else if nearest q ≤ -overflow then ⊥
  else finite (nearest q)

/-- The conversion of a number, which fails where the number is too large. -/
def ofRat? (q : ℚ) : Option ℚ := if |nearest q| < overflow then some (nearest q) else none

/-! ## Rounding to an integer -/

/-- An integer is its own nearest one. -/
theorem roundHalfEven_intCast (n : ℤ) : roundHalfEven n = n := by
  unfold roundHalfEven
  rw [Int.floor_intCast, sub_self]
  exact if_pos (by norm_num)

/-- Rounding to an integer moves a number by one half at most. -/
theorem abs_roundHalfEven_sub_le (x : ℚ) : |(roundHalfEven x : ℚ) - x| ≤ 1 / 2 := by
  have hlow : (⌊x⌋ : ℚ) ≤ x := Int.floor_le x
  have hhigh : x < ⌊x⌋ + 1 := Int.lt_floor_add_one x
  unfold roundHalfEven
  rw [abs_le]
  split
  · constructor <;> linarith
  · split
    · push_cast
      constructor <;> linarith
    · split
      · constructor <;> linarith
      · push_cast
        constructor <;> linarith

/-! ## Rounding to a double -/

/-- The last unit is positive. -/
theorem unit_pos (q : ℚ) : 0 < unit q := zpow_pos (by norm_num) _

/-- Whole numbers below 2^53 are doubles. -/
theorem nearest_intCast {n : ℤ} (h : |n| < 2 ^ 53) : nearest n = n := by
  have hlog : Int.log 2 |(n : ℚ)| < 53 := by
    by_cases hzero : n = 0
    · rw [hzero]
      simp
    · have hpos : (0 : ℚ) < |(n : ℚ)| := by simpa using hzero
      have hlt : |(n : ℚ)| < ((2 : ℕ) : ℚ) ^ (53 : ℤ) := by exact_mod_cast h
      exact (Int.lt_zpow_iff_log_lt (by norm_num) hpos).mp hlt
  have hexponent : unitExponent n ≤ 0 := by
    unfold unitExponent
    omega
  obtain ⟨k, hk⟩ := Int.eq_ofNat_of_zero_le (neg_nonneg.mpr hexponent)
  have hunit : (1 : ℚ) = 2 ^ k * unit n := by
    unfold unit
    rw [← zpow_natCast, ← hk, ← zpow_add₀ (by norm_num), neg_add_cancel, zpow_zero]
  have hdiv : (n : ℚ) / unit n = ((n * 2 ^ k : ℤ) : ℚ) := by
    rw [div_eq_iff (unit_pos _).ne', Int.cast_mul, mul_assoc]
    push_cast
    rw [← hunit, mul_one]
  unfold nearest
  rw [hdiv, roundHalfEven_intCast, ← hdiv]
  exact div_mul_cancel₀ _ (unit_pos _).ne'

/-- Rounding is off by half a last unit at most. -/
theorem abs_nearest_sub_le_unit (q : ℚ) : |nearest q - q| ≤ unit q / 2 := by
  have hpos := unit_pos q
  have hq : nearest q - q = (roundHalfEven (q / unit q) - q / unit q) * unit q := by
    unfold nearest
    rw [sub_mul, div_mul_cancel₀ _ hpos.ne']
  rw [hq, abs_mul, abs_of_pos hpos]
  have hhalf := abs_roundHalfEven_sub_le (q / unit q)
  calc |(roundHalfEven (q / unit q) : ℚ) - q / unit q| * unit q
      ≤ 1 / 2 * unit q := mul_le_mul_of_nonneg_right hhalf hpos.le
    _ = unit q / 2 := by ring

/-- Zero, or not so small that digits are lost. -/
def Normal (q : ℚ) : Prop := q = 0 ∨ (2 : ℚ) ^ (-1022 : ℤ) ≤ |q|

/-- Of a normal number only the part from the 53rd digit on is lost. -/
theorem abs_nearest_sub_le {q : ℚ} (h : Normal q) : |nearest q - q| ≤ |q| / 2 ^ 53 := by
  rcases h with rfl | h
  · have hzero : nearest ((0 : ℤ) : ℚ) = ((0 : ℤ) : ℚ) := nearest_intCast (by norm_num)
    rw [Int.cast_zero] at hzero
    simp [hzero]
  · have hpos : 0 < |q| := lt_of_lt_of_le (zpow_pos (by norm_num) _) h
    have hlog : -1022 ≤ Int.log 2 |q| :=
      (Int.zpow_le_iff_le_log (by norm_num) hpos).mp (by exact_mod_cast h)
    have hexponent : unitExponent q = Int.log 2 |q| - 52 := by
      unfold unitExponent
      omega
    have hself : (2 : ℚ) ^ Int.log 2 |q| ≤ |q| := by
      exact_mod_cast Int.zpow_log_le_self (by norm_num) hpos
    have hunit : unit q / 2 = 2 ^ Int.log 2 |q| / 2 ^ 53 := by
      unfold unit
      rw [hexponent, zpow_sub₀ (by norm_num)]
      norm_num
      ring
    have hmove := abs_nearest_sub_le_unit q
    rw [hunit] at hmove
    exact hmove.trans (div_le_div_of_nonneg_right hself (by norm_num))

/-! ## Exact results -/

/-- Numbers with some hundred digits are not infinite. -/
theorem pow_lt_overflow {k : ℕ} (h : k < 1024) : (2 : ℚ) ^ k < overflow :=
  pow_lt_pow_right₀ (by norm_num) h

/-- The conversion of whole numbers below 2^53 is exact. -/
theorem ofRat?_intCast {n : ℤ} (h : |n| < 2 ^ 53) : ofRat? n = some (n : ℚ) := by
  unfold ofRat?
  rw [nearest_intCast h]
  refine if_pos ?_
  have hbound : |(n : ℚ)| < 2 ^ 53 := by exact_mod_cast h
  exact hbound.trans (pow_lt_overflow (by norm_num))

/-- A number that is not too large stays finite. -/
theorem round_eq_finite {q : ℚ} (h : |nearest q| < overflow) : round q = finite (nearest q) := by
  obtain ⟨hlow, hhigh⟩ := abs_lt.mp h
  unfold round
  rw [if_neg (not_le.mpr hhigh), if_neg (not_le.mpr hlow)]

/-- Operations whose exact result is a whole number below 2^53 are exact. -/
theorem round_intCast {n : ℤ} (h : |n| < 2 ^ 53) : round n = finite n := by
  have hnearest := nearest_intCast h
  have hbound : |(n : ℚ)| < 2 ^ 53 := by exact_mod_cast h
  rw [round_eq_finite, hnearest]
  rw [hnearest]
  exact hbound.trans (pow_lt_overflow (by norm_num))

/-- Finite values are ordered as the numbers are. -/
@[simp] theorem finite_lt_finite {a b : ℚ} : finite a < finite b ↔ a < b := by
  unfold finite
  rw [WithBot.coe_lt_coe, WithTop.coe_lt_coe]

/-- Finite values are equal as the numbers are. -/
@[simp] theorem finite_inj {a b : ℚ} : finite a = finite b ↔ a = b := by
  unfold finite
  rw [WithBot.coe_inj, WithTop.coe_inj]

/-! ## Fractions -/

/-- Normal numbers that are far enough apart stay apart. -/
theorem nearest_lt_nearest {x y : ℚ} (hx : Normal x) (hy : Normal y)
    (h : |x| + |y| < 2 ^ 53 * (y - x)) : nearest x < nearest y := by
  have hleft := (abs_le.mp (abs_nearest_sub_le hx)).2
  have hright := (abs_le.mp (abs_nearest_sub_le hy)).1
  have hgap : |x| / 2 ^ 53 + |y| / 2 ^ 53 < y - x := by
    rw [← add_div, div_lt_iff₀ (by norm_num)]
    linarith
  linarith

section Fractions

variable {a b c d : ℤ}

/-- A fraction of small whole numbers is a normal number below 2^26. -/
theorem normal_div (ha : |a| < 2 ^ 26) (hb : 0 < b) (hb' : b < 2 ^ 26) :
    Normal ((a : ℚ) / b) ∧ |(a : ℚ) / b| ≤ 2 ^ 26 := by
  have hpos : (0 : ℚ) < b := by exact_mod_cast hb
  have hone : (1 : ℚ) ≤ b := by exact_mod_cast hb
  have hless : (b : ℚ) < 2 ^ 26 := by exact_mod_cast hb'
  have hbound : |(a : ℚ)| < 2 ^ 26 := by exact_mod_cast ha
  constructor
  · by_cases hzero : a = 0
    · left
      rw [hzero]
      simp
    · right
      have hleast : (1 : ℚ) ≤ |(a : ℚ)| := by exact_mod_cast Int.one_le_abs hzero
      rw [abs_div, abs_of_pos hpos, le_div_iff₀ hpos]
      have hsmall : (2 : ℚ) ^ (-1022 : ℤ) * 2 ^ 26 ≤ 1 := by
        rw [← zpow_natCast, ← zpow_add₀ (by norm_num)]
        exact zpow_le_one_of_nonpos₀ (by norm_num) (by norm_num)
      have hfactor : (2 : ℚ) ^ (-1022 : ℤ) * b ≤ (2 : ℚ) ^ (-1022 : ℤ) * 2 ^ 26 :=
        mul_le_mul_of_nonneg_left hless.le (zpow_pos (by norm_num) _).le
      linarith
  · rw [abs_div, abs_of_pos hpos]
    exact (div_le_self (abs_nonneg _) hone).trans hbound.le

/-- Fractions of small whole numbers that differ are rounded to different doubles. -/
theorem nearest_div_lt (ha : |a| < 2 ^ 26) (hb : 0 < b) (hb' : b < 2 ^ 26) (hc : |c| < 2 ^ 26)
    (hd : 0 < d) (hd' : d < 2 ^ 26) (h : (a : ℚ) / b < c / d) :
    nearest ((a : ℚ) / b) < nearest ((c : ℚ) / d) := by
  have hbpos : (0 : ℚ) < b := by exact_mod_cast hb
  have hdpos : (0 : ℚ) < d := by exact_mod_cast hd
  refine nearest_lt_nearest (normal_div ha hb hb').1 (normal_div hc hd hd').1 ?_
  have hcross : a * d + 1 ≤ c * b := by
    have hlt : (a : ℚ) * d < c * b := (div_lt_div_iff₀ hbpos hdpos).mp h
    exact_mod_cast hlt
  have hsizes : |a| * d + |c| * b < 2 ^ 53 := by
    have hfirst : |a| * d < 2 ^ 26 * 2 ^ 26 :=
      mul_lt_mul'' ha hd' (abs_nonneg _) hd.le
    have hsecond : |c| * b < 2 ^ 26 * 2 ^ 26 :=
      mul_lt_mul'' hc hb' (abs_nonneg _) hb.le
    omega
  have hbound : |a| * d + |c| * b < 2 ^ 53 * (c * b - a * d) := by omega
  have hcast : |(a : ℚ)| * d + |(c : ℚ)| * b < 2 ^ 53 * (c * b - a * d) := by
    exact_mod_cast hbound
  rw [abs_div, abs_div, abs_of_pos hbpos, abs_of_pos hdpos]
  have hproduct : 0 < (b : ℚ) * d := mul_pos hbpos hdpos
  have hleft : |(a : ℚ)| / b + |(c : ℚ)| / d = (|(a : ℚ)| * d + |(c : ℚ)| * b) / (b * d) := by
    field_simp
  have hright : 2 ^ 53 * ((c : ℚ) / d - a / b) = 2 ^ 53 * (c * b - a * d) / (b * d) := by
    field_simp
  rw [hleft, hright]
  exact div_lt_div_of_pos_right hcast hproduct

/-- A fraction of small whole numbers stays finite. -/
theorem round_div (ha : |a| < 2 ^ 26) (hb : 0 < b) (hb' : b < 2 ^ 26) :
    round ((a : ℚ) / b) = finite (nearest ((a : ℚ) / b)) := by
  obtain ⟨hnormal, hbound⟩ := normal_div ha hb hb'
  apply round_eq_finite
  have hmove := abs_nearest_sub_le hnormal
  have htriangle := abs_sub_abs_le_abs_sub (nearest ((a : ℚ) / b)) ((a : ℚ) / b)
  have hless : |(a : ℚ) / b| / 2 ^ 53 ≤ |(a : ℚ) / b| := div_le_self (abs_nonneg _) (by norm_num)
  have hlarge : (2 : ℚ) ^ 27 < overflow := pow_lt_overflow (by norm_num)
  linarith

/-- Fractions of small whole numbers are ordered as their doubles are. -/
theorem round_div_lt_iff (ha : |a| < 2 ^ 26) (hb : 0 < b) (hb' : b < 2 ^ 26) (hc : |c| < 2 ^ 26)
    (hd : 0 < d) (hd' : d < 2 ^ 26) :
    round ((a : ℚ) / b) < round ((c : ℚ) / d) ↔ (a : ℚ) / b < c / d := by
  rw [round_div ha hb hb', round_div hc hd hd', finite_lt_finite]
  constructor
  · intro h
    by_contra hnot
    rcases eq_or_lt_of_le (not_lt.mp hnot) with heq | hlt
    · rw [heq] at h
      exact lt_irrefl _ h
    · exact lt_asymm h (nearest_div_lt hc hd hd' ha hb hb' hlt)
  · exact nearest_div_lt ha hb hb' hc hd hd'

end Fractions

end LabGoblin.Double
