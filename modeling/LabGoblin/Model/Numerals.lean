import LabGoblin.Model.Text
import Mathlib.Algebra.Order.Ring.Int
import Mathlib.Data.List.Infix

/-!
# Numerals

`str` of an integer: its decimal digits, after a minus sign where it is negative. The numerals of
the natural numbers get longer with the number.
-/

set_option autoImplicit false

namespace LabGoblin.Text

/-- `str` of an integer. -/
def str : ℤ → Text
  | .ofNat n => Nat.toDigits 10 n
  | .negSucc n => '-' :: Nat.toDigits 10 (n + 1)

/-- `part in s` -/
def contains (part s : Text) : Bool := part <:+: s

/-- The test for a substring finds it exactly where it occurs. -/
theorem contains_iff {part s : Text} : contains part s = true ↔ part <:+: s := by
  unfold contains
  exact decide_eq_true_iff

/-- A natural number is written with its digits and no sign. -/
@[simp] theorem str_natCast (n : ℕ) : str (n : ℤ) = Nat.toDigits 10 n := rfl

/-- No number is written as the empty text. -/
theorem str_ne_nil (v : ℤ) : str v ≠ [] := by
  cases v with
  | ofNat n => exact Nat.toDigits_ne_nil
  | negSucc n => exact List.cons_ne_nil _ _

/-- A numeral consists of digits and of a minus sign. -/
theorem mem_str {v : ℤ} {c : Char} (h : c ∈ str v) : c = '-' ∨ c.isDigit = true := by
  cases v with
  | ofNat n => exact Or.inr (Nat.isDigit_of_mem_toDigits (by decide) (by decide) h)
  | negSucc n =>
    cases List.mem_cons.mp h with
    | inl heq => exact Or.inl heq
    | inr hmem => exact Or.inr (Nat.isDigit_of_mem_toDigits (by decide) (by decide) hmem)

/-- Numbers with one text are one number. -/
theorem toDigits_injective {m n : ℕ} (h : Nat.toDigits 10 m = Nat.toDigits 10 n) : m = n := by
  have hread := congrArg (fun digits => Nat.ofDigitChars 10 digits 0) h
  simpa using hread

/-- There is no minus sign among digits. -/
theorem minus_not_mem_toDigits (n : ℕ) : '-' ∉ Nat.toDigits 10 n := by
  intro hmem
  have hdigit : '-'.isDigit = true :=
    Nat.isDigit_of_mem_toDigits (by decide) (by decide) hmem
  exact absurd hdigit (by decide)

/-- Different integers have different numerals. -/
theorem str_injective : Function.Injective str := by
  intro v w h
  cases v with
  | ofNat m =>
    cases w with
    | ofNat n => exact congrArg Int.ofNat (toDigits_injective h)
    | negSucc n =>
      have hmem : '-' ∈ Nat.toDigits 10 m := by
        have hm : Nat.toDigits 10 m = '-' :: Nat.toDigits 10 (n + 1) := h
        rw [hm]
        exact List.mem_cons_self
      exact absurd hmem (minus_not_mem_toDigits m)
  | negSucc m =>
    cases w with
    | ofNat n =>
      have hmem : '-' ∈ Nat.toDigits 10 n := by
        have hn : '-' :: Nat.toDigits 10 (m + 1) = Nat.toDigits 10 n := h
        rw [← hn]
        exact List.mem_cons_self
      exact absurd hmem (minus_not_mem_toDigits n)
    | negSucc n =>
      have hdigits : Nat.toDigits 10 (m + 1) = Nat.toDigits 10 (n + 1) := List.tail_eq_of_cons_eq h
      have heq := toDigits_injective hdigits
      rw [Nat.succ.inj heq]

/-- The larger of two natural numbers has no shorter numeral. -/
theorem length_toDigits_mono {m n : ℕ} (h : m ≤ n) :
    (Nat.toDigits 10 m).length ≤ (Nat.toDigits 10 n).length := by
  have hpos : 0 < (Nat.toDigits 10 n).length := Nat.length_toDigits_pos
  rw [Nat.length_toDigits_le_iff (by omega) hpos]
  have hn : n < 10 ^ (Nat.toDigits 10 n).length :=
    (Nat.length_toDigits_le_iff (by omega) hpos).mp (le_refl _)
  omega

/-- Of two integers that are not negative, the larger has no shorter numeral. -/
theorem length_str_mono {v w : ℤ} (hv : 0 ≤ v) (h : v ≤ w) : (str v).length ≤ (str w).length := by
  lift v to ℕ using hv
  lift w to ℕ using by omega
  rw [str_natCast, str_natCast]
  exact length_toDigits_mono (by omega)

end LabGoblin.Text
