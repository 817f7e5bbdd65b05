import Mathlib.Algebra.Group.Nat.Defs
import Mathlib.Data.Nat.Notation
import Mathlib.Data.Nat.Log
import Mathlib.Data.List.Basic

/-!
# Hexadecimal digits

The digits of both cases are read, and numbers are written in either case. A number is read back
from the digits that it is written in.
-/

set_option autoImplicit false

namespace Interactive.Hex

/-- The value of a hexadecimal digit. -/
def value (c : Char) : Option ℕ :=
  if '0' ≤ c ∧ c ≤ '9' then some (c.toNat - 0x30)
  else if 'a' ≤ c ∧ c ≤ 'f' then some (c.toNat - 0x57)
  else if 'A' ≤ c ∧ c ≤ 'F' then some (c.toNat - 0x37)
  else none

/-- A digit is worth less than sixteen. -/
theorem value_lt {c : Char} {v : ℕ} (h : value c = some v) : v < 16 := by
  unfold value at h
  simp only [Char.le_def, UInt32.le_iff_toNat_le] at h
  have hnat : c.toNat = c.val.toNat := rfl
  split at h
  · rename_i hc
    have hv := Option.some.inj h
    have hle : c.val.toNat ≤ 0x39 := hc.2
    omega
  · split at h
    · rename_i hc
      have hv := Option.some.inj h
      have hle : c.val.toNat ≤ 0x66 := hc.2
      omega
    · split at h
      · rename_i hc
        have hv := Option.some.inj h
        have hle : c.val.toNat ≤ 0x46 := hc.2
        omega
      · cases h

/-- The number that digits are read as, on from `n`. -/
def readFrom (n : ℕ) : List Char → Option ℕ
  | [] => some n
  | c :: cs =>
    match value c with
    | some v => readFrom (16 * n + v) cs
    | none => none

/-- A number is read in two parts, the second on top of the first. -/
theorem readFrom_append (n : ℕ) (l m : List Char) :
    readFrom n (l ++ m) = (readFrom n l).bind fun k => readFrom k m := by
  induction l generalizing n with
  | nil => rfl
  | cons c l ih =>
    rw [List.cons_append, readFrom, readFrom]
    cases value c with
    | none => rfl
    | some v => exact ih (16 * n + v)

/-- A text of `k` digits reads as less than `16 ^ k`, whatever was read before counting once more.
-/
theorem readFrom_lt {cs : List Char} {n v : ℕ} (h : readFrom n cs = some v) :
    v < 16 ^ cs.length * (n + 1) := by
  induction cs generalizing n with
  | nil =>
    have hv : n = v := Option.some.inj h
    simp [hv]
  | cons c cs ih =>
    rw [readFrom] at h
    cases hc : value c with
    | none =>
      rw [hc] at h
      cases h
    | some d =>
      rw [hc] at h
      have hlt := ih h
      have hd := value_lt hc
      have hle : 16 ^ cs.length * (16 * n + d + 1) ≤ 16 ^ cs.length * (16 * (n + 1)) :=
        Nat.mul_le_mul_left _ (by omega)
      have hpow : 16 ^ (c :: cs).length * (n + 1) = 16 ^ cs.length * (16 * (n + 1)) := by
        rw [List.length_cons, Nat.pow_succ, Nat.mul_assoc]
      omega

/-- The digits of a number, in lower case and without leading zeros. -/
def digits (n : ℕ) : List Char := Nat.toDigits 16 n

/-- Lean's digit for a value has that value. -/
theorem value_digitChar {d : ℕ} (h : d < 16) : value d.digitChar = some d := by
  have hall : ∀ d < 16, value (Nat.digitChar d) = some d := by decide
  exact hall d h

/-- A number below sixteen is written with one digit. -/
theorem digits_of_lt {n : ℕ} (h : n < 16) : digits n = [n.digitChar] :=
  Nat.toDigits_of_lt_base h

/-- A larger number is written as its sixteenth part and its last digit. -/
theorem digits_of_le {n : ℕ} (h : 16 ≤ n) :
    digits n = digits (n / 16) ++ [(n % 16).digitChar] := Nat.toDigits_of_base_le (by decide) h

/-- Every number is written with a digit. -/
theorem digits_ne_nil (n : ℕ) : digits n ≠ [] := Nat.toDigits_ne_nil

/-- The digits of a number are read as the number. -/
theorem readFrom_digits (n : ℕ) : readFrom 0 (digits n) = some n := by
  induction n using Nat.strongRecOn with
  | ind n ih =>
    by_cases h : n < 16
    · rw [digits_of_lt h, readFrom, value_digitChar h]
      simp [readFrom]
    · have hle : 16 ≤ n := by omega
      have hmod : n % 16 < 16 := Nat.mod_lt n (by decide)
      rw [digits_of_le hle, readFrom_append, ih (n / 16) (by omega), Option.bind_some]
      simp only [readFrom, value_digitChar hmod]
      exact congrArg some (by omega)

/-- A number below `16 ^ k` is written with at most `k` digits. -/
theorem length_digits_le {n k : ℕ} (hk : 0 < k) (h : n < 16 ^ k) : (digits n).length ≤ k := by
  induction k generalizing n with
  | zero => omega
  | succ k ih =>
    by_cases hn : n < 16
    · rw [digits_of_lt hn]
      simp
    · have hle : 16 ≤ n := by omega
      have hpos : 0 < k := by
        by_contra hzero
        have hk0 : k = 0 := by omega
        subst hk0
        simp at h
        omega
      have hdiv : n / 16 < 16 ^ k := by
        rw [Nat.pow_succ] at h
        omega
      have hlength := ih hpos hdiv
      rw [digits_of_le hle]
      simp
      omega

/-- Every digit that is written has a value. -/
theorem value_of_mem_digits {n : ℕ} {c : Char} (h : c ∈ digits n) : (value c).isSome = true := by
  induction n using Nat.strongRecOn with
  | ind n ih =>
    by_cases hn : n < 16
    · rw [digits_of_lt hn, List.mem_singleton] at h
      rw [h, value_digitChar hn]
      rfl
    · have hle : 16 ≤ n := by omega
      rw [digits_of_le hle] at h
      rcases List.mem_append.mp h with hhigh | hlow
      · exact ih (n / 16) (by omega) hhigh
      · rw [List.mem_singleton.mp hlow, value_digitChar (Nat.mod_lt n (by decide))]
        rfl

/-! ## Lower case -/

/-- Lower case moves the capital letters of ASCII and nothing else. -/
theorem toNat_toLower (c : Char) :
    c.toLower.toNat = if 65 ≤ c.toNat ∧ c.toNat ≤ 90 then c.toNat + 32 else c.toNat := by
  have hnat : c.toNat = c.val.toNat := rfl
  unfold Char.toLower
  simp only [ge_iff_le, UInt32.le_iff_toNat_le]
  split
  · rename_i h
    have hlow : 65 ≤ c.val.toNat := h.1
    have hhigh : c.val.toNat ≤ 90 := h.2
    have hsum : (c.val + ('a'.val - 'A'.val)).toNat = c.val.toNat + 32 := by
      rw [UInt32.toNat_add]
      show (c.val.toNat + 32) % 2 ^ 32 = _
      omega
    rw [if_pos (by omega)]
    exact hsum
  · rename_i h
    rw [if_neg]
    rintro ⟨hlow, hhigh⟩
    exact h ⟨hlow, hhigh⟩

/-- Letters with one number are one letter. -/
theorem eq_of_toNat_eq {c d : Char} (h : c.toNat = d.toNat) : c = d :=
  Char.ext (UInt32.toNat_inj.mp h)

/-- Whether a character is none of the ASCII letters. -/
def isMark (c : Char) : Bool := c.toNat < 65 || (90 < c.toNat && c.toNat < 97) || 122 < c.toNat

/-- Only a mark itself has the mark for its lower case. -/
theorem toLower_eq_iff {c d : Char} (hd : isMark d = true) : c.toLower = d ↔ c = d := by
  have hc := toNat_toLower c
  simp only [isMark, Bool.or_eq_true, Bool.and_eq_true, decide_eq_true_eq] at hd
  constructor
  · rintro rfl
    refine eq_of_toNat_eq ?_
    split at hc <;> omega
  · rintro rfl
    refine eq_of_toNat_eq ?_
    split at hc <;> omega

/-- The lower case of a text has the marks of the text. -/
theorem mem_map_toLower {s : List Char} {d : Char} (hd : isMark d = true) :
    d ∈ s.map Char.toLower ↔ d ∈ s := by
  rw [List.mem_map]
  constructor
  · rintro ⟨c, hc, heq⟩
    rw [← (toLower_eq_iff hd).mp heq]
    exact hc
  · intro hmem
    exact ⟨d, hmem, (toLower_eq_iff hd).mpr rfl⟩

end Interactive.Hex
