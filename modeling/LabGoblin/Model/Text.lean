import Mathlib.Data.Int.Notation
import Mathlib.Data.Nat.Notation

/-!
# Python text

A `str` is a sequence of Unicode code points, and its length counts them. `str.isdigit` accepts
every character whose numeric type is *decimal* or *digit*; `int` reads the decimal ones only,
in any script, and refuses more than 4300 of them. The tables are those of Unicode 15.0.
-/

set_option autoImplicit false

namespace LabGoblin

abbrev Text := List Char

instance : LawfulBEq Text := inferInstanceAs (LawfulBEq (List Char))

/-- The `ValueError`s that the modelled code raises itself or through `int`. -/
inductive ValueError where
  | message (text : String)
  /-- `invalid literal for int() with base 10` -/
  | invalidLiteral
  /-- `Exceeds the limit (4300 digits) for integer string conversion` -/
  | tooManyDigits
  deriving DecidableEq, Repr

namespace Text

/-- The code points of the digit zero of every script: the nine that follow are the digits one
to nine. -/
def decimalZeros : List ℕ :=
  [0x30, 0x660, 0x6f0, 0x7c0, 0x966, 0x9e6, 0xa66, 0xae6, 0xb66, 0xbe6, 0xc66, 0xce6, 0xd66,
    0xde6, 0xe50, 0xed0, 0xf20, 0x1040, 0x1090, 0x17e0, 0x1810, 0x1946, 0x19d0, 0x1a80, 0x1a90,
    0x1b50, 0x1bb0, 0x1c40, 0x1c50, 0xa620, 0xa8d0, 0xa900, 0xa9d0, 0xa9f0, 0xaa50, 0xabf0,
    0xff10, 0x104a0, 0x10d30, 0x11066, 0x110f0, 0x11136, 0x111d0, 0x112f0, 0x11450, 0x114d0,
    0x11650, 0x116c0, 0x11730, 0x118e0, 0x11950, 0x11c50, 0x11d50, 0x11da0, 0x11f50, 0x16a60,
    0x16ac0, 0x16b50, 0x1d7ce, 0x1d7d8, 0x1d7e2, 0x1d7ec, 0x1d7f6, 0x1e140, 0x1e2f0, 0x1e4f0,
    0x1e950, 0x1fbf0]

/-- The ranges of the characters that are digits but not decimals, such as superscripts and
circled digits. -/
def digitRanges : List (ℕ × ℕ) :=
  [(0xb2, 0xb3), (0xb9, 0xb9), (0x1369, 0x1371), (0x19da, 0x19da), (0x2070, 0x2070),
    (0x2074, 0x2079), (0x2080, 0x2089), (0x2460, 0x2468), (0x2474, 0x247c), (0x2488, 0x2490),
    (0x24ea, 0x24ea), (0x24f5, 0x24fd), (0x24ff, 0x24ff), (0x2776, 0x277e), (0x2780, 0x2788),
    (0x278a, 0x2792), (0x10a40, 0x10a43), (0x10e60, 0x10e68), (0x11052, 0x1105a),
    (0x1f100, 0x1f10a)]

/-- The value of a decimal digit of any script. -/
def decimal (c : Char) : Option ℕ :=
  (decimalZeros.find? fun first => first ≤ c.toNat && c.toNat < first + 10).map (c.toNat - ·)

/-- Whether the numeric type of a character is decimal or digit. -/
def digitChar (c : Char) : Bool :=
  (decimal c).isSome || digitRanges.any fun (first, last) => first ≤ c.toNat && c.toNat ≤ last

/-- `str.isascii` -/
def isascii (s : Text) : Bool := s.all fun c => c.toNat < 128

/-- `str.isdigit` -/
def isdigit (s : Text) : Bool := !s.isEmpty && s.all digitChar

/-- The value of decimal digits, read on from `value`. -/
def readDecimals (value : ℕ) : Text → Except ValueError ℕ
  | [] => .ok value
  | c :: cs =>
    match decimal c with
    | some d => readDecimals (10 * value + d) cs
    | none => .error .invalidLiteral

/-- `sys.int_info.default_max_str_digits` -/
def maxStrDigits : ℕ := 4300

/-- `int` of a text of digits only: it has no sign, blank or underscore in it. -/
def int (s : Text) : Except ValueError ℕ :=
  if s.isEmpty then .error .invalidLiteral
  else if s.length > maxStrDigits then .error .tooManyDigits
  else readDecimals 0 s

/-- The ranges of the white space that `str.strip` and `int` take off. -/
def spaceRanges : List (ℕ × ℕ) :=
  [(0x9, 0xd), (0x1c, 0x20), (0x85, 0x85), (0xa0, 0xa0), (0x1680, 0x1680), (0x2000, 0x200a),
    (0x2028, 0x2029), (0x202f, 0x202f), (0x205f, 0x205f), (0x3000, 0x3000)]

def isspace (c : Char) : Bool :=
  spaceRanges.any fun (first, last) => first ≤ c.toNat && c.toNat ≤ last

/-- `str.strip` -/
def strip (s : Text) : Text := ((s.dropWhile isspace).reverse.dropWhile isspace).reverse

/-- The parts of a text between its underscores. -/
def splitUnderscores : Text → List Text
  | [] => [[]]
  | '_' :: cs => [] :: splitUnderscores cs
  | c :: cs =>
    match splitUnderscores cs with
    | part :: parts => (c :: part) :: parts
    | [] => [[c]]

/-- The digits of an integer literal, between which single underscores may stand. -/
def intDigits (s : Text) : Except ValueError ℕ :=
  let parts := splitUnderscores s
  if parts.any List.isEmpty then .error .invalidLiteral else int parts.flatten

/-- `int` of any text. -/
def intLiteral (s : Text) : Except ValueError ℤ :=
  match strip s with
  | '-' :: digits => (intDigits digits).map fun n => -(n : ℤ)
  | '+' :: digits => (intDigits digits).map fun n => (n : ℤ)
  | digits => (intDigits digits).map fun n => (n : ℤ)

/-- Whether a character is one of `0` to `9`. -/
def asciiDigit (c : Char) : Bool := 0x30 ≤ c.toNat && c.toNat < 0x3a

/-- An ASCII digit is worth its distance from the digit zero. -/
theorem decimal_of_asciiDigit {c : Char} (h : asciiDigit c) :
    decimal c = some (c.toNat - 0x30) := by
  have hc : (0x30 ≤ c.toNat && c.toNat < 0x30 + 10) = true := h
  simp only [decimal, decimalZeros, List.find?_cons_of_pos, hc, Option.map_some]

/-- The ASCII characters that `str.isdigit` accepts are the ten decimal digits. -/
theorem digitChar_iff_of_ascii {c : Char} (hc : c.toNat < 128) : digitChar c ↔ asciiDigit c := by
  constructor
  · intro h
    have hzeros : ∀ first ∈ decimalZeros, first = 0x30 ∨ 128 ≤ first := by decide
    have hranges : ∀ r ∈ digitRanges, 128 ≤ r.1 := by decide
    simp only [digitChar, decimal, Option.isSome_map, List.find?_isSome, Bool.or_eq_true,
      List.any_eq_true, Bool.and_eq_true, decide_eq_true_eq] at h
    rcases h with ⟨first, hfirst, hle, hlt⟩ | ⟨r, hr, hle, -⟩
    · have hcases := hzeros first hfirst
      have heq : first = 0x30 := by omega
      subst heq
      simp only [asciiDigit, Bool.and_eq_true, decide_eq_true_eq]
      omega
    · have hlow := hranges r hr
      omega
  · intro h
    simp [digitChar, decimal_of_asciiDigit h]

end Text

end LabGoblin
