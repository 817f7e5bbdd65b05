import LabGoblin.Model.Text
import Mathlib.Data.Int.Notation
import Mathlib.Data.Rat.Init

/-!
# JSON values in Python

What `json.loads` makes of a text: the keys of an object are distinct, and its order does not
count in a comparison. A number without fraction and exponent is an `int`, any other is a
`float`, as are `NaN` and `Infinity`.
-/

set_option autoImplicit false

namespace LabGoblin

/-- The values of a `float`. -/
inductive Float64 where
  | finite (value : ℚ)
  | infinite (negative : Bool)
  | nan
  deriving DecidableEq

inductive Json where
  | null
  | bool (b : Bool)
  | int (n : ℤ)
  | float (x : Float64)
  | text (s : String)
  | list (items : List Json)
  | object (fields : List (String × Json))

abbrev Dict := List (String × Json)

/-- `d.get(key)`, with a default. -/
def Dict.get (d : Dict) (key : String) (fallback : Json := .null) : Json :=
  (d.lookup key).getD fallback

namespace Json

def truthy : Json → Bool
  | null => false
  | bool b => b
  | int n => n ≠ 0
  | float x => x ≠ .finite 0
  | text s => s ≠ ""
  | list items => !items.isEmpty
  | object fields => !fields.isEmpty

/-- `str(value)`, with the text that Python makes of a float, a list or an object. -/
def str (repr : Json → String) : Json → String
  | null => "None"
  | bool b => if b then "True" else "False"
  | int n => toString n
  | text s => s
  | value => repr value

/-- `value is b` -/
def isBool (b : Bool) : Json → Bool
  | bool c => c = b
  | _ => false

/-- The numeric value of a Boolean, an integer or a float. -/
def number : Json → Option Float64
  | bool b => some (.finite (if b then 1 else 0))
  | int n => some (.finite n)
  | float x => some x
  | _ => none

/-- `x == y` of two floats. -/
def sameFloat (x y : Float64) : Bool := x = y && x ≠ .nan

mutual

/-- `==`, for which a Boolean is a number. -/
def same : Json → Json → Bool
  | null, null => true
  | bool a, bool b => a = b
  | bool a, int n => n = if a then 1 else 0
  | int n, bool a => n = if a then 1 else 0
  | int m, int n => m = n
  | float x, y => y.number.any (sameFloat x)
  | y, float x => y.number.any (sameFloat x)
  | text s, text t => s = t
  | list xs, list ys => sameItems xs ys
  | object xs, object ys => xs.length = ys.length && sameFields xs ys
  | _, _ => false

def sameItems : List Json → List Json → Bool
  | [], [] => true
  | x :: xs, y :: ys => x.same y && sameItems xs ys
  | _, _ => false

def sameFields : Dict → Dict → Bool
  | [], _ => true
  | (key, x) :: xs, ys =>
    (match ys.lookup key with
      | some y => x.same y
      | none => false) && sameFields xs ys

end

/-- The exceptions of `int(value)`. -/
inductive IntError where
  | value (e : ValueError)
  | overflow
  | type
  deriving DecidableEq

/-- `int(value)` -/
def toInt : Json → Except IntError ℤ
  | bool b => .ok (if b then 1 else 0)
  | int n => .ok n
  | float (.finite q) => .ok (q.num.tdiv q.den)
  | float (.infinite _) => .error .overflow
  | float .nan => .error (.value (.message "cannot convert float NaN to integer"))
  | text s => (Text.intLiteral s.toList).mapError .value
  | _ => .error .type

end Json

end LabGoblin
