import IronLink.Common.Uuid
import Mathlib.Data.Int.Log
import Mathlib.Data.Rat.Floor

/-!
# Frames: JSON objects, and the clock

Both ends of the WebSocket handle decoded JSON: `dict` in Python,
`Map<String, dynamic>` in Dart. A frame is a JSON object with string keys;
its `type` and every other field is looked up by name on either side.

A number is an `int`, or a `float` by its exact value. Text is a Lean `String`;
Python also has strings with lone surrogates, which no UTF-8 text holds, and the
model keeps of such a string only that it is one.
-/

namespace IronLink

/-- A moment, in microseconds since the epoch (the resolution of `datetime`). -/
abbrev Time := ℤ

/-- `timedelta(seconds=n)`. -/
def seconds (n : ℤ) : Time := n * 1000000

/-- An `int`, or a `float` other than NaN and the infinities. -/
inductive Number
  | int (n : ℤ)
  | float (x : ℚ)
  deriving DecidableEq

namespace Number

/-- `bool(x)`. -/
def truthy : Number → Bool
  | int n => n ≠ 0
  | float x => x ≠ 0

/-- `int(x)`. -/
def trunc : Number → ℤ
  | int n => n
  | float x => if 0 ≤ x then ⌊x⌋ else ⌈x⌉

/-- The nearest integer, the even one of two. -/
def roundHalfEven (x : ℚ) : ℤ :=
  if x - ⌊x⌋ < 1 / 2 then ⌊x⌋
  else if 1 / 2 < x - ⌊x⌋ then ⌊x⌋ + 1
  else if ⌊x⌋ % 2 = 0 then ⌊x⌋
  else ⌊x⌋ + 1

/-- The `float` nearest to `x`: 53 bits, the even one of two. -/
def toDouble (x : ℚ) : ℚ :=
  let ulp : ℚ := 2 ^ (Int.log 2 |x| - 52)
  roundHalfEven (x / ulp) * ulp

/-- `timedelta(seconds=x)`. Of a `float` the fraction is multiplied as a `float`, and the product
    is rounded. -/
def timedelta : Number → Time
  | int n => seconds n
  | float x =>
    let whole := (float x).trunc
    seconds whole + roundHalfEven (toDouble ((x - whole) * 1000000))

/-- The `float` 2.5e-06, a little more than 2.5 microseconds: the product is 2.5. -/
example : (float (5902958103587057 / 2 ^ 71)).timedelta = 2 := by decide +kernel

theorem truthy_of_trunc {x : Number} (h : x.trunc ≠ 0) : x.truthy = true := by
  cases x with
  | int n => exact decide_eq_true h
  | float x =>
    refine decide_eq_true ?_
    rintro rfl
    exact h (by simp [trunc])

end Number

/-- A decoded JSON value. `float none` is NaN or an infinity; `illStr` is a string
    with a lone surrogate, and `illObj` a dict that has such keys beside `fields`. Two
    strings the server builds stay symbolic: `iso t` is `t.isoformat()`, and `fmt lit v`
    is `f"…{v}"` with the text `lit` in front. -/
inductive Json
  | null
  | bool (b : Bool)
  | int (n : ℤ)
  | float (x : Option ℚ)
  | str (s : String)
  | illStr
  | iso (t : Time)
  | fmt (lit : String) (v : Json)
  | arr (items : List Json)
  | obj (fields : List (String × Json))
  | illObj (fields : List (String × Json))

namespace Json

/-- `frame.get(key)`: `None` when the field is missing. -/
def get (fields : List (String × Json)) (key : String) : Json := (fields.lookup key).getD null

/-- A value read as `str | None`; anything else is `none`. -/
def asOptStr : Json → Option (Option String)
  | null => some none
  | str s => some (some s)
  | _ => none

/-- A value read as `int | None`. A `float` passes too, and Python's `bool` is an
    `int`; anything else is `none`. -/
def asOptNumber : Json → Option (Option Number)
  | null => some none
  | int n => some (some (.int n))
  | float x => x.map fun x => some (.float x)
  | bool b => some (some (.int (if b then 1 else 0)))
  | _ => none

/-- A `str | None` as JSON. -/
def ofOptStr : Option String → Json
  | none => null
  | some s => str s

@[simp] theorem asOptStr_ofOptStr (s : Option String) : (ofOptStr s).asOptStr = some s := by
  cases s with
  | none => rfl
  | some s => rfl

end Json

/-- A frame: the fields of a JSON object. -/
abbrev Frame := List (String × Json)

/-- `str(value)`, where it may be the text of a UUID. A container prints with
    brackets and quotes, a `float` in at most 24 characters, and `int` refuses a lone
    surrogate. -/
def Json.scalarStr : Json → Option String
  | .null => some "None"
  | .bool b => some (if b then "True" else "False")
  | .int n => some (toString n)
  | .str s => some s
  | _ => none

/-- `_uuid_or_none(value)`: `UUID(str(value))`, `None` on `ValueError`. -/
def uuidOrNone (value : Json) : Option UUID := value.scalarStr.bind UUID.ofStr

@[simp] theorem uuidOrNone_str (u : UUID) : uuidOrNone (.str u.str) = some u := by
  simp [uuidOrNone, Json.scalarStr, UUID.ofStr_str]

end IronLink
