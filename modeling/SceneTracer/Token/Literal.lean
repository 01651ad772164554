import SceneTracer.Decimal.Numeral

namespace SceneTracer

/-!
# The values of number literals

* `integerValue?` — the integer that a literal stands for, if 64 bits can hold it.
* `realValue` — the binary64 number that a literal with a fraction or an exponent stands for.
-/

/-- The value of an integer literal, or none if 64 bits cannot hold it. -/
def integerValue? (negative : Bool) (whole : List Char) : Option Int64 :=
  let magnitude : Int := Decimal.natOfDigits whole
  let value := if negative then -magnitude else magnitude
  if Int64.minValue.toInt ≤ value ∧ value ≤ Int64.maxValue.toInt then some (.ofInt value) else none

/-- The power of ten that the exponent part `part` of a literal writes, zero if it is empty. -/
def exponentValue : List Char → Int
  | _ :: '-' :: digits => -(Decimal.natOfDigits digits : Int)
  | _ :: digits => Decimal.natOfDigits digits
  | [] => 0

/-- The value of a real literal, given by its digits before the point, its fraction with the point,
and its exponent with the mark. -/
def realValue (negative : Bool) (whole fraction exponent : List Char) : Float :=
  let places := fraction.drop 1
  Decimal.toReal negative (Decimal.natOfDigits (whole ++ places))
    (exponentValue exponent - places.length)

end SceneTracer
