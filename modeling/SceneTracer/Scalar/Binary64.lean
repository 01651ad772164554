import SceneTracer.Scalar

namespace SceneTracer

/-!
# Floating point scalars

The 64-bit floating point numbers as scalars. They have infinities of their own, which stand for the
extended scalars, so extended scalars compare as floating point numbers do.
-/

/-- The floating point number that stands for an extended one. -/
def Extended.toFloat : Extended Float → Float
  | .negInf => -1.0 / 0.0
  | .finite x => x
  | .posInf => 1.0 / 0.0

instance : Scalar Float where
  decideLt := inferInstance
  decideLe := inferInstance
  ofNat := Float.ofNat
  pi := 3.141592653589793
  sqrt := Float.sqrt
  abs := Float.abs
  sin := Float.sin
  cos := Float.cos
  tan := Float.tan
  atan2 := Float.atan2
  pow := Float.pow
  ofExtended := Extended.toFloat
  ltExtended x y := decide (x.toFloat < y.toFloat)
  leExtended x y := decide (x.toFloat ≤ y.toFloat)

end SceneTracer
