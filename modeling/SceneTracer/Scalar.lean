namespace SceneTracer

/-!
# Scalars

Geometry and shading are written once, over any type of scalars: numbers with the four operations,
an order that can be decided, roots, angles and powers. Programs run on 64-bit floating point
numbers; reasoning may take exact numbers instead.

* `Extended` — a scalar or one of two infinities. An end of a range that has no bound, or the
  distance to a light without a place, is extended.
* `Scalar` — the operations that geometry and shading use.
* `Scalar.radians`, `Scalar.clampToUnit`, `Scalar.nonneg` — functions made of them.
-/

/-- A scalar, or a value below or above all scalars. -/
inductive Extended (α : Type)
  | negInf
  | finite (x : α)
  | posInf

/-- The operations on scalars that geometry and shading use. -/
class Scalar (α : Type) extends
    Add α, Sub α, Mul α, Div α, Neg α, LT α, LE α, BEq α, OfScientific α where
  /-- The order is decidable. -/
  decideLt : DecidableLT α
  /-- The order is decidable. -/
  decideLe : DecidableLE α
  /-- A count as a scalar. -/
  ofNat : Nat → α
  /-- Half the circumference of the unit circle. -/
  pi : α
  sqrt : α → α
  abs : α → α
  /-- Sine of an angle in radians. -/
  sin : α → α
  /-- Cosine of an angle in radians. -/
  cos : α → α
  /-- Tangent of an angle in radians. -/
  tan : α → α
  /-- `atan2 y x` is the angle of the point `(x, y)`, in radians. -/
  atan2 : α → α → α
  /-- `pow x y` is `x` to the power of `y`. -/
  pow : α → α → α
  /-- The scalar that a computation goes on with when an extended one reaches it. -/
  ofExtended : Extended α → α
  /-- The strict order of extended scalars. -/
  ltExtended : Extended α → Extended α → Bool
  /-- The order of extended scalars. -/
  leExtended : Extended α → Extended α → Bool

namespace Scalar

variable {α : Type} [Scalar α]

instance : DecidableLT α := decideLt
instance : DecidableLE α := decideLe

/-- An angle in radians, given in degrees. -/
def radians (degrees : α) : α := degrees * (pi / 180.0)

/-- The scalar from zero to one that is nearest to `x`. What cannot be compared is kept. -/
def clampToUnit (x : α) : α := if x < 0.0 then 0.0 else if 1.0 < x then 1.0 else x

/-- The larger of `x` and zero; positive zero if `x` is a zero of either sign or cannot be compared. -/
def nonneg (x : α) : α := if 0.0 < x then x else 0.0

end Scalar

end SceneTracer
