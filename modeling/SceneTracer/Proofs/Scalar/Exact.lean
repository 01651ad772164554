import Mathlib.Analysis.SpecialFunctions.Complex.Arg
import Mathlib.Analysis.SpecialFunctions.Pow.Real
import SceneTracer.Scalar

namespace SceneTracer

/-!
# Exact scalars

Geometry is reasoned about over exact numbers: the scalars of a field, on which operations do not
round and literals are the numbers that they write. Of sine and cosine nothing is known but the
circle that they lie on and their symmetry.

* `ExactScalar` — the laws of exact scalars.
* `ExactScalar.zero_literal`, `ExactScalar.one_literal` — zero and one, as geometry writes them.
* The real numbers are exact scalars.
-/

/-- A field whose operations are those that geometry uses, with any sine and cosine for which
`c * c + s * s = 1`, the sine being odd and the cosine even. -/
class ExactScalar (α : Type) extends Scalar α, Field α, LawfulBEq α where
  /-- A literal is the number that it writes. -/
  literal_eq (digits : ℕ) (fraction : Bool) (places : ℕ) :
    Scalar.toOfScientific.ofScientific digits fraction places
      = ((OfScientific.ofScientific digits fraction places : ℚ≥0) : α)
  sin_neg (angle : α) : Scalar.sin (-angle) = -Scalar.sin angle
  cos_neg (angle : α) : Scalar.cos (-angle) = Scalar.cos angle
  circle (angle : α) :
    Scalar.cos angle * Scalar.cos angle + Scalar.sin angle * Scalar.sin angle = 1

namespace ExactScalar

attribute [simp] sin_neg cos_neg circle

variable {α : Type} [ExactScalar α]

/-- The literal zero of the definitions is the zero of the ordered field, and the literal one its
one. -/
@[simp] theorem zero_literal : (Scalar.toOfScientific.ofScientific 0 true 1 : α) = 0 := by
  have h : (OfScientific.ofScientific 0 true 1 : ℚ≥0) = 0 := by norm_num
  rw [literal_eq, h, NNRat.cast_zero]

@[simp] theorem one_literal : (Scalar.toOfScientific.ofScientific 10 true 1 : α) = 1 := by
  have h : (OfScientific.ofScientific 10 true 1 : ℚ≥0) = 1 := by norm_num
  rw [literal_eq, h, NNRat.cast_one]

/-- The point at an angle is on the unit circle. -/
@[simp] theorem circle_comm (angle : α) :
    Scalar.sin angle * Scalar.sin angle + Scalar.cos angle * Scalar.cos angle = 1 := by
  rw [add_comm, circle]

end ExactScalar

/-! ### Real numbers -/

noncomputable instance : Scalar ℝ where
  beq x y := decide (x = y)
  ofScientific := OfScientific.ofScientific
  decideLt := inferInstance
  decideLe := inferInstance
  ofNat n := n
  pi := Real.pi
  sqrt := Real.sqrt
  abs x := |x|
  sin := Real.sin
  cos := Real.cos
  tan := Real.tan
  atan2 y x := Complex.arg ⟨x, y⟩
  pow x y := x ^ y
  ofExtended
    | .finite x => x
    | .negInf | .posInf => 0
  ltExtended
    | .finite x, .finite y => decide (x < y)
    | .negInf, .negInf | .posInf, _ | _, .negInf => false
    | .negInf, _ | _, .posInf => true
  leExtended
    | .finite x, .finite y => decide (x ≤ y)
    | .negInf, _ | _, .posInf => true
    | .posInf, _ | _, .negInf => false

noncomputable instance : ExactScalar ℝ where
  eq_of_beq h := of_decide_eq_true h
  rfl := decide_eq_true rfl
  literal_eq _ _ _ := (NNRat.cast_ofScientific _ _ _).symm
  sin_neg := Real.sin_neg
  cos_neg := Real.cos_neg
  circle angle := by
    rw [← sq, ← sq]
    exact Real.cos_sq_add_sin_sq angle

end SceneTracer
