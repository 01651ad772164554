import Mathlib.Data.Matrix.Mul
import Mathlib.LinearAlgebra.Matrix.Notation
import SceneTracer.Proofs.Scalar.Exact
import SceneTracer.Transform

namespace SceneTracer

/-!
# The algebra of matrices

Over exact scalars, the matrices of transforms multiply as matrices do.

* `Mat4.mul_assoc`, `Mat4.identity_mul`, `Mat4.mul_identity` — the laws of products.
* `Mat4.Affine` — matrices that keep the fourth coordinate.
* `Mat4.apply_mul` — a product acts as its factors do, the right one first.
* `Mat4.apply_add_scale` — lines go to lines.
* `Mat4.translation_mul_neg`, `Mat4.scaling_mul_inv`, `Mat4.rotationX_mul_neg` and so on — the
  elementary maps and what undoes them.
-/

attribute [ext] Vec3

namespace Mat4

variable {α : Type} [ExactScalar α]

/-! ### Products -/

/-- The same matrix, as a function of row and column. -/
def toMatrix (m : Mat4 α) : Matrix (Fin 4) (Fin 4) α := Matrix.of m.entry

omit [ExactScalar α] in
/-- A matrix is determined by its entries. -/
theorem toMatrix_injective : Function.Injective (toMatrix : Mat4 α → _) := by
  intro a b h
  have hentry (i j : Fin 4) : a.entry i j = b.entry i j := congrFun (congrFun h i) j
  cases a
  cases b
  rw [Mat4.mk.injEq]
  exact ⟨hentry 0 0, hentry 0 1, hentry 0 2, hentry 0 3, hentry 1 0, hentry 1 1, hentry 1 2,
    hentry 1 3, hentry 2 0, hentry 2 1, hentry 2 2, hentry 2 3, hentry 3 0, hentry 3 1,
    hentry 3 2, hentry 3 3⟩

/-- Products are those of matrices over the field. -/
@[simp] theorem toMatrix_mul (a b : Mat4 α) : (a.mul b).toMatrix = a.toMatrix * b.toMatrix := by
  ext i j
  simp [toMatrix, mul, Matrix.mul_apply, Fin.sum_univ_four]

@[simp] theorem toMatrix_identity : (identity : Mat4 α).toMatrix = 1 := by
  ext i j
  fin_cases i <;> fin_cases j <;> simp [toMatrix, identity, entry]

theorem mul_assoc (a b c : Mat4 α) : (a.mul b).mul c = a.mul (b.mul c) := by
  apply toMatrix_injective
  simp [Matrix.mul_assoc]

@[simp] theorem identity_mul (m : Mat4 α) : identity.mul m = m := by
  apply toMatrix_injective
  simp

@[simp] theorem mul_identity (m : Mat4 α) : m.mul identity = m := by
  apply toMatrix_injective
  simp

/-! ### The action on vectors -/

/-- The fourth coordinate of the image of `v` with fourth coordinate `w`, which `apply` drops. -/
def fourth (m : Mat4 α) (v : Vec3 α) (w : α) : α :=
  m.m30 * v.x + m.m31 * v.y + m.m32 * v.z + m.m33 * w

/-- The last row is that of the identity. -/
structure Affine (m : Mat4 α) : Prop where
  m30 : m.m30 = 0
  m31 : m.m31 = 0
  m32 : m.m32 = 0
  m33 : m.m33 = 1

theorem affine_identity : (identity : Mat4 α).Affine := by
  constructor <;> simp [identity]

/-- Nothing is lost by dropping the fourth coordinate. -/
theorem Affine.fourth_eq {m : Mat4 α} (h : m.Affine) (v : Vec3 α) (w : α) : m.fourth v w = w := by
  rw [fourth, h.m30, h.m31, h.m32, h.m33]
  ring

/-- Products of affine matrices are affine. -/
theorem Affine.mul {a b : Mat4 α} (ha : a.Affine) (hb : b.Affine) : (a.mul b).Affine := by
  constructor <;> simp [Mat4.mul, ofFn, entry, ha.m30, ha.m31, ha.m32, ha.m33, hb.m30, hb.m31,
    hb.m32, hb.m33]

theorem apply_identity (v : Vec3 α) (w : α) : identity.apply v w = v := by
  ext <;> simp [apply, identity]

/-- A product acts as its factors do, one after the other. -/
theorem apply_mul (a : Mat4 α) {b : Mat4 α} (hb : b.Affine) (v : Vec3 α) (w : α) :
    (a.mul b).apply v w = a.apply (b.apply v w) w := by
  ext <;> simp [apply, mul, ofFn, entry, hb.m30, hb.m31, hb.m32, hb.m33] <;> ring

/-- The place that a line reaches is mapped to the place that the image of the line reaches. -/
theorem apply_add_scale (m : Mat4 α) (p v : Vec3 α) (w s : α) :
    m.apply (p + v.scale s) w = m.apply p w + (m.apply v 0).scale s := by
  ext <;> simp [apply, Vec3.scale] <;> ring

/-! ### The elementary maps -/

/-- Opposite translations cancel. -/
theorem translation_mul_neg (x y z : α) :
    (translation x y z).mul (translation (-x) (-y) (-z)) = identity := by
  simp [mul, ofFn, entry, translation, identity]

/-- Reciprocal factors cancel. -/
theorem scaling_mul_inv {x y z : α} (hx : x ≠ 0) (hy : y ≠ 0) (hz : z ≠ 0) :
    (scaling x y z).mul (scaling (1 / x) (1 / y) (1 / z)) = identity := by
  simp [mul, ofFn, entry, scaling, identity, hx, hy, hz]

/-- Turning back undoes a turn. -/
theorem rotationX_mul_neg (angle : α) : (rotationX angle).mul (rotationX (-angle)) = identity := by
  simp [mul, ofFn, entry, rotationX, identity, mul_comm (Scalar.sin angle) (Scalar.cos angle)]

theorem rotationY_mul_neg (angle : α) : (rotationY angle).mul (rotationY (-angle)) = identity := by
  simp [mul, ofFn, entry, rotationY, identity, mul_comm (Scalar.sin angle) (Scalar.cos angle)]

theorem rotationZ_mul_neg (angle : α) : (rotationZ angle).mul (rotationZ (-angle)) = identity := by
  simp [mul, ofFn, entry, rotationZ, identity, mul_comm (Scalar.sin angle) (Scalar.cos angle)]

theorem affine_translation (x y z : α) : (translation x y z).Affine := by
  constructor <;> simp [translation]

theorem affine_scaling (x y z : α) : (scaling x y z).Affine := by
  constructor <;> simp [scaling]

theorem affine_rotationX (angle : α) : (rotationX angle).Affine := by
  constructor <;> simp [rotationX]

theorem affine_rotationY (angle : α) : (rotationY angle).Affine := by
  constructor <;> simp [rotationY]

theorem affine_rotationZ (angle : α) : (rotationZ angle).Affine := by
  constructor <;> simp [rotationZ]

end Mat4

end SceneTracer
