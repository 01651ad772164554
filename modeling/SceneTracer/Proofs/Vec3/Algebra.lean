import SceneTracer.Proofs.Transform.Matrices

namespace SceneTracer.Vec3

/-!
# The algebra of vectors

Over exact scalars vectors are an additive group, and their products are linear. Over the real
numbers every vector but zero has a direction.

* `add_scale`, `add_tint`, `scale_scale` — multiples and filtered colours of a sum, and of a multiple.
* `scale_dot`, `dot_scale`, `neg_dot` — inner products of multiples and negations.
* `eq_of_dot` — vectors are told apart by their inner products.
* `length_pos`, `abs_dot_le`, `dot_normalize_self` — lengths, and vectors of length one.
-/

variable {α : Type} [ExactScalar α]

instance : Zero (Vec3 α) := ⟨zero⟩

theorem zero_eq : (zero : Vec3 α) = 0 := rfl

@[simp] theorem zero_x : (0 : Vec3 α).x = 0 := ExactScalar.zero_literal
@[simp] theorem zero_y : (0 : Vec3 α).y = 0 := ExactScalar.zero_literal
@[simp] theorem zero_z : (0 : Vec3 α).z = 0 := ExactScalar.zero_literal

/-- Vectors are added by components. -/
instance : AddCommGroup (Vec3 α) where
  add_assoc u v w := by ext <;> simp [add_assoc]
  add_comm v w := by ext <;> simp [add_comm]
  zero_add v := by ext <;> simp
  add_zero v := by ext <;> simp
  neg_add_cancel v := by ext <;> simp
  sub_eq_add_neg v w := by ext <;> simp [sub_eq_add_neg]
  nsmul := nsmulRec
  zsmul := zsmulRec

/-! ### Multiples and filtered colours -/

theorem add_scale (v w : Vec3 α) (s : α) : (v + w).scale s = v.scale s + w.scale s := by
  ext
  · exact add_mul v.x w.x s
  · exact add_mul v.y w.y s
  · exact add_mul v.z w.z s

theorem scale_scale (v : Vec3 α) (s t : α) : (v.scale s).scale t = v.scale (s * t) := by
  ext
  · exact mul_assoc v.x s t
  · exact mul_assoc v.y s t
  · exact mul_assoc v.z s t

theorem zero_scale (s : α) : (0 : Vec3 α).scale s = 0 := by
  ext <;> simp [scale]

/-- Tinting is linear in the light. -/
theorem add_tint (v w color : Vec3 α) : (v + w).tint color = v.tint color + w.tint color := by
  ext
  · exact add_mul v.x w.x color.x
  · exact add_mul v.y w.y color.y
  · exact add_mul v.z w.z color.z

theorem zero_tint (color : Vec3 α) : (0 : Vec3 α).tint color = 0 := by
  ext <;> simp [tint]

/-! ### Inner products -/

theorem dot_comm (v w : Vec3 α) : v.dot w = w.dot v := by
  unfold dot
  ring

theorem add_dot (u v w : Vec3 α) : (u + v).dot w = u.dot w + v.dot w := by
  simp only [dot, add_x, add_y, add_z]
  ring

theorem scale_dot (v w : Vec3 α) (s : α) : (v.scale s).dot w = s * v.dot w := by
  unfold scale dot
  ring

theorem dot_scale (v w : Vec3 α) (s : α) : v.dot (w.scale s) = s * v.dot w := by
  unfold scale dot
  ring

theorem neg_dot (v w : Vec3 α) : (-v).dot w = -v.dot w := by
  simp only [dot, neg_x, neg_y, neg_z]
  ring

theorem zero_dot (v : Vec3 α) : (0 : Vec3 α).dot v = 0 := by
  simp [dot]

/-- Vectors with the same inner products have the same components. -/
theorem eq_of_dot {v w : Vec3 α} (h : ∀ u, v.dot u = w.dot u) : v = w := by
  ext
  · simpa [dot] using h ⟨1, 0, 0⟩
  · simpa [dot] using h ⟨0, 1, 0⟩
  · simpa [dot] using h ⟨0, 0, 1⟩

/-! ### Lengths of real vectors -/

/-- Over the real numbers, the length is the root of the product of a vector with itself. -/
theorem length_eq (v : Vec3 ℝ) : v.length = √(v.dot v) := rfl

/-- The product is definite. -/
theorem dot_self_eq_zero_iff {v : Vec3 ℝ} : v.dot v = 0 ↔ v = 0 := by
  constructor
  · intro h
    unfold dot at h
    -- A sum of squares is zero only if each of them is.
    have hx : v.x = 0 := by nlinarith only [h, mul_self_nonneg v.y, mul_self_nonneg v.z]
    have hy : v.y = 0 := by nlinarith only [h, mul_self_nonneg v.x, mul_self_nonneg v.z]
    have hz : v.z = 0 := by nlinarith only [h, mul_self_nonneg v.x, mul_self_nonneg v.y]
    ext
    · exact hx.trans zero_x.symm
    · exact hy.trans zero_y.symm
    · exact hz.trans zero_z.symm
  · rintro rfl
    exact zero_dot 0

theorem dot_self_nonneg (v : Vec3 ℝ) : 0 ≤ v.dot v :=
  add_nonneg (add_nonneg (mul_self_nonneg v.x) (mul_self_nonneg v.y)) (mul_self_nonneg v.z)

/-- Only the zero vector has no length. -/
theorem length_pos {v : Vec3 ℝ} (h : v ≠ 0) : 0 < v.length := by
  have hdot : v.dot v ≠ 0 := fun hzero => h (dot_self_eq_zero_iff.mp hzero)
  exact Real.sqrt_pos.mpr (lt_of_le_of_ne v.dot_self_nonneg hdot.symm)

theorem length_neg (v : Vec3 ℝ) : (-v).length = v.length := by
  rw [length_eq, length_eq, neg_dot, dot_comm, neg_dot, neg_neg]

theorem length_sub_comm (v w : Vec3 ℝ) : (v - w).length = (w - v).length := by
  rw [← neg_sub w v, length_neg]

theorem length_nonneg (v : Vec3 ℝ) : 0 ≤ v.length := Real.sqrt_nonneg _

theorem length_sq (v : Vec3 ℝ) : v.length ^ 2 = v.dot v := Real.sq_sqrt v.dot_self_nonneg

/-- An inner product is at most the product of the lengths. -/
theorem abs_dot_le (v w : Vec3 ℝ) : |v.dot w| ≤ v.length * w.length := by
  have hcross : v.dot v * w.dot w - v.dot w ^ 2
      = (v.x * w.y - v.y * w.x) ^ 2 + (v.y * w.z - v.z * w.y) ^ 2 + (v.z * w.x - v.x * w.z) ^ 2 := by
    unfold dot
    ring
  have hsq : v.dot w ^ 2 ≤ (v.length * w.length) ^ 2 := by
    rw [mul_pow, length_sq, length_sq, ← sub_nonneg, hcross]
    positivity
  exact abs_le_of_sq_le_sq hsq (mul_nonneg v.length_nonneg w.length_nonneg)

/-- A unit vector is not zero. -/
theorem ne_zero_of_dot_self {v : Vec3 ℝ} (h : v.dot v = 1) : v ≠ 0 := by
  rintro rfl
  rw [zero_dot] at h
  exact zero_ne_one h

/-- A unit vector has length one. -/
theorem length_of_dot_self {v : Vec3 ℝ} (h : v.dot v = 1) : v.length = 1 := by
  rw [length_eq, h, Real.sqrt_one]

/-- A vector that is brought to unit length keeps its direction. -/
theorem normalize_eq_scale (v : Vec3 ℝ) : v.normalize = v.scale v.length⁻¹ := by
  rw [normalize, ExactScalar.one_literal, one_div]

theorem normalize_neg (v : Vec3 ℝ) : (-v).normalize = -v.normalize := by
  rw [normalize_eq_scale, normalize_eq_scale, length_neg]
  ext
  · exact neg_mul v.x _
  · exact neg_mul v.y _
  · exact neg_mul v.z _

/-- A unit vector is not changed by being brought to unit length. -/
theorem normalize_of_dot_self {v : Vec3 ℝ} (h : v.dot v = 1) : v.normalize = v := by
  rw [normalize_eq_scale, length_of_dot_self h, inv_one]
  ext
  · exact mul_one v.x
  · exact mul_one v.y
  · exact mul_one v.z

/-- The product with a vector is its length times the product with its direction. -/
theorem length_mul_dot_normalize (v : Vec3 ℝ) {w : Vec3 ℝ} (h : w ≠ 0) :
    w.length * v.dot w.normalize = v.dot w := by
  rw [normalize_eq_scale, dot_scale, mul_inv_cancel_left₀ (length_pos h).ne']

/-- Unit length does not change on which side of a plane a vector leads. -/
theorem dot_normalize_pos_iff (v : Vec3 ℝ) {w : Vec3 ℝ} (h : w ≠ 0) :
    0 < v.dot w.normalize ↔ 0 < v.dot w := by
  rw [← length_mul_dot_normalize v h]
  exact (mul_pos_iff_of_pos_left (length_pos h)).symm

/-- A vector that is not zero is brought to length one. -/
theorem dot_normalize_self {v : Vec3 ℝ} (h : v ≠ 0) : v.normalize.dot v.normalize = 1 := by
  have hlength : v.length * v.length = v.dot v := Real.mul_self_sqrt v.dot_self_nonneg
  have hne : v.length ≠ 0 := (length_pos h).ne'
  rw [normalize_eq_scale, scale_dot, dot_scale, ← hlength]
  field_simp

end SceneTracer.Vec3
