import SceneTracer.Proofs.Transform.InversePair
import SceneTracer.Proofs.Vec3.Algebra

namespace SceneTracer.Transform

/-!
# Transforms of normals

A normal goes to the world as no vector does, through the transposed inverse, so that its product
with a vector of the world is its product with that vector in object space.

* `normal_dot`, `normal_dot_pos_iff` — the inner product with a normal, in the world and in object
  space.
* `IsPair.eq_normal_iff` — no other vector has these products with the vectors of the world.
* `normals_stay_perpendicular` — the normals of all transforms that changes lead to.
* `stretched_and_moved` — the way back to object space, written out for a stretch and a move.
* `IsPair.inverseVector_ne_zero`, `IsPair.normal_ne_zero` — nothing is flattened on the way.
-/

section Exact

variable {α : Type} [ExactScalar α]

/-- **What a normal is to a vector of the world** it is to that vector in object space. -/
theorem normal_dot (t : Transform α) (n v : Vec3 α) :
    (t.normal n).dot v = n.dot (t.inverseVector v) := by
  simp only [normal, inverseVector, Mat4.apply, Mat4.transpose, Mat4.ofFn, Mat4.entry, Vec3.dot,
    ExactScalar.zero_literal]
  ring

/-- A normal has the product with a vector in the world that it has with it in object space. -/
theorem IsPair.normal_dot_vector {t : Transform α} (h : t.IsPair) (n v : Vec3 α) :
    (t.normal n).dot (t.vector v) = n.dot v := by
  have hback : t.inverseVector (t.vector v) = v := h.backward_apply_forward v _
  rw [normal_dot, hback]

/-- **What becomes of a normal** is the one vector that keeps all products with the vectors of object
space. -/
theorem IsPair.eq_normal_iff {t : Transform α} (h : t.IsPair) (m n : Vec3 α) :
    m = t.normal n ↔ ∀ v, m.dot (t.vector v) = n.dot v := by
  constructor
  · rintro rfl v
    exact h.normal_dot_vector n v
  · intro hproducts
    -- Every vector of the world comes from object space.
    refine Vec3.eq_of_dot fun w => ?_
    calc m.dot w = m.dot (t.vector (t.inverseVector w)) := by rw [h.vector_inverseVector]
      _ = (t.normal n).dot w := by rw [hproducts, normal_dot]

/-- **Normals stay perpendicular.** Whatever changes are made, the transposed inverse keeps the
product of a normal with every vector of object space, and it alone does. So the image of a normal is
perpendicular to the image of a vector just if the two were perpendicular. -/
theorem normals_stay_perpendicular (changes : List (Change α)) :
    let t := (identity : Transform α).changeAll changes
    (∀ n v, (t.normal n).dot (t.vector v) = n.dot v) ∧
    (∀ n v, (t.normal n).dot (t.vector v) = 0 ↔ n.dot v = 0) ∧
    ∀ m n, m = t.normal n ↔ ∀ v, m.dot (t.vector v) = n.dot v := by
  intro t
  have hpair : t.IsPair := isPair_of_changes ⟨changes, rfl⟩
  refine ⟨hpair.normal_dot_vector, fun n v => ?_, hpair.eq_normal_iff⟩
  rw [hpair.normal_dot_vector]

/-- The identity moves no normals. -/
theorem normal_identity (n : Vec3 α) : identity.normal n = n := by
  ext <;> simp [normal, identity, Mat4.identity, Mat4.transpose, Mat4.ofFn, Mat4.entry, Mat4.apply]

/-- Opposite normals stay opposite. -/
theorem normal_neg (t : Transform α) (n : Vec3 α) : t.normal (-n) = -t.normal n := by
  ext <;>
    simp only [normal, Mat4.apply, Vec3.neg_x, Vec3.neg_y, Vec3.neg_z, ExactScalar.zero_literal] <;>
    ring

/-- The zero vector is moved to itself. -/
theorem vector_zero (t : Transform α) : t.vector 0 = 0 := by
  ext <;> simp [vector, Mat4.apply]

/-- A direction in the world has a direction in object space. -/
theorem IsPair.inverseVector_ne_zero {t : Transform α} (h : t.IsPair) {v : Vec3 α} (hv : v ≠ 0) :
    t.inverseVector v ≠ 0 := by
  intro hzero
  have hback : t.vector (t.inverseVector v) = v := h.forward_apply_backward v _
  rw [hzero, vector_zero] at hback
  exact hv hback.symm

/-- What a stretch and a move after it take back to object space, and what they do to normals. -/
theorem stretched_and_moved {x y z : α} (hx : x ≠ 0) (hy : y ≠ 0) (hz : z ≠ 0) (a b c : α) :
    let t := (identity : Transform α).changeAll [.scale x y z, .translate a b c]
    (∀ p, t.inversePoint p = ⟨(p.x - a) / x, (p.y - b) / y, (p.z - c) / z⟩) ∧
    (∀ v, t.inverseVector v = ⟨v.x / x, v.y / y, v.z / z⟩) ∧
    ∀ n, t.normal n = ⟨n.x / x, n.y / y, n.z / z⟩ := by
  intro t
  -- The way back undoes the move first and the stretch afterwards.
  have hbackward : t.backward
      = (Mat4.scaling (1 / x) (1 / y) (1 / z)).mul (.translation (-a) (-b) (-c)) := by
    simp [t, changeAll, change?, andThen, identity, hx, hy, hz]
  refine ⟨fun p => ?_, fun v => ?_, fun n => ?_⟩
  · rw [inversePoint, hbackward, Mat4.apply_mul _ (Mat4.affine_translation _ _ _)]
    ext <;> simp [Mat4.apply, Mat4.translation, Mat4.scaling] <;> ring
  · rw [inverseVector, hbackward, Mat4.apply_mul _ (Mat4.affine_translation _ _ _)]
    ext <;> simp [Mat4.apply, Mat4.translation, Mat4.scaling] <;> ring
  · rw [normal, hbackward]
    ext <;> simp [Mat4.apply, Mat4.transpose, Mat4.mul, Mat4.ofFn, Mat4.entry, Mat4.translation,
      Mat4.scaling] <;> ring

end Exact

/-- A normal and a tangent of a plane that is mirrored, stretched unevenly, turned and moved, with real
numbers. -/
theorem normals_stay_perpendicular_mirrored :
    let t := (identity : Transform ℝ).changeAll
      [.scale (-1) (1 / 2) 3, .rotateZ 30, .translate 7 11 13, .scale 2 1 1, .rotateX 45]
    (t.normal ⟨1, 2, 0⟩).dot (t.vector ⟨2, -1, 4⟩) = 0 ∧
    (t.normal ⟨1, 2, 0⟩).dot (t.vector ⟨1, 2, 0⟩) = 5 := by
  intro t
  obtain ⟨hkeep, hperpendicular, -⟩ := normals_stay_perpendicular
    [.scale (-1 : ℝ) (1 / 2) 3, .rotateZ 30, .translate 7 11 13, .scale 2 1 1, .rotateX 45]
  refine ⟨(hperpendicular _ _).mpr ?_, (hkeep _ _).trans ?_⟩
  · norm_num [Vec3.dot]
  · norm_num [Vec3.dot]

/-- A normal is not lost, since it is not perpendicular to all vectors. -/
theorem IsPair.normal_ne_zero {t : Transform ℝ} (h : t.IsPair) {n : Vec3 ℝ} (hn : n ≠ 0) :
    t.normal n ≠ 0 := by
  intro hzero
  have hdot : (t.normal n).dot (t.vector n) = n.dot n := h.normal_dot_vector n n
  rw [hzero, Vec3.zero_dot] at hdot
  exact hn (Vec3.dot_self_eq_zero_iff.mp hdot.symm)

/-- A vector of the world leads to the side of a normal that it leads to in object space. -/
theorem normal_dot_pos_iff {t : Transform ℝ} {n : Vec3 ℝ} (hn : t.normal n ≠ 0) (v : Vec3 ℝ) :
    0 < (t.normal n).normalize.dot v ↔ 0 < n.dot (t.inverseVector v) := by
  rw [Vec3.dot_comm, Vec3.dot_normalize_pos_iff v hn, Vec3.dot_comm, normal_dot]

end SceneTracer.Transform
