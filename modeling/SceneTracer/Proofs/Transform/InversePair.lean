import SceneTracer.Proofs.Transform.Matrices

namespace SceneTracer

/-!
# Transforms and their inverses

Over exact scalars, the two matrices of a transform stay inverse to each other whatever changes are
made, those that fail included, and the transform moves points as the changes do, one after another.

* `Change.Invertible`, `Change.move` — what a change does, said without matrices.
* `Transform.change?_eq_some_iff` — a change has a result exactly if it can be undone.
* `Transform.IsPair` — two matrices that undo each other and keep the fourth coordinate.
* `Transform.IsPair.change?`, `Transform.IsPair.changeAll` — one change keeps this, and so do all.
* `Transform.point_add_scale`, `Transform.inversePoint_add_scale` — lines in object space and in the
  world.
* `Transform.changeAll_pairs_and_moves` — the transforms that changes lead to.
-/

variable {α : Type} [ExactScalar α]

namespace Change

/-- The change can be undone: it does not stretch by zero. -/
def Invertible : Change α → Prop
  | .scale x y z => x ≠ 0 ∧ y ≠ 0 ∧ z ≠ 0
  | .translate _ _ _ | .rotateX _ | .rotateY _ | .rotateZ _ => True

/-- Where the change moves a point. -/
def move : Change α → Vec3 α → Vec3 α
  | .translate x y z, p => ⟨p.x + x, p.y + y, p.z + z⟩
  | .scale x y z, p => ⟨x * p.x, y * p.y, z * p.z⟩
  | .rotateX degrees, p =>
    let s := Scalar.sin (Scalar.radians degrees)
    let c := Scalar.cos (Scalar.radians degrees)
    ⟨p.x, c * p.y - s * p.z, s * p.y + c * p.z⟩
  | .rotateY degrees, p =>
    let s := Scalar.sin (Scalar.radians degrees)
    let c := Scalar.cos (Scalar.radians degrees)
    ⟨c * p.x + s * p.z, p.y, c * p.z - s * p.x⟩
  | .rotateZ degrees, p =>
    let s := Scalar.sin (Scalar.radians degrees)
    let c := Scalar.cos (Scalar.radians degrees)
    ⟨c * p.x - s * p.y, s * p.x + c * p.y, p.z⟩

/-- Where the changes move a point, one after another. -/
def moveAll (changes : List (Change α)) (p : Vec3 α) : Vec3 α :=
  changes.foldl (fun q c => c.move q) p

/-- The matrix of a change. -/
def matrix : Change α → Mat4 α
  | .translate x y z => .translation x y z
  | .scale x y z => .scaling x y z
  | .rotateX degrees => .rotationX (Scalar.radians degrees)
  | .rotateY degrees => .rotationY (Scalar.radians degrees)
  | .rotateZ degrees => .rotationZ (Scalar.radians degrees)

/-- The matrix of the change that undoes a change. -/
def undoing : Change α → Mat4 α
  | .translate x y z => .translation (-x) (-y) (-z)
  | .scale x y z => .scaling (1 / x) (1 / y) (1 / z)
  | .rotateX degrees => .rotationX (-Scalar.radians degrees)
  | .rotateY degrees => .rotationY (-Scalar.radians degrees)
  | .rotateZ degrees => .rotationZ (-Scalar.radians degrees)

/-- The matrix of a change is affine, and so is the one that undoes it. -/
theorem affine_matrix (c : Change α) : c.matrix.Affine := by
  cases c with
  | translate x y z => exact Mat4.affine_translation x y z
  | scale x y z => exact Mat4.affine_scaling x y z
  | rotateX degrees => exact Mat4.affine_rotationX _
  | rotateY degrees => exact Mat4.affine_rotationY _
  | rotateZ degrees => exact Mat4.affine_rotationZ _

theorem affine_undoing (c : Change α) : c.undoing.Affine := by
  cases c with
  | translate x y z => exact Mat4.affine_translation _ _ _
  | scale x y z => exact Mat4.affine_scaling _ _ _
  | rotateX degrees => exact Mat4.affine_rotationX _
  | rotateY degrees => exact Mat4.affine_rotationY _
  | rotateZ degrees => exact Mat4.affine_rotationZ _

/-- What undoes an invertible change comes before it in the product. -/
theorem matrix_mul_undoing {c : Change α} (h : c.Invertible) :
    c.matrix.mul c.undoing = .identity := by
  cases c with
  | translate x y z => exact Mat4.translation_mul_neg x y z
  | scale x y z => exact Mat4.scaling_mul_inv h.1 h.2.1 h.2.2
  | rotateX degrees => exact Mat4.rotationX_mul_neg _
  | rotateY degrees => exact Mat4.rotationY_mul_neg _
  | rotateZ degrees => exact Mat4.rotationZ_mul_neg _

/-- What undoes a change is undone by it, being a change of the same kind. -/
theorem undoing_mul_matrix {c : Change α} (h : c.Invertible) :
    c.undoing.mul c.matrix = .identity := by
  -- Each undoing matrix is of the same kind as the matrix, for the opposite move, angle or factors.
  cases c with
  | translate x y z => simpa [matrix, undoing] using Mat4.translation_mul_neg (-x) (-y) (-z)
  | scale x y z =>
    obtain ⟨hx, hy, hz⟩ := h
    simpa [matrix, undoing] using
      Mat4.scaling_mul_inv (one_div_ne_zero hx) (one_div_ne_zero hy) (one_div_ne_zero hz)
  | rotateX degrees =>
    simpa [matrix, undoing] using Mat4.rotationX_mul_neg (-Scalar.radians degrees)
  | rotateY degrees =>
    simpa [matrix, undoing] using Mat4.rotationY_mul_neg (-Scalar.radians degrees)
  | rotateZ degrees =>
    simpa [matrix, undoing] using Mat4.rotationZ_mul_neg (-Scalar.radians degrees)

/-- The matrix of a change moves points as the change says. -/
theorem apply_matrix (c : Change α) (p : Vec3 α) : c.matrix.apply p 1 = c.move p := by
  cases c <;>
    ext <;>
    simp [matrix, move, Mat4.apply, Mat4.translation, Mat4.scaling, Mat4.rotationX, Mat4.rotationY,
      Mat4.rotationZ] <;>
    ring

end Change

namespace Transform

/-! ### One change -/

/-- A change has a result exactly if it can be undone. -/
theorem change?_eq_some_iff {t t' : Transform α} {c : Change α} :
    t.change? c = some t' ↔ c.Invertible ∧ t' = t.andThen c.matrix c.undoing := by
  cases c <;>
    simp [Transform.change?, Change.Invertible, Change.matrix, Change.undoing, @eq_comm _ t',
      and_assoc]

/-- A change fails just if it is not invertible. -/
theorem change?_eq_none_iff {t : Transform α} {c : Change α} :
    t.change? c = none ↔ ¬ c.Invertible := by
  simp [Option.eq_none_iff_forall_ne_some, change?_eq_some_iff]

/-- The matrices of a transform undo each other, and both keep the fourth coordinate. -/
structure IsPair (t : Transform α) : Prop where
  forward_mul_backward : t.forward.mul t.backward = .identity
  backward_mul_forward : t.backward.mul t.forward = .identity
  affine_forward : t.forward.Affine
  affine_backward : t.backward.Affine

/-- The identity is its own inverse. -/
theorem isPair_identity : (identity : Transform α).IsPair :=
  ⟨Mat4.mul_identity _, Mat4.mul_identity _, Mat4.affine_identity, Mat4.affine_identity⟩

/-- **A change keeps the matrices inverse.** It is put in front of the one and behind the other, so
that it meets what undoes it, on the one side at once and on the other when all else is gone. -/
theorem IsPair.change? {t t' : Transform α} (h : t.IsPair) {c : Change α}
    (hc : t.change? c = some t') : t'.IsPair := by
  obtain ⟨hinvertible, rfl⟩ := change?_eq_some_iff.mp hc
  constructor
  · -- In both products the new factors meet in the middle, or the old ones do.
    calc (c.matrix.mul t.forward).mul (t.backward.mul c.undoing)
        = c.matrix.mul ((t.forward.mul t.backward).mul c.undoing) := by simp only [Mat4.mul_assoc]
      _ = .identity := by
        rw [h.forward_mul_backward, Mat4.identity_mul, Change.matrix_mul_undoing hinvertible]
  · calc (t.backward.mul c.undoing).mul (c.matrix.mul t.forward)
        = t.backward.mul ((c.undoing.mul c.matrix).mul t.forward) := by simp only [Mat4.mul_assoc]
      _ = .identity := by
        rw [Change.undoing_mul_matrix hinvertible, Mat4.identity_mul, h.backward_mul_forward]
  · exact c.affine_matrix.mul h.affine_forward
  · exact h.affine_backward.mul c.affine_undoing

/-- A change moves points after all changes before it. -/
theorem IsPair.point_change? {t t' : Transform α} (h : t.IsPair) {c : Change α}
    (hc : t.change? c = some t') (p : Vec3 α) : t'.point p = c.move (t.point p) := by
  obtain ⟨-, rfl⟩ := change?_eq_some_iff.mp hc
  rw [point, andThen, Mat4.apply_mul _ h.affine_forward, ExactScalar.one_literal, c.apply_matrix,
    point, ExactScalar.one_literal]

/-! ### Points and vectors -/

/-- Forward and then back leads to the same vector, for points and directions. -/
theorem IsPair.backward_apply_forward {t : Transform α} (h : t.IsPair) (v : Vec3 α) (w : α) :
    t.backward.apply (t.forward.apply v w) w = v := by
  rw [← Mat4.apply_mul _ h.affine_forward, h.backward_mul_forward, Mat4.apply_identity]

/-- Back and then forward does, too. -/
theorem IsPair.forward_apply_backward {t : Transform α} (h : t.IsPair) (v : Vec3 α) (w : α) :
    t.forward.apply (t.backward.apply v w) w = v := by
  rw [← Mat4.apply_mul _ h.affine_backward, h.forward_mul_backward, Mat4.apply_identity]

/-- A point on a line is moved to the point with the same parameter on the moved line. -/
theorem point_add_scale (t : Transform α) (p v : Vec3 α) (s : α) :
    t.point (p + v.scale s) = t.point p + (t.vector v).scale s := by
  rw [vector, ExactScalar.zero_literal]
  exact t.forward.apply_add_scale p v _ s

theorem inversePoint_add_scale (t : Transform α) (p v : Vec3 α) (s : α) :
    t.inversePoint (p + v.scale s) = t.inversePoint p + (t.inverseVector v).scale s := by
  rw [inverseVector, ExactScalar.zero_literal]
  exact t.backward.apply_add_scale p v _ s

/-- Each point in the world comes from the point in object space that it is taken to. -/
theorem IsPair.point_inversePoint {t : Transform α} (h : t.IsPair) (p : Vec3 α) :
    t.point (t.inversePoint p) = p :=
  h.forward_apply_backward p _

/-- Each point in object space is found again. -/
theorem IsPair.inversePoint_point {t : Transform α} (h : t.IsPair) (p : Vec3 α) :
    t.inversePoint (t.point p) = p :=
  h.backward_apply_forward p _

theorem IsPair.vector_inverseVector {t : Transform α} (h : t.IsPair) (v : Vec3 α) :
    t.vector (t.inverseVector v) = v :=
  h.forward_apply_backward v _

/-! ### All changes -/

open scoped Classical in
/-- The changes of a list that can be undone, moving points as the transform does that they make. -/
theorem IsPair.changeAll {t : Transform α} (h : t.IsPair) (changes : List (Change α)) :
    (t.changeAll changes).IsPair ∧ ∀ p, (t.changeAll changes).point p
      = Change.moveAll (changes.filter fun c => c.Invertible) (t.point p) := by
  induction changes generalizing t with
  | nil => exact ⟨h, fun p => rfl⟩
  | cons c changes ih =>
    rw [Transform.changeAll, List.foldl_cons]
    match hc : t.change? c with
    | some t' =>
      obtain ⟨hpair, hpoint⟩ := ih (h.change? hc)
      refine ⟨hpair, fun p => (hpoint p).trans ?_⟩
      rw [List.filter_cons_of_pos (by simpa using (change?_eq_some_iff.mp hc).1),
        h.point_change? hc]
      rfl
    | none =>
      -- The change has no result and is left out.
      rw [List.filter_cons_of_neg (by simpa using change?_eq_none_iff.mp hc)]
      exact ih h

/-- What changes have made of no change at all. -/
theorem isPair_of_changes {t : Transform α} (h : ∃ changes, t = identity.changeAll changes) :
    t.IsPair := by
  obtain ⟨changes, rfl⟩ := h
  exact (isPair_identity.changeAll changes).1

open scoped Classical in
/-- **Changes keep the matrices inverse and move points in order.** Whatever changes are made, those
that fail included: the matrices undo each other, and both keep the fourth coordinate, so none is
lost by dropping it; going to the world and back leads nowhere else, for points and for vectors;
just those changes fail that cannot be undone; and points move as the other changes say, one after
another. -/
theorem changeAll_pairs_and_moves (changes : List (Change α)) :
    let t := (identity : Transform α).changeAll changes
    t.IsPair ∧
    (∀ v w, t.forward.fourth v w = w ∧ t.backward.fourth v w = w) ∧
    (∀ v, t.inversePoint (t.point v) = v ∧ t.point (t.inversePoint v) = v ∧
      t.inverseVector (t.vector v) = v ∧ t.vector (t.inverseVector v) = v) ∧
    (∀ c, t.change? c = none ↔ ¬ c.Invertible) ∧
    ∀ p, t.point p = Change.moveAll (changes.filter fun c => c.Invertible) p := by
  intro t
  -- One induction over the changes gives the pair and the moves; the rest is read from the pair.
  obtain ⟨hpair, hpoint⟩ := isPair_identity.changeAll changes
  refine ⟨hpair, fun v w => ?_, fun v => ?_, fun c => change?_eq_none_iff, fun p => ?_⟩
  · exact ⟨hpair.affine_forward.fourth_eq v w, hpair.affine_backward.fourth_eq v w⟩
  · exact ⟨hpair.backward_apply_forward v _, hpair.forward_apply_backward v _,
      hpair.backward_apply_forward v _, hpair.forward_apply_backward v _⟩
  · have hstart : (identity : Transform α).point p = p := Mat4.apply_identity p _
    exact (hpoint p).trans (by rw [hstart])

/-- A stretch, a turn, a stretch by zero, which fails, and a move, with real numbers. -/
theorem changeAll_pairs_and_moves_real :
    let t := (identity : Transform ℝ).changeAll
      [.scale 2 3 4, .rotateY 30, .scale 1 0 1, .translate 7 11 13]
    t.inversePoint (t.point ⟨1, 2, 3⟩) = ⟨1, 2, 3⟩ ∧ t.point ⟨0, 2, 0⟩ = ⟨7, 17, 13⟩ := by
  intro t
  obtain ⟨-, -, hback, -, hmove⟩ := changeAll_pairs_and_moves
    [.scale (2 : ℝ) 3 4, .rotateY 30, .scale 1 0 1, .translate 7 11 13]
  refine ⟨(hback _).1, (hmove _).trans ?_⟩
  norm_num [Change.Invertible, Change.moveAll, Change.move]

end Transform

end SceneTracer
