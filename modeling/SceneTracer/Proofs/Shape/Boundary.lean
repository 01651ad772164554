import SceneTracer.Hit
import SceneTracer.Proofs.Vec3.Algebra
import SceneTracer.Shape.Solid

namespace SceneTracer

/-!
# Where lines cross the boundaries of shapes

Over the real numbers, the ends of a span are places where the line goes through the boundary of its
solid: they lie on the faces that the span names, and the outward normals there point against the
line where it enters and along it where it leaves.

* `Crossing.Fits` — an entry against the normal, or an exit along it.
* `Span.Ends` — a span with two ends, and what holds at them.
* `Span.clip_cases` — the ends of what two spans share.
* `Span.slab_cases`, `Shape.tubeSpan_cases` — the ends of the parts that solids are cut from.
* `Shape.Meets` — how a line crosses a face.
* `Shape.ends_span` — how it does at the ends of its span in a solid.
-/

/-- The way a line crosses a boundary fits the product of its direction with the outward normal. -/
def Crossing.Fits : Crossing → ℝ → Prop
  | .entry, product => product ≤ 0
  | .exit, product => 0 ≤ product

/-- Only the sign of a product says on which side a line crosses. -/
theorem Crossing.Fits.mul {c : Crossing} {x : ℝ} (h : c.Fits x) {k : ℝ} (hk : 0 ≤ k) :
    c.Fits (k * x) := by
  cases c with
  | entry => exact mul_nonpos_of_nonneg_of_nonpos hk h
  | exit => exact mul_nonneg hk h

namespace Span

/-! ### Ends of spans -/

/-- The end of a span at which the line crosses in a direction, with the face there. -/
def bound {α : Type} (s : Span α) : Crossing → Extended α × Face
  | .entry => (s.near, s.nearFace)
  | .exit => (s.far, s.farFace)

/-- The span has two ends, and `P` holds of the direction, the parameter and the face at each. -/
def Ends (P : Crossing → ℝ → Face → Prop) (s : Span ℝ) : Prop :=
  ∀ c, ∃ t face, s.bound c = (.finite t, face) ∧ P c t face

variable {P Q : Crossing → ℝ → Face → Prop} {s o r : Span ℝ}

/-- What holds of ends may be weakened. -/
theorem Ends.imp (h : s.Ends P) (hPQ : ∀ c t face, P c t face → Q c t face) : s.Ends Q := by
  intro c
  obtain ⟨t, face, hbound, hP⟩ := h c
  exact ⟨t, face, hbound, hPQ c t face hP⟩

/-- What two spans share starts with the later of their near ends and stops at the earlier of their
far ends. -/
theorem bound_clip (h : s.clip o = some r) :
    r.bound .entry =
        (if Scalar.ltExtended s.near o.near then o.bound .entry else s.bound .entry) ∧
      r.bound .exit = if Scalar.ltExtended o.far s.far then o.bound .exit else s.bound .exit := by
  unfold clip at h
  obtain ⟨-, hr⟩ := Option.ite_none_right_eq_some.mp h
  cases hr
  exact ⟨rfl, rfl⟩

/-- A range is determined by its two bounds. -/
theorem ext_bound (h : ∀ c, s.bound c = o.bound c) : s = o := by
  cases s
  cases o
  cases h .entry
  cases h .exit
  rfl

/-- **Clipping makes no new ends**: what holds of the ends of both ranges holds of those of their
common part. -/
theorem Ends.clip (hs : s.Ends P) (ho : o.Ends P) (h : s.clip o = some r) : r.Ends P := by
  obtain ⟨hnear, hfar⟩ := bound_clip h
  intro c
  -- Each end of the common part is an end of one of the two.
  cases c with
  | entry =>
    rw [hnear]
    split
    · exact ho .entry
    · exact hs .entry
  | exit =>
    rw [hfar]
    split
    · exact ho .exit
    · exact hs .exit

/-- The whole line takes nothing away from a range. -/
theorem eq_of_clip_all (h : s.clip .all = some r) : r = s := by
  obtain ⟨hnear, hfar⟩ := bound_clip h
  apply ext_bound
  intro c
  cases c with
  | entry =>
    rw [hnear, if_neg]
    show ¬ Scalar.ltExtended s.near .negInf = true
    cases s.near <;> exact Bool.false_ne_true
  | exit =>
    rw [hfar, if_neg]
    exact Bool.false_ne_true

/-- A range with finite ends takes the whole line away. -/
theorem Ends.eq_of_all_clip (ho : o.Ends P) (h : all.clip o = some r) : r = o := by
  obtain ⟨hnear, hfar⟩ := bound_clip h
  apply ext_bound
  intro c
  cases c with
  | entry =>
    obtain ⟨t, face, hbound, -⟩ := ho .entry
    rw [hnear, if_pos]
    show Scalar.ltExtended .negInf (o.bound .entry).1 = true
    rw [hbound]
    rfl
  | exit =>
    obtain ⟨t, face, hbound, -⟩ := ho .exit
    rw [hfar, if_pos]
    show Scalar.ltExtended (o.bound .exit).1 .posInf = true
    rw [hbound]
    rfl

/-- **What two spans share** has two ends unless both are the whole line, each for its reason. -/
theorem clip_cases {p q : Prop} (hs : (s = .all ∧ p) ∨ s.Ends P) (ho : (o = .all ∧ q) ∨ o.Ends P)
    (h : s.clip o = some r) : (r = .all ∧ p ∧ q) ∨ r.Ends P := by
  rcases ho with ⟨rfl, hq⟩ | ho
  · obtain rfl := eq_of_clip_all h
    exact hs.imp_left fun ⟨hall, hp⟩ => ⟨hall, hp, hq⟩
  · rcases hs with ⟨rfl, -⟩ | hs
    · obtain rfl := ho.eq_of_all_clip h
      exact Or.inr ho
    · exact Or.inr (hs.clip ho h)

/-! ### Slabs -/

/-- The tolerance is positive, so that a direction without a component counts as parallel. -/
theorem parallelTolerance_pos : (0 : ℝ) < parallelTolerance := by
  show (0 : ℝ) < OfScientific.ofScientific 1 true 12
  norm_num

/-- Not all three components of a unit vector can count as parallel. -/
theorem parallelTolerance_lt : 3 * (parallelTolerance : ℝ) < 1 := by
  show 3 * (OfScientific.ofScientific 1 true 12 : ℝ) < 1
  norm_num

/-- A unit direction along an axis is far from parallel to the planes across it. -/
theorem parallelTolerance_le_of_unit {v : ℝ} (hunit : v * v = 1) : parallelTolerance ≤ |v| := by
  have habs : |v| = 1 := by
    rcases mul_self_eq_one_iff.mp hunit with rfl | rfl <;> simp
  linarith only [habs, parallelTolerance_lt, parallelTolerance_pos]

/-- A line between the planes of a slab, and along them, is in the slab for ever. -/
theorem slab_along {x : ℝ} (hlow : 0 ≤ x) (hhigh : x ≤ 1) (low high : Face) :
    slab x 0 low high = some .all := by
  have hparallel : Scalar.abs (0 : ℝ) < parallelTolerance := abs_zero.trans_lt parallelTolerance_pos
  unfold slab
  rw [if_pos hparallel, ExactScalar.zero_literal, ExactScalar.one_literal, if_pos ⟨hlow, hhigh⟩]

/-- A line straight up through a slab. -/
theorem slab_across (x : ℝ) (low high : Face) :
    slab x 1 low high = some ⟨.finite (-x), low, .finite (1 - x), high⟩ := by
  have hsteep : ¬ Scalar.abs (1 : ℝ) < parallelTolerance :=
    not_lt.mpr (parallelTolerance_le_of_unit (mul_one 1))
  have hpos : (0.0 : ℝ) < 1 := by norm_num
  unfold slab
  rw [if_neg hsteep, if_pos hpos, ExactScalar.zero_literal, ExactScalar.one_literal, zero_sub, div_one,
    div_one]

/-- What does not count as parallel can be divided by. -/
theorem ne_zero_of_not_parallel {v : ℝ} (h : ¬ |v| < parallelTolerance) : v ≠ 0 := by
  rintro rfl
  rw [abs_zero] at h
  exact h parallelTolerance_pos

/-- A slab is entered and left through its two planes, unless the line is parallel to them. -/
theorem slab_cases {x d : ℝ} {low high : Face} (h : slab x d low high = some s) :
    (s = .all ∧ |d| < parallelTolerance) ∨
    s.Ends fun c t face => (face = low ∧ x + d * t = 0 ∧ c.Fits (-d)) ∨
      (face = high ∧ x + d * t = 1 ∧ c.Fits d) := by
  unfold slab at h
  dsimp only at h
  split at h
  · rename_i hparallel
    obtain ⟨-, hs⟩ := Option.ite_none_right_eq_some.mp h
    cases hs
    exact Or.inl ⟨rfl, hparallel⟩
  · rename_i hparallel
    have hd : d ≠ 0 := ne_zero_of_not_parallel hparallel
    -- The two parameters at which the line is on one of the planes.
    have hlow : x + d * ((0 - x) / d) = 0 := by
      rw [mul_div_cancel₀ _ hd]
      ring
    have hhigh : x + d * ((1 - x) / d) = 1 := by
      rw [mul_div_cancel₀ _ hd]
      ring
    refine Or.inr fun c => ?_
    rw [ExactScalar.zero_literal, ExactScalar.one_literal] at h
    split at h
    · -- A line that goes up comes to the lower plane first.
      rename_i hpos
      have hle : 0 ≤ d := le_of_lt hpos
      cases h
      cases c with
      | entry => exact ⟨_, _, rfl, Or.inl ⟨rfl, hlow, neg_nonpos.mpr hle⟩⟩
      | exit => exact ⟨_, _, rfl, Or.inr ⟨rfl, hhigh, hle⟩⟩
    · -- A line that goes down comes to the upper plane first.
      rename_i hneg
      have hle : d ≤ 0 := not_lt.mp hneg
      cases h
      cases c with
      | entry => exact ⟨_, _, rfl, Or.inr ⟨rfl, hhigh, hle⟩⟩
      | exit => exact ⟨_, _, rfl, Or.inl ⟨rfl, hlow, neg_nonneg.mpr hle⟩⟩

end Span

namespace Shape

/-! ### Faces that are met -/

/-- The line through `o` along `d` crosses the face of the shape at the parameter `t`, in the
direction that its outward normal there allows. -/
structure Meets (shape : Shape) (o d : Vec3 ℝ) (c : Crossing) (t : ℝ) (face : Face) : Prop where
  onFace : shape.OnFace face (o + d.scale t)
  fits : c.Fits ((shape.normalAt face (o + d.scale t)).dot d)

/-- On each face the outward normal has length one. -/
theorem normalAt_dot_self {shape : Shape} {face : Face} {p : Vec3 ℝ} (h : shape.OnFace face p) :
    (shape.normalAt face p).dot (shape.normalAt face p) = 1 := by
  cases shape with
  | sphere => exact h.trans ExactScalar.one_literal
  | cube =>
    unfold normalAt Vec3.dot
    split_ifs <;> norm_num
  | cylinder =>
    rcases h with ⟨rfl, h⟩ | ⟨rfl, h⟩ | ⟨rfl, h⟩
    · have hside : Shape.cylinder.normalAt Face.side p = ⟨p.x, 0.0, p.z⟩ := rfl
      rw [hside, Vec3.dot]
      simpa using h
    · have hcap : Shape.cylinder.normalAt Face.upperCap p = ⟨0.0, 1.0, 0.0⟩ := rfl
      rw [hcap, Vec3.dot]
      norm_num
    · have hcap : Shape.cylinder.normalAt Face.lowerCap p = ⟨0.0, -1.0, 0.0⟩ := rfl
      rw [hcap, Vec3.dot]
      norm_num
  | cone => exact h.elim
  | plane =>
    unfold normalAt Vec3.dot
    norm_num

/-! ### Spheres -/

/-- A discriminant that is not negative has a root. -/
theorem exists_sqrt {x : ℝ} (h : ¬ x < 0) : ∃ q, Scalar.sqrt x = q ∧ 0 ≤ q ∧ q * q = x :=
  ⟨√x, rfl, Real.sqrt_nonneg x, Real.mul_self_sqrt (not_lt.mp h)⟩

/-- The normal of a sphere has the product with the line that the root in its equation has. -/
theorem meets_sphere {o d : Vec3 ℝ} (hd : d.dot d = 1) {c : Crossing} {t : ℝ}
    (hroot : (o.dot d + t) * (o.dot d + t) = o.dot d * o.dot d - (o.dot o - 1))
    (hfits : c.Fits (o.dot d + t)) : Shape.sphere.Meets o d c t Face.whole := by
  -- The place is its own normal.
  have hnormal : (o + d.scale t).dot d = o.dot d + t := by
    rw [Vec3.add_dot, Vec3.scale_dot, hd, mul_one]
  refine ⟨?_, ?_⟩
  · show (o + d.scale t).dot (o + d.scale t) = 1.0
    have hpoint : (o + d.scale t).dot o = o.dot o + t * o.dot d := by
      rw [Vec3.add_dot, Vec3.scale_dot, Vec3.dot_comm d o]
    rw [Vec3.add_dot, Vec3.scale_dot, Vec3.dot_comm o, Vec3.dot_comm d, hpoint, hnormal,
      ExactScalar.one_literal]
    linarith only [hroot]
  · show c.Fits ((o + d.scale t).dot d)
    rw [hnormal]
    exact hfits

/-- **The ends of the span of a sphere are on it**, and its normals there fit the line. -/
theorem ends_sphereSpan {o d : Vec3 ℝ} (hd : d.dot d = 1) {s : Span ℝ}
    (h : sphereSpan o d = some s) : s.Ends (Shape.sphere.Meets o d) := by
  unfold sphereSpan at h
  dsimp only at h
  rw [ExactScalar.one_literal, ExactScalar.zero_literal] at h
  obtain ⟨hreal, hs⟩ := Option.ite_none_left_eq_some.mp h
  cases hs
  obtain ⟨q, hsqrt, hq, hroot⟩ := exists_sqrt hreal
  rw [hsqrt]
  intro c
  -- The line meets the sphere where the product is minus or plus the root.
  cases c with
  | entry =>
    have hnear : o.dot d + (-o.dot d - q) = -q := by ring
    refine ⟨_, _, rfl, meets_sphere hd ?_ ?_⟩
    · rw [hnear, neg_mul_neg, hroot]
    · rw [hnear]
      exact neg_nonpos.mpr hq
  | exit =>
    have hfar : o.dot d + (-o.dot d + q) = q := by ring
    refine ⟨_, _, rfl, meets_sphere hd ?_ ?_⟩
    · rw [hfar, hroot]
    · rw [hfar]
      exact hq

/-- A line along the third axis through the middle of the sphere. -/
theorem sphereSpan_axis (z : ℝ) {v : ℝ} (hv : v * v = 1) :
    sphereSpan ⟨0, 0, z⟩ ⟨0, 0, v⟩
      = some ⟨.finite (-(z * v) - 1), Face.whole, .finite (-(z * v) + 1), Face.whole⟩ := by
  have hb : (⟨0, 0, z⟩ : Vec3 ℝ).dot ⟨0, 0, v⟩ = z * v := by simp [Vec3.dot]
  have hc : (⟨0, 0, z⟩ : Vec3 ℝ).dot ⟨0, 0, z⟩ = z * z := by simp [Vec3.dot]
  have hdiscriminant : z * v * (z * v) - (z * z - 1) = 1 := by linear_combination z * z * hv
  have hsqrt : (Scalar.sqrt 1 : ℝ) = 1 := Real.sqrt_one
  unfold sphereSpan
  simp only [hb, hc, ExactScalar.one_literal, ExactScalar.zero_literal, hdiscriminant, hsqrt]
  rw [if_neg (by norm_num)]

/-! ### Cubes -/

/-- A slab whose planes hold faces of the shape, with normals along its axis. -/
theorem ends_slab {shape : Shape} {o d : Vec3 ℝ} {x v : ℝ} {low high : Face} {s : Span ℝ}
    (h : Span.slab x v low high = some s)
    (hlow : ∀ t, x + v * t = 0 → shape.OnFace low (o + d.scale t) ∧
      (shape.normalAt low (o + d.scale t)).dot d = -v)
    (hhigh : ∀ t, x + v * t = 1 → shape.OnFace high (o + d.scale t) ∧
      (shape.normalAt high (o + d.scale t)).dot d = v) :
    (s = .all ∧ |v| < Span.parallelTolerance) ∨ s.Ends (shape.Meets o d) := by
  refine (Span.slab_cases h).imp_right fun hends => hends.imp fun c t face hmeets => ?_
  rcases hmeets with ⟨rfl, hplane, hfits⟩ | ⟨rfl, hplane, hfits⟩
  · obtain ⟨hface, hnormal⟩ := hlow t hplane
    exact ⟨hface, hnormal ▸ hfits⟩
  · obtain ⟨hface, hnormal⟩ := hhigh t hplane
    exact ⟨hface, hnormal ▸ hfits⟩

/-- A component that counts as parallel contributes less than a third to the square of the
length. -/
theorem mul_self_lt_of_parallel {v : ℝ} (h : |v| < Span.parallelTolerance) : 3 * (v * v) < 1 := by
  have hlt : 3 * |v| < 1 := by linarith only [h, Span.parallelTolerance_lt]
  have hle : |v| ≤ 1 := by linarith only [hlt, abs_nonneg v]
  have hsquare : v * v ≤ |v| := by
    calc v * v = |v| * |v| := (abs_mul_abs_self v).symm
      _ ≤ |v| * 1 := mul_le_mul_of_nonneg_left hle (abs_nonneg v)
      _ = |v| := mul_one _
  linarith only [hlt, hsquare]

/-- A line along the third axis through the edge of the cube where the other two coordinates are
zero. -/
theorem cubeSpan_axis (z : ℝ) :
    cubeSpan ⟨0, 0, z⟩ ⟨0, 0, 1⟩ = some ⟨.finite (-z), Face.front, .finite (1 - z), Face.back⟩ := by
  have hacross (low high : Face) : Span.slab (0 : ℝ) 0 low high = some .all :=
    Span.slab_along le_rfl zero_le_one low high
  unfold cubeSpan
  simp [hacross, Span.slab_across, Span.clip, Span.all, Scalar.ltExtended, Scalar.leExtended]

/-- The back of the cube is where the third coordinate is one. -/
theorem onFace_back {p : Vec3 ℝ} (h : Shape.cube.OnFace Face.back p) : p.z = 1 := by
  rcases h with ⟨h, -⟩ | ⟨-, hz⟩ | ⟨h, -⟩ | ⟨h, -⟩ | ⟨h, -⟩ | ⟨h, -⟩
  · exact absurd h (by decide)
  · exact hz.trans ExactScalar.one_literal
  all_goals exact absurd h (by decide)

/-- **The ends of the span of a cube are on its faces.** No unit vector is parallel to all three
slabs, so no part of the whole line is left. -/
theorem ends_cubeSpan {o d : Vec3 ℝ} (hd : d.dot d = 1) {s : Span ℝ}
    (h : cubeSpan o d = some s) : s.Ends (Shape.cube.Meets o d) := by
  simp only [cubeSpan, Option.bind_eq_bind, Option.bind_eq_some_iff] at h
  obtain ⟨x, hx, y, hy, xy, hxy, z, hz, hs⟩ := h
  have hendsX : (x = .all ∧ |d.x| < Span.parallelTolerance) ∨ x.Ends (Shape.cube.Meets o d) := by
    refine ends_slab hx (fun t ht => ⟨?_, ?_⟩) fun t ht => ⟨?_, ?_⟩
    · exact .inr (.inr (.inl ⟨rfl, ht.trans ExactScalar.zero_literal.symm⟩))
    · show (⟨-1.0, 0.0, 0.0⟩ : Vec3 ℝ).dot d = -d.x
      simp [Vec3.dot]
    · exact .inr (.inr (.inr (.inl ⟨rfl, ht.trans ExactScalar.one_literal.symm⟩)))
    · show (⟨1.0, 0.0, 0.0⟩ : Vec3 ℝ).dot d = d.x
      simp [Vec3.dot]
  have hendsY : (y = .all ∧ |d.y| < Span.parallelTolerance) ∨ y.Ends (Shape.cube.Meets o d) := by
    refine ends_slab hy (fun t ht => ⟨?_, ?_⟩) fun t ht => ⟨?_, ?_⟩
    · exact .inr (.inr (.inr (.inr (.inr ⟨rfl, ht.trans ExactScalar.zero_literal.symm⟩))))
    · show (⟨0.0, -1.0, 0.0⟩ : Vec3 ℝ).dot d = -d.y
      simp [Vec3.dot]
    · exact .inr (.inr (.inr (.inr (.inl ⟨rfl, ht.trans ExactScalar.one_literal.symm⟩))))
    · show (⟨0.0, 1.0, 0.0⟩ : Vec3 ℝ).dot d = d.y
      simp [Vec3.dot]
  have hendsZ : (z = .all ∧ |d.z| < Span.parallelTolerance) ∨ z.Ends (Shape.cube.Meets o d) := by
    refine ends_slab hz (fun t ht => ⟨?_, ?_⟩) fun t ht => ⟨?_, ?_⟩
    · exact .inl ⟨rfl, ht.trans ExactScalar.zero_literal.symm⟩
    · show (⟨0.0, 0.0, -1.0⟩ : Vec3 ℝ).dot d = -d.z
      simp [Vec3.dot]
    · exact .inr (.inl ⟨rfl, ht.trans ExactScalar.one_literal.symm⟩)
    · show (⟨0.0, 0.0, 1.0⟩ : Vec3 ℝ).dot d = d.z
      simp [Vec3.dot]
  have hendsXY := Span.clip_cases hendsX hendsY hxy
  rcases Span.clip_cases hendsXY hendsZ hs with ⟨-, ⟨hx, hy⟩, hz⟩ | hends
  · -- A vector that is as good as parallel to all axes is too short.
    have heq : d.x * d.x + d.y * d.y + d.z * d.z = 1 := hd
    linarith only [heq, mul_self_lt_of_parallel hx, mul_self_lt_of_parallel hy,
      mul_self_lt_of_parallel hz]
  · exact hends

/-! ### Cylinders -/

/-- The normal of the side has the product with the line that the root in its equation has. -/
theorem meets_side {o d : Vec3 ℝ} {a b : ℝ} (ha : a = d.x * d.x + d.z * d.z)
    (hb : b = o.x * d.x + o.z * d.z) (hne : a ≠ 0) {c : Crossing} {t : ℝ}
    (hroot : (b + a * t) * (b + a * t) = b * b - a * (o.x * o.x + o.z * o.z - 1))
    (hfits : c.Fits (b + a * t)) : Shape.cylinder.Meets o d c t Face.side := by
  refine ⟨?_, ?_⟩
  · refine Or.inl ⟨rfl, ?_⟩
    show (o.x + d.x * t) * (o.x + d.x * t) + (o.z + d.z * t) * (o.z + d.z * t) = 1.0
    rw [ExactScalar.one_literal]
    apply mul_left_cancel₀ hne
    rw [ha, hb] at hroot
    rw [ha]
    linear_combination hroot
  · show c.Fits ((o.x + d.x * t) * d.x + 0.0 * d.y + (o.z + d.z * t) * d.z)
    -- The product with the normal is the one in the equation of the infinite cylinder.
    have hnormal : (o.x + d.x * t) * d.x + 0.0 * d.y + (o.z + d.z * t) * d.z = b + a * t := by
      rw [ExactScalar.zero_literal, ha, hb]
      ring
    rw [hnormal]
    exact hfits

/-- The infinite cylinder is entered and left through its side, unless the line is parallel to
it. -/
theorem tubeSpan_cases {o d : Vec3 ℝ} {s : Span ℝ} (h : tubeSpan o d = some s) :
    (s = .all ∧ d.x * d.x + d.z * d.z < Span.parallelTolerance) ∨
      s.Ends (Shape.cylinder.Meets o d) := by
  unfold tubeSpan at h
  dsimp only at h
  rw [ExactScalar.one_literal, ExactScalar.zero_literal] at h
  generalize ha : d.x * d.x + d.z * d.z = a at h ⊢
  generalize hb : o.x * d.x + o.z * d.z = b at h
  split at h
  · rename_i hparallel
    obtain ⟨-, hs⟩ := Option.ite_none_left_eq_some.mp h
    cases hs
    exact Or.inl ⟨rfl, hparallel⟩
  · rename_i hparallel
    -- What does not count as parallel is not zero.
    have hne : a ≠ 0 := by
      rintro rfl
      exact hparallel Span.parallelTolerance_pos
    obtain ⟨hreal, hs⟩ := Option.ite_none_left_eq_some.mp h
    cases hs
    obtain ⟨q, hsqrt, hq, hroot⟩ := exists_sqrt hreal
    rw [hsqrt]
    refine Or.inr fun c => ?_
    cases c with
    | entry =>
      have hnear : b + a * ((-b - q) / a) = -q := by
        rw [mul_div_cancel₀ _ hne]
        ring
      refine ⟨_, _, rfl, meets_side ha.symm hb.symm hne ?_ ?_⟩
      · rw [hnear, neg_mul_neg, hroot]
      · rw [hnear]
        exact neg_nonpos.mpr hq
    | exit =>
      have hfar : b + a * ((-b + q) / a) = q := by
        rw [mul_div_cancel₀ _ hne]
        ring
      refine ⟨_, _, rfl, meets_side ha.symm hb.symm hne ?_ ?_⟩
      · rw [hfar, hroot]
      · rw [hfar]
        exact hq

/-- **The ends of the span of a cylinder are on its side or its caps.** No unit vector is parallel
to both the side and the caps. -/
theorem ends_cylinderSpan {o d : Vec3 ℝ} (hd : d.dot d = 1) {s : Span ℝ}
    (h : cylinderSpan o d = some s) : s.Ends (Shape.cylinder.Meets o d) := by
  simp only [cylinderSpan, Option.bind_eq_bind, Option.bind_eq_some_iff] at h
  obtain ⟨side, hside, caps, hcaps, hs⟩ := h
  have hendsCaps :
      (caps = .all ∧ |d.y| < Span.parallelTolerance) ∨ caps.Ends (Shape.cylinder.Meets o d) := by
    refine ends_slab hcaps (fun t ht => ⟨?_, ?_⟩) fun t ht => ⟨?_, ?_⟩
    · exact .inr (.inr ⟨rfl, ht.trans ExactScalar.zero_literal.symm⟩)
    · show (⟨0.0, -1.0, 0.0⟩ : Vec3 ℝ).dot d = -d.y
      simp [Vec3.dot]
    · exact .inr (.inl ⟨rfl, ht.trans ExactScalar.one_literal.symm⟩)
    · show (⟨0.0, 1.0, 0.0⟩ : Vec3 ℝ).dot d = d.y
      simp [Vec3.dot]
  -- If both parts were the whole line, the direction would be too short.
  rcases Span.clip_cases (tubeSpan_cases hside) hendsCaps hs with ⟨-, hxz, hy⟩ | hends
  · have heq : d.x * d.x + d.y * d.y + d.z * d.z = 1 := hd
    linarith only [heq, hxz, Span.parallelTolerance_lt, mul_self_lt_of_parallel hy]
  · exact hends

/-- **A line goes through the boundary of a solid at both ends of its span**: it meets the faces
that the span names, from outside at the one and from inside at the other. -/
theorem ends_span {shape : Shape} (hshape : shape ≠ .plane) {o d : Vec3 ℝ} (hd : d.dot d = 1)
    {s : Span ℝ} (h : shape.span o d = some s) : s.Ends (shape.Meets o d) := by
  cases shape with
  | sphere => exact ends_sphereSpan hd h
  | cube => exact ends_cubeSpan hd h
  | cylinder => exact ends_cylinderSpan hd h
  | cone => cases h
  | plane => exact absurd rfl hshape

end Shape

end SceneTracer
