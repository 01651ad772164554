import SceneTracer.Proofs.Shape.Interior

namespace SceneTracer

/-!
# Supporting planes

A convex solid lies behind the plane through a place of its boundary that is perpendicular to the
normal there. The solvers respect this even where they take for parallel what is not: the shortcut
drops a constraint that the whole line seems to satisfy, but a line that starts in front of the plane
breaks the constraint that the plane belongs to. So on a line that starts there and leads away,
nothing is found ahead.

* `Span.holds_slab_of_outside`, `Shape.holds_tube_of_outside` — what is found from outside of a part
  of a solid is inside of that part.
* `Shape.BoundsSlab` — the planes of cubes and caps.
* `Shape.dot_le_of_holds` — what is found from in front of a supporting plane is behind it.
* `Shape.ends_before_start` — nothing is found ahead on a line that leads away from such a plane.
-/

namespace Span

/-- What two solvers share is found by both of them. -/
theorem holds_of_meet {r r' : Option (Span ℝ)} {s : Span ℝ} (h : meet r r' = some s) {t : ℝ}
    (ht : s.Holds t) : (∃ s₁, r = some s₁ ∧ s₁.Holds t) ∧ ∃ s₂, r' = some s₂ ∧ s₂.Holds t := by
  simp only [meet, Option.bind_eq_bind, Option.bind_eq_some_iff] at h
  obtain ⟨s₁, hs₁, s₂, hs₂, hclip⟩ := h
  have hboth : s₁.Holds t ∧ s₂.Holds t := (finds_clip s₁ s₂ t).mp ⟨s, hclip, ht⟩
  exact ⟨⟨s₁, hs₁, hboth.1⟩, ⟨s₂, hs₂, hboth.2⟩⟩

/-- From outside of a slab, only what is inside of it is found: the shortcut for parallel lines finds
nothing. -/
theorem holds_slab_of_outside {x d : ℝ} {low high : Face} {s : Span ℝ} (hout : ¬ (0 ≤ x ∧ x ≤ 1))
    (h : slab x d low high = some s) {t : ℝ} (ht : s.Holds t) :
    0 ≤ x + d * t ∧ x + d * t ≤ 1 := by
  have hsolver := h
  unfold slab at hsolver
  rw [ExactScalar.zero_literal, ExactScalar.one_literal, if_neg hout] at hsolver
  split at hsolver
  · -- The shortcut finds all of a line that starts inside, and nothing else.
    cases hsolver
  · rename_i hparallel
    have hfinds := finds_slab (Or.inr (not_lt.mp hparallel)) x low high
    rw [h] at hfinds
    exact (finds_some.mp hfinds t).mp ht

end Span

namespace Shape

open SceneTracer.Span

/-- From outside of the infinite cylinder, only what is inside of it is found. -/
theorem holds_tube_of_outside {o d : Vec3 ℝ} {s : Span ℝ} (hout : 1 < o.x * o.x + o.z * o.z)
    (h : tubeSpan o d = some s) {t : ℝ} (ht : s.Holds t) :
    (o.x + d.x * t) * (o.x + d.x * t) + (o.z + d.z * t) * (o.z + d.z * t) ≤ 1 := by
  have hnonneg : 0 ≤ d.x * d.x + d.z * d.z :=
    add_nonneg (mul_self_nonneg d.x) (mul_self_nonneg d.z)
  have hsolver := h
  unfold tubeSpan at hsolver
  rw [ExactScalar.one_literal, if_pos hout] at hsolver
  dsimp only at hsolver
  split at hsolver
  · cases hsolver
  · rename_i hparallel
    -- Whatever the direction, it is resolved if it does not count as parallel.
    have hresolved : Resolved (d.x * d.x + d.z * d.z) := by
      right
      rw [abs_of_nonneg hnonneg]
      exact not_lt.mp hparallel
    have hfinds := finds_tubeSpan o hresolved
    rw [h] at hfinds
    exact (finds_some.mp hfinds t).mp ht

/-! ### Planes of slabs -/

/-- The normals of the upper and the lower cap, of the faces of a cube there, and of a plane. -/
theorem up_dot (w : Vec3 ℝ) : (⟨0.0, 1.0, 0.0⟩ : Vec3 ℝ).dot w = w.y := by
  simp [Vec3.dot]

/-- The product with the normal of the lower cap. -/
theorem down_dot (w : Vec3 ℝ) : (⟨0.0, -1.0, 0.0⟩ : Vec3 ℝ).dot w = -w.y := by
  simp [Vec3.dot]

/-- The plane through `p` with normal `n` is one of the two of the slab between zero and one along a
coordinate, with the normal that leads out of it. -/
def BoundsSlab (coordinate : Vec3 ℝ → ℝ) (n p : Vec3 ℝ) : Prop :=
  (∀ w, n.dot w = coordinate w) ∧ coordinate p = 1 ∨
    (∀ w, n.dot w = -coordinate w) ∧ coordinate p = 0

/-- From outside of a plane, a line that comes to the slab behind it has nothing of the slab
outside. -/
theorem dot_le_of_slab {coordinate : Vec3 ℝ → ℝ} {n p o d : Vec3 ℝ} {t : ℝ}
    (hplane : BoundsSlab coordinate n p)
    (hline : coordinate (o + d.scale t) = coordinate o + coordinate d * t)
    (hout : n.dot p < n.dot o) {low high : Face} {s : Span ℝ}
    (h : slab (coordinate o) (coordinate d) low high = some s) (ht : s.Holds t) :
    n.dot (o + d.scale t) ≤ n.dot p := by
  rcases hplane with ⟨hn, hp⟩ | ⟨hn, hp⟩
  · rw [hn, hn, hp] at hout
    rw [hn, hn, hp, hline]
    exact (holds_slab_of_outside (fun hin => not_le.mpr hout hin.2) h ht).2
  · rw [hn, hn, hp, neg_zero, neg_pos] at hout
    rw [hn, hn, hp, neg_zero, neg_nonpos, hline]
    exact (holds_slab_of_outside (fun hin => not_le.mpr hout hin.1) h ht).1

/-- Each face of a cube is on a plane of one of its slabs. -/
theorem boundsSlab_cube {face : Face} {p : Vec3 ℝ} (h : Shape.cube.OnFace face p) :
    ∃ coordinate ∈ [Vec3.x, Vec3.y, Vec3.z],
      BoundsSlab coordinate (Shape.cube.normalAt face p) p := by
  have hzero {x : ℝ} (hx : x = 0.0) : x = 0 := hx.trans ExactScalar.zero_literal
  have hone {x : ℝ} (hx : x = 1.0) : x = 1 := hx.trans ExactScalar.one_literal
  -- Each face bounds the slab along its axis, from below or from above.
  rcases h with ⟨rfl, h⟩ | ⟨rfl, h⟩ | ⟨rfl, h⟩ | ⟨rfl, h⟩ | ⟨rfl, h⟩ | ⟨rfl, h⟩
  · refine ⟨Vec3.z, by simp, Or.inr ⟨fun w => ?_, hzero h⟩⟩
    show (⟨0.0, 0.0, -1.0⟩ : Vec3 ℝ).dot w = -w.z
    simp [Vec3.dot]
  · refine ⟨Vec3.z, by simp, Or.inl ⟨fun w => ?_, hone h⟩⟩
    show (⟨0.0, 0.0, 1.0⟩ : Vec3 ℝ).dot w = w.z
    simp [Vec3.dot]
  · refine ⟨Vec3.x, by simp, Or.inr ⟨fun w => ?_, hzero h⟩⟩
    show (⟨-1.0, 0.0, 0.0⟩ : Vec3 ℝ).dot w = -w.x
    simp [Vec3.dot]
  · refine ⟨Vec3.x, by simp, Or.inl ⟨fun w => ?_, hone h⟩⟩
    show (⟨1.0, 0.0, 0.0⟩ : Vec3 ℝ).dot w = w.x
    simp [Vec3.dot]
  · exact ⟨Vec3.y, by simp, Or.inl ⟨up_dot, hone h⟩⟩
  · exact ⟨Vec3.y, by simp, Or.inr ⟨down_dot, hzero h⟩⟩

/-- What is found of a cube is found of each of its slabs. -/
theorem exists_slab_of_cube {o d : Vec3 ℝ} {s : Span ℝ} (h : cubeSpan o d = some s) {t : ℝ}
    (ht : s.Holds t) {coordinate : Vec3 ℝ → ℝ} (hc : coordinate ∈ [Vec3.x, Vec3.y, Vec3.z]) :
    ∃ low high s', slab (coordinate o) (coordinate d) low high = some s' ∧ s'.Holds t := by
  rw [cubeSpan_eq_meet] at h
  obtain ⟨⟨sxy, hxy, htxy⟩, ⟨sz, hz, htz⟩⟩ := holds_of_meet h ht
  obtain ⟨⟨sx, hx, htx⟩, ⟨sy, hy, hty⟩⟩ := holds_of_meet hxy htxy
  simp only [List.mem_cons, List.not_mem_nil, or_false] at hc
  rcases hc with rfl | rfl | rfl
  · exact ⟨_, _, sx, hx, htx⟩
  · exact ⟨_, _, sy, hy, hty⟩
  · exact ⟨_, _, sz, hz, htz⟩

/-! ### Whole solids -/

/-- No place of the unit ball is further out than a place of the unit sphere, seen along that one. -/
theorem dot_le_one {u v : Vec3 ℝ} (hu : u.dot u = 1) (hv : v.dot v ≤ 1) : u.dot v ≤ 1 := by
  have hsquare := (u - v).dot_self_nonneg
  have hexpand : (u - v).dot (u - v) = u.dot u - 2 * u.dot v + v.dot v := by
    simp only [Vec3.dot, Vec3.sub_x, Vec3.sub_y, Vec3.sub_z]
    ring
  linarith only [hsquare, hexpand, hu, hv]

/-- The same for the unit disc and the unit circle. -/
theorem side_le_one {p w : Vec3 ℝ} (hp : p.x * p.x + p.z * p.z = 1)
    (hw : w.x * w.x + w.z * w.z ≤ 1) : p.x * w.x + p.z * w.z ≤ 1 := by
  nlinarith only [hp, hw, mul_self_nonneg (p.x - w.x), mul_self_nonneg (p.z - w.z)]

/-- The normal of the side of a cylinder does not see heights. -/
theorem side_dot (p w : Vec3 ℝ) :
    (Shape.cylinder.normalAt Face.side p).dot w = p.x * w.x + p.z * w.z := by
  show p.x * w.x + 0.0 * w.y + p.z * w.z = _
  rw [ExactScalar.zero_literal, zero_mul, add_zero]

/-- **What is found from in front of a supporting plane is behind it.** -/
theorem dot_le_of_holds {shape : Shape} {face : Face} {p o d : Vec3 ℝ} (hd : d.dot d = 1)
    (hface : shape.OnFace face p)
    (hout : (shape.normalAt face p).dot p < (shape.normalAt face p).dot o) {s : Span ℝ}
    (h : shape.span o d = some s) {t : ℝ} (ht : s.Holds t) :
    (shape.normalAt face p).dot (o + d.scale t) ≤ (shape.normalAt face p).dot p := by
  cases shape with
  | sphere =>
    have hunit : p.dot p = 1 := hface.trans ExactScalar.one_literal
    have hresolves : Shape.sphere.Resolves d := trivial
    have hfound := contains_of_holds hd hresolves h ht
    have hball : (o + d.scale t).dot (o + d.scale t) ≤ 1 := hfound.trans_eq ExactScalar.one_literal
    show p.dot (o + d.scale t) ≤ p.dot p
    rw [hunit]
    exact dot_le_one hunit hball
  | cube =>
    obtain ⟨coordinate, hmem, hplane⟩ := boundsSlab_cube hface
    obtain ⟨low, high, s', hs', ht'⟩ := exists_slab_of_cube h ht hmem
    refine dot_le_of_slab hplane ?_ hout hs' ht'
    simp only [List.mem_cons, List.not_mem_nil, or_false] at hmem
    rcases hmem with rfl | rfl | rfl <;> rfl
  | cylinder =>
    obtain ⟨⟨side, hside, htside⟩, ⟨caps, hcaps, htcaps⟩⟩ :=
      holds_of_meet ((cylinderSpan_eq_meet o d).symm.trans h) ht
    rcases hface with ⟨rfl, hp⟩ | ⟨rfl, hp⟩ | ⟨rfl, hp⟩
    · have hdisc : p.x * p.x + p.z * p.z = 1 := hp.trans ExactScalar.one_literal
      rw [side_dot, side_dot, hdisc] at hout
      rw [side_dot, side_dot, hdisc]
      -- A place of the disc is not as far out as the start, so the start is outside of it.
      have hstart : 1 < o.x * o.x + o.z * o.z := by
        by_contra hin
        exact not_le.mpr hout (side_le_one hdisc (not_lt.mp hin))
      exact side_le_one hdisc (holds_tube_of_outside hstart hside htside)
    · have hcap : BoundsSlab Vec3.y (Shape.cylinder.normalAt Face.upperCap p) p :=
        Or.inl ⟨up_dot, hp.trans ExactScalar.one_literal⟩
      exact dot_le_of_slab hcap rfl hout hcaps htcaps
    · have hcap : BoundsSlab Vec3.y (Shape.cylinder.normalAt Face.lowerCap p) p :=
        Or.inr ⟨down_dot, hp.trans ExactScalar.zero_literal⟩
      exact dot_le_of_slab hcap rfl hout hcaps htcaps
  | cone => cases h
  | plane =>
    have hnormal (w : Vec3 ℝ) : (Shape.plane.normalAt face p).dot w = w.y := up_dot w
    rw [hnormal, hnormal]
    exact ((bounded_planeSpan h).2 t ht).trans_le (hface.trans ExactScalar.zero_literal).ge

/-- **Nothing is found ahead** on a line that starts in front of a supporting plane and leads away
from it. -/
theorem ends_before_start {shape : Shape} {face : Face} {p o d : Vec3 ℝ} (hd : d.dot d = 1)
    (hface : shape.OnFace face p)
    (hout : (shape.normalAt face p).dot p < (shape.normalAt face p).dot o)
    (haway : 0 < (shape.normalAt face p).dot d) {s : Span ℝ} (h : shape.span o d = some s) :
    s.Ends fun _ t _ => t < 0 := by
  refine (holds_ends hd h).imp fun _ t _ ht => ?_
  have hbehind := dot_le_of_holds hd hface hout h ht
  rw [Vec3.dot_comm, Vec3.add_dot, Vec3.scale_dot, Vec3.dot_comm o, Vec3.dot_comm d] at hbehind
  have hnegative : t * (shape.normalAt face p).dot d < 0 := by linarith only [hbehind, hout]
  exact neg_of_mul_neg_left hnegative haway.le

end Shape

end SceneTracer
