import SceneTracer.Proofs.Renderer.Questions
import SceneTracer.Proofs.Scene.Normals

namespace SceneTracer

/-!
# Which way shaded surfaces face

Over the real numbers, the surface of a solid is shaded with a normal that points against the ray on
which it is seen, so what leaves it starts on the side that the ray came from. A plane has one normal
for both of its sides: it is shaded with the normal of its upper side, from wherever it is seen.

* `Primitive.upward`, `Hit.FacesUp` — the normals of a plane; `Primitive.upward_dot_nonpos_iff` tells
  from which side a ray comes.
* `Scene.facesUp_of_shape` — the crossings of a scene that are on planes.
* `Tracer.shaded_normals` — which way the surfaces face that a ray and its mirror images come to.
-/

variable {σ : Type}

/-! ### Planes -/

/-- The unit normal of the upper side of a plane, in the world. -/
noncomputable def Primitive.upward (p : Primitive ℝ σ) : Vec3 ℝ :=
  (p.transform.normal ⟨0, 1, 0⟩).normalize

/-- **From which side a ray comes to a plane.** The upward normal points against the ray just if the
ray goes down in object space. -/
theorem Primitive.upward_dot_nonpos_iff {p : Primitive ℝ σ} (hp : p.transform.IsPair)
    (direction : Vec3 ℝ) :
    p.upward.dot direction ≤ 0 ↔ (p.transform.inverseVector direction).y ≤ 0 := by
  have hup : (⟨0, 1, 0⟩ : Vec3 ℝ) ≠ 0 := fun h => one_ne_zero ((congrArg Vec3.y h).trans Vec3.zero_y)
  have hlength : 0 < (p.transform.normal ⟨0, 1, 0⟩).length :=
    Vec3.length_pos (hp.normal_ne_zero hup)
  have hproduct : p.upward.dot direction
      = (p.transform.normal ⟨0, 1, 0⟩).length⁻¹ * (p.transform.inverseVector direction).y := by
    rw [upward, Vec3.normalize_eq_scale, Vec3.scale_dot, Transform.normal_dot]
    simp [Vec3.dot]
  rw [hproduct]
  exact smul_nonpos_iff_nonpos_of_pos_left (inv_pos.mpr hlength)

namespace Hit

/-- The normal is the one above the plane where the line goes in, and the one below it where the line
comes out. -/
def FacesUp (h : Hit ℝ σ) : Prop :=
  h.normal = match h.crossing with
    | .entry => h.primitive.upward
    | .exit => -h.primitive.upward

/-- A crossing that is seen the other way round has the normal of the other side. -/
theorem FacesUp.relabel {h : Hit ℝ σ} (hh : h.FacesUp) (inside : Bool) :
    (h.relabel inside).FacesUp := by
  unfold Hit.relabel
  split
  · exact hh
  · -- The other label goes with the opposite normal.
    rename_i hother
    show -h.normal = _
    rw [hh]
    cases hcrossing : h.crossing with
    | entry =>
      cases inside with
      | true => exact absurd hcrossing hother
      | false => rfl
    | exit =>
      cases inside with
      | true => exact neg_neg _
      | false => exact absurd hcrossing hother

end Hit

/-- The crossings of a plane. -/
theorem Primitive.facesUp_of_mem_hits {p : Primitive ℝ σ} (hshape : p.shape = .plane)
    {origin direction : Vec3 ℝ} {h : Hit ℝ σ} (hh : h ∈ p.hits origin direction) : h.FacesUp := by
  obtain ⟨s, c, -, rfl⟩ := exists_bound_of_mem_hits hh
  have hnormal (q : Vec3 ℝ) : p.shape.normalAt (s.bound c).2 q = ⟨0, 1, 0⟩ := by
    rw [hshape]
    simp [Shape.normalAt]
  -- The normal is turned for the exit alone.
  cases c with
  | entry =>
    show (p.transform.normal (p.outwardNormal _ _ _)).normalize = p.upward
    rw [outwardNormal, if_neg (by simp), hnormal]
    rfl
  | exit =>
    show (p.transform.normal (p.outwardNormal _ _ _)).normalize = -p.upward
    rw [outwardNormal, if_pos ⟨hshape, rfl⟩, hnormal, Transform.normal_neg, Vec3.normalize_neg]
    rfl

/-- The crossings of a scene that are on planes. -/
theorem Scene.facesUp_of_shape {s : Scene ℝ σ} {origin direction : Vec3 ℝ} {h : Hit ℝ σ}
    (hh : h ∈ s.hits origin direction) (hshape : h.primitive.shape = .plane) : h.FacesUp := by
  refine forall_hits (P := fun k => k.primitive.shape = .plane → k.FacesUp)
    (fun k inside hk hkshape => ?_) (fun p _ k hk hkshape => ?_) h hh hshape
  · rw [Hit.primitive_relabel] at hkshape
    exact (hk hkshape).relabel inside
  · rw [Primitive.primitive_of_mem_hits hk] at hkshape
    exact Primitive.facesUp_of_mem_hits hkshape hk

/-! ### What is shaded -/

namespace Tracer

variable {ε ω : Type} (tracer : Tracer ℝ σ)

/-- How far a ray that leaves a surface starts along a direction. -/
theorem departure_sub_dot (h : Hit ℝ σ) (d : Vec3 ℝ) :
    (tracer.departure h - h.point).dot d = tracer.tolerance.shadowBias * h.normal.dot d := by
  rw [departure, add_sub_cancel_left, Vec3.scale_dot]

/-- A ray along the second axis of a plane's object space sees the plane. -/
theorem visibleHit?_plane {p : Primitive ℝ σ} (hscene : tracer.scene = .primitive p)
    (hshape : p.shape = .plane) {origin direction : Vec3 ℝ} {y v : ℝ}
    (ho : p.transform.inversePoint origin = ⟨0, y, 0⟩)
    (hv : p.transform.inverseVector direction = ⟨0, v, 0⟩) (hunit : v * v = 1)
    (hnear : tracer.tolerance.hitEpsilon < -y / v) :
    ∃ h, tracer.visibleHit? origin direction = some h ∧ h.primitive = p := by
  have hlength : (⟨0, v, 0⟩ : Vec3 ℝ).length = 1 := by
    apply Vec3.length_of_dot_self
    simpa [Vec3.dot] using hunit
  have hsteep : ¬ Scalar.abs v < Span.parallelTolerance :=
    not_lt.mpr (Span.parallelTolerance_le_of_unit hunit)
  have hspan : p.shape.span ⟨0, y, 0⟩ ((⟨0, v, 0⟩ : Vec3 ℝ).scale (1.0 / 1))
      = some ⟨.finite (-y / v), Face.whole, .finite (-y / v), Face.whole⟩ := by
    simp [hshape, Shape.span, Shape.planeSpan, Vec3.scale, hsteep]
  -- The line crosses the plane at one parameter, entering first.
  have hhits : ∃ near far, tracer.scene.hits origin direction = [near, far] ∧
      near.t = -y / v ∧ near.crossing = .entry ∧ near.primitive = p := by
    rw [hscene, Scene.hits, Primitive.hits]
    simp only [ho, hv, hlength, hspan]
    exact ⟨_, _, rfl, div_one _, rfl, rfl⟩
  obtain ⟨near, far, hlist, htime, hentry, hprimitive⟩ := hhits
  exact ⟨near, tracer.visibleHit?_of_hits hlist hentry (htime ▸ hnear), hprimitive⟩

/-- **Which way shaded surfaces face.** However the primitives of a scene have been placed and
joined, a ray asks for finishes only of surfaces that it or one of its mirror images comes to. Unless
such a surface is a plane, its normal points against the ray on which it is seen, if it is not
perpendicular to it. A plane is shaded with its upward normal, which points against the ray just if
the ray does not go up in the object space of the plane. Where the normal points against the ray, the
rays that leave the surface start on the side that the ray came from. -/
theorem shaded_normals
    (hscene : ∀ p ∈ tracer.scene.primitives,
      ∃ changes, p.transform = Transform.identity.changeAll changes)
    (depth : ℕ) (origin direction : Vec3 ℝ) :
    ((tracer.trace depth origin direction : Shading ℝ σ ε ω _).AsksOnly fun query =>
      ∃ h d, tracer.Shades depth origin direction h d ∧ query = h.query) ∧
    ∀ h d, tracer.Shades depth origin direction h d →
      (h.primitive.shape ≠ .plane → h.normal.dot d ≤ 0) ∧
      (h.primitive.shape = .plane → h.normal = h.primitive.upward ∧
        (h.normal.dot d ≤ 0 ↔ (h.primitive.transform.inverseVector d).y ≤ 0)) ∧
      (0 ≤ tracer.tolerance.shadowBias → h.normal.dot d ≤ 0 →
        (tracer.departure h - h.point).dot d ≤ 0) := by
  refine ⟨tracer.asksOnly_trace_shaded depth origin direction, fun h d hh => ?_⟩
  obtain ⟨start, hmem, hentry⟩ := hh.mem_hits
  have hpairs : ∀ p ∈ tracer.scene.primitives, p.transform.IsPair :=
    fun p hp => Transform.isPair_of_changes (hscene p hp)
  refine ⟨fun hshape => ?_, fun hshape => ?_, fun hbias hfacing => ?_⟩
  · by_cases hd : d = 0
    · rw [hd, Vec3.dot_comm, Vec3.zero_dot]
    · have hfits := (Scene.faces_of_shape hpairs hd hmem hshape).fits
      rw [hentry] at hfits
      exact hfits
  · -- A crossing that leads inside has the normal above the plane.
    have hup : h.normal = h.primitive.upward := by
      rw [Scene.facesUp_of_shape hmem hshape, hentry]
    have hpair := hpairs _ (Scene.primitive_mem_of_mem_hits hmem)
    refine ⟨hup, ?_⟩
    rw [hup]
    exact Primitive.upward_dot_nonpos_iff hpair d
  · rw [departure_sub_dot]
    exact mul_nonpos_of_nonneg_of_nonpos hbias hfacing

/-- A plane that is seen from below, but has been turned over before. -/
theorem shaded_normals_turned_over :
    let turned : Transform ℝ := Transform.identity.changeAll [.scale 1 (-1) 1]
    let tracer : Tracer ℝ Unit := ⟨.primitive ⟨.plane, (), turned⟩, [], Vec3.zero, .standard⟩
    ∃ h, tracer.Shades 0 ⟨0, -1, 0⟩ ⟨0, 1, 0⟩ h ⟨0, 1, 0⟩ ∧ h.normal = h.primitive.upward ∧
      h.normal.dot ⟨0, 1, 0⟩ ≤ 0 ∧ (tracer.departure h - h.point).dot ⟨0, 1, 0⟩ ≤ 0 := by
  intro turned tracer
  -- The plane is turned over, so that in its object space the ray goes down.
  have hturned : turned.backward = Mat4.scaling 1 (-1) 1 := by
    simp [turned, Transform.changeAll, Transform.change?, Transform.andThen, Transform.identity]
  have hpoint : turned.inversePoint ⟨0, -1, 0⟩ = ⟨0, 1, 0⟩ := by
    simp [Transform.inversePoint, hturned, Mat4.apply, Mat4.scaling]
  have hvector : turned.inverseVector ⟨0, 1, 0⟩ = ⟨0, -1, 0⟩ := by
    simp [Transform.inverseVector, hturned, Mat4.apply, Mat4.scaling]
  obtain ⟨h, hh, hprimitive⟩ := tracer.visibleHit?_plane rfl rfl hpoint hvector (by norm_num)
    (by norm_num [tracer, Tolerance.standard])
  have hscene : ∀ p ∈ tracer.scene.primitives,
      ∃ changes, p.transform = Transform.identity.changeAll changes := by
    intro p hp
    rw [List.mem_singleton.mp hp]
    exact ⟨_, rfl⟩
  have hshades : tracer.Shades 0 ⟨0, -1, 0⟩ ⟨0, 1, 0⟩ h ⟨0, 1, 0⟩ := .seen hh
  obtain ⟨-, hnormals⟩ :=
    tracer.shaded_normals (ε := Unit) (ω := Unit) hscene 0 ⟨0, -1, 0⟩ ⟨0, 1, 0⟩
  obtain ⟨-, hplane, hstart⟩ := hnormals h _ hshades
  obtain ⟨hup, hfacing⟩ := hplane (by rw [hprimitive])
  have hdown : h.normal.dot ⟨0, 1, 0⟩ ≤ 0 := by
    rw [hfacing, hprimitive]
    show (turned.inverseVector ⟨0, 1, 0⟩).y ≤ 0
    rw [hvector]
    norm_num
  exact ⟨h, hshades, hup, hdown, hstart (by norm_num [tracer, Tolerance.standard]) hdown⟩

/-- A plane that is seen from below is shaded with a normal that points along the ray, and what leaves
it starts on its other side. -/
theorem plane_from_below_faces_away :
    let tracer : Tracer ℝ Unit := ⟨.atOrigin .plane (), [], Vec3.zero, .standard⟩
    ∃ h, (∃ resume, (tracer.trace 0 ⟨0, -1, 0⟩ ⟨0, 1, 0⟩ : Shading ℝ Unit Unit Unit _)
        = .ask h.query resume) ∧
      tracer.visibleHit? ⟨0, -1, 0⟩ ⟨0, 1, 0⟩ = some h ∧
      0 < h.normal.dot ⟨0, 1, 0⟩ ∧ 0 < (tracer.departure h - h.point).dot ⟨0, 1, 0⟩ := by
  intro tracer
  obtain ⟨h, hh, hprimitive⟩ := tracer.visibleHit?_plane (p := .atOrigin .plane ()) rfl rfl
    (Mat4.apply_identity ⟨0, -1, 0⟩ _) (Mat4.apply_identity ⟨0, 1, 0⟩ _) (by norm_num)
    (by norm_num [tracer, Tolerance.standard])
  obtain ⟨hmem, hentry⟩ := tracer.mem_hits_of_visible hh
  -- The normal is the upward one although the ray comes from below.
  have hnormal : 0 < h.normal.dot ⟨0, 1, 0⟩ := by
    have hup : h.normal = h.primitive.upward := by
      rw [Scene.facesUp_of_shape hmem (by rw [hprimitive]; rfl), hentry]
    have hvector : (Transform.identity : Transform ℝ).inverseVector ⟨0, 1, 0⟩ = ⟨0, 1, 0⟩ :=
      Mat4.apply_identity _ _
    rw [hup, hprimitive, ← not_le, Primitive.upward_dot_nonpos_iff Transform.isPair_identity]
    show ¬ (Transform.identity.inverseVector ⟨0, 1, 0⟩ : Vec3 ℝ).y ≤ 0
    rw [hvector]
    norm_num
  refine ⟨h, ?_, hh, hnormal, ?_⟩
  · unfold trace
    rw [hh]
    exact ⟨_, rfl⟩
  · rw [departure_sub_dot]
    exact mul_pos (by norm_num [tracer, Tolerance.standard]) hnormal

end Tracer

end SceneTracer
