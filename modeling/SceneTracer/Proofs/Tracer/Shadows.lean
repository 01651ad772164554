import SceneTracer.Proofs.Renderer.Questions
import SceneTracer.Proofs.Scene.Surfaces
import SceneTracer.Proofs.Shape.Support

namespace SceneTracer

/-!
# No solid shadows its own lit side

Over the real numbers, a ray that leaves a convex solid on the outer side of its boundary does not
come back to it. In object space it starts in front of the supporting plane of the place that it
leaves, since a normal of the world has the same product with the way there as in object space, and it
leads away from this plane.

* `Primitive.normal_of_entry` — the normal at an entry.
* `Primitive.before_start` — all crossings of a primitive with such a ray are behind its start.
* `Tracer.occluded_eq_false` — nothing stands in front of a light on the outer side.
* `Tracer.lit_side_unshadowed` — for all that a ray and its mirror images come to.
-/

variable {σ : Type}

namespace Primitive

/-! ### One primitive -/

/-- At an entry the normal is the one of the face, for planes too. -/
theorem normal_of_entry {p : Primitive ℝ σ} {origin direction : Vec3 ℝ} {h : Hit ℝ σ}
    (hh : h ∈ p.hits origin direction) (hentry : h.crossing = .entry) :
    h.normal = (p.transform.normal (p.shape.normalAt h.face h.objectPoint)).normalize := by
  obtain ⟨s, c, -, rfl⟩ := exists_bound_of_mem_hits hh
  obtain rfl : c = .entry := hentry
  have houtward (face : Face) (q : Vec3 ℝ) :
      p.outwardNormal .entry face q = p.shape.normalAt face q := if_neg (by simp)
  exact congrArg (fun n => (p.transform.normal n).normalize) (houtward _ _)

/-- A line without a direction has no crossings in front of its start. -/
theorem direction_ne_zero {p : Primitive ℝ σ} {origin direction : Vec3 ℝ} {h : Hit ℝ σ}
    (hh : h ∈ p.hits origin direction) (hpos : 0 < h.t) : direction ≠ 0 := by
  rintro rfl
  obtain ⟨s, c, -, rfl⟩ := exists_bound_of_mem_hits hh
  have hzero : p.transform.inverseVector 0 = 0 := by
    ext <;> simp [Transform.inverseVector, Mat4.apply]
  have hlength : (p.transform.inverseVector 0).length = 0 := by
    rw [hzero, Vec3.length_eq, Vec3.zero_dot, Real.sqrt_zero]
  have htime : (0 : ℝ) < Scalar.ofExtended (s.bound c).1 / (p.transform.inverseVector 0).length :=
    hpos
  rw [hlength, div_zero] at htime
  exact lt_irrefl 0 htime

/-- **A ray that leaves a primitive on its outer side does not come back.** Its crossings with the
primitive are all behind its start. -/
theorem before_start {p : Primitive ℝ σ} (hp : p.transform.IsPair) {q : Vec3 ℝ} {face : Face}
    (hface : p.shape.OnFace face q) {n : Vec3 ℝ} (hn : p.shape.normalAt face q = n) {bias : ℝ}
    (hbias : 0 < bias) {direction : Vec3 ℝ}
    (haway : 0 < (p.transform.normal n).normalize.dot direction) {k : Hit ℝ σ}
    (hk : k ∈ p.hits (p.transform.point q + (p.transform.normal n).normalize.scale bias) direction) :
    k.t < 0 := by
  have hunit : n.dot n = 1 := hn ▸ Shape.normalAt_dot_self hface
  have hworld : p.transform.normal n ≠ 0 := hp.normal_ne_zero (Vec3.ne_zero_of_dot_self hunit)
  obtain ⟨s, c, hs, rfl⟩ := exists_bound_of_mem_hits hk
  -- In object space the ray starts in front of the plane,
  have hstart : n.dot q < n.dot (p.transform.inversePoint
      (p.transform.point q + (p.transform.normal n).normalize.scale bias)) := by
    have hforward : 0 < n.dot (p.transform.inverseVector (p.transform.normal n).normalize) := by
      rw [← Transform.normal_dot_pos_iff hworld, Vec3.dot_normalize_self hworld]
      exact one_pos
    rw [Transform.inversePoint_add_scale, hp.inversePoint_point, Vec3.dot_comm n (_ + _),
      Vec3.add_dot, Vec3.scale_dot, Vec3.dot_comm q, Vec3.dot_comm _ n]
    exact lt_add_of_pos_right _ (mul_pos hbias hforward)
  -- and leads away from it.
  have hraw : 0 < n.dot (p.transform.inverseVector direction) :=
    (Transform.normal_dot_pos_iff hworld direction).mp haway
  have hrawne : p.transform.inverseVector direction ≠ 0 := by
    intro hzero
    rw [hzero, Vec3.dot_comm, Vec3.zero_dot] at hraw
    exact lt_irrefl 0 hraw
  have hdirection := (Vec3.dot_normalize_pos_iff n hrawne).mpr hraw
  subst hn
  obtain ⟨t, face', hbound, ht⟩ := Shape.ends_before_start (Vec3.dot_normalize_self hrawne) hface
    hstart hdirection hs c
  rw [hbound]
  exact div_neg_of_neg_of_pos ht (Vec3.length_pos hrawne)

end Primitive

/-! ### What is shaded -/

namespace Tracer

variable {ε ω : Type} (tracer : Tracer ℝ σ)

/-- What is seen is not in front of the hit tolerance. -/
theorem lt_of_visible {origin direction : Vec3 ℝ} {h : Hit ℝ σ}
    (hh : tracer.visibleHit? origin direction = some h) : tracer.tolerance.hitEpsilon < h.t := by
  have hfirst := (Option.filter_eq_some_iff.mp hh).1
  have hseen := List.find?_some hfirst
  exact of_decide_eq_true hseen

/-- Nothing stands in front of a light if all crossings are behind the start. -/
theorem occluded_eq_false (htolerance : 0 ≤ tracer.tolerance.hitEpsilon) {start : Vec3 ℝ}
    {light : Illumination ℝ}
    (hbehind : ∀ k ∈ tracer.scene.hits start light.toLight, k.t < 0) :
    tracer.occluded start light = false := by
  have hnone : tracer.firstHit? start light.toLight = none := by
    refine List.find?_eq_none.mpr fun k hk hseen => ?_
    have hahead : tracer.tolerance.hitEpsilon < k.t := of_decide_eq_true hseen
    linarith only [hahead, hbehind k hk, htolerance]
  unfold occluded
  rw [hnone]

/-- **A solid does not shadow its own lit side.** In a scene of one primitive, wherever changes have
placed it, a ray asks for finishes only of what it or one of its mirror images comes to; and at each
such place, nothing stands in front of a light on the outer side of the surface, from whatever
distance it shines, if rays that leave surfaces start above them. -/
theorem lit_side_unshadowed {p : Primitive ℝ σ} (hscene : tracer.scene = .primitive p)
    (hp : ∃ changes, p.transform = Transform.identity.changeAll changes)
    (hbias : 0 < tracer.tolerance.shadowBias) (htolerance : 0 ≤ tracer.tolerance.hitEpsilon)
    (depth : ℕ) (origin direction : Vec3 ℝ) :
    ((tracer.trace depth origin direction : Shading ℝ σ ε ω _).AsksOnly fun query =>
      ∃ h d, tracer.Shades depth origin direction h d ∧ query = h.query) ∧
    ∀ h d, tracer.Shades depth origin direction h d →
      ∀ light : Illumination ℝ, 0 < h.normal.dot light.toLight →
        tracer.occluded (tracer.departure h) light = false := by
  refine ⟨tracer.asksOnly_trace_shaded depth origin direction, fun h d hh light haway => ?_⟩
  have hpair : p.transform.IsPair := Transform.isPair_of_changes hp
  obtain ⟨start, hvisible⟩ := hh.exists_visible
  obtain ⟨hmem, hentry⟩ := tracer.mem_hits_of_visible hvisible
  rw [hscene] at hmem
  -- The surface lies ahead, so the ray has a direction, and the crossing is located.
  have hahead : 0 < h.t := htolerance.trans_lt (tracer.lt_of_visible hvisible)
  have hprimitive : h.primitive = p := Primitive.primitive_of_mem_hits hmem
  have hlocated := p.located_of_mem_hits hpair (p.direction_ne_zero hmem hahead) hmem
  have hnormal := p.normal_of_entry hmem hentry
  have hpoint := hlocated.fromObject
  have hface := hlocated.onFace
  rw [hprimitive] at hpoint hface
  refine tracer.occluded_eq_false htolerance fun k hk => ?_
  rw [hscene, departure, ← hpoint, hnormal] at hk
  rw [hnormal] at haway
  exact p.before_start hpair hface rfl hbias haway hk

/-- A sphere that has been stretched, turned inside out and moved. A lamp that shines on it aslant from
the side of the ray is not shadowed by it. -/
theorem lit_side_unshadowed_mirrored :
    let mirrored : Transform ℝ := Transform.identity.changeAll [.scale 1 2 (-1), .translate 0 0 1]
    let tracer : Tracer ℝ Unit :=
      ⟨.primitive ⟨.sphere, (), mirrored⟩, [], Vec3.zero, .standard⟩
    ∃ h, tracer.Shades 0 ⟨0, 0, -3⟩ ⟨0, 0, 1⟩ h ⟨0, 0, 1⟩ ∧ h.normal = ⟨0, 0, -1⟩ ∧
      tracer.occluded (tracer.departure h) ⟨⟨0, 3 / 5, -4 / 5⟩, .posInf, Vec3.zero⟩ = false := by
  intro mirrored tracer
  obtain ⟨hinverse, hvectors, hnormals⟩ :=
    Transform.stretched_and_moved (x := (1 : ℝ)) one_ne_zero two_ne_zero
      (neg_ne_zero.mpr one_ne_zero) 0 0 1
  have hpoint : mirrored.inversePoint ⟨0, 0, -3⟩ = ⟨0, 0, 4⟩ := by
    rw [hinverse]
    norm_num
  have hvector : mirrored.inverseVector ⟨0, 0, 1⟩ = ⟨0, 0, -1⟩ := by
    rw [hvectors]
    norm_num
  -- The mirrored sphere is entered at what is its back in object space.
  have hhits := (Primitive.mk .sphere () mirrored).hits_axis rfl hpoint hvector (by norm_num)
  obtain ⟨h, hvisible, hobject⟩ : ∃ h, tracer.visibleHit? ⟨0, 0, -3⟩ ⟨0, 0, 1⟩ = some h ∧
      h.objectPoint = ⟨0, 0, 1⟩ := by
    refine ⟨(Primitive.mk .sphere () mirrored).hitAt ⟨0, 0, -3⟩ ⟨0, 0, 1⟩ ⟨0, 0, 4⟩ ⟨0, 0, -1⟩ 1
      (.finite (-(4 * -1) - 1)) Face.whole .entry, ?_, ?_⟩
    · refine tracer.visibleHit?_of_hits hhits rfl ?_
      norm_num [Primitive.hitAt, Scalar.ofExtended, Tolerance.standard, tracer]
    · show (⟨0, 0, 4⟩ : Vec3 ℝ) + (⟨0, 0, -1⟩ : Vec3 ℝ).scale (-(4 * -1) - 1) = ⟨0, 0, 1⟩
      ext <;> norm_num [Vec3.scale]
  have hnormal : h.normal = ⟨0, 0, -1⟩ := by
    obtain ⟨hmem, hentry⟩ := tracer.mem_hits_of_visible hvisible
    have hdown : mirrored.normal ⟨0, 0, 1⟩ = ⟨0, 0, -1⟩ := by
      rw [hnormals]
      norm_num
    rw [Primitive.normal_of_entry hmem hentry, hobject]
    show (mirrored.normal ⟨0, 0, 1⟩).normalize = _
    rw [hdown, Vec3.normalize_of_dot_self (by norm_num [Vec3.dot])]
  have hshades : tracer.Shades 0 ⟨0, 0, -3⟩ ⟨0, 0, 1⟩ h ⟨0, 0, 1⟩ := .seen hvisible
  obtain ⟨-, hlit⟩ := tracer.lit_side_unshadowed (ε := Unit) (ω := Unit) rfl ⟨_, rfl⟩
    (by norm_num [tracer, Tolerance.standard]) (by norm_num [tracer, Tolerance.standard])
    0 ⟨0, 0, -3⟩ ⟨0, 0, 1⟩
  refine ⟨h, hshades, hnormal, hlit h _ hshades ⟨⟨0, 3 / 5, -4 / 5⟩, .posInf, Vec3.zero⟩ ?_⟩
  rw [hnormal]
  norm_num [Vec3.dot]

end Tracer

end SceneTracer
