import SceneTracer.Proofs.Scene.Normals
import SceneTracer.Proofs.Shape.Interior

namespace SceneTracer

/-!
# Where the crossings of scenes lie

Over the real numbers, a crossing is one place in three descriptions that are computed apart from each
other: a parameter of the line, a place in the object space of its primitive, and a face with two
coordinates on it. The three agree through every tree of solids, since no merge moves a crossing.

* `Shape.surfaceCoordinates_mem_unit` — coordinates on the faces of a solid go from zero to one.
* `Hit.Located` — how the descriptions of a crossing agree.
* `Primitive.located_of_mem_hits` — the crossings of one primitive.
* `Scene.hits_lie_on_faces` — all crossings of a scene.
-/

variable {σ : Type}

namespace Shape

/-! ### Coordinates of faces -/

/-- A coordinate between minus one and one, brought to the unit range. -/
theorem half_mem_unit {x : ℝ} (hx : x * x ≤ 1) : (x + 1.0) / 2.0 ∈ Set.Icc (0 : ℝ) 1 := by
  obtain ⟨hlow, hhigh⟩ := abs_le.mp (abs_le_one_iff_mul_self_le_one.mpr hx)
  constructor <;> norm_num <;> linarith only [hlow, hhigh]

/-- **Coordinates on the faces of a solid go from zero to one**: both on a cube and on the caps of a
cylinder, and the height on a sphere and on the side of a cylinder. -/
theorem surfaceCoordinates_mem_unit {shape : Shape} {p : Vec3 ℝ} (h : shape.Contains p)
    (face : Face) :
    let uv := shape.surfaceCoordinates face p
    (shape = .cube → uv.1 ∈ Set.Icc 0 1 ∧ uv.2 ∈ Set.Icc 0 1) ∧
    (shape = .sphere → uv.2 ∈ Set.Icc 0 1) ∧
    (shape = .cylinder → uv.2 ∈ Set.Icc 0 1 ∧ (face ≠ Face.side → uv.1 ∈ Set.Icc 0 1)) := by
  intro uv
  refine ⟨?_, ?_, ?_⟩
  · rintro rfl
    obtain ⟨hx, hy, hz⟩ := h
    rw [ExactScalar.zero_literal, ExactScalar.one_literal] at hx hy hz
    dsimp only [uv, surfaceCoordinates]
    split_ifs
    · exact ⟨hx, hy⟩
    · exact ⟨hz, hy⟩
    · exact ⟨hx, hz⟩
  · rintro rfl
    -- No coordinate is longer than the vector.
    have hball : p.x * p.x + p.y * p.y + p.z * p.z ≤ 1 := h.trans_eq ExactScalar.one_literal
    have hy : p.y * p.y ≤ 1 := by
      linarith only [hball, mul_self_nonneg p.x, mul_self_nonneg p.z]
    exact half_mem_unit hy
  · rintro rfl
    obtain ⟨hdisc, hy⟩ := h
    rw [ExactScalar.zero_literal, ExactScalar.one_literal] at hy
    rw [ExactScalar.one_literal] at hdisc
    have hx : p.x * p.x ≤ 1 := by linarith only [hdisc, mul_self_nonneg p.z]
    have hz : p.z * p.z ≤ 1 := by linarith only [hdisc, mul_self_nonneg p.x]
    dsimp only [uv, surfaceCoordinates]
    -- On the side the first coordinate is an angle, of which nothing is said.
    split_ifs with hside
    · exact ⟨hy, fun hne => absurd hside hne⟩
    · exact ⟨half_mem_unit hz, fun _ => half_mem_unit hx⟩

end Shape

/-! ### Crossings -/

namespace Hit

/-- The descriptions of a crossing agree: its parameter, its place in the world and in object space,
and the face that it names. -/
structure Located (h : Hit ℝ σ) (origin direction : Vec3 ℝ) : Prop where
  onLine : h.point = origin + direction.scale h.t
  fromObject : h.primitive.transform.point h.objectPoint = h.point
  onFace : h.primitive.shape.OnFace h.face h.objectPoint
  /-- Unless the solver has taken for parallel what is not. -/
  inSolid : h.primitive.shape.Resolves (h.primitive.transform.inverseVector direction).normalize →
    h.primitive.shape.Contains h.objectPoint

/-- A crossing that is seen the other way round is where it was. -/
theorem Located.relabel {h : Hit ℝ σ} {origin direction : Vec3 ℝ}
    (hh : h.Located origin direction) (inside : Bool) :
    (h.relabel inside).Located origin direction := by
  unfold Hit.relabel
  split
  · exact hh
  · exact ⟨hh.onLine, hh.fromObject, hh.onFace, hh.inSolid⟩

end Hit

/-- A place on the line in object space is one on the line in the world, at the parameter for the
direction that has not been brought to unit length. -/
theorem Transform.IsPair.point_line {t : Transform ℝ} (h : t.IsPair) (origin direction : Vec3 ℝ)
    (time : ℝ) :
    let raw := t.inverseVector direction
    t.point (t.inversePoint origin + raw.normalize.scale time)
      = origin + direction.scale (time / raw.length) := by
  intro raw
  have hscale : raw.normalize.scale time = raw.scale (time / raw.length) := by
    rw [Vec3.normalize_eq_scale, Vec3.scale_scale, mul_comm, div_eq_mul_inv]
  rw [hscale, point_add_scale, h.point_inversePoint, h.vector_inverseVector]

/-- **The descriptions of the crossings of a primitive agree.** -/
theorem Primitive.located_of_mem_hits {p : Primitive ℝ σ} (hp : p.transform.IsPair)
    {origin direction : Vec3 ℝ} (hdirection : direction ≠ 0) {h : Hit ℝ σ}
    (hh : h ∈ p.hits origin direction) : h.Located origin direction := by
  obtain ⟨s, c, hs, rfl⟩ := exists_bound_of_mem_hits hh
  have hunit : (p.transform.inverseVector direction).normalize.dot _ = 1 :=
    Vec3.dot_normalize_self (hp.inverseVector_ne_zero hdirection)
  obtain ⟨t, face, hbound, hface⟩ := Shape.onFace_ends hunit hs c
  rw [hbound]
  refine ⟨rfl, hp.point_line origin direction t, hface, fun hresolves => ?_⟩
  -- What the solver finds is solid only here, so the end of the span is looked at once more.
  obtain ⟨t', face', hbound', hholds⟩ := Shape.holds_ends hunit hs c
  rw [hbound] at hbound'
  cases hbound'
  exact Shape.contains_of_holds hunit hresolves hs hholds

/-! ### Scenes -/

/-- A solid that begins in front of another and ends in it takes the front of it away. -/
theorem Hit.merge_front_cut {near far start stop : Hit ℝ σ} (hnear : near.crossing = .entry)
    (hfar : far.crossing = .exit) (hstart : start.crossing = .entry) (hstop : stop.crossing = .exit)
    (hbefore : start.t < near.t) (hinside : near.t < stop.t) (hbehind : stop.t < far.t) :
    merge Join.difference.holds [near, far] [start, stop]
      = [stop.relabel true, far.relabel false] := by
  -- The second solid begins and the two take turns from there.
  have hfirst : near.precedes start = false := by
    simp [precedes, hbefore.ne', hbefore.le]
  have hsecond : near.precedes stop = true := by
    simp [precedes, hinside.ne, hinside]
  have hthird : far.precedes stop = false := by
    simp [precedes, hbehind.ne', hbehind.le]
  have horder : interleave [near, far] [start, stop]
      = [.inr start, .inl near, .inr stop, .inl far] := by
    simp [interleave, hfirst, hsecond, hthird]
  rw [merge, mergeFrom_eq_walk, horder]
  simp [walk, keep, entering, Join.holds, hnear, hfar, hstart, hstop]

namespace Scene

/-- **Every crossing lies on the face that it names.** Whatever changes have placed the primitives of
a scene, and however they are joined, every crossing of a line with it is at its parameter on the
line; in the world it is where the transform of its primitive takes its place in object space; and
there it is on the surface that its face is part of. If the direction in object space has no part that
counts as parallel to a face without being so, it is a place of the closed solid, and its coordinates
go from zero to one, where the face has them. -/
theorem hits_lie_on_faces (s : Scene ℝ σ)
    (hs : ∀ p ∈ s.primitives, ∃ changes, p.transform = Transform.identity.changeAll changes)
    (origin direction : Vec3 ℝ) (hdirection : direction ≠ Vec3.zero) :
    ∀ h ∈ s.hits origin direction,
      h.point = origin + direction.scale h.t ∧
      h.primitive.transform.point h.objectPoint = h.point ∧
      h.primitive.shape.OnFace h.face h.objectPoint ∧
      (h.primitive.shape.Resolves (h.primitive.transform.inverseVector direction).normalize →
        h.primitive.shape.Contains h.objectPoint ∧
        let uv := h.surfaceCoordinates
        (h.primitive.shape = .cube → uv.1 ∈ Set.Icc 0 1 ∧ uv.2 ∈ Set.Icc 0 1) ∧
        (h.primitive.shape = .sphere → uv.2 ∈ Set.Icc 0 1) ∧
        (h.primitive.shape = .cylinder →
          uv.2 ∈ Set.Icc 0 1 ∧ (h.face ≠ Face.side → uv.1 ∈ Set.Icc 0 1))) := by
  intro h hh
  have hlocated : h.Located origin direction := by
    -- Joining only turns crossings round.
    refine forall_hits (P := fun k => k.Located origin direction)
      (fun k inside hk => hk.relabel inside) (fun p hp k hk => ?_) h hh
    exact p.located_of_mem_hits (Transform.isPair_of_changes (hs p hp)) hdirection hk
  refine ⟨hlocated.onLine, hlocated.fromObject, hlocated.onFace, fun hresolves => ?_⟩
  have hcontains := hlocated.inSolid hresolves
  exact ⟨hcontains, Shape.surfaceCoordinates_mem_unit hcontains h.face⟩

/-- A cube without the part of it that is in a sphere, on a line that comes upon the sphere from behind
and goes through its middle. The line enters where it leaves the sphere, and leaves through the back of
the cube. -/
theorem hits_cut_cube {cut : Transform ℝ} (hpoint : cut.inversePoint ⟨0, 0, -3⟩ = ⟨0, 0, 5 / 2⟩)
    (hvector : cut.inverseVector ⟨0, 0, 1⟩ = ⟨0, 0, -1⟩) :
    let s : Scene ℝ Unit :=
      .join .difference (.atOrigin .cube ()) (.primitive ⟨.sphere, (), cut⟩)
    ∃ near far, s.hits ⟨0, 0, -3⟩ ⟨0, 0, 1⟩ = [near, far] ∧
      near.t = 7 / 2 ∧ near.primitive = ⟨.sphere, (), cut⟩ ∧
      far.primitive = .atOrigin .cube () ∧ far.face = Face.back := by
  intro s
  have hunit : (⟨0, 0, 1⟩ : Vec3 ℝ).dot ⟨0, 0, 1⟩ = 1 := by simp [Vec3.dot]
  have hsphere := (Primitive.mk .sphere () cut).hits_axis rfl hpoint hvector (by norm_num)
  have hcube := Primitive.hits_atOrigin .cube () ⟨0, 0, -3⟩ hunit
  rw [Shape.span, Shape.cubeSpan_axis, Option.elim_some] at hcube
  simp only [s, Scene.hits, Scene.atOrigin, hcube, hsphere]
  -- The cube reaches from three to four, and the sphere from three halves to seven halves.
  rw [Hit.merge_front_cut rfl rfl rfl rfl]
  · refine ⟨_, _, rfl, ?_, Hit.primitive_relabel _ _, Hit.primitive_relabel _ _, rfl⟩
    rw [Hit.t_relabel]
    norm_num [Primitive.hitAt, Scalar.ofExtended]
  all_goals norm_num [Primitive.hitAt, Scalar.ofExtended]

/-- A direction along the third axis is resolved in the object space of a cube that has not been
moved. -/
theorem resolves_axis :
    Shape.cube.Resolves (Transform.identity.inverseVector (⟨0, 0, 1⟩ : Vec3 ℝ)).normalize := by
  have hsame : Transform.identity.inverseVector (⟨0, 0, 1⟩ : Vec3 ℝ) = ⟨0, 0, 1⟩ :=
    Mat4.apply_identity _ _
  rw [hsame, Vec3.normalize_of_dot_self (by simp [Vec3.dot])]
  exact ⟨Or.inl rfl, Or.inl rfl, Or.inr (Span.parallelTolerance_le_of_unit (mul_one 1))⟩

/-- A cube without the part of it that is in a stretched and mirrored sphere. The line enters where it
leaves the sphere, and leaves through the back of the cube. -/
theorem hits_lie_on_faces_cut_cube :
    let cut : Transform ℝ := Transform.identity.changeAll [.scale 1 2 (-1), .translate 0 0 (-1 / 2)]
    let s : Scene ℝ Unit :=
      .join .difference (.atOrigin .cube ()) (.primitive ⟨.sphere, (), cut⟩)
    ∃ near far, s.hits ⟨0, 0, -3⟩ ⟨0, 0, 1⟩ = [near, far] ∧
      near.t = 7 / 2 ∧ cut.point near.objectPoint = ⟨0, 0, 1 / 2⟩ ∧
      near.objectPoint.dot near.objectPoint = 1 ∧
      far.face = Face.back ∧ far.objectPoint.z = 1 ∧
      far.surfaceCoordinates.1 ∈ Set.Icc 0 1 ∧ far.surfaceCoordinates.2 ∈ Set.Icc 0 1 := by
  intro cut s
  obtain ⟨hinverse, hvectors, -⟩ :=
    Transform.stretched_and_moved (x := (1 : ℝ)) one_ne_zero two_ne_zero
      (neg_ne_zero.mpr one_ne_zero) 0 0 (-1 / 2)
  -- In the object space of the sphere the line comes from behind.
  have hpoint : cut.inversePoint ⟨0, 0, -3⟩ = ⟨0, 0, 5 / 2⟩ := by
    rw [hinverse]
    norm_num
  have hvector : cut.inverseVector ⟨0, 0, 1⟩ = ⟨0, 0, -1⟩ := by
    rw [hvectors]
    norm_num
  obtain ⟨near, far, hlist, htime, hnear, hfar, hback⟩ := hits_cut_cube hpoint hvector
  have hdirection : (⟨0, 0, 1⟩ : Vec3 ℝ) ≠ Vec3.zero :=
    fun h => one_ne_zero ((congrArg Vec3.z h).trans Vec3.zero_z)
  have hs : ∀ p ∈ s.primitives, ∃ changes, p.transform = Transform.identity.changeAll changes := by
    intro p hp
    rcases List.mem_pair.mp hp with rfl | rfl
    · exact ⟨[], rfl⟩
    · exact ⟨_, rfl⟩
  -- All that is said of the two crossings is read from the general law.
  have hall := hits_lie_on_faces s hs ⟨0, 0, -3⟩ ⟨0, 0, 1⟩ hdirection
  rw [hlist] at hall
  obtain ⟨hline, hworld, hsurface, -⟩ := hall near (by simp)
  obtain ⟨-, -, hplane, hunitSquare⟩ := hall far (by simp)
  rw [hnear] at hworld hsurface
  rw [hfar] at hplane hunitSquare
  rw [hback] at hplane
  obtain ⟨-, hcoordinates, -⟩ := hunitSquare resolves_axis
  refine ⟨near, far, hlist, htime, ?_, hsurface.trans ExactScalar.one_literal, hback,
    Shape.onFace_back hplane, hcoordinates rfl⟩
  rw [hworld, hline, htime]
  ext <;> norm_num [Vec3.scale]

end Scene

end SceneTracer
