import SceneTracer.Proofs.Scene.Merge
import SceneTracer.Proofs.Shape.Boundary
import SceneTracer.Proofs.Transform.Normals

namespace SceneTracer

/-!
# Normals of scenes

Over the real numbers, the normals at the crossings of a scene have length one and point against the
line where it enters and along it where it leaves, however its solids are stretched, mirrored and
joined.

* `Hit.Faces` — a unit normal on the side from which the boundary is crossed.
* `Hit.Faces.relabel` — a crossing that is seen the other way round has its normal turned.
* `Primitive.faces_of_mem_hits` — the crossings of one primitive.
* `Scene.faces_of_mem_hits`, `Scene.normals_face_line` — all crossings of a scene.
-/

variable {σ : Type}

/-! ### Crossings -/

/-- An entry that becomes an exit has its normal turned, and the other way round. -/
theorem Crossing.Fits.neg {c : Crossing} {x : ℝ} (h : c.Fits x) {inside : Bool}
    (hother : c ≠ .ofInside inside) : (Crossing.ofInside inside).Fits (-x) := by
  cases c with
  | entry =>
    cases inside with
    | true => exact absurd rfl hother
    | false => exact neg_nonneg.mpr h
  | exit =>
    cases inside with
    | true => exact neg_nonpos.mpr h
    | false => exact absurd rfl hother

namespace Hit

/-- The normal has length one and fits the way in which the line crosses. -/
structure Faces (h : Hit ℝ σ) (direction : Vec3 ℝ) : Prop where
  unit : h.normal.dot h.normal = 1
  fits : h.crossing.Fits (h.normal.dot direction)

/-- A crossing that is seen the other way round has its normal turned. -/
theorem Faces.relabel {h : Hit ℝ σ} {direction : Vec3 ℝ} (hh : h.Faces direction) (inside : Bool) :
    (h.relabel inside).Faces direction := by
  unfold Hit.relabel
  split
  · exact hh
  · rename_i hother
    constructor
    · show (-h.normal).dot (-h.normal) = 1
      rw [Vec3.neg_dot, Vec3.dot_comm, Vec3.neg_dot, neg_neg]
      exact hh.unit
    · show (Crossing.ofInside inside).Fits ((-h.normal).dot direction)
      rw [Vec3.neg_dot]
      exact hh.fits.neg hother

end Hit

/-! ### One primitive -/

namespace Primitive

/-- Each crossing of a primitive is at an end of the span that the line has in it. -/
theorem exists_bound_of_mem_hits {α : Type} [Scalar α] {p : Primitive α σ}
    {origin direction : Vec3 α} {h : Hit α σ} (hh : h ∈ p.hits origin direction) :
    let o := p.transform.inversePoint origin
    let raw := p.transform.inverseVector direction
    ∃ s c, p.shape.span o raw.normalize = some s ∧
      h = p.hitAt origin direction o raw.normalize raw.length (s.bound c).1 (s.bound c).2 c := by
  intro o raw
  unfold hits at hh
  dsimp only at hh
  split at hh
  · exact absurd hh List.not_mem_nil
  · rename_i s hs
    -- The first crossing is at the near end, the second at the far one.
    rcases List.mem_cons.mp hh with rfl | hh
    · exact ⟨s, .entry, hs, rfl⟩
    · exact ⟨s, .exit, hs, List.mem_singleton.mp hh⟩

/-- The normal at a crossing of a solid, from object space. -/
theorem normal_hitAt {p : Primitive ℝ σ} (hshape : p.shape ≠ .plane) (origin direction o d : Vec3 ℝ)
    (length t : ℝ) (face : Face) (c : Crossing) :
    (p.hitAt origin direction o d length (.finite t) face c).normal
      = (p.transform.normal (p.shape.normalAt face (o + d.scale t))).normalize := by
  have houtward (q : Vec3 ℝ) : p.outwardNormal c face q = p.shape.normalAt face q :=
    if_neg fun h => hshape h.1
  show (p.transform.normal (p.outwardNormal c face (o + d.scale t))).normalize = _
  rw [houtward]

/-- **The normals of a solid face the line as it crosses.** In object space they do so by the choice
of faces; in the world a normal has the product with the line that it has there, but for the lengths
of the two. -/
theorem faces_of_mem_hits {p : Primitive ℝ σ} (hshape : p.shape ≠ .plane) (hp : p.transform.IsPair)
    {origin direction : Vec3 ℝ} (hdirection : direction ≠ 0) {h : Hit ℝ σ}
    (hh : h ∈ p.hits origin direction) : h.Faces direction := by
  obtain ⟨s, c, hs, rfl⟩ := exists_bound_of_mem_hits hh
  -- The place in object space matters for the solver alone.
  generalize p.transform.inversePoint origin = o at hs ⊢
  generalize hv : p.transform.inverseVector direction = v at hs ⊢
  have hne : v ≠ 0 := hv ▸ hp.inverseVector_ne_zero hdirection
  obtain ⟨t, face, hbound, hface, hfits⟩ :=
    Shape.ends_span hshape (Vec3.dot_normalize_self hne) hs c
  have hunit := Shape.normalAt_dot_self hface
  have hnormal := normal_hitAt hshape origin direction o v.normalize v.length t face c
  rw [hbound]
  generalize p.shape.normalAt face (o + v.normalize.scale t) = n at hfits hunit hnormal
  have hworld := hp.normal_ne_zero (Vec3.ne_zero_of_dot_self hunit)
  constructor
  · rw [hnormal]
    exact Vec3.dot_normalize_self hworld
  · have hproduct : (p.transform.normal n).normalize.dot direction
        = (p.transform.normal n).length⁻¹ * (v.length * n.dot v.normalize) := by
      rw [Vec3.normalize_eq_scale, Vec3.scale_dot, Transform.normal_dot, hv,
        Vec3.length_mul_dot_normalize n hne]
    rw [hnormal, hproduct]
    exact (hfits.mul (Vec3.length_pos hne).le).mul (inv_nonneg.mpr (Vec3.length_pos hworld).le)

/-- The crossings of a sphere whose middle a line goes through along the third axis. -/
theorem hits_axis {p : Primitive ℝ σ} (hshape : p.shape = .sphere)
    {origin direction : Vec3 ℝ} {z v : ℝ} (hz : p.transform.inversePoint origin = ⟨0, 0, z⟩)
    (hv : p.transform.inverseVector direction = ⟨0, 0, v⟩) (hunit : v * v = 1) :
    let crossingAt (t : ℝ) (c : Crossing) : Hit ℝ σ :=
      p.hitAt origin direction ⟨0, 0, z⟩ ⟨0, 0, v⟩ 1 (.finite t) Face.whole c
    p.hits origin direction
      = [crossingAt (-(z * v) - 1) .entry, crossingAt (-(z * v) + 1) .exit] := by
  have hlength : (⟨0, 0, v⟩ : Vec3 ℝ).length = 1 := by
    apply Vec3.length_of_dot_self
    simpa [Vec3.dot] using hunit
  have hscale : (⟨0, 0, v⟩ : Vec3 ℝ).scale (1.0 / 1) = ⟨0, 0, v⟩ := by simp [Vec3.scale]
  unfold hits
  rw [hshape]
  simp only [hz, hv, hlength, hscale, Shape.span, Shape.sphereSpan_axis z hunit]

/-- The crossings of the unit sphere on such a line, in full. -/
theorem hits_atOrigin_axis (surface : σ) (z : ℝ) {v : ℝ} (hunit : v * v = 1) :
    (atOrigin .sphere surface).hits ⟨0, 0, z⟩ ⟨0, 0, v⟩ =
      [⟨-(z * v) - 1, ⟨0, 0, -v⟩, ⟨0, 0, -v⟩, ⟨0, 0, -v⟩, .atOrigin .sphere surface, .entry,
        Face.whole⟩,
       ⟨-(z * v) + 1, ⟨0, 0, v⟩, ⟨0, 0, v⟩, ⟨0, 0, v⟩, .atOrigin .sphere surface, .exit,
        Face.whole⟩] := by
  -- Both places are where the axis comes through the sphere, and are their own normals.
  have hnear : (⟨0, 0, z⟩ : Vec3 ℝ) + (⟨0, 0, v⟩ : Vec3 ℝ).scale (-(z * v) - 1) = ⟨0, 0, -v⟩ := by
    ext
    · simp [Vec3.scale]
    · simp [Vec3.scale]
    · show z + v * (-(z * v) - 1) = -v
      linear_combination -z * hunit
  have hfar : (⟨0, 0, z⟩ : Vec3 ℝ) + (⟨0, 0, v⟩ : Vec3 ℝ).scale (-(z * v) + 1) = ⟨0, 0, v⟩ := by
    ext
    · simp [Vec3.scale]
    · simp [Vec3.scale]
    · show z + v * (-(z * v) + 1) = v
      linear_combination -z * hunit
  have hnormal (c : Crossing) {w : ℝ} (hw : w * w = 1) :
      ((atOrigin .sphere surface).transform.normal
        ((atOrigin .sphere surface).outwardNormal c Face.whole ⟨0, 0, w⟩)).normalize
        = ⟨0, 0, w⟩ := by
    show (Transform.identity.normal ⟨0, 0, w⟩).normalize = _
    rw [Transform.normal_identity]
    apply Vec3.normalize_of_dot_self
    simpa [Vec3.dot] using hw
  have hhits := (atOrigin .sphere surface).hits_axis rfl (Mat4.apply_identity ⟨0, 0, z⟩ _)
    (Mat4.apply_identity ⟨0, 0, v⟩ _) hunit
  rw [hhits]
  simp only [hitAt, Scalar.ofExtended, div_one, hnear, hfar, hnormal _ hunit,
    hnormal _ (neg_mul_neg v v ▸ hunit)]

end Primitive

/-! ### Scenes -/

namespace Scene

/-- The crossings of a scene that are not on planes. -/
theorem faces_of_shape {s : Scene ℝ σ} (hs : ∀ p ∈ s.primitives, p.transform.IsPair)
    {origin direction : Vec3 ℝ} (hdirection : direction ≠ 0) {h : Hit ℝ σ}
    (hh : h ∈ s.hits origin direction) (hshape : h.primitive.shape ≠ .plane) :
    h.Faces direction := by
  refine forall_hits (P := fun k => k.primitive.shape ≠ .plane → k.Faces direction)
    (fun k inside hk hkshape => ?_) (fun p hp k hk hkshape => ?_) h hh hshape
  · rw [Hit.primitive_relabel] at hkshape
    exact (hk hkshape).relabel inside
  · rw [Primitive.primitive_of_mem_hits hk] at hkshape
    exact p.faces_of_mem_hits hkshape (hs p hp) hdirection hk

/-- Without planes, all crossings have normals that fit. -/
theorem faces_of_mem_hits {s : Scene ℝ σ}
    (hs : ∀ p ∈ s.primitives, p.shape ≠ .plane ∧ p.transform.IsPair) {origin direction : Vec3 ℝ}
    (hdirection : direction ≠ 0) {h : Hit ℝ σ} (hh : h ∈ s.hits origin direction) :
    h.Faces direction := by
  have hpairs : ∀ p ∈ s.primitives, p.transform.IsPair := fun p hp => (hs p hp).2
  exact faces_of_shape hpairs hdirection hh (hs _ (primitive_mem_of_mem_hits hh)).1

/-- **Normals face the right way through every tree of solids.** Whatever changes have placed the
primitives of a scene without planes, and however they are joined, every crossing of a line with it
has a normal of length one, which points against the line at an entry and along it at an exit, if it
is not perpendicular to the line. -/
theorem normals_face_line (s : Scene ℝ σ)
    (hs : ∀ p ∈ s.primitives,
      p.shape ≠ .plane ∧ ∃ changes, p.transform = Transform.identity.changeAll changes)
    (origin direction : Vec3 ℝ) (hdirection : direction ≠ Vec3.zero) :
    ∀ h ∈ s.hits origin direction,
      h.normal.length = 1 ∧
      (h.crossing = .entry → h.normal.dot direction ≤ 0) ∧
      (h.crossing = .exit → 0 ≤ h.normal.dot direction) := by
  have hpairs : ∀ p ∈ s.primitives, p.shape ≠ .plane ∧ p.transform.IsPair :=
    fun p hp => (hs p hp).imp_right Transform.isPair_of_changes
  intro h hh
  obtain ⟨hunit, hfits⟩ := faces_of_mem_hits hpairs hdirection hh
  refine ⟨Vec3.length_of_dot_self hunit, fun hentry => ?_, fun hexit => ?_⟩
  · rw [hentry] at hfits
    exact hfits
  · rw [hexit] at hfits
    exact hfits

/-- A sphere without the part of it that is in another one, which is mirrored and moved. The line
leaves the first where it enters the second, whose normal there is turned. -/
theorem normals_face_line_mirrored :
    let mirrored : Transform ℝ := Transform.identity.changeAll [.scale 1 2 (-1), .translate 0 0 1]
    let s : Scene ℝ Unit :=
      .join .difference (.atOrigin .sphere ()) (.primitive ⟨.sphere, (), mirrored⟩)
    ∃ h ∈ s.hits ⟨0, 0, -3⟩ ⟨0, 0, 1⟩, h.t = 3 ∧ h.crossing = .exit ∧
      h.normal.length = 1 ∧ 0 ≤ h.normal.dot ⟨0, 0, 1⟩ := by
  intro mirrored s
  obtain ⟨hinverse, hvectors, -⟩ :=
    Transform.stretched_and_moved (x := (1 : ℝ)) one_ne_zero two_ne_zero
      (neg_ne_zero.mpr one_ne_zero) 0 0 1
  have hpoint : mirrored.inversePoint ⟨0, 0, -3⟩ = ⟨0, 0, 4⟩ := by
    rw [hinverse]
    norm_num
  have hvector : mirrored.inverseVector ⟨0, 0, 1⟩ = ⟨0, 0, -1⟩ := by
    rw [hvectors]
    norm_num
  have hfirst := (Primitive.atOrigin .sphere ()).hits_axis rfl (Mat4.apply_identity ⟨0, 0, -3⟩ _)
    (Mat4.apply_identity ⟨0, 0, 1⟩ _) (mul_one 1)
  have hsecond := (Primitive.mk .sphere () mirrored).hits_axis rfl hpoint hvector (by norm_num)
  -- The second sphere takes away the back of the first, so the line leaves where it comes to it.
  have hhits : ∃ near far, s.hits ⟨0, 0, -3⟩ ⟨0, 0, 1⟩ = [near, far] ∧ far.t = 3 ∧
      far.crossing = .exit := by
    simp only [s, Scene.hits, Scene.atOrigin, hfirst, hsecond]
    simp [Hit.merge, Hit.mergeFrom, Hit.precedes, Hit.keep, Hit.relabel, Primitive.hitAt,
      Crossing.ofInside, Join.holds, Scalar.ofExtended]
    norm_num
    exact ⟨_, _, ⟨rfl, rfl⟩, rfl, rfl⟩
  have hdirection : (⟨0, 0, 1⟩ : Vec3 ℝ) ≠ Vec3.zero :=
    fun h => one_ne_zero ((congrArg Vec3.z h).trans Vec3.zero_z)
  have hs : ∀ p ∈ s.primitives,
      p.shape ≠ .plane ∧ ∃ changes, p.transform = Transform.identity.changeAll changes := by
    intro p hp
    rcases List.mem_pair.mp hp with rfl | rfl
    · exact ⟨by decide, [], rfl⟩
    · exact ⟨by decide, _, rfl⟩
  obtain ⟨near, far, hlist, ht, hexit⟩ := hhits
  have hfar : far ∈ s.hits ⟨0, 0, -3⟩ ⟨0, 0, 1⟩ := by
    rw [hlist]
    exact List.mem_cons_of_mem _ List.mem_cons_self
  obtain ⟨hunit, -, hfaces⟩ := normals_face_line s hs ⟨0, 0, -3⟩ ⟨0, 0, 1⟩ hdirection far hfar
  exact ⟨far, hfar, ht, hexit, hunit, hfaces hexit⟩

end Scene

end SceneTracer
