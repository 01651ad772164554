import Mathlib.Data.EReal.Basic
import SceneTracer.Proofs.Shape.Boundary

namespace SceneTracer

/-!
# The part of a line inside a solid

Over the real numbers, the spans of the three solids with an inside are exact: a line has a span
just if it meets the closed solid, and the points of the solid on the line are those between the
ends. Each part that a solid is cut from is solved on its own, and clipping takes what two parts
share.

* `Extended.toEReal` — ends of ranges in the order of the extended real numbers.
* `Span.Finds` — a solver's range has just the parameters that it should.
* `Span.Finds.meet` — what two solvers share, from what each finds.
* `Span.finds_slab`, `Shape.finds_tubeSpan`, `Shape.finds_sphereSpan` — the parts.
* `Shape.finds_span` — whole solids.
* `Shape.holds_ends`, `Shape.onFace_ends` — the ends of a span are in it and on its faces, for planes
  too.
* `Primitive.hits_atOrigin_exact` — the crossings of a solid in its own object space.
-/

namespace Extended

/-- An end of a range as an extended real number. -/
noncomputable def toEReal : Extended ℝ → EReal
  | .negInf => ⊥
  | .finite x => x
  | .posInf => ⊤

/-- The orders that the program uses for ends of ranges are those of the extended real numbers. -/
theorem ltExtended_iff (x y : Extended ℝ) :
    Scalar.ltExtended x y = true ↔ x.toEReal < y.toEReal := by
  cases x <;> cases y <;> simp [Scalar.ltExtended, toEReal]

theorem leExtended_iff (x y : Extended ℝ) :
    Scalar.leExtended x y = true ↔ x.toEReal ≤ y.toEReal := by
  cases x <;> cases y <;> simp [Scalar.leExtended, toEReal]

end Extended

namespace Span

/-! ### Ranges -/

/-- The parameter `t` is in the range. -/
def Holds (s : Span ℝ) (t : ℝ) : Prop := s.near.toEReal ≤ t ∧ t ≤ s.far.toEReal

/-- The range, or that there is none, says just for which parameters `P` holds. -/
def Finds (r : Option (Span ℝ)) (P : ℝ → Prop) : Prop := ∀ t, (∃ s ∈ r, s.Holds t) ↔ P t

/-- What two ranges share, if there are both. -/
def meet {α : Type} [Scalar α] (r r' : Option (Span α)) : Option (Span α) := do
  let s ← r
  let o ← r'
  s.clip o

variable {s o r : Span ℝ} {P Q : ℝ → Prop}

/-- Every parameter is in the whole line. -/
theorem holds_all (t : ℝ) : Span.all.Holds t := ⟨bot_le, le_top⟩

/-- A range with finite ends has the parameters between them. -/
theorem holds_finite {near far t : ℝ} {nearFace farFace : Face} :
    Holds ⟨.finite near, nearFace, .finite far, farFace⟩ t ↔ near ≤ t ∧ t ≤ far := by
  simp [Holds, Extended.toEReal]

/-- No range is the right answer just if there is no parameter to find. -/
theorem finds_none : Finds none P ↔ ∀ t, ¬ P t := by
  simp [Finds]

/-- A range is the right answer just if it has the parameters to find. -/
theorem finds_some : Finds (some s) P ↔ ∀ t, s.Holds t ↔ P t := by
  simp [Finds]

/-- What two ranges share has the parameters that both have; there is none if they share nothing. -/
theorem finds_clip (s o : Span ℝ) : Finds (s.clip o) fun t => s.Holds t ∧ o.Holds t := by
  intro t
  unfold clip
  extract_lets near far
  have hnear : near.1.toEReal = max s.near.toEReal o.near.toEReal := by
    simp only [near, Extended.ltExtended_iff, max_def_lt]
    split <;> rfl
  have hfar : far.1.toEReal = min o.far.toEReal s.far.toEReal := by
    simp only [far, Extended.ltExtended_iff, min_def_lt]
    split <;> rfl
  have hboth : near.1.toEReal ≤ t ∧ t ≤ far.1.toEReal ↔ s.Holds t ∧ o.Holds t := by
    rw [hnear, hfar, max_le_iff, le_min_iff, Holds, Holds]
    tauto
  show _ ↔ s.Holds t ∧ o.Holds t
  rw [← hboth]
  split
  · simp [Holds]
  · -- Where the near end is behind the far one, no parameter is between the two.
    rename_i hempty
    rw [Extended.leExtended_iff] at hempty
    have hnone : ¬ (near.1.toEReal ≤ t ∧ t ≤ far.1.toEReal) := fun h => hempty (h.1.trans h.2)
    simp [hnone]

/-- **What two solvers share** has the parameters that each of them should find. -/
theorem Finds.meet {r r' : Option (Span ℝ)} (h : Finds r P) (h' : Finds r' Q) :
    Finds (meet r r') fun t => P t ∧ Q t := by
  intro t
  show _ ↔ P t ∧ Q t
  rw [← h t, ← h' t]
  cases r with
  | none => simp [Span.meet]
  | some s =>
    cases r' with
    | none => simp [Span.meet]
    | some o => simpa [Span.meet] using finds_clip s o t

/-- What two ranges share has its ends in order. -/
theorem ordered_of_meet {r r' : Option (Span ℝ)} (h : Span.meet r r' = some s) :
    s.near.toEReal ≤ s.far.toEReal := by
  simp only [Span.meet, Option.bind_eq_bind, Option.bind_eq_some_iff] at h
  obtain ⟨o, -, o', -, h⟩ := h
  unfold clip at h
  obtain ⟨hle, hs⟩ := Option.ite_none_right_eq_some.mp h
  cases hs
  exact (Extended.leExtended_iff _ _).mp hle

/-- Both ends of the span are real numbers, in order, and on faces. -/
def Bounded (s : Span ℝ) : Prop :=
  ∃ near nearFace far farFace, s = ⟨.finite near, nearFace, .finite far, farFace⟩ ∧ near ≤ far ∧
    nearFace ≠ Face.missing ∧ farFace ≠ Face.missing

/-! ### Slabs -/

/-- The number is not so small that it counts as zero without being zero. -/
def Resolved (v : ℝ) : Prop := v = 0 ∨ parallelTolerance ≤ |v|

/-- A number that is resolved and counts as zero is zero. -/
theorem Resolved.eq_zero {v : ℝ} (h : Resolved v) (hsmall : |v| < parallelTolerance) : v = 0 :=
  h.resolve_right (not_le.mpr hsmall)

/-- **A slab is found exactly**, by a line in any direction along its axis and by one across it. -/
theorem finds_slab {d : ℝ} (hd : Resolved d) (x : ℝ) (low high : Face) :
    Finds (slab x d low high) fun t => 0 ≤ x + d * t ∧ x + d * t ≤ 1 := by
  unfold slab
  simp only [ExactScalar.zero_literal, ExactScalar.one_literal]
  split
  · rename_i hparallel
    -- A resolved direction that counts as parallel is so, and the line keeps its place.
    obtain rfl : d = 0 := hd.eq_zero hparallel
    simp only [zero_mul, add_zero]
    split
    · rename_i hinside
      exact finds_some.mpr fun t => iff_of_true (holds_all t) hinside
    · rename_i houtside
      exact finds_none.mpr fun t => houtside
  · rename_i hparallel
    have hne : d ≠ 0 := ne_zero_of_not_parallel hparallel
    split
    · rename_i hpos
      refine finds_some.mpr fun t => ?_
      rw [holds_finite, div_le_iff₀ hpos, le_div_iff₀ hpos]
      constructor <;> rintro ⟨hlow, hhigh⟩ <;> constructor <;> linarith
    · -- Against the axis the upper plane comes first.
      rename_i hnotpos
      have hneg : d < 0 := lt_of_le_of_ne (not_lt.mp hnotpos) hne
      refine finds_some.mpr fun t => ?_
      rw [holds_finite, div_le_iff_of_neg hneg, le_div_iff_of_neg hneg]
      constructor <;> rintro ⟨hhigh, hlow⟩ <;> constructor <;> linarith

end Span

namespace Shape

open SceneTracer.Span

/-- The direction has no part that counts as zero for the solver of the shape without being zero. -/
def Resolves : Shape → Vec3 ℝ → Prop
  | .cube, d => Resolved d.x ∧ Resolved d.y ∧ Resolved d.z
  | .cylinder, d => Resolved (d.x * d.x + d.z * d.z) ∧ Resolved d.y
  | .sphere, _ | .cone, _ | .plane, _ => True

/-! ### Squares and roots -/

/-- The numbers whose squares are at most that of `q`. -/
theorem mul_self_le_iff {u q : ℝ} (hq : 0 ≤ q) : u * u ≤ q * q ↔ -q ≤ u ∧ u ≤ q := by
  rw [← abs_le_iff_mul_self_le, abs_of_nonneg hq, abs_le]

/-- A range between two roots, where what is to be found is that a square is at most the
discriminant. -/
theorem finds_roots {u : ℝ → ℝ} {discriminant : ℝ} {face : Face} {P : ℝ → Prop}
    (near far : ℝ → ℝ) (hP : ∀ t, P t ↔ u t * u t ≤ discriminant)
    (hnear : ∀ q t, near q ≤ t ↔ -q ≤ u t) (hfar : ∀ q t, t ≤ far q ↔ u t ≤ q) :
    Finds (if discriminant < 0 then none
      else some ⟨.finite (near (Scalar.sqrt discriminant)), face,
        .finite (far (Scalar.sqrt discriminant)), face⟩) P := by
  split
  · rename_i hneg
    exact finds_none.mpr fun t hin => by linarith only [(hP t).mp hin, hneg, mul_self_nonneg (u t)]
  · rename_i hreal
    obtain ⟨q, hsqrt, hq, hroot⟩ := exists_sqrt hreal
    refine finds_some.mpr fun t => ?_
    rw [hsqrt, holds_finite, hP, ← hroot, mul_self_le_iff hq, hnear, hfar]

/-! ### Spheres -/

/-- **The unit sphere is found exactly.** -/
theorem finds_sphereSpan (o : Vec3 ℝ) {d : Vec3 ℝ} (hd : d.dot d = 1) :
    Finds (sphereSpan o d) fun t => Shape.sphere.Contains (o + d.scale t) := by
  -- The square of the distance to the middle, with the square of the parameter completed.
  have hsquare (t : ℝ) : Shape.sphere.Contains (o + d.scale t) ↔
      (o.dot d + t) * (o.dot d + t) ≤ o.dot d * o.dot d - (o.dot o - 1) := by
    have hdot : (o + d.scale t).dot (o + d.scale t) = o.dot o + 2 * t * o.dot d + t * t := by
      rw [Vec3.add_dot, Vec3.scale_dot, Vec3.dot_comm o, Vec3.dot_comm d, Vec3.add_dot,
        Vec3.add_dot, Vec3.scale_dot, Vec3.scale_dot, hd, Vec3.dot_comm d o]
      ring
    show (o + d.scale t).dot (o + d.scale t) ≤ 1.0 ↔ _
    rw [hdot, ExactScalar.one_literal]
    constructor <;> intro h <;> linarith only [h]
  unfold sphereSpan
  simp only [ExactScalar.zero_literal, ExactScalar.one_literal]
  refine finds_roots (fun q => -o.dot d - q) (fun q => -o.dot d + q) hsquare ?_ ?_
  · intro q t
    constructor <;> intro h <;> linarith only [h]
  · intro q t
    constructor <;> intro h <;> linarith only [h]

/-! ### Cubes -/

/-- The cube is what its three slabs share. -/
theorem cubeSpan_eq_meet (o d : Vec3 ℝ) :
    cubeSpan o d =
      meet (meet (slab o.x d.x Face.left Face.right) (slab o.y d.y Face.bottom Face.top))
        (slab o.z d.z Face.front Face.back) := by
  simp [cubeSpan, meet, Option.bind_assoc]

/-- **The unit cube is found exactly.** -/
theorem finds_cubeSpan (o : Vec3 ℝ) {d : Vec3 ℝ} (hd : Shape.cube.Resolves d) :
    Finds (cubeSpan o d) fun t => Shape.cube.Contains (o + d.scale t) := by
  obtain ⟨hx, hy, hz⟩ := hd
  have hxy := (finds_slab hx o.x Face.left Face.right).meet
    (finds_slab hy o.y Face.bottom Face.top)
  have hxyz := hxy.meet (finds_slab hz o.z Face.front Face.back)
  rw [cubeSpan_eq_meet]
  intro t
  rw [hxyz t]
  simp [Contains, Vec3.scale, and_assoc]

/-! ### Cylinders -/

/-- **The infinite cylinder is found exactly**, by lines along its axis too. -/
theorem finds_tubeSpan (o : Vec3 ℝ) {d : Vec3 ℝ} (hd : Resolved (d.x * d.x + d.z * d.z)) :
    Finds (tubeSpan o d) fun t =>
      (o.x + d.x * t) * (o.x + d.x * t) + (o.z + d.z * t) * (o.z + d.z * t) ≤ 1 := by
  have hnonneg : 0 ≤ d.x * d.x + d.z * d.z :=
    add_nonneg (mul_self_nonneg d.x) (mul_self_nonneg d.z)
  unfold tubeSpan
  simp only [ExactScalar.zero_literal, ExactScalar.one_literal]
  split
  · rename_i hparallel
    -- Along the axis the distance to it does not change.
    have hzero : d.x * d.x + d.z * d.z = 0 := hd.eq_zero (by rwa [abs_of_nonneg hnonneg])
    have hx : d.x = 0 := by nlinarith only [hzero, mul_self_nonneg d.z]
    have hz : d.z = 0 := by nlinarith only [hzero, mul_self_nonneg d.x]
    simp only [hx, hz, zero_mul, add_zero]
    split
    · rename_i houtside
      exact finds_none.mpr fun t => not_le.mpr houtside
    · rename_i hinside
      exact finds_some.mpr fun t => iff_of_true (holds_all t) (not_lt.mp hinside)
  · rename_i hparallel
    have hpos : 0 < d.x * d.x + d.z * d.z := parallelTolerance_pos.trans_le (not_lt.mp hparallel)
    generalize ha : d.x * d.x + d.z * d.z = a at hpos
    generalize hb : o.x * d.x + o.z * d.z = b
    generalize hc : o.x * o.x + o.z * o.z - 1 = c
    have hsquare (t : ℝ) :
        (o.x + d.x * t) * (o.x + d.x * t) + (o.z + d.z * t) * (o.z + d.z * t) ≤ 1 ↔
          (b + a * t) * (b + a * t) ≤ b * b - a * c := by
      generalize hr : (o.x + d.x * t) * (o.x + d.x * t) + (o.z + d.z * t) * (o.z + d.z * t) = r
      have hcomplete : a * (1 - r) = b * b - a * c - (b + a * t) * (b + a * t) := by
        rw [← hr, ← ha, ← hb, ← hc]
        ring
      calc r ≤ 1 ↔ 0 ≤ 1 - r := sub_nonneg.symm
        _ ↔ 0 ≤ a * (1 - r) := (mul_nonneg_iff_of_pos_left hpos).symm
        _ ↔ 0 ≤ b * b - a * c - (b + a * t) * (b + a * t) := by rw [hcomplete]
        _ ↔ (b + a * t) * (b + a * t) ≤ b * b - a * c := sub_nonneg
    refine finds_roots (fun q => (-b - q) / a) (fun q => (-b + q) / a) hsquare ?_ ?_
    · intro q t
      rw [div_le_iff₀ hpos]
      constructor <;> intro h <;> linarith only [h]
    · intro q t
      rw [le_div_iff₀ hpos]
      constructor <;> intro h <;> linarith only [h]

/-- The cylinder is what the infinite cylinder and one slab share. -/
theorem cylinderSpan_eq_meet (o d : Vec3 ℝ) :
    cylinderSpan o d = meet (tubeSpan o d) (slab o.y d.y Face.lowerCap Face.upperCap) := rfl

/-- **The unit cylinder is found exactly.** -/
theorem finds_cylinderSpan (o : Vec3 ℝ) {d : Vec3 ℝ} (hd : Shape.cylinder.Resolves d) :
    Finds (cylinderSpan o d) fun t => Shape.cylinder.Contains (o + d.scale t) := by
  obtain ⟨hside, hy⟩ := hd
  have hboth := (finds_tubeSpan o hside).meet (finds_slab hy o.y Face.lowerCap Face.upperCap)
  intro t
  rw [cylinderSpan_eq_meet, hboth t]
  simp [Contains, Vec3.scale]

/-! ### Whole solids -/

/-- **A solid is found exactly**: the parameters of its span are those of its points. -/
theorem finds_span {shape : Shape} (hshape : shape ∈ [.sphere, .cube, .cylinder]) (o : Vec3 ℝ)
    {d : Vec3 ℝ} (hd : d.dot d = 1) (hresolves : shape.Resolves d) :
    Finds (shape.span o d) fun t => shape.Contains (o + d.scale t) := by
  cases shape with
  | sphere => exact finds_sphereSpan o hd
  | cube => exact finds_cubeSpan o hresolves
  | cylinder => exact finds_cylinderSpan o hresolves
  | cone => simp at hshape
  | plane => simp at hshape

/-- The faces of a cube and of the parts of a cylinder are none that is missing. -/
theorem face_ne_missing {shape : Shape} (hshape : shape = .cube ∨ shape = .cylinder) {face : Face}
    {p : Vec3 ℝ} (h : shape.OnFace face p) : face ≠ Face.missing := by
  rcases hshape with rfl | rfl
  · rcases h with ⟨rfl, -⟩ | ⟨rfl, -⟩ | ⟨rfl, -⟩ | ⟨rfl, -⟩ | ⟨rfl, -⟩ | ⟨rfl, -⟩ <;> decide
  · rcases h with ⟨rfl, -⟩ | ⟨rfl, -⟩ | ⟨rfl, -⟩ <;> decide

/-- The span of a sphere has two real ends, in order. -/
theorem bounded_sphereSpan {o d : Vec3 ℝ} {s : Span ℝ} (h : sphereSpan o d = some s) :
    s.Bounded := by
  unfold sphereSpan at h
  dsimp only at h
  obtain ⟨hreal, hs⟩ := Option.ite_none_left_eq_some.mp h
  cases hs
  rw [ExactScalar.zero_literal] at hreal
  obtain ⟨q, hsqrt, hq, -⟩ := exists_sqrt hreal
  rw [hsqrt]
  exact ⟨_, _, _, _, rfl, by linarith only [hq], by decide, by decide⟩

/-- What is left of a solid by clipping has two ends, if they are on faces of it. -/
theorem bounded_of_meet {shape : Shape} (hshape : shape = .cube ∨ shape = .cylinder)
    {o d : Vec3 ℝ} {r r' : Option (Span ℝ)} {s : Span ℝ} (h : meet r r' = some s)
    (hends : s.Ends (shape.Meets o d)) : s.Bounded := by
  have hordered := ordered_of_meet h
  obtain ⟨near, nearFace, hnear, hmeetsNear⟩ := hends .entry
  obtain ⟨far, farFace, hfar, hmeetsFar⟩ := hends .exit
  -- The clipped ends are real numbers, so their order is that of the numbers.
  cases s
  cases hnear
  cases hfar
  exact ⟨_, _, _, _, rfl, EReal.coe_le_coe_iff.mp hordered,
    face_ne_missing hshape hmeetsNear.onFace, face_ne_missing hshape hmeetsFar.onFace⟩

/-- **A span of a solid has two ends**, real numbers in order, each on a face: no line is inside for
ever. -/
theorem bounded_span {shape : Shape} (hshape : shape ∈ [.sphere, .cube, .cylinder]) {o d : Vec3 ℝ}
    (hd : d.dot d = 1) {s : Span ℝ} (h : shape.span o d = some s) : s.Bounded := by
  cases shape with
  | sphere => exact bounded_sphereSpan h
  | cube =>
    have hmeet := (cubeSpan_eq_meet o d).symm.trans h
    exact bounded_of_meet (.inl rfl) hmeet (ends_cubeSpan hd h)
  | cylinder =>
    have hmeet := (cylinderSpan_eq_meet o d).symm.trans h
    exact bounded_of_meet (.inr rfl) hmeet (ends_cylinderSpan hd h)
  | cone => simp at hshape
  | plane => simp at hshape

/-! ### Planes -/

/-- What is found of a plane is the one place where the line goes through it. -/
theorem bounded_planeSpan {o d : Vec3 ℝ} {s : Span ℝ} (h : planeSpan o d = some s) :
    s.Bounded ∧ ∀ t, s.Holds t → o.y + d.y * t = 0 := by
  obtain ⟨hsteep, hs⟩ := Option.ite_none_left_eq_some.mp h
  cases hs
  have hy : d.y ≠ 0 := ne_zero_of_not_parallel hsteep
  refine ⟨⟨_, _, _, _, rfl, le_rfl, by decide, by decide⟩, fun t ht => ?_⟩
  obtain ⟨hnear, hfar⟩ := holds_finite.mp ht
  obtain rfl : t = -o.y / d.y := le_antisymm hfar hnear
  rw [mul_div_cancel₀ _ hy]
  ring

/-! ### The ends of spans -/

/-- **Both ends of a span are in it**, whatever the shape is. -/
theorem holds_ends {shape : Shape} {o d : Vec3 ℝ} (hd : d.dot d = 1) {s : Span ℝ}
    (h : shape.span o d = some s) : s.Ends fun _ t _ => s.Holds t := by
  have hbounded : s.Bounded := by
    cases shape with
    | sphere | cube | cylinder => exact bounded_span (by simp) hd h
    | cone => cases h
    | plane => exact (bounded_planeSpan h).1
  obtain ⟨near, nearFace, far, farFace, rfl, hle, -, -⟩ := hbounded
  intro c
  cases c with
  | entry => exact ⟨near, nearFace, rfl, holds_finite.mpr ⟨le_rfl, hle⟩⟩
  | exit => exact ⟨far, farFace, rfl, holds_finite.mpr ⟨hle, le_rfl⟩⟩

/-- **The ends of a span lie on the faces that it names.** -/
theorem onFace_ends {shape : Shape} {o d : Vec3 ℝ} (hd : d.dot d = 1) {s : Span ℝ}
    (h : shape.span o d = some s) : s.Ends fun _ t face => shape.OnFace face (o + d.scale t) := by
  by_cases hshape : shape = .plane
  · subst hshape
    refine (holds_ends hd h).imp fun _ t _ ht => ?_
    exact ((bounded_planeSpan h).2 t ht).trans ExactScalar.zero_literal.symm
  · exact (ends_span hshape hd h).imp fun _ _ _ hmeets => hmeets.onFace

/-- What is found of a shape is in it, unless the solver has taken for parallel what is not. -/
theorem contains_of_holds {shape : Shape} {o d : Vec3 ℝ} (hd : d.dot d = 1)
    (hresolves : shape.Resolves d) {s : Span ℝ} (h : shape.span o d = some s) {t : ℝ}
    (ht : s.Holds t) : shape.Contains (o + d.scale t) := by
  by_cases hsolid : shape ∈ [Shape.sphere, .cube, .cylinder]
  · have hfinds := finds_span hsolid o hd hresolves
    rw [h] at hfinds
    exact (finds_some.mp hfinds t).mp ht
  · cases shape with
    | sphere | cube | cylinder => simp at hsolid
    | cone => cases h
    | plane => exact ((bounded_planeSpan h).2 t ht).trans ExactScalar.zero_literal.symm

end Shape

/-! ### Crossings -/

namespace Primitive

variable {σ : Type}

/-- In its own object space, the crossings of a solid are the ends of its span. -/
theorem hits_atOrigin (shape : Shape) (surface : σ) (o : Vec3 ℝ) {d : Vec3 ℝ} (hd : d.dot d = 1) :
    (atOrigin shape surface).hits o d = (shape.span o d).elim [] fun s =>
      [(atOrigin shape surface).hitAt o d o d 1 s.near s.nearFace .entry,
       (atOrigin shape surface).hitAt o d o d 1 s.far s.farFace .exit] := by
  have hpoint : (atOrigin shape surface).transform.inversePoint o = o := Mat4.apply_identity o _
  have hvector : (atOrigin shape surface).transform.inverseVector d = d := Mat4.apply_identity d _
  have hlength : d.length = 1 := Vec3.length_of_dot_self hd
  have hnormalize : d.scale (1.0 / 1) = d := by simp [Vec3.scale]
  unfold hits
  simp only [hpoint, hvector, hlength, hnormalize]
  rw [show (atOrigin shape surface : Primitive ℝ σ).shape = shape from rfl]
  cases shape.span o d <;> rfl

/-- **The closed-form solvers find exactly the solid.** In its own object space, a line along a unit
direction has no crossing with a sphere, cube or cylinder just if it misses the closed solid.
Otherwise it enters and leaves it once, at real parameters in order and through faces of the solid,
and is in the solid just between them. -/
theorem hits_atOrigin_exact {shape : Shape} (hshape : shape ∈ [.sphere, .cube, .cylinder])
    (surface : σ) (o : Vec3 ℝ) {d : Vec3 ℝ} (hd : d.dot d = 1) (hresolves : shape.Resolves d) :
    ((atOrigin shape surface).hits o d = [] ↔ ∀ t, ¬ shape.Contains (o + d.scale t)) ∧
    ((atOrigin shape surface).hits o d ≠ [] → ∃ near far : Hit ℝ σ,
      (atOrigin shape surface).hits o d = [near, far] ∧
      near.crossing = .entry ∧ far.crossing = .exit ∧
      shape.span o d = some ⟨.finite near.t, near.face, .finite far.t, far.face⟩ ∧
      near.t ≤ far.t ∧ near.face ≠ Face.missing ∧ far.face ≠ Face.missing ∧
      ∀ t, shape.Contains (o + d.scale t) ↔ near.t ≤ t ∧ t ≤ far.t) := by
  have hfinds := Shape.finds_span hshape o hd hresolves
  rw [hits_atOrigin shape surface o hd]
  cases hspan : shape.span o d with
  | none =>
    rw [hspan] at hfinds
    exact ⟨iff_of_true rfl (Span.finds_none.mp hfinds), fun hne => absurd rfl hne⟩
  | some s =>
    obtain ⟨near, nearFace, far, farFace, rfl, hle, hnear, hfar⟩ :=
      Shape.bounded_span hshape hd hspan
    rw [hspan] at hfinds
    -- The range has the parameters of the closed solid, which are those between its ends.
    have hinside (t : ℝ) : shape.Contains (o + d.scale t) ↔ near ≤ t ∧ t ≤ far :=
      (Span.finds_some.mp hfinds t).symm.trans Span.holds_finite
    have htime (t : ℝ) (face : Face) (c : Crossing) :
        ((atOrigin shape surface).hitAt o d o d 1 (.finite t) face c).t = t := div_one t
    -- The near end itself is in the solid, so the line does not miss it.
    refine ⟨iff_of_false (List.cons_ne_nil _ _) fun hmisses => ?_, fun _ => ?_⟩
    · exact hmisses near ((hinside near).mpr ⟨le_rfl, hle⟩)
    · refine ⟨_, _, rfl, rfl, rfl, ?_, ?_, hnear, hfar, ?_⟩
      · rw [htime, htime]
        rfl
      · rw [htime, htime]
        exact hle
      · rw [htime, htime]
        exact hinside

/-- A line that climbs through the cylinder from cap to cap. -/
theorem hits_atOrigin_exact_climb :
    let o : Vec3 ℝ := ⟨0, 1 / 2, 0⟩
    let d : Vec3 ℝ := ⟨3 / 5, 4 / 5, 0⟩
    ∃ near far : Hit ℝ Unit, (atOrigin .cylinder ()).hits o d = [near, far] ∧
      near.crossing = .entry ∧ far.crossing = .exit ∧ near.t = -5 / 8 ∧ far.t = 5 / 8 := by
  intro o d
  have hd : d.dot d = 1 := by
    show (3 / 5 : ℝ) * (3 / 5) + 4 / 5 * (4 / 5) + 0 * 0 = 1
    norm_num
  have htolerance := Span.parallelTolerance_lt
  have hresolves : Shape.cylinder.Resolves d := by
    constructor
    · right
      show Span.parallelTolerance ≤ |(3 / 5 : ℝ) * (3 / 5) + 0 * 0|
      rw [abs_of_pos (by norm_num)]
      linarith only [htolerance]
    · right
      show Span.parallelTolerance ≤ |(4 / 5 : ℝ)|
      rw [abs_of_pos (by norm_num)]
      linarith only [htolerance]
  -- The line stays within the side; the caps cut it off at both ends.
  have hcontains (t : ℝ) :
      Shape.cylinder.Contains (o + d.scale t) ↔ -5 / 8 ≤ t ∧ t ≤ 5 / 8 := by
    show (0 + 3 / 5 * t) * (0 + 3 / 5 * t) + (0 + 0 * t) * (0 + 0 * t) ≤ (1.0 : ℝ) ∧
      (0.0 : ℝ) ≤ 1 / 2 + 4 / 5 * t ∧ 1 / 2 + 4 / 5 * t ≤ (1.0 : ℝ) ↔ _
    rw [ExactScalar.zero_literal, ExactScalar.one_literal]
    constructor
    · rintro ⟨-, hlow, hhigh⟩
      constructor <;> linarith only [hlow, hhigh]
    · rintro ⟨hlow, hhigh⟩
      refine ⟨?_, ?_, ?_⟩
      · nlinarith only [hlow, hhigh]
      · linarith only [hlow]
      · linarith only [hhigh]
  obtain ⟨hmisses, hmeets⟩ := hits_atOrigin_exact (by simp) () o hd hresolves
  have hne : (atOrigin .cylinder ()).hits o d ≠ [] :=
    fun hnone => hmisses.mp hnone 0 ((hcontains 0).mpr (by norm_num))
  obtain ⟨near, far, hhits, hentry, hexit, -, hle, -, -, hinside⟩ := hmeets hne
  -- Two ranges with the same points have the same ends.
  have hrange (t : ℝ) : near.t ≤ t ∧ t ≤ far.t ↔ -5 / 8 ≤ t ∧ t ≤ 5 / 8 :=
    (hinside t).symm.trans (hcontains t)
  refine ⟨near, far, hhits, hentry, hexit, le_antisymm ?_ ?_, le_antisymm ?_ ?_⟩
  · exact ((hrange (-5 / 8)).mpr (by norm_num)).1
  · exact ((hrange near.t).mp ⟨le_rfl, hle⟩).1
  · exact ((hrange far.t).mp ⟨hle, le_rfl⟩).2
  · exact ((hrange (5 / 8)).mpr (by norm_num)).2

end Primitive

end SceneTracer
