import SceneTracer.Proofs.Renderer.Questions
import SceneTracer.Proofs.Scene.Crossings

namespace SceneTracer

/-!
# The first crossing that is seen

A ray takes the first crossing of a scene that is far enough away. Since merging keeps crossings in
order and alternating, through every tree and wherever boundaries meet, this is the nearest one, and
how many crossings are in front of it tells on which side of the boundary the ray starts.

* `Hit.exists_split_of_find?` — the crossings in front of the first one that is seen, and behind it.
* `Hit.nearest_of_find?`, `Hit.entry_iff_of_find?` — it is the nearest, and which way it leads.
* `Tracer.visibleHit?_eq_none_iff` — which rays see nothing.
* `Tracer.occluded_iff_exists` — what stands in front of a light.
* `Tracer.seen_is_nearest` — all of it for floating point scalars.
-/

variable {α σ : Type}

namespace Hit

/-- Which way a crossing leads, by the number of those in front of it. -/
theorem Alternates.entry_iff_even_length {outside : Bool} {before behind : List (Hit α σ)}
    {h : Hit α σ} (halt : Alternates outside (before ++ h :: behind)) :
    h.crossing = .entry ↔ (Even before.length ↔ outside = true) := by
  -- Each crossing in front leads to the other side of the boundary.
  induction before generalizing outside with
  | nil =>
    rw [halt.1]
    cases outside <;> simp [Crossing.ofInside]
  | cons k before ih =>
    rw [ih halt.2, List.length_cons, Nat.even_add_one]
    cases outside <;> simp

variable [Scalar α] [OrderedScalar α]

/-- Crossings in order are split by the first one behind `least`: all in front of it are not behind
`least`, and all others are not in front of it. -/
theorem exists_split_of_find? {hits : List (Hit α σ)} (hs : InOrder hits) {least : α} {h : Hit α σ}
    (hh : hits.find? (fun k => decide (least < k.t)) = some h) :
    ∃ before behind, hits = before ++ h :: behind ∧ least < h.t ∧
      (∀ k ∈ before, k.t ≤ least) ∧ ∀ k ∈ h :: behind, h.t ≤ k.t := by
  obtain ⟨hseen, before, behind, rfl, hbefore⟩ := List.find?_eq_some_iff_append.mp hh
  have hlt : least < h.t := of_decide_eq_true hseen
  -- What is less than something is a number.
  have hleast : least ≤ least := (OrderedScalar.le_self (OrderedScalar.le_of_lt hlt)).1
  refine ⟨before, behind, rfl, hlt, fun k hk => ?_, fun k hk => ?_⟩
  · have hnot : ¬ least < k.t := by simpa using hbefore k hk
    exact OrderedScalar.le_of_not_lt hleast (hs.comparable k (List.mem_append_left _ hk)) hnot
  · have hrest : InOrder (h :: behind) := by
      refine ⟨fun j hj => hs.comparable j (List.mem_append_right _ hj), ?_⟩
      have hsorted := hs.sorted
      rw [List.map_append] at hsorted
      exact (List.pairwise_append.mp hsorted).2.1
    exact hrest.head_le hk

/-- **The first crossing that is seen is the nearest** of those that could be. -/
theorem nearest_of_find? {hits : List (Hit α σ)} (hs : InOrder hits) {least : α} {h : Hit α σ}
    (hh : hits.find? (fun k => decide (least < k.t)) = some h) :
    h ∈ hits ∧ least < h.t ∧ ∀ k ∈ hits, least < k.t → h.t ≤ k.t := by
  obtain ⟨before, behind, rfl, hlt, hbefore, hbehind⟩ := exists_split_of_find? hs hh
  refine ⟨by simp, hlt, fun k hk hseen => ?_⟩
  rcases List.mem_append.mp hk with hk | hk
  · exact absurd (hbefore k hk) (OrderedScalar.not_le_of_lt hseen)
  · exact hbehind k hk

/-- **The first crossing that is seen leads inside** just if the number of those before it is even. -/
theorem entry_iff_of_find? {hits : List (Hit α σ)} (hs : Regular hits) {least : α} {h : Hit α σ}
    (hh : hits.find? (fun k => decide (least < k.t)) = some h) :
    h.crossing = .entry ↔ Even (hits.countP fun k => decide (k.t ≤ least)) := by
  obtain ⟨before, behind, rfl, hlt, hbefore, hbehind⟩ := exists_split_of_find? hs.inOrder hh
  have hfront : before.countP (fun k => decide (k.t ≤ least)) = before.length :=
    List.countP_eq_length.mpr fun k hk => decide_eq_true (hbefore k hk)
  have hback : (h :: behind).countP (fun k => decide (k.t ≤ least)) = 0 := by
    refine List.countP_eq_zero.mpr fun k hk hle => ?_
    have hlt' : least < k.t := OrderedScalar.lt_of_lt_of_le hlt (hbehind k hk)
    exact OrderedScalar.not_le_of_lt hlt' (of_decide_eq_true hle)
  rw [List.countP_append, hfront, hback, add_zero, hs.alternates.entry_iff_even_length]
  simp

end Hit

namespace Tracer

section Following

variable [Scalar α] {ε ω : Type} (tracer : Tracer α σ)

/-- A ray that sees nothing is black, and nothing is asked. -/
theorem trace_eq_black_iff (depth : ℕ) (origin direction : Vec3 α) :
    (tracer.trace depth origin direction : Shading α σ ε ω _) = .done (.ok Vec3.zero) ↔
      tracer.visibleHit? origin direction = none := by
  unfold trace
  cases tracer.visibleHit? origin direction <;> simp

/-- What is visible is asked about. -/
theorem exists_resume_of_visible {origin direction : Vec3 α} {h : Hit α σ}
    (hh : tracer.visibleHit? origin direction = some h) (depth : ℕ) :
    ∃ resume,
      (tracer.trace depth origin direction : Shading α σ ε ω _) = .ask h.query resume := by
  unfold trace
  rw [hh]
  exact ⟨_, rfl⟩

end Following

section Ordered

variable [Scalar α] [OrderedScalar α] (tracer : Tracer α σ) {origin direction : Vec3 α}

/-- **Which rays see nothing**: those that no crossing is in front of, and those that start inside of
the scene. -/
theorem visibleHit?_eq_none_iff (hs : Hit.Regular (tracer.scene.hits origin direction)) :
    tracer.visibleHit? origin direction = none ↔
      (∀ h ∈ tracer.scene.hits origin direction, ¬ tracer.tolerance.hitEpsilon < h.t) ∨
      Odd ((tracer.scene.hits origin direction).countP fun h =>
        decide (h.t ≤ tracer.tolerance.hitEpsilon)) := by
  unfold visibleHit? firstHit? Scene.firstHitAfter?
  cases hfirst : (tracer.scene.hits origin direction).find?
      fun h => decide (tracer.tolerance.hitEpsilon < h.t) with
  | none =>
    have hnone : ∀ h ∈ tracer.scene.hits origin direction, ¬ tracer.tolerance.hitEpsilon < h.t := by
      simpa using hfirst
    exact iff_of_true rfl (Or.inl hnone)
  | some h =>
    obtain ⟨hmem, hlt, -⟩ := Hit.nearest_of_find? hs.inOrder hfirst
    -- A crossing is seen, so the ray is black just if it leads outside.
    have hsome : ¬ ∀ k ∈ tracer.scene.hits origin direction,
        ¬ tracer.tolerance.hitEpsilon < k.t := fun hnone => hnone h hmem hlt
    rw [or_iff_right hsome, ← Nat.not_even_iff_odd, ← Hit.entry_iff_of_find? hs hfirst]
    simp [Option.filter]

/-- What a ray sees is the nearest crossing of those that are far enough away. -/
theorem nearest_of_visible (hs : Hit.Regular (tracer.scene.hits origin direction)) {h : Hit α σ}
    (hh : tracer.visibleHit? origin direction = some h) :
    h ∈ tracer.scene.hits origin direction ∧ tracer.tolerance.hitEpsilon < h.t ∧
      ∀ k ∈ tracer.scene.hits origin direction, tracer.tolerance.hitEpsilon < k.t → h.t ≤ k.t :=
  Hit.nearest_of_find? hs.inOrder (Option.filter_eq_some_iff.mp hh).1

end Ordered

variable {ε ω : Type}

/-- **What stands in front of a light**: a crossing nearer than the light, whether or not it is the
first that is seen. -/
theorem occluded_iff_exists (tracer : Tracer Float σ) {start : Vec3 Float}
    {light : Illumination Float} (hs : Hit.Regular (tracer.scene.hits start light.toLight)) :
    tracer.occluded start light = true ↔ ∃ h ∈ tracer.scene.hits start light.toLight,
      tracer.tolerance.hitEpsilon < h.t ∧ h.t < light.distance.toFloat := by
  unfold occluded firstHit? Scene.firstHitAfter?
  cases hfirst : (tracer.scene.hits start light.toLight).find?
      fun h => decide (tracer.tolerance.hitEpsilon < h.t) with
  | none =>
    have hnone : ∀ h ∈ tracer.scene.hits start light.toLight,
        ¬ tracer.tolerance.hitEpsilon < h.t := by
      simpa using hfirst
    refine iff_of_false Bool.false_ne_true ?_
    rintro ⟨h, hmem, hlt, -⟩
    exact hnone h hmem hlt
  | some h =>
    -- The first crossing ahead is the nearest, so it is enough to compare this one with the light.
    obtain ⟨hmem, hlt, hnearest⟩ := Hit.nearest_of_find? hs.inOrder hfirst
    show decide (h.t < light.distance.toFloat) = true ↔ _
    rw [decide_eq_true_iff]
    constructor
    · exact fun hnear => ⟨h, hmem, hlt, hnear⟩
    · rintro ⟨k, hk, hseen, hnear⟩
      exact OrderedScalar.lt_of_le_of_lt (hnearest k hk hseen) hnear

/-- **The first crossing that is seen is the nearest.** Where every primitive has a span or nothing on
a line, a ray along it is black without a question in just two cases: no crossing of the scene is
behind the hit tolerance, or the number of those that are not is odd, since the ray starts inside. In
all other cases it asks about the crossing that has the smallest parameter of those behind the
tolerance. A light in its direction is occluded just if some crossing is behind the tolerance and in
front of the light. -/
theorem seen_is_nearest (tracer : Tracer Float σ) (origin direction : Vec3 Float)
    (h : ∀ p ∈ tracer.scene.primitives, Hit.IsSpan (p.hits origin direction)) :
    let hits := tracer.scene.hits origin direction
    let least := tracer.tolerance.hitEpsilon
    let dark := (∀ h ∈ hits, ¬ least < h.t) ∨ Odd (hits.countP fun h => decide (h.t ≤ least))
    (∀ depth, (tracer.trace depth origin direction : Shading Float σ ε ω _) =
      .done (.ok Vec3.zero) ↔ dark) ∧
    (¬ dark → ∃ h, tracer.visibleHit? origin direction = some h ∧
      (∀ depth, ∃ resume,
        (tracer.trace depth origin direction : Shading Float σ ε ω _) = .ask h.query resume) ∧
      h ∈ hits ∧ least < h.t ∧ ∀ k ∈ hits, least < k.t → h.t ≤ k.t) ∧
    ∀ distance intensity, tracer.occluded origin ⟨direction, distance, intensity⟩ = true ↔
      ∃ h ∈ hits, least < h.t ∧ h.t < distance.toFloat := by
  intro hits least dark
  -- Everything follows from the list being in order and alternating.
  have hregular : Hit.Regular hits := Scene.regular_hits tracer.scene origin direction h
  have hdark := tracer.visibleHit?_eq_none_iff hregular
  refine ⟨fun depth => ?_, fun hnot => ?_, fun distance intensity => ?_⟩
  · rw [trace_eq_black_iff, hdark]
  · obtain ⟨k, hk⟩ := Option.ne_none_iff_exists'.mp (mt hdark.mp hnot)
    exact ⟨k, hk, tracer.exists_resume_of_visible hk, tracer.nearest_of_visible hregular hk⟩
  · exact tracer.occluded_iff_exists hregular

/-- A cube without a half of it, seen from outside and from within what is left. The nearest crossing
is where the line leaves the half. -/
theorem seen_is_nearest_half_cube :
    let half : Scene Float Unit := .primitive ⟨.cube, (), ⟨.scaling 0.5 1 1, .scaling 2 1 1⟩⟩
    let rest : Scene Float Unit := .join .difference (.atOrigin .cube ()) half
    let tracer : Tracer Float Unit := ⟨rest, [], Vec3.zero, .standard⟩
    let outside : Vec3 Float := ⟨-1, 0.5, 0.5⟩
    let inside : Vec3 Float := ⟨0.75, 0.5, 0.5⟩
    let direction : Vec3 Float := ⟨1, 0, 0⟩
    (∀ p ∈ rest.primitives, Hit.IsSpan (p.hits outside direction)) ∧
    (∀ p ∈ rest.primitives, Hit.IsSpan (p.hits inside direction)) ∧
    (∃ h ∈ rest.hits outside direction, tracer.visibleHit? outside direction = some h ∧
      h.t ≤ 1.5) ∧
    tracer.occluded outside ⟨direction, .finite 1.75, Vec3.zero⟩ = true ∧
    (tracer.trace 0 inside direction : Shading Float Unit Unit Unit _) = .done (.ok Vec3.zero) := by
  intro half rest tracer outside inside direction
  have houtside : ∀ p ∈ rest.primitives, Hit.IsSpan (p.hits outside direction) := by
    simp only [Primitive.isSpan_hits_iff]
    decide +kernel
  have hinside : ∀ p ∈ rest.primitives, Hit.IsSpan (p.hits inside direction) := by
    simp only [Primitive.isSpan_hits_iff]
    decide +kernel
  have hnear : ∃ k ∈ rest.hits outside direction, (1e-6 : Float) < k.t ∧ k.t ≤ 1.5 := by
    decide +kernel
  -- An even number of crossings lies behind the first ray, and an odd number behind the second.
  have heven : ¬ Odd ((rest.hits outside direction).countP fun k => decide (k.t ≤ (1e-6 : Float))) := by
    decide +kernel
  have hodd : Odd ((rest.hits inside direction).countP fun k => decide (k.t ≤ (1e-6 : Float))) := by
    decide +kernel
  obtain ⟨k, hk, hseen, hle⟩ := hnear
  obtain ⟨-, hvisible, hoccluded⟩ :=
    tracer.seen_is_nearest (ε := Unit) (ω := Unit) outside direction houtside
  obtain ⟨hblack, -, -⟩ := tracer.seen_is_nearest (ε := Unit) (ω := Unit) inside direction hinside
  obtain ⟨h, hh, -, hmem, -, hnearest⟩ :=
    hvisible fun hdark => hdark.elim (fun hnone => hnone k hk hseen) heven
  refine ⟨houtside, hinside, ⟨h, hmem, hh, ?_⟩, (hoccluded _ _).mpr ⟨k, hk, hseen, ?_⟩,
    (hblack 0).mpr (Or.inr hodd)⟩
  · exact OrderedScalar.le_trans (hnearest k hk hseen) hle
  · exact OrderedScalar.lt_of_le_of_lt hle (by decide +kernel)

end Tracer

end SceneTracer
