import SceneTracer.Proofs.Renderer.Questions
import SceneTracer.Proofs.Scene.Normals

namespace SceneTracer

/-!
# Light adds up

Over exact scalars, the colour seen along a ray is a sum of what each light contributes. Which
surfaces a ray comes to does not depend on the lights, and neither does what is asked about them, so
lights can be added to a scene one by one, in any order.

* `Tracer.seen` — the colour seen along a ray, if finishes depend on places only.
* `Tracer.path`, `Tracer.colorAlong` — the surfaces that a ray comes to, and the light from them.
* `Tracer.seen_eq` — a ray is followed first and lit afterwards.
* `Tracer.colorAlong_litBy_append`, `Tracer.colorAlong_litBy_perm` — more lights, and other orders.
* `Tracer.seen_superposes` — both for the colours seen along rays.
-/

/-- A surface that a ray comes to along `direction`, with the finish there. -/
structure Bounce (α σ : Type) where
  hit : Hit α σ
  finish : Finish α
  direction : Vec3 α

namespace Tracer

section

variable {α σ ε : Type} [Scalar α]

/-- The same scene under other lights. -/
def litBy (tracer : Tracer α σ) (ambient : Vec3 α) (lights : List (Light α)) : Tracer α σ :=
  { tracer with ambient, lights }

/-- The colour seen along a ray if `reply` gives the finishes, or says why there is none. -/
def seen (reply : SurfaceQuery α σ → Except ε (Finish α)) (tracer : Tracer α σ) (depth : ℕ)
    (origin direction : Vec3 α) : Except ε (Vec3 α) :=
  let shading : Shading α σ ε Unit (Except ε (Vec3 α)) := tracer.trace depth origin direction
  Id.run (shading.conduct (fun query => pure (reply query)) fun _ => pure ())

/-- The surfaces that a ray comes to, one mirrored in the other, as long as there are finishes. -/
def path (reply : SurfaceQuery α σ → Except ε (Finish α)) (tracer : Tracer α σ) :
    ℕ → Vec3 α → Vec3 α → Except ε (List (Bounce α σ))
  | depth, origin, direction =>
    match tracer.visibleHit? origin direction with
    | none => .ok []
    | some h => match reply h.query with
      | .error e => .error e
      | .ok finish => match depth with
        | 0 => .ok [⟨h, finish, direction⟩]
        | depth + 1 =>
          if 0.0 < finish.ks then
            (tracer.path reply depth (tracer.departure h) (direction.reflect h.normal)).map
              fun bounces => ⟨h, finish, direction⟩ :: bounces
          else .ok [⟨h, finish, direction⟩]

/-- The light that comes back along a path. -/
def colorAlong (tracer : Tracer α σ) : List (Bounce α σ) → Vec3 α
  | [] => Vec3.zero
  | b :: bounces => tracer.directLight b.hit b.finish b.direction
      + ((tracer.colorAlong bounces).tint b.finish.color).scale b.finish.ks

/-- What a light contributes where a ray comes to a surface. -/
def contribution (tracer : Tracer α σ) (b : Bounce α σ) (light : Light α) : Vec3 α :=
  tracer.addLight b.hit b.finish b.direction Vec3.zero light

end

variable {α σ ε : Type} [ExactScalar α] (tracer : Tracer α σ)

/-! ### One surface -/

/-- The contribution of a light does not depend on the light that there is. -/
theorem addLight_eq (b : Bounce α σ) (color : Vec3 α) (light : Light α) :
    tracer.addLight b.hit b.finish b.direction color light
      = color + tracer.contribution b light := by
  unfold contribution addLight
  dsimp only
  split
  · exact (add_zero color).symm
  · rw [Vec3.zero_eq, zero_add]

/-- **The light that leaves a surface is a sum** of the light that is everywhere and of what each
light contributes, whatever the other lights are. -/
theorem directLight_litBy (ambient : Vec3 α) (lights : List (Light α)) (b : Bounce α σ) :
    (tracer.litBy ambient lights).directLight b.hit b.finish b.direction
      = (ambient.tint b.finish.color).scale b.finish.kd
        + (lights.map (tracer.contribution b)).sum := by
  show lights.foldl (tracer.addLight b.hit b.finish b.direction)
    ((ambient.tint b.finish.color).scale b.finish.kd) = _
  generalize (ambient.tint b.finish.color).scale b.finish.kd = color
  induction lights generalizing color with
  | nil => exact (add_zero color).symm
  | cons light lights ih =>
    rw [List.foldl_cons, ih, addLight_eq, List.map_cons, List.sum_cons, add_assoc]

/-- Lights add up at a surface, where the light that is everywhere goes with the first of them. -/
theorem directLight_litBy_append (ambient : Vec3 α) (first second : List (Light α))
    (b : Bounce α σ) :
    (tracer.litBy ambient (first ++ second)).directLight b.hit b.finish b.direction
      = (tracer.litBy ambient first).directLight b.hit b.finish b.direction
        + (tracer.litBy Vec3.zero second).directLight b.hit b.finish b.direction := by
  simp only [directLight_litBy]
  rw [Vec3.zero_eq, Vec3.zero_tint, Vec3.zero_scale, zero_add, List.map_append, List.sum_append,
    add_assoc]

/-- At a surface, the order of the lights makes no difference. -/
theorem directLight_litBy_perm (ambient : Vec3 α) {lights lights' : List (Light α)}
    (h : lights.Perm lights') (b : Bounce α σ) :
    (tracer.litBy ambient lights).directLight b.hit b.finish b.direction
      = (tracer.litBy ambient lights').directLight b.hit b.finish b.direction := by
  rw [directLight_litBy, directLight_litBy, (h.map _).sum_eq]

/-! ### A path -/

/-- The surfaces that a ray comes to are the same under all lights. -/
theorem path_litBy (reply : SurfaceQuery α σ → Except ε (Finish α)) (ambient : Vec3 α)
    (lights : List (Light α)) (depth : ℕ) (origin direction : Vec3 α) :
    (tracer.litBy ambient lights).path reply depth origin direction
      = tracer.path reply depth origin direction := by
  induction depth generalizing origin direction with
  | zero =>
    unfold path
    rfl
  | succ depth ih =>
    unfold path
    simp only [ih]
    rfl

/-- **Lights add up along a path**, where the light that is everywhere goes with the first of them. -/
theorem colorAlong_litBy_append (ambient : Vec3 α) (first second : List (Light α))
    (bounces : List (Bounce α σ)) :
    (tracer.litBy ambient (first ++ second)).colorAlong bounces
      = (tracer.litBy ambient first).colorAlong bounces
        + (tracer.litBy Vec3.zero second).colorAlong bounces := by
  induction bounces with
  | nil => exact (add_zero _).symm
  | cons b bounces ih =>
    rw [colorAlong, directLight_litBy_append, ih, Vec3.add_tint, Vec3.add_scale, add_add_add_comm]
    rfl

/-- Along a path, the order of the lights makes no difference. -/
theorem colorAlong_litBy_perm (ambient : Vec3 α) {lights lights' : List (Light α)}
    (h : lights.Perm lights') (bounces : List (Bounce α σ)) :
    (tracer.litBy ambient lights).colorAlong bounces
      = (tracer.litBy ambient lights').colorAlong bounces := by
  induction bounces with
  | nil => rfl
  | cons b bounces ih => rw [colorAlong, directLight_litBy_perm tracer ambient h, ih, colorAlong]

/-! ### Rays -/

/-- Nothing is mirrored at the last surface of a path. -/
theorem colorAlong_singleton (b : Bounce α σ) :
    tracer.colorAlong [b] = tracer.directLight b.hit b.finish b.direction := by
  show _ + (Vec3.zero.tint b.finish.color).scale b.finish.ks = _
  rw [Vec3.zero_eq, Vec3.zero_tint, Vec3.zero_scale, add_zero]

/-- **A ray is followed first and lit afterwards.** What is seen along it is the light that comes
back along its path, unless there is a surface on the path without a finish. -/
theorem seen_eq (reply : SurfaceQuery α σ → Except ε (Finish α)) (depth : ℕ)
    (origin direction : Vec3 α) :
    tracer.seen reply depth origin direction
      = (tracer.path reply depth origin direction).map tracer.colorAlong := by
  fun_induction path reply tracer depth origin direction with
  | case1 depth origin direction hmissed =>
    -- Nothing is seen, and no light comes back.
    unfold seen trace
    simp only [hmissed, Dialogue.conduct, Id.run_pure]
    rfl
  | case2 depth origin direction h hvisible e hreply =>
    unfold seen trace
    simp only [hvisible, hreply, Dialogue.conduct, pure_bind, Id.run_pure, Except.map]
  | case3 origin direction h hvisible finish hreply =>
    -- No reflection is left, so the surface is the last one.
    unfold seen trace
    simp only [hvisible, hreply, Dialogue.conduct, pure_bind, Id.run_pure, Except.map,
      colorAlong_singleton]
  | case4 origin direction h hvisible finish hreply depth hmirror ih =>
    unfold seen at ih
    unfold seen trace
    simp only [hvisible, hreply, Dialogue.conduct, pure_bind, if_pos hmirror, Dialogue.conduct_map,
      Id.run_map, ih]
    cases tracer.path reply depth (tracer.departure h) (direction.reflect h.normal) with
    | error e => rfl
    | ok bounces => rfl
  | case5 origin direction h hvisible finish hreply depth hmirror =>
    -- The surface mirrors nothing.
    unfold seen trace
    simp only [hvisible, hreply, Dialogue.conduct, pure_bind, if_neg hmirror, Id.run_pure,
      Except.map, colorAlong_singleton]

/-- **Light adds up.** Let each finish be a matter of the surface, the face and the two parameters
of a place. Under the lights of two lists a ray sees a colour just if it does under those of the
first, and otherwise it fails for the same reason. The colour is the sum of what it sees under the
lights of the first list and of what it sees under those of the second with no other light. The
order of the lights makes no difference. -/
theorem seen_superposes (reply : SurfaceQuery α σ → Except ε (Finish α)) (depth : ℕ)
    (origin direction ambient : Vec3 α) (first second : List (Light α)) :
    let seenUnder (ambient : Vec3 α) (lights : List (Light α)) :=
      (tracer.litBy ambient lights).seen reply depth origin direction
    (∀ e, seenUnder ambient (first ++ second) = .error e ↔ seenUnder ambient first = .error e) ∧
    (∀ color, seenUnder ambient first = .ok color →
      ∃ added, seenUnder Vec3.zero second = .ok added ∧
        seenUnder ambient (first ++ second) = .ok (color + added)) ∧
    ∀ lights, lights.Perm first → seenUnder ambient lights = seenUnder ambient first := by
  intro seenUnder
  -- Under all lights the ray is followed along one path.
  have hseen (ambient : Vec3 α) (lights : List (Light α)) : seenUnder ambient lights
      = (tracer.path reply depth origin direction).map
          (tracer.litBy ambient lights).colorAlong := by
    show (tracer.litBy ambient lights).seen reply depth origin direction = _
    rw [seen_eq, path_litBy]
  refine ⟨fun e => ?_, fun color hcolor => ?_, fun lights hlights => ?_⟩
  · rw [hseen, hseen]
    cases tracer.path reply depth origin direction with
    | error reason => rfl
    | ok bounces => exact iff_of_false nofun nofun
  · rw [hseen] at hcolor
    rw [hseen, hseen]
    cases hpath : tracer.path reply depth origin direction with
    | error reason =>
      rw [hpath] at hcolor
      cases hcolor
    | ok bounces =>
      rw [hpath] at hcolor
      cases hcolor
      have hcolor := tracer.colorAlong_litBy_append ambient first second bounces
      exact ⟨_, rfl, congrArg Except.ok hcolor⟩
  · have hcolor := funext (tracer.colorAlong_litBy_perm ambient hlights)
    rw [hseen, hseen, hcolor]

/-! ### A sphere in the sun -/

/-- Where a ray along the third axis comes to the unit sphere, from the distance `t`. -/
noncomputable def sphereFront (t : ℝ) : Hit ℝ Unit :=
  ⟨t, ⟨0, 0, -1⟩, ⟨0, 0, -1⟩, ⟨0, 0, -1⟩, .atOrigin .sphere (), .entry, Face.whole⟩

section

variable {tracer : Tracer ℝ Unit} (hscene : tracer.scene = .atOrigin .sphere ())
include hscene

/-- The ray sees the front of the sphere. -/
theorem visibleHit?_sphere (hnear : tracer.tolerance.hitEpsilon < 2) :
    tracer.visibleHit? ⟨0, 0, -3⟩ ⟨0, 0, 1⟩ = some (sphereFront 2) := by
  obtain ⟨rest, hhits⟩ :
      ∃ rest, tracer.scene.hits ⟨0, 0, -3⟩ ⟨0, 0, 1⟩ = sphereFront 2 :: rest := by
    have htime : (-(-3 * 1) - 1 : ℝ) = 2 := by norm_num
    rw [hscene, Scene.atOrigin, Scene.hits, Primitive.hits_atOrigin_axis () _ (mul_one 1), htime]
    exact ⟨_, rfl⟩
  exact tracer.visibleHit?_of_hits hhits rfl hnear

/-- Nothing is between the front of the sphere and the sun behind the eye: the whole sphere lies behind
the place from which light is looked for. -/
theorem occluded_sphereFront (hepsilon : 0 ≤ tracer.tolerance.hitEpsilon)
    (hbias : 0 < tracer.tolerance.shadowBias) (color : Vec3 ℝ) :
    tracer.occluded (tracer.departure (sphereFront 2)) ⟨⟨0, 0, -1⟩, .posInf, color⟩ = false := by
  have hstart : tracer.departure (sphereFront 2) = ⟨0, 0, -1 - tracer.tolerance.shadowBias⟩ := by
    ext <;> simp [departure, sphereFront, Vec3.scale, sub_eq_add_neg]
  have hback : (-1 : ℝ) * -1 = 1 := by norm_num
  rw [hstart]
  simp only [occluded, firstHit?, Scene.firstHitAfter?, hscene, Scene.atOrigin, Scene.hits,
    Primitive.hits_atOrigin_axis () _ hback]
  rw [List.find?_eq_none.mpr]
  intro h hh
  -- Both crossings lie behind the start.
  rcases List.mem_pair.mp hh with rfl | rfl
  all_goals
    rw [decide_eq_true_eq, not_lt]
    linarith only [hepsilon, hbias]

/-- What the front of a sphere that does not shine sends back of the sun behind the eye. -/
theorem contribution_sun (hepsilon : 0 ≤ tracer.tolerance.hitEpsilon)
    (hbias : 0 < tracer.tolerance.shadowBias) {finish : Finish ℝ} (hks : finish.ks = 0)
    (color : Vec3 ℝ) :
    tracer.contribution ⟨sphereFront 2, finish, ⟨0, 0, 1⟩⟩ (.directional ⟨0, 0, 1⟩ color)
      = (color.tint finish.color).scale finish.kd := by
  have hilluminate : (Light.directional ⟨0, 0, 1⟩ color).illuminate (sphereFront 2).point
      = ⟨⟨0, 0, -1⟩, .posInf, color⟩ := by
    have hneg : -(⟨0, 0, 1⟩ : Vec3 ℝ) = ⟨0, 0, -1⟩ := by
      ext <;> simp
    show Illumination.mk (-(⟨0, 0, 1⟩ : Vec3 ℝ)).normalize _ _ = _
    rw [hneg, Vec3.normalize_of_dot_self]
    norm_num [Vec3.dot]
  have hdiffuse : (sphereFront 2).normal.dot ⟨0, 0, -1⟩ = 1 := by norm_num [Vec3.dot, sphereFront]
  unfold contribution addLight
  simp only [hilluminate, occluded_sphereFront hscene hepsilon hbias, hdiffuse, hks]
  rw [if_neg (by norm_num), Vec3.zero_eq, zero_add, mul_one, zero_mul, add_zero]

/-- The colour seen on the front of such a sphere is a sum over the lights. -/
theorem seen_sphere (hnear : tracer.tolerance.hitEpsilon < 2) {finish : Finish ℝ}
    (hks : finish.ks = 0) (depth : ℕ) (ambient : Vec3 ℝ) (lights : List (Light ℝ)) :
    (tracer.litBy ambient lights).seen (fun _ => (.ok finish : Except ε (Finish ℝ))) depth
        ⟨0, 0, -3⟩ ⟨0, 0, 1⟩
      = .ok ((ambient.tint finish.color).scale finish.kd
        + (lights.map (tracer.contribution ⟨sphereFront 2, finish, ⟨0, 0, 1⟩⟩)).sum) := by
  have hmatt : ¬ (0.0 : ℝ) < finish.ks := by norm_num [hks]
  have hpath : tracer.path (fun _ => (.ok finish : Except ε (Finish ℝ))) depth ⟨0, 0, -3⟩ ⟨0, 0, 1⟩
      = .ok [⟨sphereFront 2, finish, ⟨0, 0, 1⟩⟩] := by
    unfold path
    simp only [visibleHit?_sphere hscene hnear]
    cases depth with
    | zero => rfl
    | succ depth => exact if_neg hmatt
  rw [seen_eq, path_litBy, hpath]
  show Except.ok ((tracer.litBy ambient lights).colorAlong _) = _
  rw [colorAlong_singleton, directLight_litBy]

end

/-- A sphere in the light of two suns, seen from where they shine. -/
theorem seen_superposes_suns :
    let finish : Finish ℝ := ⟨⟨1, 1, 1⟩, 1 / 2, 0, 1⟩
    let tracer : Tracer ℝ Unit :=
      ⟨.atOrigin .sphere (), [], ⟨1 / 4, 1 / 4, 1 / 4⟩, ⟨0, 1 / 10⟩⟩
    let sun (color : Vec3 ℝ) : Light ℝ := .directional ⟨0, 0, 1⟩ color
    let seenUnder (ambient : Vec3 ℝ) (lights : List (Light ℝ)) : Except Unit (Vec3 ℝ) :=
      (tracer.litBy ambient lights).seen (fun _ => .ok finish) 1 ⟨0, 0, -3⟩ ⟨0, 0, 1⟩
    seenUnder tracer.ambient [sun ⟨1, 0, 0⟩] = .ok ⟨5 / 8, 1 / 8, 1 / 8⟩ ∧
    seenUnder tracer.ambient [sun ⟨1, 0, 0⟩, sun ⟨0, 1, 0⟩] = .ok ⟨5 / 8, 5 / 8, 1 / 8⟩ ∧
    seenUnder tracer.ambient [sun ⟨0, 1, 0⟩, sun ⟨1, 0, 0⟩] = .ok ⟨5 / 8, 5 / 8, 1 / 8⟩ := by
  intro finish tracer sun seenUnder
  have hlight (color : Vec3 ℝ) : tracer.contribution ⟨sphereFront 2, finish, ⟨0, 0, 1⟩⟩ (sun color)
      = (color.tint finish.color).scale finish.kd :=
    contribution_sun rfl le_rfl (by norm_num [tracer]) rfl color
  have hseen (ambient : Vec3 ℝ) (lights : List (Light ℝ)) : seenUnder ambient lights = _ :=
    seen_sphere rfl (by norm_num [tracer]) rfl 1 ambient lights
  have hred : seenUnder tracer.ambient [sun ⟨1, 0, 0⟩] = .ok ⟨5 / 8, 1 / 8, 1 / 8⟩ := by
    simp only [hseen, List.map_cons, List.map_nil, List.sum_cons, List.sum_nil, hlight]
    congr 1
    ext <;> norm_num [Vec3.scale, Vec3.tint, finish, tracer]
  have hgreen : seenUnder Vec3.zero [sun ⟨0, 1, 0⟩] = .ok ⟨0, 1 / 2, 0⟩ := by
    simp only [hseen, List.map_cons, List.map_nil, List.sum_cons, List.sum_nil, hlight]
    congr 1
    ext <;> norm_num [Vec3.scale, Vec3.tint, finish, Vec3.zero_eq]
  -- The second sun adds what it gives alone.
  have hboth : seenUnder tracer.ambient [sun ⟨1, 0, 0⟩, sun ⟨0, 1, 0⟩]
      = .ok ⟨5 / 8, 5 / 8, 1 / 8⟩ := by
    obtain ⟨-, hsum, -⟩ := tracer.seen_superposes (fun _ => (.ok finish : Except Unit (Finish ℝ)))
      1 ⟨0, 0, -3⟩ ⟨0, 0, 1⟩ tracer.ambient [sun ⟨1, 0, 0⟩] [sun ⟨0, 1, 0⟩]
    obtain ⟨added, hadded, hboth⟩ := hsum _ hred
    obtain rfl := Except.ok.inj (hadded.symm.trans hgreen)
    refine hboth.trans (congrArg Except.ok ?_)
    ext <;> norm_num
  obtain ⟨-, -, hperm⟩ := tracer.seen_superposes (fun _ => (.ok finish : Except Unit (Finish ℝ)))
    1 ⟨0, 0, -3⟩ ⟨0, 0, 1⟩ tracer.ambient [sun ⟨1, 0, 0⟩, sun ⟨0, 1, 0⟩] []
  exact ⟨hred, hboth, (hperm _ (.swap _ _ _)).trans hboth⟩

end Tracer

end SceneTracer
