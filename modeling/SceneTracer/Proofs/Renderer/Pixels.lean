import SceneTracer.Journal
import SceneTracer.Proofs.Evaluation.Shading
import SceneTracer.Proofs.Raster.Painting
import SceneTracer.Renderer

namespace SceneTracer

/-!
# Pixels do not interfere

The colour of a pixel is found by following one ray, and it is the same colour if nothing else is
done: neither what was found for other pixels nor the operands that lie below has a say in it.

* `Tracer.alike_trace`, `Tracer.alike_fill` — rays are followed in the same way, whatever the state
  is.
* `Tracer.told_fill`, `Tracer.exists_told_pixel` — a picture is made of what is seen at each pixel.
* `Tracer.Composes` — a picture that is put together from rays followed alone.
* `shade_gives_and_pictures_compose` — shading and pictures do not depend on what else is done.
-/

variable {α σ ε ω ω' ρ : Type} [Scalar α] {R : ω → ω' → Prop}

namespace Tracer

variable (tracer : Tracer α σ) (camera : Camera α) (depth : Nat)

/-- Tracing does not go by a state: whatever relates the states of two runs, the same is asked in
both. -/
theorem alike_trace (origin direction : Vec3 α) :
    (tracer.trace depth origin direction : Shading α σ ε ω _).Alike R
      (tracer.trace depth origin direction) := by
  induction depth generalizing origin direction with
  | zero =>
    unfold trace
    cases tracer.visibleHit? origin direction with
    | none => exact .done _
    | some h =>
      refine .ask h.query fun answer => ?_
      cases answer <;> exact .done _
  | succ depth ih =>
    unfold trace
    cases tracer.visibleHit? origin direction with
    | none => exact .done _
    | some h =>
      refine .ask h.query fun answer => ?_
      cases answer with
      | error e => exact .done _
      | ok finish =>
        -- Whether a reflection is followed depends on the finish, which is the same in both runs.
        by_cases hks : 0.0 < finish.ks
        · simp only [if_pos hks]
          exact (ih _ _).bind fun _ => .done _
        · simp only [if_neg hks]
          exact .done _

/-- Filling a picture, pixel by pixel, does not go by a state. -/
theorem alike_fill (places : List (Nat × Nat)) (image : Raster (Vec3 α)) :
    (tracer.fill camera depth places image : Shading α σ ε ω _).Alike R
      (tracer.fill camera depth places image) := by
  induction places generalizing image with
  | nil => exact .done _
  | cons place places ih =>
    refine (tracer.alike_trace depth _ _).bind fun result => ?_
    cases result with
    | error e => exact .done _
    | ok color => exact ih _

/-- The colour that the camera sees in column `x` and row `y`. -/
def pixel (x y : Nat) : Shading α σ ε ω (Except ε (Vec3 α)) :=
  tracer.trace depth (camera.ray x y).origin (camera.ray x y).direction

/-- The first of the pixels is looked at, and the others if its colour is found. -/
theorem conduct_fill_cons {m : Type → Type} [Monad m] [LawfulMonad m]
    (answer : SurfaceQuery α σ → m (Except ε (Finish α))) (state : (ω → ω) → m ω)
    (place : Nat × Nat) (places : List (Nat × Nat)) (image : Raster (Vec3 α)) :
    (tracer.fill camera depth (place :: places) image).conduct answer state =
      (tracer.pixel camera depth place.1 place.2).conduct answer state >>= fun
        | .error e => pure (.error e)
        | .ok color => (tracer.fill camera depth places (image.set place.1 place.2 color)).conduct
            answer state := by
  show ((tracer.pixel camera depth place.1 place.2).bind _).conduct answer state = _
  rw [Dialogue.conduct_bind]
  congr 1
  funext result
  cases result <;> rfl

section Fill

variable {tracer camera depth} {reply : SurfaceQuery α σ → Except Stop (Except ε (Finish α))}
  {places : List (Nat × Nat)} {image picture : Raster (Vec3 α)}

/-- The first place is seen, and the rest is filled only if there is a colour for it. -/
theorem told_fill_cons (place : Nat × Nat) :
    (tracer.fill camera depth (place :: places) image : Shading α σ ε Unit _).told reply =
      (tracer.pixel camera depth place.1 place.2 : Shading α σ ε Unit _).told reply >>= fun
        | .error e => .ok (.error e)
        | .ok color => (tracer.fill camera depth places (image.set place.1 place.2 color) :
            Shading α σ ε Unit _).told reply :=
  tracer.conduct_fill_cons camera depth reply _ place places image

/-- Pixels whose colours can all be found are set to them. -/
theorem told_fill {colors : Nat × Nat → Vec3 α}
    (h : ∀ place ∈ places,
      (tracer.pixel camera depth place.1 place.2 : Shading α σ ε Unit _).told reply
        = .ok (.ok (colors place))) :
    (tracer.fill camera depth places image : Shading α σ ε Unit _).told reply
      = .ok (.ok (image.paint colors places)) := by
  induction places generalizing image with
  | nil => rfl
  | cons place places ih =>
    obtain ⟨hplace, hrest⟩ := List.forall_mem_cons.mp h
    rw [told_fill_cons, hplace]
    exact ih hrest

/-- A picture is made only if the colours of all its pixels can be found. -/
theorem exists_told_pixel
    (h : (tracer.fill camera depth places image : Shading α σ ε Unit _).told reply
      = .ok (.ok picture)) :
    ∀ place ∈ places, ∃ color,
      (tracer.pixel camera depth place.1 place.2 : Shading α σ ε Unit _).told reply
        = .ok (.ok color) := by
  induction places generalizing image with
  | nil => simp
  | cons place places ih =>
    rw [told_fill_cons] at h
    match hplace :
      (tracer.pixel camera depth place.1 place.2 : Shading α σ ε Unit _).told reply with
    | .ok (.ok color) =>
      rw [hplace] at h
      exact List.forall_mem_cons.mpr ⟨⟨color, hplace⟩, ih h⟩
    | .ok (.error e) | .error stop =>
      rw [hplace] at h
      cases h

end Fill

/-- The picture is put together from rays that are each followed alone. `answer` answers for the
surfaces. -/
structure Composes (tracer : Tracer Float Closure) (camera : Camera Float)
    (depth width height : Nat)
    (answer : SurfaceQuery Float Closure → Run ω (Except Fault (Finish Float)))
    (image : Raster (Vec3 Float)) : Prop where
  /-- Each pixel has the colour that is seen along its ray, on an empty stack and whatever was done
  before. -/
  alone : ∀ x y, x < width → y < height → ∃ color, image.pixel? x y = some color ∧
    ∀ world, ∃ world', (tracer.pixel camera depth x y).conduct answer Run.changeWorld ⟨[], world⟩
      = .ok (.ok color) ⟨[], world'⟩
  /-- The same picture is made in any order and above any operands, which are left alone. -/
  anyOrder : ∀ places, places.Perm (Raster.places width height) → ∀ world, ∃ world', ∀ stack,
    (tracer.fill camera depth places (.blank width height .zero)).conduct answer Run.changeWorld
      ⟨stack, world⟩ = .ok (.ok image) ⟨stack, world'⟩

/-- If the answers are always the same, a picture that is made is put together from rays followed
alone. -/
theorem composes_of_gives {tracer : Tracer Float Closure} {camera : Camera Float}
    {depth width height : Nat}
    {answer : SurfaceQuery Float Closure → Run ω (Except Fault (Finish Float))}
    {reply : SurfaceQuery Float Closure → Except Stop (Except Fault (Finish Float))}
    (hanswer : ∀ query, Run.Gives (reply query) (answer query)) {m after : Machine ω}
    {image : Raster (Vec3 Float)}
    (h : (tracer.image camera depth width height).conduct answer Run.changeWorld m
      = .ok (.ok image) after) :
    after.stack = m.stack ∧ tracer.Composes camera depth width height answer image := by
  let blank : Raster (Vec3 Float) := .blank width height .zero
  have hgives : ∀ places, Run.Gives
      ((tracer.fill camera depth places blank : Shading Float Closure Fault Unit _).told reply)
      ((tracer.fill camera depth places blank).conduct answer Run.changeWorld) :=
    fun places => Run.Gives.conduct hanswer (tracer.alike_fill camera depth places blank)
  -- What is seen at each pixel is known from the run that made the picture.
  obtain ⟨htold, hstack⟩ := (hgives (Raster.places width height)).of_ok h
  have : Nonempty (Vec3 Float) := ⟨.zero⟩
  choose! colors hcolors using exists_told_pixel htold
  have himage : image = blank.paint colors (Raster.places width height) := by
    have hpaint := htold.symm.trans (told_fill hcolors)
    exact Except.ok.inj (Except.ok.inj hpaint)
  have hplaces : ∀ place ∈ Raster.places width height, place.1 < blank.width :=
    fun place hplace => (Raster.mem_places.mp hplace).1
  refine ⟨hstack, ⟨fun x y hx hy => ⟨colors (x, y), ?_, fun world => ?_⟩, ?_⟩⟩
  · have hmem : (x, y) ∈ Raster.places width height := Raster.mem_places.mpr ⟨hx, hy⟩
    have hindex : y * width + x < blank.pixels.size := by
      rw [Raster.size_blank]
      exact Raster.index_lt hx hy
    rw [himage, Raster.pixel?_paint hplaces hx hindex, if_pos hmem]
  · have hpixel := Run.Gives.conduct (ω := ω) hanswer
      (tracer.alike_trace depth (camera.ray x y).origin (camera.ray x y).direction)
    obtain ⟨world', hrun⟩ := hpixel world
    have htrace := hcolors (x, y) (Raster.mem_places.mpr ⟨hx, hy⟩)
    exact ⟨world', (hrun []).trans (congrArg (Run.ended · _) htrace)⟩
  · intro places hperm world
    obtain ⟨world', hrun⟩ := hgives places world
    have hother : (tracer.fill camera depth places blank :
        Shading Float Closure Fault Unit _).told reply = .ok (.ok image) := by
      rw [told_fill fun place hplace => hcolors place (hperm.mem_iff.mp hplace), himage,
        Raster.paint_perm hperm.symm hplaces]
    exact ⟨world', fun stack => (hrun stack).trans (congrArg (Run.ended · _) hother)⟩

end Tracer

/-- A backend that keeps pictures does not go by those that it keeps. -/
theorem Renderer.settled_pictures (renderer : Renderer) : renderer.pictures.Settled := by
  refine settled_journaling fun job => ?_
  refine ((renderer.tracer job).alike_fill _ _ _ _).bind fun result => ?_
  cases result <;> exact .done _

/-- **Shading does not depend on the stack, and pixels do not interfere.** With a backend that goes
by its jobs and the answers alone, shading always comes to the same, and leaves the stack alone,
whether a finish is found or not. So a picture that a camera takes, in particular that of a job, is
put together from rays followed alone. -/
theorem shade_gives_and_pictures_compose (backend : Option (Backend ω)) (calls : Nat)
    (hbackend : ∀ b ∈ backend, b.Settled) :
    (∀ query, ∃ reply, Run.Gives reply (shade backend calls query)) ∧
    (∀ (tracer : Tracer Float Closure) (camera : Camera Float) (depth width height : Nat)
        (m after : Machine ω) (image : Raster (Vec3 Float)),
      (tracer.image camera depth width height).conduct (shade backend calls) Run.changeWorld m
        = .ok (.ok image) after →
      after.stack = m.stack ∧
      tracer.Composes camera depth width height (shade backend calls) image) ∧
    ∀ (renderer : Renderer) (job : RenderJob) (m after : Machine ω) (image : Raster (Vec3 Float)),
      (renderer.image job).conduct (shade backend calls) Run.changeWorld m = .ok (.ok image) after →
      after.stack = m.stack ∧
      (renderer.tracer job).Composes (.ofView job.fieldOfView job.width job.height) job.depth
        job.width job.height (shade backend calls) image := by
  have hshade := exists_gives_shade hbackend calls
  choose reply hreply using hshade
  refine ⟨fun query => ⟨reply query, hreply query⟩, ?_, ?_⟩
  · intro tracer camera depth width height m after image h
    exact Tracer.composes_of_gives hreply h
  · intro renderer job m after image h
    exact Tracer.composes_of_gives hreply h

/-- Whether a run has come to a result, without a failure, and `p` is so of it and of the machine
that is left. -/
def Run.cameTo (p : ρ → Machine ω → Bool) :
    EStateM.Result Stop (Machine ω) (Except Fault ρ) → Bool
  | .ok (.ok result) after => p result after
  | _ => false

/-- A run that was found to have a result has one. -/
theorem Run.exists_of_cameTo {p : ρ → Machine ω → Bool}
    {r : EStateM.Result Stop (Machine ω) (Except Fault ρ)} (h : cameTo p r = true) :
    ∃ result after, r = .ok (.ok result) after ∧ p result after = true := by
  match r with
  | .ok (.ok result) after => exact ⟨result, after, rfl, h⟩
  | .ok (.error _) _ | .error _ _ => cases h

/-- Two pixels of a cube are taken above an operand. For each, its surface renders a picture of its
own, builds an array of its coordinates, and has a function make a colour from the first. -/
theorem shade_gives_and_pictures_compose_cube :
    let white : List Expr := [.real 1, .real 1, .real 1, .operator .point]
    let inner : List Expr := white ++ [.array [], .function [], .operator .sphere, .integer 0,
      .real 90, .integer 0, .integer 0, .string "inner.ppm", .operator .render]
    let color : List Expr := [.array [.identifier "u", .identifier "v"], .integer 0, .operator .get,
      .binder "red", .function [.identifier "red", .real 0, .real 0, .operator .point],
      .operator .apply]
    let surface : List Expr := [.binder "v", .binder "u", .binder "face"] ++ inner ++ color ++
      [.real 1, .real 0, .real 1]
    let tracer : Tracer Float Closure :=
      { scene := .primitive (.atOrigin .cube ⟨[], surface⟩)
        lights := []
        ambient := ⟨1, 1, 1⟩
        tolerance := .standard }
    let camera : Camera Float := ⟨⟨0.5, 0.5, -1⟩, 0.25, 0.75, 0.25⟩
    let answer := shade (some (Renderer.mk .standard none).pictures) 2
    ∃ image after,
      (tracer.image camera 0 2 1).conduct answer Run.changeWorld ⟨[.integer 7], ((), [])⟩
        = .ok (.ok image) after ∧
      (image.pixel? 0 0).map (·.x) = some 0.375 ∧ (image.pixel? 1 0).map (·.x) = some 0.625 ∧
      after.stack = [.integer 7] ∧ after.world.2.length = 2 ∧
      tracer.Composes camera 0 2 1 answer image := by
  intro white inner color surface tracer camera answer
  have hbackend : ∀ b ∈ some (Renderer.mk .standard none).pictures, b.Settled := by
    rintro b ⟨⟩
    exact Renderer.settled_pictures _
  have hrun : Run.cameTo
      (fun image after => (image.pixel? 0 0).map (·.x) = some 0.375 ∧
        (image.pixel? 1 0).map (·.x) = some 0.625 ∧ after.world.2.length = 2)
      ((tracer.image camera 0 2 1).conduct answer Run.changeWorld ⟨[.integer 7], ((), [])⟩)
      = true := by
    decide +kernel
  obtain ⟨image, after, himage, hshown⟩ := Run.exists_of_cameTo hrun
  obtain ⟨hleft, hright, hjournal⟩ := of_decide_eq_true hshown
  obtain ⟨hstack, hcomposes⟩ :=
    (shade_gives_and_pictures_compose _ 2 hbackend).2.1 tracer camera 0 2 1 _ after image himage
  exact ⟨image, after, himage, hleft, hright, hstack, hjournal, hcomposes⟩

end SceneTracer
