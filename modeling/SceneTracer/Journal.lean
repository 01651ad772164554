import SceneTracer.Renderer

namespace SceneTracer

/-!
# Journals of rendering

A backend can keep a journal: for each job it was given, what became of it. A job is entered when the
backend is done with it, so jobs of surface functions come before the job they are part of.

* `journaling` — a backend that keeps a journal.
* `Renderer.pictures`, `Renderer.probes`, `Renderer.stored` — backends that keep the pictures, the
  colours along given rays, or the fact alone that a picture was asked for.
-/

/-- The jobs a backend is done with, latest first, and what became of each. -/
abbrev Journal (τ : Type) := List (RenderJob × τ)

/-- A backend that enters in a journal what `make` gives for each job. -/
def journaling {ω τ : Type}
    (make : RenderJob → Shading Float Closure Fault ω (τ × Except Fault Unit)) :
    Backend (ω × Journal τ) := fun job =>
  ((make job).focus Prod.fst fun state whole => (state, whole.2)).bind fun (made, outcome) =>
    .change (fun whole => (whole.1, (job, made) :: whole.2)) fun _ => .done outcome

namespace Renderer

/-- Keeps the pictures of jobs, none of a job that fails, and stores no files. -/
def pictures (renderer : Renderer) : Backend (Unit × Journal (Option (Raster (Vec3 Float)))) :=
  journaling fun job => (renderer.image job).map fun
    | .ok image => (some image, .ok ())
    | .error f => (none, .error f)

/-- The colours along the given rays, each with its number of reflections. -/
def colors {ω : Type} (tracer : Tracer Float Closure) :
    List (Nat × Ray Float) → Shading Float Closure Fault ω (List (Except Fault (Vec3 Float)))
  | [] => .done []
  | (depth, ray) :: rays =>
    (tracer.trace depth ray.origin ray.direction).bind fun color =>
      (colors tracer rays).map (color :: ·)

/-- Keeps the colours along the given rays in the scene of each job. -/
def probes (renderer : Renderer) (rays : List (Nat × Ray Float)) :
    Backend (Unit × Journal (List (Except Fault (Vec3 Float)))) :=
  journaling fun job => (colors (renderer.tracer job) rays).map fun seen => (seen, .ok ())

/-- Stores pictures and keeps the jobs. -/
def stored (renderer : Renderer) : Backend (Files × Journal Unit) :=
  journaling fun job => (renderer.backend job).map fun outcome => ((), outcome)

end Renderer

end SceneTracer
