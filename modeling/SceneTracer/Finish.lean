import SceneTracer.Dialogue
import SceneTracer.Hit

namespace SceneTracer

/-!
# Finishes

What a renderer asks about a place on a surface, and what it is told.

* `SurfaceQuery` — a surface, a face and the two parameters of a place on it.
* `Finish` — the colour and the reflection coefficients there.
* `Shading` — a computation that asks such questions.
-/

/-- A place on a surface. -/
structure SurfaceQuery (α σ : Type) where
  surface : σ
  face : Face
  u : α
  v : α

/-- How a surface reflects light at one place. -/
structure Finish (α : Type) where
  color : Vec3 α
  /-- The coefficient of diffuse reflection. -/
  kd : α
  /-- The coefficient of specular reflection. -/
  ks : α
  /-- The exponent of specular reflection. -/
  exponent : α

/-- A computation that asks for finishes, with a state in `ω` of its own. An answer may be a failure
in `ε`. -/
abbrev Shading (α σ ε ω ρ : Type) :=
  Dialogue (SurfaceQuery α σ) (Except ε (Finish α)) ω ρ

/-- The question for the finish where a surface was crossed. -/
def Hit.query {α σ : Type} [Scalar α] (h : Hit α σ) : SurfaceQuery α σ :=
  ⟨h.primitive.surface, h.face, h.surfaceCoordinates.1, h.surfaceCoordinates.2⟩

end SceneTracer
