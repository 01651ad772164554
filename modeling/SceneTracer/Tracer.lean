import SceneTracer.Camera
import SceneTracer.Finish
import SceneTracer.Light
import SceneTracer.Scene

namespace SceneTracer

/-!
# Following rays of light

The colour seen along a ray is that of the first surface it meets, lit by the lights that reach that
surface, and of what is mirrored in it.

* `Tolerance` — how far from a surface crossings count.
* `Tracer` — a lit scene.
* `Tracer.occluded` — whether something stands between a place and a light.
* `Tracer.trace` — the colour seen along a ray.
-/

/-- How far from a surface things count as away from it. -/
structure Tolerance (α : Type) where
  /-- Crossings up to this parameter are not seen. -/
  hitEpsilon : α
  /-- How far above a surface rays start that leave it. -/
  shadowBias : α

/-- A scene with its lights and the light that is everywhere. -/
structure Tracer (α σ : Type) where
  scene : Scene α σ
  lights : List (Light α)
  ambient : Vec3 α
  tolerance : Tolerance α

variable {α σ : Type} [Scalar α]

/-- The tolerances for scenes of a few units. -/
def Tolerance.standard : Tolerance α := ⟨1e-6, 1e-4⟩

namespace Tracer

/-- The first crossing that a ray sees. -/
def firstHit? (tracer : Tracer α σ) (origin direction : Vec3 α) : Option (Hit α σ) :=
  tracer.scene.firstHitAfter? tracer.tolerance.hitEpsilon origin direction

/-- The crossing whose surface a ray sees: the first one, if it leads into a solid. A ray that starts
inside a solid sees nothing. -/
def visibleHit? (tracer : Tracer α σ) (origin direction : Vec3 α) : Option (Hit α σ) :=
  (tracer.firstHit? origin direction).filter fun h => h.crossing = .entry

/-- Whether the first crossing seen from `start` towards a light is nearer than the light. -/
def occluded (tracer : Tracer α σ) (start : Vec3 α) (light : Illumination α) : Bool :=
  match tracer.firstHit? start light.toLight with
  | some h => Scalar.ltExtended (.finite h.t) light.distance
  | none => false

/-- Where rays start that leave the surface at a crossing. -/
def departure (tracer : Tracer α σ) (h : Hit α σ) : Vec3 α :=
  h.point + h.normal.scale tracer.tolerance.shadowBias

/-- Adds what one light contributes to `color`, the light that leaves the crossing `h` against
`direction`. A light behind the surface, or one that something occludes, contributes nothing. -/
def addLight (tracer : Tracer α σ) (h : Hit α σ) (finish : Finish α) (direction color : Vec3 α)
    (light : Light α) : Vec3 α :=
  let lit := light.illuminate h.point
  let diffuse := h.normal.dot lit.toLight
  if diffuse ≤ 0.0 ∨ tracer.occluded (tracer.departure h) lit then color
  else
    let half := (lit.toLight + -direction).normalize
    let specular := Scalar.pow (Scalar.nonneg (h.normal.dot half)) finish.exponent
    color + (lit.intensity.tint finish.color).scale (finish.kd * diffuse + finish.ks * specular)

/-- The light that leaves the crossing `h` against `direction`, but for what is mirrored there. -/
def directLight (tracer : Tracer α σ) (h : Hit α σ) (finish : Finish α) (direction : Vec3 α) :
    Vec3 α :=
  tracer.lights.foldl (tracer.addLight h finish direction)
    ((tracer.ambient.tint finish.color).scale finish.kd)

/-- The colour seen from `origin` along the unit vector `direction`, with at most `depth`
reflections. One finish is asked for at each surface that is seen, and a failure to give one ends the
computation. -/
def trace {ε ω : Type} (tracer : Tracer α σ) :
    Nat → Vec3 α → Vec3 α → Shading α σ ε ω (Except ε (Vec3 α))
  | depth, origin, direction =>
    match tracer.visibleHit? origin direction with
    | none => .done (.ok Vec3.zero)
    | some h => .ask h.query fun
      | .error e => .done (.error e)
      | .ok finish =>
        let direct := tracer.directLight h finish direction
        match depth with
        | 0 => .done (.ok direct)
        | depth + 1 =>
          if 0.0 < finish.ks then
            (tracer.trace depth (tracer.departure h) (direction.reflect h.normal)).map
              fun mirrored => mirrored.map fun color =>
                direct + (color.tint finish.color).scale finish.ks
          else .done (.ok direct)

end Tracer

end SceneTracer
