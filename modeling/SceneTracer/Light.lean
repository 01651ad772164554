import SceneTracer.Vec3

namespace SceneTracer

/-!
# Lights

* `Light` — the three kinds of light source.
* `Light.illuminate` — what a light does at a point: where it comes from, from how far, and with
  which colour.
-/

/-- A light source. -/
inductive Light (α : Type)
  /-- Parallel light that travels along `direction`. -/
  | directional (direction color : Vec3 α)
  | point (position color : Vec3 α)
  /-- A lamp that shines towards `target`. `cutoff` is the half-angle of its cone in degrees;
  `exponent` sharpens the falloff towards the edge. -/
  | spot (position target color : Vec3 α) (cutoff exponent : α)

/-- What a light does at one point. -/
structure Illumination (α : Type) where
  /-- The unit vector from the point to the light. -/
  toLight : Vec3 α
  /-- The distance to the light. -/
  distance : Extended α
  intensity : Vec3 α

namespace Light

variable {α : Type} [Scalar α]

/-- How light falls off at a distance with the given square: not at all at distance one. -/
def attenuation (squaredDistance : α) : α := 100.0 / (99.0 + squaredDistance)

/-- What a light does at the point `p`. -/
def illuminate (light : Light α) (p : Vec3 α) : Illumination α :=
  match light with
  | .directional direction color => ⟨(-direction).normalize, .posInf, color⟩
  | .point position color =>
    let d := position - p
    let squared := d.dot d
    ⟨d.normalize, .finite (Scalar.sqrt squared), color.scale (attenuation squared)⟩
  | .spot position target color cutoff exponent =>
    let d := position - p
    let squared := d.dot d
    let distance := Scalar.sqrt squared
    let axis := (target - position).normalize
    let cosine := -(d.dot axis) / distance
    let intensity :=
      if cosine < Scalar.cos (Scalar.radians cutoff) then Vec3.zero
      else color.scale (Scalar.pow cosine exponent * attenuation squared)
    ⟨d.scale (1.0 / distance), .finite distance, intensity⟩

end Light

end SceneTracer
