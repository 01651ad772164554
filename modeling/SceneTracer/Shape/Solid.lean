import SceneTracer.Shape

namespace SceneTracer.Shape

/-!
# The points of a shape

* `Contains` — the points of a closed unit solid, in object space.
* `OnFace` — the points of the surface that a face is part of.
-/

variable {α : Type} [Scalar α]

/-- The point `p` is in the closed unit solid. -/
def Contains : Shape → Vec3 α → Prop
  | .sphere, p => p.dot p ≤ 1.0
  | .cube, p => (0.0 ≤ p.x ∧ p.x ≤ 1.0) ∧ (0.0 ≤ p.y ∧ p.y ≤ 1.0) ∧ (0.0 ≤ p.z ∧ p.z ≤ 1.0)
  | .cylinder, p => p.x * p.x + p.z * p.z ≤ 1.0 ∧ 0.0 ≤ p.y ∧ p.y ≤ 1.0
  | .cone, _ => False
  | .plane, p => p.y = 0.0

/-- The point `p` is on the surface that the face is part of. -/
def OnFace (shape : Shape) (face : Face) (p : Vec3 α) : Prop :=
  match shape with
  | .sphere => p.dot p = 1.0
  | .cube =>
    (face = Face.front ∧ p.z = 0.0) ∨ (face = Face.back ∧ p.z = 1.0) ∨
    (face = Face.left ∧ p.x = 0.0) ∨ (face = Face.right ∧ p.x = 1.0) ∨
    (face = Face.top ∧ p.y = 1.0) ∨ (face = Face.bottom ∧ p.y = 0.0)
  | .cylinder =>
    (face = Face.side ∧ p.x * p.x + p.z * p.z = 1.0) ∨
    (face = Face.upperCap ∧ p.y = 1.0) ∨ (face = Face.lowerCap ∧ p.y = 0.0)
  | .cone => False
  | .plane => p.y = 0.0

end SceneTracer.Shape
