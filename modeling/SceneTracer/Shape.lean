import SceneTracer.Vec3

namespace SceneTracer

/-!
# Shapes

The five unit solids, in object space: a sphere of radius one about the origin; the cube between the
origin and `(1, 1, 1)`; a cylinder and a cone of radius one about the second axis with heights from
zero to one; and the plane on which the second coordinate is zero, facing up.

* `Face` — a number for each part of a boundary.
* `Shape.normalAt` — the outward normal at a point of a face.
* `Shape.surfaceCoordinates` — the two parameters of a point of a face.
-/

/-- A unit solid. -/
inductive Shape
  | sphere
  | cube
  | cylinder
  /-- It has a surface but no boundary that a ray could cross. -/
  | cone
  | plane
  deriving DecidableEq, Repr

/-- The number of a part of a solid's boundary, which surface functions are given. -/
abbrev Face := Int64

namespace Face

/-- No face: an end of a range that no boundary cuts off. -/
def missing : Face := -1

/-- The whole boundary of a sphere or a plane. -/
def whole : Face := 0

/-- The face of a cube on which the third coordinate is zero. -/
def front : Face := 0
/-- The face of a cube on which the third coordinate is one. -/
def back : Face := 1
/-- The face of a cube on which the first coordinate is zero. -/
def left : Face := 2
/-- The face of a cube on which the first coordinate is one. -/
def right : Face := 3
/-- The face of a cube on which the second coordinate is one. -/
def top : Face := 4
/-- The face of a cube on which the second coordinate is zero. -/
def bottom : Face := 5

/-- The curved side of a cylinder. -/
def side : Face := 0
/-- The cap of a cylinder at height one. -/
def upperCap : Face := 1
/-- The cap of a cylinder at height zero. -/
def lowerCap : Face := 2

end Face

namespace Shape

variable {α : Type} [Scalar α]

/-- The outward normal at the point `p` of a face, in object space. -/
def normalAt (shape : Shape) (face : Face) (p : Vec3 α) : Vec3 α :=
  match shape with
  | .sphere => p
  | .cube =>
    if face = Face.front then ⟨0.0, 0.0, -1.0⟩
    else if face = Face.back then ⟨0.0, 0.0, 1.0⟩
    else if face = Face.left then ⟨-1.0, 0.0, 0.0⟩
    else if face = Face.right then ⟨1.0, 0.0, 0.0⟩
    else if face = Face.top then ⟨0.0, 1.0, 0.0⟩
    else ⟨0.0, -1.0, 0.0⟩
  | .cylinder =>
    if face = Face.upperCap then ⟨0.0, 1.0, 0.0⟩
    else if face = Face.lowerCap then ⟨0.0, -1.0, 0.0⟩
    else ⟨p.x, 0.0, p.z⟩
  | .cone | .plane => ⟨0.0, 1.0, 0.0⟩

/-- The longitude of a point about the second axis as a fraction of a turn. The angle is at most half
a turn to either side, so one turn more makes a negative one positive. -/
def longitude (p : Vec3 α) : α :=
  let turn := Scalar.atan2 p.x p.z / (2.0 * Scalar.pi)
  if turn < 0.0 then turn + 1.0 else turn

/-- The two parameters of the object-space point `p` of a face. Faces that a shape does not have
count as its last one. -/
def surfaceCoordinates (shape : Shape) (face : Face) (p : Vec3 α) : α × α :=
  match shape with
  | .sphere => (longitude p, (p.y + 1.0) / 2.0)
  | .cube =>
    if face = Face.front ∨ face = Face.back then (p.x, p.y)
    else if face = Face.left ∨ face = Face.right then (p.z, p.y)
    else (p.x, p.z)
  | .cylinder | .cone =>
    if face = Face.side then (longitude p, p.y)
    else ((p.x + 1.0) / 2.0, (p.z + 1.0) / 2.0)
  | .plane => (p.x, p.z)

end Shape

end SceneTracer
