import SceneTracer.Span
import SceneTracer.Transform

namespace SceneTracer

/-!
# Crossings of a primitive's boundary

* `Primitive` — a unit solid with its place in the world and its surface.
* `Hit` — one crossing of a boundary by a line.
* `Primitive.hits` — both crossings of a line with a primitive, or none.
-/

/-- Whether a line goes into a solid or comes out of it. -/
inductive Crossing
  | entry
  | exit
  deriving DecidableEq, Repr

/-- The crossing that leads inside, or the one that leads outside. -/
def Crossing.ofInside (inside : Bool) : Crossing := if inside then .entry else .exit

/-- A unit solid with its surface, of any type `σ`, and its place in the world. -/
structure Primitive (α σ : Type) where
  shape : Shape
  surface : σ
  transform : Transform α

/-- A crossing of a boundary, in world units. The normal of a solid is its outward unit normal, so it
points against the line on an entry and along it on an exit. A plane has no inside: it is entered and
left at the same point, with its upward normal on the entry and the downward one on the exit, from
whichever side the line comes. For a line from below, the normal points along it on the entry. -/
structure Hit (α σ : Type) where
  /-- The parameter along the line. -/
  t : α
  point : Vec3 α
  /-- The same point in the object space of the primitive. -/
  objectPoint : Vec3 α
  normal : Vec3 α
  primitive : Primitive α σ
  crossing : Crossing
  face : Face

variable {α σ : Type} [Scalar α]

/-- The two parameters of the surface where it was crossed. -/
def Hit.surfaceCoordinates (h : Hit α σ) : α × α :=
  h.primitive.shape.surfaceCoordinates h.face h.objectPoint

namespace Primitive

/-- A primitive in its own object space. -/
def atOrigin (shape : Shape) (surface : σ) : Primitive α σ := ⟨shape, surface, .identity⟩

/-- The outward normal in object space. The two sides of a plane face away from each other. -/
def outwardNormal (p : Primitive α σ) (crossing : Crossing) (face : Face) (q : Vec3 α) : Vec3 α :=
  let n := p.shape.normalAt face q
  if p.shape = .plane ∧ crossing = .exit then -n else n

/-- The crossing at the end `t` of a span. The line starts at `origin` with direction `direction` in
the world, and at `o` with unit direction `d` in object space, where `direction` has the length
`length`. -/
def hitAt (p : Primitive α σ) (origin direction o d : Vec3 α) (length : α)
    (t : Extended α) (face : Face) (crossing : Crossing) : Hit α σ :=
  let objectTime := Scalar.ofExtended t
  let objectPoint := o + d.scale objectTime
  let time := objectTime / length
  { t := time
    point := origin + direction.scale time
    objectPoint
    normal := (p.transform.normal (p.outwardNormal crossing face objectPoint)).normalize
    primitive := p
    crossing
    face }

/-- The crossings of the whole line through `origin` along `direction`, the entry first. The line is
solved in object space with a unit direction; the length that the direction has there brings the
parameter back to world units. -/
def hits (p : Primitive α σ) (origin direction : Vec3 α) : List (Hit α σ) :=
  let o := p.transform.inversePoint origin
  let raw := p.transform.inverseVector direction
  let length := raw.length
  let d := raw.scale (1.0 / length)
  match p.shape.span o d with
  | none => []
  | some s =>
    [p.hitAt origin direction o d length s.near s.nearFace .entry,
     p.hitAt origin direction o d length s.far s.farFace .exit]

end Primitive

end SceneTracer
