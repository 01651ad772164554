import SceneTracer.Shape

namespace SceneTracer

/-!
# Where a line is inside a unit solid

A convex solid holds one range of a line's parameter. The line starts at `o`, its direction `d` is a
unit vector, and both are in object space.

* `Span` — a range with the faces that bound it.
* `Span.clip` — the part that two ranges share.
* `Span.slab` — the range between two parallel planes.
* `Shape.span` — the range inside a unit solid.
-/

/-- A range of a line's parameter and the faces at its ends. -/
structure Span (α : Type) where
  near : Extended α
  nearFace : Face
  far : Extended α
  farFace : Face

variable {α : Type} [Scalar α]

namespace Span

/-- Direction components smaller than this count as parallel to a slab. -/
def parallelTolerance : α := 1e-12

/-- The whole line. -/
def all : Span α := ⟨.negInf, Face.missing, .posInf, Face.missing⟩

/-- What `s` and `o` share: the later of the near ends and the earlier of the far ones, with `s` first
where they meet. -/
def clip (s o : Span α) : Option (Span α) :=
  let near := if Scalar.ltExtended s.near o.near then (o.near, o.nearFace) else (s.near, s.nearFace)
  let far := if Scalar.ltExtended o.far s.far then (o.far, o.farFace) else (s.far, s.farFace)
  if Scalar.leExtended near.1 far.1 then some ⟨near.1, near.2, far.1, far.2⟩ else none

/-- The range in which `o + t · d` lies between zero and one, along one axis. A parallel line is
inside for ever or never. -/
def slab (o d : α) (low high : Face) : Option (Span α) :=
  if Scalar.abs d < parallelTolerance then
    if 0.0 ≤ o ∧ o ≤ 1.0 then some .all else none
  else
    let toLow := (0.0 - o) / d
    let toHigh := (1.0 - o) / d
    if 0.0 < d then some ⟨.finite toLow, low, .finite toHigh, high⟩
    else some ⟨.finite toHigh, high, .finite toLow, low⟩

end Span

namespace Shape

open SceneTracer.Span

/-- The range inside the unit sphere. -/
def sphereSpan (o d : Vec3 α) : Option (Span α) :=
  let b := o.dot d
  let c := o.dot o - 1.0
  let discriminant := b * b - c
  if discriminant < 0.0 then none
  else
    let q := Scalar.sqrt discriminant
    some ⟨.finite (-b - q), Face.whole, .finite (-b + q), Face.whole⟩

/-- The range inside the unit cube. -/
def cubeSpan (o d : Vec3 α) : Option (Span α) := do
  let x ← slab o.x d.x Face.left Face.right
  let y ← slab o.y d.y Face.bottom Face.top
  let xy ← x.clip y
  let z ← slab o.z d.z Face.front Face.back
  xy.clip z

/-- The range inside the infinite cylinder of radius one about the second axis. -/
def tubeSpan (o d : Vec3 α) : Option (Span α) :=
  let a := d.x * d.x + d.z * d.z
  if a < parallelTolerance then
    if 1.0 < o.x * o.x + o.z * o.z then none else some .all
  else
    let b := o.x * d.x + o.z * d.z
    let c := o.x * o.x + o.z * o.z - 1.0
    let discriminant := b * b - a * c
    if discriminant < 0.0 then none
    else
      let q := Scalar.sqrt discriminant
      some ⟨.finite ((-b - q) / a), Face.side, .finite ((-b + q) / a), Face.side⟩

/-- The range inside the unit cylinder. -/
def cylinderSpan (o d : Vec3 α) : Option (Span α) := do
  let side ← tubeSpan o d
  let caps ← slab o.y d.y Face.lowerCap Face.upperCap
  side.clip caps

/-- The single parameter at which the line crosses the plane. -/
def planeSpan (o d : Vec3 α) : Option (Span α) :=
  if Scalar.abs d.y < parallelTolerance then none
  else
    let t := -o.y / d.y
    some ⟨.finite t, Face.whole, .finite t, Face.whole⟩

/-- The range of the line inside a unit solid, if there is one. -/
def span : Shape → Vec3 α → Vec3 α → Option (Span α)
  | .sphere => sphereSpan
  | .cube => cubeSpan
  | .cylinder => cylinderSpan
  | .cone => fun _ _ => none
  | .plane => planeSpan

end Shape

end SceneTracer
