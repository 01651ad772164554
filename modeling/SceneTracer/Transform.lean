import SceneTracer.Mat4

namespace SceneTracer

/-!
# Transforms

The placing of a solid in the world: a matrix from object to world space, kept together with its
inverse. Every change multiplies the matrix from the left and the inverse from the right, so no
general matrix is ever inverted.

* `Change` — a way of moving, stretching or turning a solid.
* `Transform.change?` — one more change, after those made before.
* `Transform.changeUnlessFailed` — a change that is one of many, made where it stands.
* `Transform.point`, `Transform.vector`, `Transform.normal` — from object to world space.
* `Transform.inversePoint`, `Transform.inverseVector` — back.
-/

/-- A way of changing the place of a solid. Angles are in degrees. -/
inductive Change (α : Type)
  | translate (x y z : α)
  /-- Stretches each axis by its own factor. -/
  | scale (x y z : α)
  /-- Turns about the first axis. -/
  | rotateX (degrees : α)
  /-- Turns about the second axis. -/
  | rotateY (degrees : α)
  /-- Turns about the third axis. -/
  | rotateZ (degrees : α)

/-- A matrix and its inverse. -/
structure Transform (α : Type) where
  forward : Mat4 α
  backward : Mat4 α

namespace Transform

variable {α : Type} [Scalar α]

/-- The transform that changes nothing. -/
def identity : Transform α := ⟨.identity, .identity⟩

/-- Adds the map `forward`, whose inverse is `backward`, after the changes in `t`. -/
def andThen (t : Transform α) (forward backward : Mat4 α) : Transform α :=
  ⟨forward.mul t.forward, t.backward.mul backward⟩

/-- Adds a change. A stretch by zero has no inverse, and no result. -/
def change? (t : Transform α) : Change α → Option (Transform α)
  | .translate x y z => some (t.andThen (.translation x y z) (.translation (-x) (-y) (-z)))
  | .scale x y z =>
    if x == 0.0 || y == 0.0 || z == 0.0 then none
    else some (t.andThen (.scaling x y z) (.scaling (1.0 / x) (1.0 / y) (1.0 / z)))
  | .rotateX degrees =>
    let angle := Scalar.radians degrees
    some (t.andThen (.rotationX angle) (.rotationX (-angle)))
  | .rotateY degrees =>
    let angle := Scalar.radians degrees
    some (t.andThen (.rotationY angle) (.rotationY (-angle)))
  | .rotateZ degrees =>
    let angle := Scalar.radians degrees
    some (t.andThen (.rotationZ angle) (.rotationZ (-angle)))

/-- Makes a change where the transform stands, unless one before it has failed, and tells whether none
has failed since. A transform whose change has no result is left as it was. -/
def changeUnlessFailed (c : Change α) (t : Transform α) : StateM Bool (Transform α) := fun well =>
  if well then
    match t.change? c with
    | some changed => (changed, true)
    | none => (t, false)
  else (t, false)

/-- With no failure so far, the change is made or fails here. -/
theorem run_changeUnlessFailed_true (c : Change α) (t : Transform α) :
    (t.changeUnlessFailed c).run true = ((t.change? c).getD t, (t.change? c).isSome) := by
  show (match t.change? c with | some changed => (changed, true) | none => (t, false)) = _
  cases t.change? c <;> rfl

/-- The transform after a list of changes to `t`, of which those that have no result are left out. -/
def changeAll (t : Transform α) (changes : List (Change α)) : Transform α :=
  changes.foldl (fun t c => (t.change? c).getD t) t

/-- A point of object space in the world. -/
def point (t : Transform α) (p : Vec3 α) : Vec3 α := t.forward.apply p 1.0

/-- A direction of object space in the world. -/
def vector (t : Transform α) (v : Vec3 α) : Vec3 α := t.forward.apply v 0.0

/-- A normal of object space in the world, not of unit length. It goes through the transposed
inverse, so it stays perpendicular to its surface when the axes are stretched unevenly. -/
def normal (t : Transform α) (n : Vec3 α) : Vec3 α := t.backward.transpose.apply n 0.0

/-- A point of the world in object space. -/
def inversePoint (t : Transform α) (p : Vec3 α) : Vec3 α := t.backward.apply p 1.0

/-- A direction of the world in object space. -/
def inverseVector (t : Transform α) (v : Vec3 α) : Vec3 α := t.backward.apply v 0.0

end Transform

end SceneTracer
