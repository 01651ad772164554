import SceneTracer.Vec3

namespace SceneTracer

/-!
# Matrices

Four by four matrices act on points and directions in homogeneous coordinates.

* `Mat4.mul`, `Mat4.transpose` — matrix algebra.
* `Mat4.apply` — the action on a vector with a given fourth coordinate, which is dropped from the
  result.
* `Mat4.translation`, `Mat4.scaling`, `Mat4.rotationX`, `Mat4.rotationY`, `Mat4.rotationZ` — the
  elementary maps; angles are in radians.
-/

/-- A four by four matrix, by rows. -/
structure Mat4 (α : Type) where
  m00 : α
  m01 : α
  m02 : α
  m03 : α
  m10 : α
  m11 : α
  m12 : α
  m13 : α
  m20 : α
  m21 : α
  m22 : α
  m23 : α
  m30 : α
  m31 : α
  m32 : α
  m33 : α
  deriving Repr, DecidableEq

namespace Mat4

variable {α : Type}

/-- The entry in row `i` and column `j`. -/
def entry (m : Mat4 α) : Fin 4 → Fin 4 → α
  | 0, 0 => m.m00 | 0, 1 => m.m01 | 0, 2 => m.m02 | 0, 3 => m.m03
  | 1, 0 => m.m10 | 1, 1 => m.m11 | 1, 2 => m.m12 | 1, 3 => m.m13
  | 2, 0 => m.m20 | 2, 1 => m.m21 | 2, 2 => m.m22 | 2, 3 => m.m23
  | 3, 0 => m.m30 | 3, 1 => m.m31 | 3, 2 => m.m32 | 3, 3 => m.m33

/-- The matrix with the given entries. -/
def ofFn (f : Fin 4 → Fin 4 → α) : Mat4 α where
  m00 := f 0 0
  m01 := f 0 1
  m02 := f 0 2
  m03 := f 0 3
  m10 := f 1 0
  m11 := f 1 1
  m12 := f 1 2
  m13 := f 1 3
  m20 := f 2 0
  m21 := f 2 1
  m22 := f 2 2
  m23 := f 2 3
  m30 := f 3 0
  m31 := f 3 1
  m32 := f 3 2
  m33 := f 3 3

@[simp] theorem entry_ofFn (f : Fin 4 → Fin 4 → α) (i j : Fin 4) : (ofFn f).entry i j = f i j := by
  match i, j with
  | 0, 0 | 0, 1 | 0, 2 | 0, 3 | 1, 0 | 1, 1 | 1, 2 | 1, 3 => rfl
  | 2, 0 | 2, 1 | 2, 2 | 2, 3 | 3, 0 | 3, 1 | 3, 2 | 3, 3 => rfl

/-- The entries by rows. -/
def toList (m : Mat4 α) : List α :=
  [m.m00, m.m01, m.m02, m.m03, m.m10, m.m11, m.m12, m.m13,
   m.m20, m.m21, m.m22, m.m23, m.m30, m.m31, m.m32, m.m33]

/-- The mirror image about the diagonal. -/
def transpose (m : Mat4 α) : Mat4 α := ofFn fun i j => m.entry j i

variable [Scalar α]

/-- The matrix that changes nothing. -/
def identity : Mat4 α :=
  ⟨1.0, 0.0, 0.0, 0.0,
   0.0, 1.0, 0.0, 0.0,
   0.0, 0.0, 1.0, 0.0,
   0.0, 0.0, 0.0, 1.0⟩

/-- The product `a · b`. Each entry is summed from zero, from left to right. -/
def mul (a b : Mat4 α) : Mat4 α := ofFn fun i j =>
  0.0 + a.entry i 0 * b.entry 0 j + a.entry i 1 * b.entry 1 j + a.entry i 2 * b.entry 2 j
    + a.entry i 3 * b.entry 3 j

/-- The image of the vector `v` with fourth coordinate `w`, without its fourth coordinate. -/
def apply (m : Mat4 α) (v : Vec3 α) (w : α) : Vec3 α :=
  ⟨m.m00 * v.x + m.m01 * v.y + m.m02 * v.z + m.m03 * w,
   m.m10 * v.x + m.m11 * v.y + m.m12 * v.z + m.m13 * w,
   m.m20 * v.x + m.m21 * v.y + m.m22 * v.z + m.m23 * w⟩

/-- Moves points by `(x, y, z)`. -/
def translation (x y z : α) : Mat4 α :=
  ⟨1.0, 0.0, 0.0, x,
   0.0, 1.0, 0.0, y,
   0.0, 0.0, 1.0, z,
   0.0, 0.0, 0.0, 1.0⟩

/-- Stretches each axis by its own factor. -/
def scaling (x y z : α) : Mat4 α :=
  ⟨x, 0.0, 0.0, 0.0,
   0.0, y, 0.0, 0.0,
   0.0, 0.0, z, 0.0,
   0.0, 0.0, 0.0, 1.0⟩

/-- Turns about the first axis. -/
def rotationX (angle : α) : Mat4 α :=
  let s := Scalar.sin angle
  let c := Scalar.cos angle
  ⟨1.0, 0.0, 0.0, 0.0,
   0.0, c, -s, 0.0,
   0.0, s, c, 0.0,
   0.0, 0.0, 0.0, 1.0⟩

/-- Turns about the second axis. -/
def rotationY (angle : α) : Mat4 α :=
  let s := Scalar.sin angle
  let c := Scalar.cos angle
  ⟨c, 0.0, s, 0.0,
   0.0, 1.0, 0.0, 0.0,
   -s, 0.0, c, 0.0,
   0.0, 0.0, 0.0, 1.0⟩

/-- Turns about the third axis. -/
def rotationZ (angle : α) : Mat4 α :=
  let s := Scalar.sin angle
  let c := Scalar.cos angle
  ⟨c, -s, 0.0, 0.0,
   s, c, 0.0, 0.0,
   0.0, 0.0, 1.0, 0.0,
   0.0, 0.0, 0.0, 1.0⟩

end Mat4

end SceneTracer
