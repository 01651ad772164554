import SceneTracer.Scalar

namespace SceneTracer

/-!
# Vectors

Points, directions, normals and colours all have three components.

* `Vec3.dot`, `Vec3.length`, `Vec3.normalize` — lengths and angles.
* `Vec3.scale` — a vector times a scalar.
* `Vec3.tint` — the product by components, which filters one colour by another.
* `Vec3.reflect` — the mirror image about a unit normal.
-/

/-- Three components along the axes, or red, green and blue. -/
structure Vec3 (α : Type) where
  x : α
  y : α
  z : α
  deriving Repr, DecidableEq

namespace Vec3

variable {α : Type} [Scalar α]

instance : Add (Vec3 α) where
  add v w := ⟨v.x + w.x, v.y + w.y, v.z + w.z⟩

instance : Sub (Vec3 α) where
  sub v w := ⟨v.x - w.x, v.y - w.y, v.z - w.z⟩

instance : Neg (Vec3 α) where
  neg v := ⟨-v.x, -v.y, -v.z⟩

@[simp] theorem add_x (v w : Vec3 α) : (v + w).x = v.x + w.x := rfl
@[simp] theorem add_y (v w : Vec3 α) : (v + w).y = v.y + w.y := rfl
@[simp] theorem add_z (v w : Vec3 α) : (v + w).z = v.z + w.z := rfl
@[simp] theorem sub_x (v w : Vec3 α) : (v - w).x = v.x - w.x := rfl
@[simp] theorem sub_y (v w : Vec3 α) : (v - w).y = v.y - w.y := rfl
@[simp] theorem sub_z (v w : Vec3 α) : (v - w).z = v.z - w.z := rfl
@[simp] theorem neg_x (v : Vec3 α) : (-v).x = -v.x := rfl
@[simp] theorem neg_y (v : Vec3 α) : (-v).y = -v.y := rfl
@[simp] theorem neg_z (v : Vec3 α) : (-v).z = -v.z := rfl

/-- The zero vector, which as a colour is black. -/
def zero : Vec3 α := ⟨0.0, 0.0, 0.0⟩

/-- A vector times a scalar. -/
def scale (v : Vec3 α) (s : α) : Vec3 α := ⟨v.x * s, v.y * s, v.z * s⟩

/-- The inner product. -/
def dot (v w : Vec3 α) : α := v.x * w.x + v.y * w.y + v.z * w.z

/-- The Euclidean length. -/
def length (v : Vec3 α) : α := Scalar.sqrt (v.dot v)

/-- The unit vector along `v`. -/
def normalize (v : Vec3 α) : Vec3 α := v.scale (1.0 / v.length)

/-- The product by components. -/
def tint (v w : Vec3 α) : Vec3 α := ⟨v.x * w.x, v.y * w.y, v.z * w.z⟩

/-- The mirror image of `v` about the unit normal `n`. -/
def reflect (v n : Vec3 α) : Vec3 α := v - n.scale (2.0 * v.dot n)

end Vec3

end SceneTracer
