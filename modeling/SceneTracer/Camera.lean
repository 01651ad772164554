import SceneTracer.Vec3

namespace SceneTracer

/-!
# The camera

A pinhole camera with its eye at `(0, 0, -1)` looks along the third axis through a screen on which
the third coordinate is zero.

* `Camera.ofView` — the camera of a field of view and a picture size.
* `Camera.ray` — the ray through a pixel.
-/

/-- A starting point and a direction. -/
structure Ray (α : Type) where
  origin : Vec3 α
  direction : Vec3 α

/-- Where the screen is: its left and upper edge and the width of a pixel on it. -/
structure Camera (α : Type) where
  eye : Vec3 α
  left : α
  top : α
  pixel : α

namespace Camera

variable {α : Type} [Scalar α]

/-- The camera of a horizontal field of view in degrees, for a picture of the given size. -/
def ofView (fieldOfView : α) (width height : Nat) : Camera α :=
  let screenWidth := 2.0 * Scalar.tan (0.5 * Scalar.radians fieldOfView)
  let screenHeight := screenWidth * Scalar.ofNat height / Scalar.ofNat width
  { eye := ⟨0.0, 0.0, -1.0⟩
    left := -0.5 * screenWidth
    top := 0.5 * screenHeight
    pixel := screenWidth / Scalar.ofNat width }

/-- The ray through the middle of the pixel in column `x` and row `y`, counted from the upper left
corner. Its direction is a unit vector. -/
def ray (camera : Camera α) (x y : Nat) : Ray α :=
  let target : Vec3 α :=
    ⟨camera.left + (Scalar.ofNat x + 0.5) * camera.pixel,
     camera.top - (Scalar.ofNat y + 0.5) * camera.pixel,
     0.0⟩
  ⟨camera.eye, (target - camera.eye).normalize⟩

end Camera

end SceneTracer
