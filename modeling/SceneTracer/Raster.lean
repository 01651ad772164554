import SceneTracer.Vec3

namespace SceneTracer

/-!
# Rasters

* `Raster` — a picture in memory: rows of pixels, the uppermost row first.
* `Raster.blank`, `Raster.set` — a picture of one colour, and one with another pixel.
* `Raster.places` — the pixels of a picture, row by row.
-/

/-- A picture in memory. The pixel in column `x` and row `y` has the index `y * width + x`. -/
structure Raster (γ : Type) where
  width : Nat
  height : Nat
  pixels : Array γ

namespace Raster

variable {γ : Type}

/-- The picture of one colour. -/
def blank (width height : Nat) (color : γ) : Raster γ :=
  ⟨width, height, Array.replicate (width * height) color⟩

/-- The picture with the pixel in column `x` and row `y` changed. -/
def set (image : Raster γ) (x y : Nat) (color : γ) : Raster γ :=
  { image with pixels := image.pixels.setIfInBounds (y * image.width + x) color }

/-- The columns and rows of all pixels of a picture, row by row. -/
def places (width height : Nat) : List (Nat × Nat) :=
  (List.range height).flatMap fun y => (List.range width).map fun x => (x, y)

@[simp] theorem size_blank (width height : Nat) (color : γ) :
    (blank width height color).pixels.size = width * height := by
  simp [blank]

@[simp] theorem width_set (image : Raster γ) (x y : Nat) (color : γ) :
    (image.set x y color).width = image.width := rfl

@[simp] theorem height_set (image : Raster γ) (x y : Nat) (color : γ) :
    (image.set x y color).height = image.height := rfl

@[simp] theorem size_set (image : Raster γ) (x y : Nat) (color : γ) :
    (image.set x y color).pixels.size = image.pixels.size := by
  simp [set]

end Raster

end SceneTracer
