import SceneTracer.Files
import SceneTracer.Raster.Pixmap
import SceneTracer.RenderJob
import SceneTracer.Tracer

namespace SceneTracer

/-!
# Making pictures

* `Tracer.image` — the picture that a camera takes of a lit scene.
* `Renderer` — how pictures are made and where they are stored.
* `Renderer.backend` — makes the picture of each job and stores it.
-/

namespace Tracer

variable {α σ ε ω : Type} [Scalar α]

/-- Sets the pixels at `places` of a picture, one after another, to the colours that the camera sees.
It ends at the first pixel whose colour cannot be found. -/
def fill (tracer : Tracer α σ) (camera : Camera α) (depth : Nat) :
    List (Nat × Nat) → Raster (Vec3 α) → Shading α σ ε ω (Except ε (Raster (Vec3 α)))
  | [], image => .done (.ok image)
  | (x, y) :: places, image =>
    let ray := camera.ray x y
    (tracer.trace depth ray.origin ray.direction).bind fun
      | .error e => .done (.error e)
      | .ok color => tracer.fill camera depth places (image.set x y color)

/-- The picture that a camera takes, pixel by pixel and row by row. -/
def image (tracer : Tracer α σ) (camera : Camera α) (depth width height : Nat) :
    Shading α σ ε ω (Except ε (Raster (Vec3 α))) :=
  tracer.fill camera depth (Raster.places width height) (.blank width height .zero)

end Tracer

/-- How pictures are made, and the directory of those with relative names. -/
structure Renderer where
  tolerance : Tolerance Float
  directory : Option String

namespace Renderer

/-- The path of the picture with the given name. -/
def path (renderer : Renderer) (name : String) : String :=
  match renderer.directory with
  | some dir => Path.join dir name
  | none => name

/-- The lit scene of a job. -/
def tracer (renderer : Renderer) (job : RenderJob) : Tracer Float Closure :=
  { scene := job.scene
    lights := job.lights
    ambient := job.ambient
    tolerance := renderer.tolerance }

/-- The picture of a job. -/
def image {ω : Type} (renderer : Renderer) (job : RenderJob) :
    Shading Float Closure Fault ω (Except Fault (Raster (Vec3 Float))) :=
  (renderer.tracer job).image (.ofView job.fieldOfView job.width job.height) job.depth job.width
    job.height

/-- Stores a file. It is assumed that a write fails when the file is made, and then changes no file, or
stores all bytes: what is on a disk that fills up between the two is not told here. -/
def store {Q A : Type} (path : String) (content : ByteArray) :
    Dialogue Q A Files (Except Fault Unit) :=
  .change
    (fun files =>
      match files.write path content with
      | .ok after => after
      | .error _ => files)
    fun files =>
      match files.write path content with
      | .ok _ => .done (.ok ())
      | .error reason => .done (.error (.unwritable path reason))

/-- Makes the picture of a job and stores it under its name. Nothing is stored unless the whole
picture can be made. -/
def backend (renderer : Renderer) : Backend Files := fun job =>
  (renderer.image job).bind fun
    | .error f => .done (.error f)
    | .ok image => store (renderer.path job.output) image.encode

end Renderer

end SceneTracer
