import SceneTracer.Fault
import SceneTracer.Finish
import SceneTracer.Scalar.Binary64

namespace SceneTracer

/-!
# Render jobs

* `RenderJob` — a picture to be made: the operands of `render`.
* `RenderJob.ofOperands` — the job that operands describe, or what is wrong with them.
* `Backend` — what makes pictures. It is told a job and may ask for finishes.
-/

/-- A picture to be made. -/
structure RenderJob where
  ambient : Vec3 Float
  lights : List (Light Float)
  scene : Scene Float Closure
  /-- How many reflections are followed. -/
  depth : Nat
  /-- The horizontal field of view, in degrees. -/
  fieldOfView : Float
  width : Nat
  height : Nat
  output : String

/-- What makes pictures: a computation for each job, with a state in `ω` of its own. -/
abbrev Backend (ω : Type) := RenderJob → Shading Float Closure Fault ω (Except Fault Unit)

namespace RenderJob

/-- The fault of an operand of `render` that is not of the sort it should be. -/
def wrongKind (wanted : Kind) (found : Value) : Fault :=
  .wrongKind (.operator .render) (.kind wanted) found.kind

/-- All lights of an array, or the fault of its first item that is none. -/
def lightsOf : List Value → Except Fault (List (Light Float))
  | [] => .ok []
  | .light l :: rest => (lightsOf rest).map (l :: ·)
  | v :: _ => .error (wrongKind .light v)

/-- The largest depth: 32 bits hold it. -/
def maxDepth : Nat := 4294967295

/-- The number of bytes of one pixel in memory. -/
def bytesPerPixel : Nat := 24

/-- The largest number of bytes that a picture may take in memory: 63 bits hold it. -/
def maxImageBytes : Nat := 9223372036854775807

/-- An operand that counts something, none of it or more but at most `limit`. -/
def countOf (which : Count) (limit : Nat) : Value → Except Fault Nat
  | .integer n =>
    if 0 ≤ n.toInt ∧ n.toInt ≤ limit then .ok n.toInt.toNat
    else .error (.domain (.badCount which n))
  | v => .error (wrongKind .integer v)

/-- The array operand of lights. -/
def lightsOperand : Value → Except Fault (List (Light Float))
  | .array items => lightsOf items
  | v => .error (wrongKind .array v)

/-- The solid operand. -/
def sceneOperand : Value → Except Fault (Scene Float Closure)
  | .object scene => .ok scene
  | v => .error (wrongKind .object v)

/-- The name operand. -/
def outputOperand : Value → Except Fault String
  | .string s => .ok s
  | v => .error (wrongKind .string v)

/-- A point operand. -/
def pointOperand : Value → Except Fault (Vec3 Float)
  | .point p => .ok p
  | v => .error (wrongKind .point v)

/-- A real operand. -/
def realOperand : Value → Except Fault Float
  | .real x => .ok x
  | v => .error (wrongKind .real v)

/-- The job that eight operands describe, given in the order in which they were pushed. The lights,
the solid and the name are checked first, the others in order, and the size of the picture last. -/
def ofOperands : List Value → Except Fault RenderJob
  | [ambient, lights, scene, depth, fieldOfView, width, height, output] => do
    let lights ← lightsOperand lights
    let scene ← sceneOperand scene
    let output ← outputOperand output
    let ambient ← pointOperand ambient
    let depth ← countOf .depth maxDepth depth
    let fieldOfView ← realOperand fieldOfView
    let width ← countOf .width maxImageBytes width
    let height ← countOf .height maxImageBytes height
    if width * height * bytesPerPixel ≤ maxImageBytes then
      return { ambient, lights, scene, depth, fieldOfView, width, height, output }
    else throw (.domain (.imageTooLarge width height))
  | _ => .error (.underflow (.operator .render))

end RenderJob

end SceneTracer
