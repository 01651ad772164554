import SceneTracer.Files
import SceneTracer.Value

namespace SceneTracer

/-!
# Faults of a run

Why running a program stops. Every fault ends the whole run.
-/

/-- What asked for operands. -/
inductive Consumer
  | operator (op : Operator)
  /-- A binder takes the value that it binds. -/
  | binder
  /-- Shading takes what a surface function has left. -/
  | surface
  deriving DecidableEq, Repr

/-- What an operand is expected to be. Sizes and angles of transforms may be reals or integers. -/
inductive Wanted
  | kind (k : Kind)
  | number
  deriving DecidableEq, Repr

/-- The operands of `render` that count something. -/
inductive Count
  | depth
  | width
  | height
  deriving DecidableEq, Repr

/-- Why operands of the right sorts have no result. -/
inductive DomainFault
  | divisionByZero (op : Operator)
  | quotientOverflow (op : Operator)
  | negativeRoot (operand : Float)
  | zeroScale (x y z : Float)
  | badCount (which : Count) (value : Int64)
  | imageTooLarge (width height : Nat)

/-- Why a run stops. -/
inductive Fault
  | unbound (name : String)
  | wrongKind (consumer : Consumer) (wanted : Wanted) (found : Kind)
  | outOfRange (index : Int64) (length : Nat)
  | underflow (consumer : Consumer)
  /-- There is nothing to render with. -/
  | noRenderer
  | domain (fault : DomainFault)
  /-- The picture cannot be written to this path. -/
  | unwritable (path : String) (reason : FileFault)

end SceneTracer
