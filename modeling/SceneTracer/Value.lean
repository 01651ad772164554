import SceneTracer.Expr
import SceneTracer.Light
import SceneTracer.Scene

namespace SceneTracer

/-!
# Values

What programs compute with. A function literal becomes a closure: its body with the bindings that
were in force where it was written. The surface of a primitive is a closure too.

* `Value`, `Closure` — the values.
* `Environment` — bindings, innermost first; a binding hides those behind it.
* `Kind` — what sort of value something is.
-/

mutual

/-- A value of the scene language. -/
inductive Value
  | integer (value : Int64)
  | real (value : Float)
  | boolean (value : Bool)
  | string (text : String)
  | point (p : Vec3 Float)
  | array (items : List Value)
  | closure (c : Closure)
  | object (scene : Scene Float Closure)
  | light (l : Light Float)

/-- A function body and the bindings in force where it was written. -/
structure Closure where
  environment : List (String × Value)
  body : List Expr

end

/-- The sorts of values. -/
inductive Kind
  | integer
  | real
  | boolean
  | string
  | point
  | array
  | closure
  | object
  | light
  deriving DecidableEq, Repr

/-- The sort of a value. -/
def Value.kind : Value → Kind
  | .integer _ => .integer
  | .real _ => .real
  | .boolean _ => .boolean
  | .string _ => .string
  | .point _ => .point
  | .array _ => .array
  | .closure _ => .closure
  | .object _ => .object
  | .light _ => .light

/-- The word for a sort of values. -/
def Kind.name : Kind → String
  | .integer => "integer"
  | .real => "real"
  | .boolean => "boolean"
  | .string => "string"
  | .point => "point"
  | .array => "array"
  | .closure => "closure"
  | .object => "object"
  | .light => "light"

/-- Bindings of names to values, innermost first. -/
abbrev Environment := List (String × Value)

namespace Environment

/-- No bindings. -/
def empty : Environment := []

/-- One more binding, inside all others. -/
def bind (env : Environment) (name : String) (value : Value) : Environment := (name, value) :: env

/-- The value of the innermost binding of `name`. -/
def get? (env : Environment) (name : String) : Option Value := env.lookup name

@[simp] theorem get?_empty (name : String) : empty.get? name = none := rfl

/-- The last binding of a name counts. -/
@[simp] theorem get?_bind_self (env : Environment) (name : String) (value : Value) :
    (env.bind name value).get? name = some value := by
  simp [bind, get?]

/-- A binding does not change the value of other names. -/
theorem get?_bind_of_ne (env : Environment) {name other : String} (value : Value)
    (h : other ≠ name) : (env.bind name value).get? other = env.get? other := by
  simp [bind, get?, List.lookup_cons, beq_false_of_ne h]

end Environment

end SceneTracer
