import SceneTracer.Fault
import SceneTracer.Scalar.Binary64

namespace SceneTracer

/-!
# What operators compute

All operators but `apply`, `if` and `render` take their operands and leave one value. Operands are
checked in the order in which they were pushed, all of them before anything is computed.

* `Operation` — a computation that names the sort of each operand.
* `Operation.run` — its outcome on a list of operands.
* `Operator.operation?` — the computation of an operator, none for the three that control the run.
-/

/-- A computation on operands: it takes an operand of some sort, or has all it needs. -/
inductive Operation
  | result (outcome : Except Fault Value)
  | integer (next : Int64 → Operation)
  | real (next : Float → Operation)
  /-- Takes a real, or an integer as a real. -/
  | number (next : Float → Operation)
  | point (next : Vec3 Float → Operation)
  | array (next : List Value → Operation)
  | closure (next : Closure → Operation)
  | object (next : Scene Float Closure → Operation)

namespace Operation

/-- A computation that cannot fail. -/
def value (v : Value) : Operation := .result (.ok v)

/-- A computation that has no result. -/
def fail (f : DomainFault) : Operation := .result (.error (.domain f))

/-- The outcome of an operation on its operands, in the order in which they were pushed. Operands
are the sort that is wanted or a fault names the first that is not. -/
def run (op : Operator) : Operation → List Value → Except Fault Value
  | .result outcome, [] => outcome
  | .integer next, .integer n :: rest => (next n).run op rest
  | .integer _, v :: _ => .error (.wrongKind (.operator op) (.kind .integer) v.kind)
  | .real next, .real x :: rest => (next x).run op rest
  | .real _, v :: _ => .error (.wrongKind (.operator op) (.kind .real) v.kind)
  | .number next, .real x :: rest => (next x).run op rest
  | .number next, .integer n :: rest => (next n.toFloat).run op rest
  | .number _, v :: _ => .error (.wrongKind (.operator op) .number v.kind)
  | .point next, .point p :: rest => (next p).run op rest
  | .point _, v :: _ => .error (.wrongKind (.operator op) (.kind .point) v.kind)
  | .array next, .array items :: rest => (next items).run op rest
  | .array _, v :: _ => .error (.wrongKind (.operator op) (.kind .array) v.kind)
  | .closure next, .closure c :: rest => (next c).run op rest
  | .closure _, v :: _ => .error (.wrongKind (.operator op) (.kind .closure) v.kind)
  | .object next, .object scene :: rest => (next scene).run op rest
  | .object _, v :: _ => .error (.wrongKind (.operator op) (.kind .object) v.kind)
  | _, _ => .error (.underflow (.operator op))

/-! ### Arithmetic -/

/-- Quotient or remainder, which exist unless the divisor is zero or the quotient has no 64 bits. -/
def divide (op : Operator) (f : Int64 → Int64 → Int64) (a b : Int64) : Operation :=
  if b = 0 then .fail (.divisionByZero op)
  else if a = Int64.minValue ∧ b = -1 then .fail (.quotientOverflow op)
  else .value (.integer (f a b))

/-- Sines and cosines this close to zero are zero. -/
def angleTolerance : Float := 1e-7

/-- A sine or cosine, zero if it is close to that. -/
def snapToZero (x : Float) : Float := if x.abs < angleTolerance then 0.0 else x

/-- The whole part of a number, rounded towards zero. -/
def wholePart (x : Float) : Float := if x < 0.0 then x.ceil else x.floor

/-- An angle in degrees, given in radians. -/
def degrees (x : Float) : Float := x * (180.0 / Scalar.pi)

/-- The square root of a number that is not negative. -/
def squareRoot (x : Float) : Operation :=
  if x < 0.0 then .fail (.negativeRoot x) else .value (.real x.sqrt)

/-! ### Arrays and solids -/

/-- The item of an array at an index counted from zero. -/
def item (items : List Value) (index : Int64) : Operation :=
  match if index < 0 then none else items[index.toInt.toNat]? with
  | some v => .value v
  | none => .result (.error (.outOfRange index items.length))

/-- A unit solid with the surface that is taken. -/
def solid (shape : Shape) : Operation :=
  .closure fun surface => .value (.object (.atOrigin shape surface))

/-- Two solids joined. -/
def joined (how : Join) : Operation :=
  .object fun a => .object fun b => .value (.object (.join how a b))

/-- A solid in another place. Moving and turning always have a result. -/
def moved (scene : Scene Float Closure) (c : Change Float) : Operation :=
  .value (.object ((scene.change? c).getD scene))

/-- A solid whose axes are stretched by the given factors, none of which may be zero. -/
def stretched (scene : Scene Float Closure) (x y z : Float) : Operation :=
  match scene.change? (.scale x y z) with
  | some changed => .value (.object changed)
  | none => .fail (.zeroScale x y z)

/-- A solid turned by an angle. -/
def turned (turn : Float → Change Float) : Operation :=
  .object fun scene => .number fun angle => moved scene (turn angle)

/-! ### Operations of one shape -/

/-- Two integers make a value. -/
def integers (f : Int64 → Int64 → Value) : Operation :=
  .integer fun a => .integer fun b => .value (f a b)

/-- One real makes a real. -/
def realFunction (f : Float → Float) : Operation := .real fun x => .value (.real (f x))

/-- Two reals make a value. -/
def reals (f : Float → Float → Value) : Operation := .real fun x => .real fun y => .value (f x y)

end Operation

/-! ### The operators -/

namespace Operator

open Operation

/-- What an operator computes; none for those that control the run. -/
def operation? : Operator → Option Operation
  | .addi => some (integers fun a b => .integer (a + b))
  | .subi => some (integers fun a b => .integer (a - b))
  | .muli => some (integers fun a b => .integer (a * b))
  | .divi => some (.integer fun a => .integer fun b => divide .divi (· / ·) a b)
  | .modi => some (.integer fun a => .integer fun b => divide .modi (· % ·) a b)
  | .negi => some (.integer fun a => .value (.integer (-a)))
  | .eqi => some (integers fun a b => .boolean (decide (a = b)))
  | .lessi => some (integers fun a b => .boolean (decide (a < b)))
  | .addf => some (reals fun x y => .real (x + y))
  | .subf => some (reals fun x y => .real (x - y))
  | .mulf => some (reals fun x y => .real (x * y))
  | .divf => some (reals fun x y => .real (x / y))
  | .eqf => some (reals fun x y => .boolean (x == y))
  | .lessf => some (reals fun x y => .boolean (decide (x < y)))
  | .negf => some (realFunction fun x => -x)
  | .sqrt => some (.real squareRoot)
  | .frac => some (realFunction fun x => x - wholePart x)
  | .clampf => some (realFunction Scalar.clampToUnit)
  | .sin => some (realFunction fun x => snapToZero (Float.sin (Scalar.radians x)))
  | .cos => some (realFunction fun x => snapToZero (Float.cos (Scalar.radians x)))
  | .asin => some (realFunction fun x => degrees x.asin)
  | .acos => some (realFunction fun x => degrees x.acos)
  | .floor => some (.real fun x => .value (.integer x.floor.toInt64))
  | .real => some (.integer fun n => .value (.real n.toFloat))
  | .point => some (.real fun x => .real fun y => .real fun z => .value (.point ⟨x, y, z⟩))
  | .getx => some (.point fun p => .value (.real p.x))
  | .gety => some (.point fun p => .value (.real p.y))
  | .getz => some (.point fun p => .value (.real p.z))
  | .get => some (.array fun items => .integer fun index => item items index)
  | .length => some (.array fun items => .value (.integer (.ofNat items.length)))
  | .sphere => some (solid .sphere)
  | .cube => some (solid .cube)
  | .cylinder => some (solid .cylinder)
  | .cone => some (solid .cone)
  | .plane => some (solid .plane)
  | .union => some (joined .union)
  | .intersect => some (joined .intersection)
  | .difference => some (joined .difference)
  | .translate => some (.object fun scene => .number fun x => .number fun y => .number fun z =>
      moved scene (.translate x y z))
  | .scale => some (.object fun scene => .number fun x => .number fun y => .number fun z =>
      stretched scene x y z)
  | .uscale => some (.object fun scene => .number fun s => stretched scene s s s)
  | .rotatex => some (turned .rotateX)
  | .rotatey => some (turned .rotateY)
  | .rotatez => some (turned .rotateZ)
  | .light => some (.point fun direction => .point fun color =>
      .value (.light (.directional direction color)))
  | .pointlight => some (.point fun position => .point fun color =>
      .value (.light (.point position color)))
  | .spotlight => some (.point fun position => .point fun target => .point fun color =>
      .real fun cutoff => .real fun exponent =>
        .value (.light (.spot position target color cutoff exponent)))
  | .apply | .branch | .render => none

end Operator

end SceneTracer
