import SceneTracer.Operator.Operation
import SceneTracer.RenderJob

namespace SceneTracer

/-!
# Running programs

A program runs on one stack of operands, with bindings that it may add to. Function literals become
closures, array literals run on a stack of their own, and operators take their operands from the
stack. Rendering lends the evaluator to a backend, which may have surface functions run.

A program may call itself for ever, so a run is given a number of calls that may be nested; if it is
used up, the run is exhausted, which is no fault of the program.

* `Machine`, `Run` — the state of a run, and steps on it.
* `evaluate` — runs a list of expressions.
* `call` — runs a closure.
* `shade` — runs a surface function on a stack of its own.
-/

/-- The state of a run: the stack, topmost value first, and the state of the backend. -/
structure Machine (ω : Type) where
  stack : List Value
  world : ω

/-- Why a run does not go on. -/
inductive Stop
  | fault (f : Fault)
  /-- The calls that may be nested are used up. -/
  | exhausted

/-- A step of a run. What is on the stack stays there when it stops. -/
abbrev Run (ω ρ : Type) := EStateM Stop (Machine ω) ρ

namespace Run

variable {ω ρ : Type}

/-- Stops the run. -/
def fail (f : Fault) : Run ω ρ := throw (.fault f)

/-- A computation that may fail, as a step that leaves the state alone. -/
def ofExcept : Except Fault ρ → Run ω ρ
  | .ok result => pure result
  | .error f => fail f

/-- Puts a value on top of the stack. -/
def push (v : Value) : Run ω Unit := modify fun m => { m with stack := v :: m.stack }

/-- Takes the topmost value off the stack. -/
def pop (consumer : Consumer) : Run ω Value := fun m =>
  match m.stack with
  | [] => .error (.fault (.underflow consumer)) m
  | v :: rest => .ok v { m with stack := rest }

/-- Takes the `n` topmost values off the stack and gives them in the order in which they were
pushed. -/
def popMany (n : Nat) : Run ω (List Value) := fun m =>
  .ok (m.stack.take n).reverse { m with stack := m.stack.drop n }

/-- Takes a closure off the stack. Any other value is taken off too. -/
def popClosure (op : Operator) : Run ω Closure := do
  match ← pop (.operator op) with
  | .closure c => pure c
  | v => fail (.wrongKind (.operator op) (.kind .closure) v.kind)

/-- Runs a step on the stack `inner` and gives what it leaves there. The stack of before is put back
whether the step stops or not. -/
def onStack (inner : List Value) (step : Run ω ρ) : Run ω (ρ × List Value) := fun m =>
  match step { m with stack := inner } with
  | .ok result after => .ok (result, after.stack) { after with stack := m.stack }
  | .error stop after => .error stop { after with stack := m.stack }

/-- Runs a step and gives its fault, if it has one, instead of stopping. -/
def attempt (step : Run ω ρ) : Run ω (Except Fault ρ) := fun m =>
  match step m with
  | .ok result after => .ok (.ok result) after
  | .error (.fault f) after => .ok (.error f) after
  | .error .exhausted after => .error .exhausted after

/-- Changes the state of the backend and gives the one there was before. -/
def changeWorld (update : ω → ω) : Run ω ω := fun m =>
  .ok m.world { m with world := update m.world }

/-- Takes a real that a surface function has left. -/
def popReal : Run ω Float := do
  match ← pop .surface with
  | .real x => pure x
  | v => fail (.wrongKind .surface (.kind .real) v.kind)

/-- Takes the finish that a surface function has left: a colour and three reals. -/
def popFinish : Run ω (Finish Float) := do
  let exponent ← popReal
  let ks ← popReal
  let kd ← popReal
  match ← pop .surface with
  | .point color => pure { color, kd, ks, exponent }
  | v => fail (.wrongKind .surface (.kind .point) v.kind)

end Run

variable {ω : Type}

/-! ### Surfaces -/

/-- The finish at a place. The surface function runs, through `callClosure`, on a stack that holds
the face and the two parameters, and the caller's stack is put back whatever happens. -/
def shadeWith (callClosure : Closure → Run ω Unit) (query : SurfaceQuery Float Closure) :
    Run ω (Except Fault (Finish Float)) :=
  .attempt do
    let operands := [.real query.v, .real query.u, .integer query.face]
    let (finish, _) ← .onStack operands do
      callClosure query.surface
      .popFinish
    pure finish

/-! ### Operators -/

/-- Makes the picture that the eight topmost values describe. -/
def renderStep (backend : Option (Backend ω)) (callClosure : Closure → Run ω Unit) :
    Run ω Unit := do
  let operands ← Run.popMany Operator.render.arity
  let job ← Run.ofExcept (RenderJob.ofOperands operands)
  match backend with
  | none => Run.fail .noRenderer
  | some backend =>
    Run.ofExcept (← (backend job).conduct (shadeWith callClosure) Run.changeWorld)

/-- Calls the closure on top of the stack. -/
def applyStep (callClosure : Closure → Run ω Unit) : Run ω Unit := do
  callClosure (← Run.popClosure .apply)

/-- Calls one of the two closures on top of the stack, as the truth value below them says. -/
def branchStep (callClosure : Closure → Run ω Unit) : Run ω Unit := do
  let otherwise ← Run.popClosure .branch
  let consequent ← Run.popClosure .branch
  match ← Run.pop (.operator .branch) with
  | .boolean true => callClosure consequent
  | .boolean false => callClosure otherwise
  | v => Run.fail (.wrongKind (.operator .branch) (.kind .boolean) v.kind)

/-- Replaces operands by what an operation makes of them. -/
def operationStep (op : Operator) (operation : Operation) : Run ω Unit := do
  let operands ← Run.popMany op.arity
  Run.push (← Run.ofExcept (operation.run op operands))

/-- Runs an operator. The stack must hold all its operands before any is taken. -/
def operatorStep (backend : Option (Backend ω)) (callClosure : Closure → Run ω Unit)
    (op : Operator) : Run ω Unit := do
  if (← get).stack.length < op.arity then Run.fail (.underflow (.operator op))
  else match op.operation? with
    | some operation => operationStep op operation
    | none =>
      match op with
      | .apply => applyStep callClosure
      | .branch => branchStep callClosure
      | _ => renderStep backend callClosure

/-! ### Expressions -/

mutual

/-- Runs one expression and gives the bindings in force after it. -/
def evaluateOne (backend : Option (Backend ω)) (callClosure : Closure → Run ω Unit)
    (env : Environment) : Expr → Run ω Environment
  | .integer n => do Run.push (.integer n); pure env
  | .real x => do Run.push (.real x); pure env
  | .boolean b => do Run.push (.boolean b); pure env
  | .string s => do Run.push (.string s); pure env
  | .identifier name =>
    match env.get? name with
    | some v => do Run.push v; pure env
    | none => Run.fail (.unbound name)
  | .binder name => do pure (env.bind name (← Run.pop .binder))
  | .function body => do Run.push (.closure ⟨env, body⟩); pure env
  | .array items => do
    let (_, inner) ← Run.onStack [] (evaluateWith backend callClosure env items)
    Run.push (.array inner.reverse)
    pure env
  | .operator op => do operatorStep backend callClosure op; pure env

/-- Runs a list of expressions one after another, closures being run by `callClosure`, and gives the
bindings in force after the last. -/
def evaluateWith (backend : Option (Backend ω)) (callClosure : Closure → Run ω Unit)
    (env : Environment) : List Expr → Run ω Environment
  | [] => pure env
  | e :: es => do
    let env ← evaluateOne backend callClosure env e
    evaluateWith backend callClosure env es

end

/-- Runs a closure on the stack there is, with the bindings it was made with; those it adds are
dropped. At most `calls` calls may be nested. -/
def call (backend : Option (Backend ω)) : Nat → Closure → Run ω Unit
  | 0, _ => throw .exhausted
  | calls + 1, c => discard (evaluateWith backend (call backend calls) c.environment c.body)

/-- Runs a list of expressions and gives the bindings in force after the last. At most `calls` calls
may be nested. -/
def evaluate (backend : Option (Backend ω)) (calls : Nat) (env : Environment)
    (body : List Expr) : Run ω Environment :=
  evaluateWith backend (call backend calls) env body

/-- The finish at a place, by running its surface function. At most `calls` calls may be nested. -/
def shade (backend : Option (Backend ω)) (calls : Nat) (query : SurfaceQuery Float Closure) :
    Run ω (Except Fault (Finish Float)) :=
  shadeWith (call backend calls) query

end SceneTracer
