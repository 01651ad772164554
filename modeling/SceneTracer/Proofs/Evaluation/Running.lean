import SceneTracer.Proofs.Evaluation.Steps

namespace SceneTracer

/-!
# Running expression by expression

What an expression at the front of a body does to the bindings and the stack, where it does not
fail. With these laws a run is followed from one expression to the next.

* `evaluateWith_integer`, `evaluateWith_binder`, … — expressions other than operators.
* `evaluateWith_operator` — operators, by what their step does.
* `call_eq_ok` — closures, by what their body does.
-/

variable {ω : Type} {backend : Option (Backend ω)} {callClosure : Closure → Run ω Unit}
  {env : Environment} {es : List Expr} {stack : List Value} {world : ω}

@[simp] theorem evaluateWith_nil (m : Machine ω) :
    evaluateWith backend callClosure env [] m = .ok env m := rfl

/-- A literal is pushed. -/
@[simp] theorem evaluateWith_integer (n : Int64) :
    evaluateWith backend callClosure env (.integer n :: es) ⟨stack, world⟩ =
      evaluateWith backend callClosure env es ⟨.integer n :: stack, world⟩ := rfl

/-- A bound name is replaced by its value. -/
theorem evaluateWith_identifier {name : String} {v : Value} (h : env.get? name = some v) :
    evaluateWith backend callClosure env (.identifier name :: es) ⟨stack, world⟩ =
      evaluateWith backend callClosure env es ⟨v :: stack, world⟩ := by
  rw [evaluateWith, evaluateOne, h]
  rfl

/-- A binder takes the top of the stack and binds it for the expressions that follow. -/
@[simp] theorem evaluateWith_binder (name : String) (v : Value) :
    evaluateWith backend callClosure env (.binder name :: es) ⟨v :: stack, world⟩ =
      evaluateWith backend callClosure (env.bind name v) es ⟨stack, world⟩ := rfl

/-- A function becomes a closure over the bindings of the moment. -/
@[simp] theorem evaluateWith_function (body : List Expr) :
    evaluateWith backend callClosure env (.function body :: es) ⟨stack, world⟩ =
      evaluateWith backend callClosure env es ⟨.closure ⟨env, body⟩ :: stack, world⟩ := rfl

/-- An operator whose step succeeds goes on from the machine that it leaves, with the same
bindings. -/
theorem evaluateWith_operator {op : Operator} {m after : Machine ω}
    (h : operatorStep backend callClosure op m = .ok () after) :
    evaluateWith backend callClosure env (.operator op :: es) m =
      evaluateWith backend callClosure env es after := by
  show ((operatorStep backend callClosure op >>= fun _ => pure env) >>= fun env =>
    evaluateWith backend callClosure env es) m = _
  -- One step for the operator, one that keeps the bindings, and then the rest.
  rw [Run.bind_apply, Run.bind_apply, h]
  rfl

/-! ### Steps of operators -/

/-- Differences wrap around, and the second operand is on top of the stack. -/
@[simp] theorem operatorStep_subi (a b : Int64) :
    operatorStep backend callClosure .subi ⟨.integer b :: .integer a :: stack, world⟩ =
      .ok () ⟨.integer (a - b) :: stack, world⟩ := rfl

/-- Products wrap around. -/
@[simp] theorem operatorStep_muli (a b : Int64) :
    operatorStep backend callClosure .muli ⟨.integer b :: .integer a :: stack, world⟩ =
      .ok () ⟨.integer (a * b) :: stack, world⟩ := rfl

/-- Integers are compared as signed numbers. -/
@[simp] theorem operatorStep_lessi (a b : Int64) :
    operatorStep backend callClosure .lessi ⟨.integer b :: .integer a :: stack, world⟩ =
      .ok () ⟨.boolean (decide (a < b)) :: stack, world⟩ := rfl

/-- Applying a closure is calling it on the stack below it. -/
@[simp] theorem operatorStep_apply_closure (c : Closure) :
    operatorStep backend callClosure .apply ⟨.closure c :: stack, world⟩ =
      callClosure c ⟨stack, world⟩ := rfl

/-- A condition selects one of two closures, and only that one is called. -/
@[simp] theorem operatorStep_branch_closures (b : Bool) (consequent otherwise : Closure) :
    operatorStep backend callClosure .branch
        ⟨.closure otherwise :: .closure consequent :: .boolean b :: stack, world⟩ =
      callClosure (if b then consequent else otherwise) ⟨stack, world⟩ := by
  cases b <;> rfl

/-- A call succeeds where the body does, with one call fewer for those inside it. The bindings of
the body are dropped. -/
theorem call_eq_ok {calls : Nat} {c : Closure} {m after : Machine ω}
    (h : evaluateWith backend (call backend calls) c.environment c.body m = .ok env after) :
    call backend (calls + 1) c m = .ok () after := by
  show (evaluateWith backend (call backend calls) c.environment c.body >>= fun _ => pure ()) m = _
  -- The body runs with the bindings of the closure, and nothing of the caller's.
  rw [Run.bind_apply, h]
  rfl

end SceneTracer
