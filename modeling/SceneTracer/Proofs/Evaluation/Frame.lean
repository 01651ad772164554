import SceneTracer.Proofs.Evaluation.Steps

namespace SceneTracer

/-!
# What is below on the stack

A run that does not run out of operands takes no notice of what lies below its stack: with other
values put there it ends in the same way and leaves them where they are. This is so whatever is
called, by operators or by a backend.

* `Run.FramedAt` — a step at a machine takes no notice of values put below.
* `framedAt_operatorStep`, `framedAt_evaluateWith`, `framedAt_call` — operators, expressions, calls.
* `evaluate_frame` — whole runs.
-/

variable {ω ρ τ : Type}

/-- The same machine with the values `base` below its stack. -/
def Machine.above (m : Machine ω) (base : List Value) : Machine ω := m.withStack (m.stack ++ base)

namespace Run

/-- The step runs out of operands at `m`, or it ends with the values `base` below the stack as it
does without, and leaves them there. -/
def FramedAt (base : List Value) (m : Machine ω) (step : Run ω ρ) : Prop :=
  (∃ consumer after, step m = .error (.fault (.underflow consumer)) after) ∨
    step (m.above base) = mapMachine (fun after => after.above base) (step m)

variable {base : List Value} {m : Machine ω}

/-- A step that leaves the stack alone is framed at every machine. -/
theorem IgnoresStack.framedAt {step : Run ω ρ} (h : step.IgnoresStack) : FramedAt base m step := by
  refine Or.inr ?_
  rw [Machine.above, h m (m.stack ++ base), h.eq_mapMachine m]
  cases step m <;> rfl

theorem framedAt_pure (result : ρ) : FramedAt base m (pure result) :=
  (ignoresStack_pure result).framedAt

theorem framedAt_fail (f : Fault) : FramedAt base m (fail f : Run ω ρ) :=
  (ignoresStack_fail f).framedAt

/-- Two steps are framed if the first is, and the second from wherever the first leads. -/
theorem FramedAt.bind {step : Run ω ρ} {next : ρ → Run ω τ} (hstep : FramedAt base m step)
    (hnext : ∀ result after, step m = .ok result after → FramedAt base after (next result)) :
    FramedAt base m (step >>= next) := by
  rcases hstep with ⟨consumer, after, hm⟩ | hstep
  · exact Or.inl ⟨consumer, after, by rw [bind_apply, hm]⟩
  · -- With `base` the first step ends as it does without, so the second starts above `base`.
    unfold FramedAt
    rw [bind_apply, bind_apply, hstep]
    match hm : step m with
    | .ok result after => exact hnext result after hm
    | .error stop after => exact Or.inr rfl

/-! ### The stack -/

theorem framedAt_push (v : Value) : FramedAt base m (push v) := Or.inr rfl

/-- Taking a value is framed, or underflows without the values below. -/
theorem framedAt_pop (consumer : Consumer) : FramedAt base m (pop consumer) := by
  obtain ⟨stack, world⟩ := m
  cases stack with
  | nil => exact Or.inl ⟨consumer, _, rfl⟩
  | cons v rest => exact Or.inr rfl

/-- Operands are taken from above `base` if there are enough of them. -/
theorem framedAt_popMany {n : Nat} (h : n ≤ m.stack.length) : FramedAt base m (popMany n) := by
  refine Or.inr ?_
  have htake : (m.stack ++ base).take n = m.stack.take n := List.take_append_of_le_length h
  have hdrop : (m.stack ++ base).drop n = m.stack.drop n ++ base := List.drop_append_of_le_length h
  simp only [popMany, mapMachine, Machine.above, Machine.withStack, htake, hdrop]

/-- Taking a closure is framed: the fault for a value of another kind is the same. -/
theorem framedAt_popClosure (op : Operator) : FramedAt base m (popClosure op) := by
  refine (framedAt_pop _).bind fun v after _ => ?_
  cases v with
  | closure c => exact framedAt_pure c
  | _ => exact framedAt_fail _

end Run

/-! ### Operators -/

variable {base : List Value} {backend : Option (Backend ω)} {callClosure : Closure → Run ω Unit}

/-- An operator that computes a value is framed where the stack holds its operands. -/
theorem framedAt_operationStep {m : Machine ω} {op : Operator} (operation : Operation)
    (h : op.arity ≤ m.stack.length) : Run.FramedAt base m (operationStep op operation) := by
  refine (Run.framedAt_popMany h).bind fun operands after _ => ?_
  refine (Run.ignoresStack_ofExcept _).framedAt.bind fun v after _ => ?_
  exact Run.framedAt_push v

/-- Applying a closure is framed if calls are. -/
theorem framedAt_applyStep (hcall : ∀ c m, Run.FramedAt base m (callClosure c)) {m : Machine ω} :
    Run.FramedAt base m (applyStep callClosure) :=
  (Run.framedAt_popClosure _).bind fun c after _ => hcall c after

/-- Branching is framed if calls are, whichever closure is selected. -/
theorem framedAt_branchStep (hcall : ∀ c m, Run.FramedAt base m (callClosure c)) {m : Machine ω} :
    Run.FramedAt base m (branchStep callClosure) := by
  refine (Run.framedAt_popClosure _).bind fun otherwise _ _ => ?_
  refine (Run.framedAt_popClosure _).bind fun consequent _ _ => ?_
  refine (Run.framedAt_pop _).bind fun condition after _ => ?_
  match condition with
  | .boolean true => exact hcall consequent after
  | .boolean false => exact hcall otherwise after
  | .integer _ | .real _ | .string _ | .point _ | .array _ | .closure _ | .object _ | .light _ =>
    exact Run.framedAt_fail _

/-- Rendering takes its operands; the surface functions it has run do not see the stack. -/
theorem framedAt_renderStep {m : Machine ω} (h : Operator.render.arity ≤ m.stack.length) :
    Run.FramedAt base m (renderStep backend callClosure) := by
  refine (Run.framedAt_popMany h).bind fun operands _ _ => ?_
  refine (Run.ignoresStack_ofExcept _).framedAt.bind fun job _ _ => ?_
  match backend with
  | none => exact Run.framedAt_fail _
  | some backend =>
    have hconduct := Run.ignoresStack_conduct (ignoresStack_shadeWith callClosure) (backend job)
    exact (hconduct.bind Run.ignoresStack_ofExcept).framedAt

/-- **An operator with all its operands is framed** if calls are. Rendering and shading need no more
than that. -/
theorem framedAt_operandsStep (hcall : ∀ c m, Run.FramedAt base m (callClosure c)) {m : Machine ω}
    (op : Operator) (h : op.arity ≤ m.stack.length) :
    Run.FramedAt base m (operandsStep backend callClosure op) := by
  revert h
  refine operandsStep_cases
    (motive := fun op step => op.arity ≤ m.stack.length → Run.FramedAt base m step)
    backend callClosure ?_ ?_ ?_ ?_ op
  · intro op operation _ h
    exact framedAt_operationStep operation h
  · intro _
    exact framedAt_applyStep hcall
  · intro _
    exact framedAt_branchStep hcall
  · exact framedAt_renderStep

/-- An operator takes no notice of what is below its operands, though it asks the whole stack
whether it has them. -/
theorem framedAt_operatorStep (hcall : ∀ c m, Run.FramedAt base m (callClosure c))
    (m : Machine ω) (op : Operator) :
    Run.FramedAt base m (operatorStep backend callClosure op) := by
  by_cases h : m.stack.length < op.arity
  · exact Or.inl ⟨.operator op, m, by rw [operatorStep_apply, if_pos h]⟩
  · -- A stack that holds the operands holds them with `base` below it.
    have habove : ¬ (m.above base).stack.length < op.arity := by
      simp only [Machine.above, Machine.stack_withStack, List.length_append]
      omega
    unfold Run.FramedAt
    rw [operatorStep_apply, operatorStep_apply, if_neg h, if_neg habove]
    exact framedAt_operandsStep hcall op (Nat.le_of_not_lt h)

/-! ### Expressions and calls -/

/-- A single expression is framed if calls are. -/
theorem framedAt_evaluateOne (hcall : ∀ c m, Run.FramedAt base m (callClosure c))
    (env : Environment) (m : Machine ω) (e : Expr) :
    Run.FramedAt base m (evaluateOne backend callClosure env e) := by
  cases e with
  | integer _ | real _ | boolean _ | string _ | function _ =>
    exact (Run.framedAt_push _).bind fun _ _ _ => Run.framedAt_pure env
  | identifier name =>
    rw [evaluateOne]
    cases env.get? name with
    | some v => exact (Run.framedAt_push v).bind fun _ _ _ => Run.framedAt_pure env
    | none => exact Run.framedAt_fail _
  | binder name =>
    exact (Run.framedAt_pop _).bind fun v _ _ => Run.framedAt_pure (env.bind name v)
  | array items =>
    -- The items run on a stack of their own, so nothing need be known of them.
    have hitems := Run.ignoresStack_onStack [] (evaluateWith backend callClosure env items)
    refine hitems.framedAt.bind fun result _ _ => ?_
    exact (Run.framedAt_push _).bind fun _ _ _ => Run.framedAt_pure env
  | operator op =>
    exact (framedAt_operatorStep hcall m op).bind fun _ _ _ => Run.framedAt_pure env

/-- A list of expressions is framed if calls are, by induction on the list: each expression starts
above the same values. -/
theorem framedAt_evaluateWith (hcall : ∀ c m, Run.FramedAt base m (callClosure c))
    (env : Environment) (m : Machine ω) (body : List Expr) :
    Run.FramedAt base m (evaluateWith backend callClosure env body) := by
  induction body generalizing env m with
  | nil => exact Run.framedAt_pure env
  | cons e es ih =>
    rw [evaluateWith]
    exact (framedAt_evaluateOne hcall env m e).bind fun env' after _ => ih env' after

/-- Calls are framed, however many may be nested. -/
theorem framedAt_call (calls : Nat) (c : Closure) (m : Machine ω) :
    Run.FramedAt base m (call backend calls c) := by
  induction calls generalizing c m with
  | zero => exact Or.inr rfl
  | succ calls ih =>
    -- The body calls with one call fewer left, for which the induction hypothesis speaks.
    have hbody : Run.FramedAt base m
        (evaluateWith backend (call backend calls) c.environment c.body) :=
      framedAt_evaluateWith ih c.environment m c.body
    exact hbody.bind fun _ _ _ => Run.framedAt_pure ()

/-- **What is below the stack does not matter.** A run that succeeds does so too with the values
`base` below its stack, with the same bindings, and leaves them below the stack that it leaves
without them. A run that stops, but not for want of operands, stops there for the same reason and
leaves them likewise. -/
theorem evaluate_frame (backend : Option (Backend ω)) (calls : Nat) (env : Environment)
    (body : List Expr) (stack base : List Value) (world : ω) :
    (∀ env' after, evaluate backend calls env body ⟨stack, world⟩ = .ok env' after →
      evaluate backend calls env body ⟨stack ++ base, world⟩
        = .ok env' ⟨after.stack ++ base, after.world⟩) ∧
    (∀ stop after, evaluate backend calls env body ⟨stack, world⟩ = .error stop after →
      (∀ consumer, stop ≠ .fault (.underflow consumer)) →
      evaluate backend calls env body ⟨stack ++ base, world⟩
        = .error stop ⟨after.stack ++ base, after.world⟩) := by
  have hframed : Run.FramedAt base ⟨stack, world⟩ (evaluate backend calls env body) :=
    framedAt_evaluateWith (framedAt_call calls) env ⟨stack, world⟩ body
  -- In either case the run has not stopped for want of operands.
  constructor
  · intro env' after hok
    rcases hframed with ⟨consumer, after', herror⟩ | hframed
    · rw [herror] at hok
      cases hok
    · rw [hok] at hframed
      exact hframed
  · intro stop after herror hstop
    rcases hframed with ⟨consumer, after', hunderflow⟩ | hframed
    · rw [hunderflow] at herror
      cases herror
      exact absurd rfl (hstop consumer)
    · rw [herror] at hframed
      exact hframed

/-- A ball is rendered over a value below, once with a surface function that leaves a finish and
once with one that leaves an integer. Its operands are made by `if`, by `apply` and by array
literals. -/
theorem evaluate_frame_render :
    let ask : Backend Nat := fun job =>
      match job.scene.primitives with
      | p :: _ => .ask ⟨p.surface, 0, 0.5, 0.5⟩ fun answer =>
          .change (· + 1) fun _ => .done (answer.map fun _ => ())
      | [] => .done (.ok ())
    let white : List Expr := [.real 1, .real 1, .real 1, .operator .point]
    let picture (surface : List Expr) : List Expr :=
      [.boolean true, .function white, .function [], .operator .branch,
        .function [.array []], .operator .apply, .function surface, .operator .sphere,
        .integer 3, .real 90, .integer 1, .integer 1, .string "ball.ppm", .operator .render]
    let finish := white ++ [.real 0.5, .real 0.5, .real 1]
    let wrong : Fault := .wrongKind .surface (.kind .real) .integer
    evaluate (some ask) 1 .empty (picture finish) ⟨[.integer 7] ++ [.string "below"], 0⟩
      = .ok .empty ⟨[.integer 7] ++ [.string "below"], 1⟩ ∧
    evaluate (some ask) 1 .empty (picture [.integer 4]) ⟨[.integer 7] ++ [.string "below"], 0⟩
      = .error (.fault wrong) ⟨[.integer 7] ++ [.string "below"], 1⟩ := by
  intro ask white picture finish wrong
  -- Both pictures are run without the value below; the general law adds it.
  have hfinish : evaluate (some ask) 1 .empty (picture finish) ⟨[.integer 7], 0⟩
      = .ok .empty ⟨[.integer 7], 1⟩ := rfl
  have hwrong : evaluate (some ask) 1 .empty (picture [.integer 4]) ⟨[.integer 7], 0⟩
      = .error (.fault wrong) ⟨[.integer 7], 1⟩ := rfl
  constructor
  · exact (evaluate_frame (some ask) 1 .empty (picture finish) _ [.string "below"] 0).1 _ _ hfinish
  · exact (evaluate_frame (some ask) 1 .empty (picture [.integer 4]) _ [.string "below"] 0).2 _ _
      hwrong (by simp [wrong])

end SceneTracer
