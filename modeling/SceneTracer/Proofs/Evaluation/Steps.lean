import SceneTracer.Evaluation

namespace SceneTracer

/-!
# Laws of steps

How the steps of a run are put together, and which of them leave the stack alone. Shading and
rendering do, whatever surface functions do on the stacks that they are run on.

* `Run.bind_eq_ok`, `Run.bind_eq_error` — how one step after another ends.
* `Run.IgnoresStack` — steps that neither look at the stack nor change it.
* `Run.ignoresStack_conduct` — holding a dialogue is such a step if answering its questions is.
* `Run.Keeps` — steps that keep a property of all values on the stack.
* `operandsStep` — what an operator does that has all its operands.
* `evaluateWith_append` — one list of expressions after another.
-/

variable {ω ρ τ : Type}

/-- The same machine with the stack replaced. -/
def Machine.withStack (m : Machine ω) (stack : List Value) : Machine ω := { m with stack := stack }

@[simp] theorem Machine.stack_withStack (m : Machine ω) (stack : List Value) :
    (m.withStack stack).stack = stack := rfl

@[simp] theorem Machine.withStack_stack (m : Machine ω) : m.withStack m.stack = m := rfl

namespace Run

/-- The same end of a step, with the machine that is left changed by `f`. -/
def mapMachine (f : Machine ω → Machine ω) :
    EStateM.Result Stop (Machine ω) ρ → EStateM.Result Stop (Machine ω) ρ
  | .ok result after => .ok result (f after)
  | .error stop after => .error stop (f after)

/-! ### One step after another -/

/-- Two steps one after the other, written out: the second starts from the result and the machine of
the first, and a stop ends both. -/
theorem bind_apply (step : Run ω ρ) (next : ρ → Run ω τ) (m : Machine ω) :
    (step >>= next) m = match step m with
      | .ok result after => next result after
      | .error stop after => .error stop after := by
  show EStateM.bind step next m = _
  rw [EStateM.bind]
  cases step m <;> rfl

/-- Two steps succeed if both do. -/
theorem bind_eq_ok {step : Run ω ρ} {next : ρ → Run ω τ} {m m' : Machine ω} {result : τ} :
    (step >>= next) m = .ok result m' ↔
      ∃ first after, step m = .ok first after ∧ next first after = .ok result m' := by
  rw [bind_apply]
  cases step m with
  | ok first after => simp [and_assoc]
  | error stop after => simp

/-- Two steps stop where the first does, or where the second does. -/
theorem bind_eq_error {step : Run ω ρ} {next : ρ → Run ω τ} {m m' : Machine ω} {stop : Stop} :
    (step >>= next) m = .error stop m' ↔
      step m = .error stop m' ∨
      ∃ first after, step m = .ok first after ∧ next first after = .error stop m' := by
  rw [bind_apply]
  cases step m with
  | ok first after => simp [and_assoc]
  | error stop' after => simp

/-- A computed outcome becomes a step that succeeds just if there is a result, and that changes
nothing. -/
theorem ofExcept_eq_ok {outcome : Except Fault ρ} {m after : Machine ω} {result : ρ} :
    ofExcept outcome m = .ok result after ↔ outcome = .ok result ∧ after = m := by
  cases outcome with
  | ok result' =>
    show EStateM.Result.ok result' m = _ ↔ _
    simp [eq_comm]
  | error f =>
    show EStateM.Result.error (Stop.fault f) m = _ ↔ _
    simp

/-- Such a step stops with the fault that was computed. -/
theorem eq_error_of_ofExcept {outcome : Except Fault ρ} {m after : Machine ω} {f : Fault}
    (h : ofExcept outcome m = .error (.fault f) after) : outcome = .error f := by
  cases outcome <;> cases h
  rfl

/-! ### Operands -/

/-- Taking a value succeeds just if there is one, and leaves the stack below it. -/
theorem pop_eq_ok {consumer : Consumer} {m after : Machine ω} {v : Value} :
    pop consumer m = .ok v after ↔ ∃ rest, m.stack = v :: rest ∧ after = m.withStack rest := by
  unfold pop
  split
  · rename_i hm
    simp [hm]
  · rename_i v' rest hm
    rw [hm]
    constructor
    · intro h
      cases h
      exact ⟨rest, rfl, rfl⟩
    · rintro ⟨rest', hrest, rfl⟩
      cases hrest
      rfl

/-- Where a closure is taken, one was on top of the stack. -/
theorem popClosure_eq_ok {op : Operator} {m after : Machine ω} {c : Closure}
    (h : popClosure op m = .ok c after) :
    ∃ rest, m.stack = .closure c :: rest ∧ after = m.withStack rest := by
  obtain ⟨v, popped, hpop, hv⟩ := bind_eq_ok.mp h
  cases v with
  | closure c' =>
    cases hv
    exact pop_eq_ok.mp hpop
  | _ => cases hv

/-! ### Steps on a stack of their own -/

/-- What a step leaves on a stack of its own is handed out, and the stack there was is put back. -/
theorem onStack_eq_ok {inner left : List Value} {step : Run ω ρ} {m after : Machine ω}
    {result : ρ} :
    onStack inner step m = .ok (result, left) after ↔
      ∃ inside, step (m.withStack inner) = .ok result inside ∧ inside.stack = left ∧
        after = inside.withStack m.stack := by
  unfold onStack
  -- Whether the step succeeds does not depend on what is done with its stack afterwards.
  show (match step (m.withStack inner) with | .ok _ _ => _ | .error _ _ => _) = _ ↔ _
  cases step (m.withStack inner) with
  | ok result' inside => simp [Machine.withStack, and_assoc, eq_comm]
  | error stop inside => simp

/-- A step that stops on a stack of its own stops the run, with the stack there was. -/
theorem onStack_eq_error {inner : List Value} {step : Run ω ρ} {m after : Machine ω} {stop : Stop} :
    onStack inner step m = .error stop after ↔
      ∃ inside, step (m.withStack inner) = .error stop inside ∧
        after = inside.withStack m.stack := by
  unfold onStack
  show (match step (m.withStack inner) with | .ok _ _ => _ | .error _ _ => _) = _ ↔ _
  cases step (m.withStack inner) with
  | ok result inside => simp
  | error stop' inside => simp [Machine.withStack, and_assoc, eq_comm]

/-! ### Steps that leave the stack alone -/

/-- The step neither looks at the stack nor changes it: on any other stack it ends in the same way,
with that stack. -/
def IgnoresStack (step : Run ω ρ) : Prop :=
  ∀ (m : Machine ω) (stack : List Value),
    step (m.withStack stack) = mapMachine (fun after => after.withStack stack) (step m)

/-- In particular, the stack that there was is put back. -/
theorem IgnoresStack.eq_mapMachine {step : Run ω ρ} (h : step.IgnoresStack) (m : Machine ω) :
    step m = mapMachine (fun after => after.withStack m.stack) (step m) := by
  simpa using h m m.stack

/-- After a step that leaves the stack alone, the stack is as it was. -/
theorem IgnoresStack.stack_of_ok {step : Run ω ρ} (h : step.IgnoresStack) {m after : Machine ω}
    {result : ρ} (hm : step m = .ok result after) : after.stack = m.stack := by
  have heq := h.eq_mapMachine m
  rw [hm] at heq
  have hafter : after = after.withStack m.stack := (EStateM.Result.ok.inj heq).2
  rw [hafter, Machine.stack_withStack]

theorem ignoresStack_pure (result : ρ) : (pure result : Run ω ρ).IgnoresStack := fun _ _ => rfl

theorem ignoresStack_fail (f : Fault) : (fail f : Run ω ρ).IgnoresStack := fun _ _ => rfl

/-- A computed outcome leaves the stack alone. -/
theorem ignoresStack_ofExcept (outcome : Except Fault ρ) :
    (ofExcept outcome : Run ω ρ).IgnoresStack := by
  cases outcome with
  | ok result => exact ignoresStack_pure result
  | error f => exact ignoresStack_fail f

theorem ignoresStack_changeWorld (update : ω → ω) : (changeWorld update).IgnoresStack :=
  fun _ _ => rfl

/-- Two steps leave the stack alone if both do. -/
theorem IgnoresStack.bind {step : Run ω ρ} {next : ρ → Run ω τ} (hstep : step.IgnoresStack)
    (hnext : ∀ result, (next result).IgnoresStack) : (step >>= next).IgnoresStack := by
  intro m stack
  rw [bind_apply, bind_apply, hstep m stack]
  cases step m with
  -- The second step starts from a machine on which the stack has already been replaced.
  | ok result after => exact hnext result after stack
  | error stop after => rfl

/-- A step on a stack of its own leaves the stack there is alone. -/
theorem ignoresStack_onStack (inner : List Value) (step : Run ω ρ) :
    (onStack inner step).IgnoresStack := by
  intro m stack
  unfold onStack
  -- The inner step starts from the same machine, whatever stack there is.
  show (match step (m.withStack inner) with | .ok _ _ => _ | .error _ _ => _)
    = mapMachine _ (match step (m.withStack inner) with | .ok _ _ => _ | .error _ _ => _)
  cases step (m.withStack inner) <;> rfl

/-- Turning faults into results does not touch the stack. -/
theorem IgnoresStack.attempt {step : Run ω ρ} (h : step.IgnoresStack) :
    (attempt step).IgnoresStack := by
  intro m stack
  unfold Run.attempt
  rw [h m stack]
  match step m with
  | .ok _ _ => rfl
  | .error (.fault _) _ => rfl
  | .error .exhausted _ => rfl

/-- Holding a dialogue leaves the stack alone if answering its questions does. -/
theorem ignoresStack_conduct {Q A : Type} {answer : Q → Run ω A}
    (hanswer : ∀ question, (answer question).IgnoresStack) (d : Dialogue Q A ω ρ) :
    (d.conduct answer changeWorld).IgnoresStack := by
  induction d with
  | done result => exact ignoresStack_pure result
  -- A question and what follows its answer are two steps, as the case of a change is.
  | ask question resume ih => exact (hanswer question).bind ih
  | change update resume ih => exact (ignoresStack_changeWorld update).bind ih

/-! ### Steps that keep a property of all values -/

/-- If all values on the stack are `good`, a step that succeeds leaves such a stack, and a result
that satisfies `P`. -/
def Keeps (good : Value → Prop) (P : ρ → Prop) (step : Run ω ρ) : Prop :=
  ∀ m result after, (∀ v ∈ m.stack, good v) → step m = .ok result after →
    P result ∧ ∀ v ∈ after.stack, good v

variable {good : Value → Prop} {P : ρ → Prop} {P' : τ → Prop}

/-- A result that satisfies the property, with no change to the stack. -/
theorem keeps_pure {result : ρ} (h : P result) : Keeps good P (pure result : Run ω ρ) := by
  intro m result' after hm heq
  cases heq
  exact ⟨h, hm⟩

theorem keeps_fail (f : Fault) : Keeps good P (fail f : Run ω ρ) := fun _ _ _ _ h => nomatch h

/-- Properties are handed from one step to the next, along with what is known of the result. -/
theorem Keeps.bind {step : Run ω ρ} {next : ρ → Run ω τ} (h : step.Keeps good P)
    (hnext : ∀ result, P result → (next result).Keeps good P') : (step >>= next).Keeps good P' := by
  intro m result after hm heq
  obtain ⟨first, middle, hfirst, hsecond⟩ := bind_eq_ok.mp heq
  obtain ⟨hP, hmiddle⟩ := h m first middle hm hfirst
  exact hnext first hP middle result after hmiddle hsecond

/-- A step that leaves the stack alone keeps every property of its values. -/
theorem IgnoresStack.keeps {step : Run ω ρ} (h : step.IgnoresStack) :
    step.Keeps good fun _ => True := by
  intro m result after hm heq
  rw [h.stack_of_ok heq]
  exact ⟨trivial, hm⟩

/-- A computed outcome keeps what holds of its result. -/
theorem keeps_ofExcept {outcome : Except Fault ρ} (h : ∀ result, outcome = .ok result → P result) :
    Keeps good P (ofExcept outcome : Run ω ρ) := by
  cases outcome with
  | ok result => exact keeps_pure (h result rfl)
  | error f => exact keeps_fail f

/-- A good value may be pushed. -/
theorem keeps_push {v : Value} (h : good v) : Keeps good (fun _ => True) (push v : Run ω Unit) := by
  intro m result after hm heq
  cases heq
  exact ⟨trivial, List.forall_mem_cons.mpr ⟨h, hm⟩⟩

/-- A value that is taken is good. -/
theorem keeps_pop (consumer : Consumer) : Keeps good good (pop consumer : Run ω Value) := by
  intro m v after hm heq
  obtain ⟨rest, hstack, rfl⟩ := pop_eq_ok.mp heq
  rw [hstack] at hm
  exact List.forall_mem_cons.mp hm

/-- All operands that are taken are good, and so are the values below them. -/
theorem keeps_popMany (n : Nat) :
    Keeps good (fun operands => ∀ v ∈ operands, good v) (popMany n : Run ω (List Value)) := by
  intro m operands after hm heq
  cases heq
  constructor
  · -- What is taken and what is left are parts of the stack that there was.
    exact fun v hv => hm v (List.mem_of_mem_take (List.mem_reverse.mp hv))
  · exact fun v hv => hm v (List.mem_of_mem_drop hv)

/-- A closure that is taken is good as a value. -/
theorem keeps_popClosure (op : Operator) :
    Keeps good (fun c => good (.closure c)) (popClosure op : Run ω Closure) := by
  refine (keeps_pop _).bind fun v hv => ?_
  cases v with
  | closure c => exact keeps_pure hv
  | _ => exact keeps_fail _

/-- A step on a stack of its own leaves good values there. -/
theorem keeps_onStack {inner : List Value} {step : Run ω ρ} (h : step.Keeps good P)
    (hinner : ∀ v ∈ inner, good v) :
    (onStack inner step).Keeps good fun result => P result.1 ∧ ∀ v ∈ result.2, good v := by
  rintro m ⟨result, left⟩ after hm heq
  obtain ⟨inside, hinside, rfl, rfl⟩ := onStack_eq_ok.mp heq
  exact ⟨h _ _ _ hinner hinside, hm⟩

end Run

/-- The stack on which a surface function runs. -/
def SurfaceQuery.operands (query : SurfaceQuery Float Closure) : List Value :=
  [.real query.v, .real query.u, .integer query.face]

/-- Shading leaves the stack alone, whatever the surface function does. -/
theorem ignoresStack_shadeWith (callClosure : Closure → Run ω Unit)
    (query : SurfaceQuery Float Closure) : (shadeWith callClosure query).IgnoresStack := by
  -- The surface function runs on its three operands alone, and a fault of it becomes an answer.
  have honStack : (Run.onStack query.operands do
      callClosure query.surface
      Run.popFinish).IgnoresStack := Run.ignoresStack_onStack query.operands _
  exact (honStack.bind fun _ => Run.ignoresStack_pure _).attempt

/-! ### Operators that have their operands -/

/-- What an operator does once the stack holds its operands. -/
def operandsStep (backend : Option (Backend ω)) (callClosure : Closure → Run ω Unit)
    (op : Operator) : Run ω Unit :=
  match op.operation? with
  | some operation => operationStep op operation
  | none =>
    match op with
    | .apply => applyStep callClosure
    | .branch => branchStep callClosure
    | _ => renderStep backend callClosure

/-- An operator first looks whether its operands are there, and otherwise underflows on an unchanged
machine. -/
theorem operatorStep_apply (backend : Option (Backend ω)) (callClosure : Closure → Run ω Unit)
    (op : Operator) (m : Machine ω) :
    operatorStep backend callClosure op m =
      if m.stack.length < op.arity then .error (.fault (.underflow (.operator op))) m
      else operandsStep backend callClosure op m := by
  unfold operatorStep operandsStep
  show (if m.stack.length < op.arity then _ else _ : Run ω Unit) m = _
  split <;> rfl

/-- An operator that computes a value takes its operands, computes and pushes. -/
theorem operandsStep_of_operation (backend : Option (Backend ω))
    (callClosure : Closure → Run ω Unit) {op : Operator} {operation : Operation}
    (h : op.operation? = some operation) :
    operandsStep backend callClosure op = operationStep op operation := by
  unfold operandsStep
  rw [h]

/-- An operator computes a value, calls a closure, or renders. -/
theorem operandsStep_cases {motive : Operator → Run ω Unit → Prop} (backend : Option (Backend ω))
    (callClosure : Closure → Run ω Unit)
    (operation : ∀ op operation, op.operation? = some operation →
      motive op (operationStep op operation))
    (apply : motive .apply (applyStep callClosure))
    (branch : motive .branch (branchStep callClosure))
    (render : motive .render (renderStep backend callClosure)) (op : Operator) :
    motive op (operandsStep backend callClosure op) := by
  match hop : op.operation? with
  | some found =>
    rw [operandsStep_of_operation backend callClosure hop]
    exact operation op found hop
  | none =>
    cases op with
    | apply => exact apply
    | branch => exact branch
    | render => exact render
    -- All others compute a value.
    | _ => exact absurd hop (by simp [Operator.operation?])

/-! ### Lists of expressions -/

/-- A list of expressions can be cut anywhere: the second part is evaluated with the bindings that
the first one leaves. -/
theorem evaluateWith_append (backend : Option (Backend ω)) (callClosure : Closure → Run ω Unit)
    (env : Environment) (es es' : List Expr) :
    evaluateWith backend callClosure env (es ++ es') =
      evaluateWith backend callClosure env es >>= fun env =>
        evaluateWith backend callClosure env es' := by
  induction es generalizing env with
  | nil => rfl
  | cons e es ih =>
    funext m
    rw [List.cons_append, evaluateWith, evaluateWith, Run.bind_apply, Run.bind_apply,
      Run.bind_apply]
    -- Both sides come to the rest with the same bindings, unless the first expression stops.
    cases evaluateOne backend callClosure env e m with
    | ok env after =>
      dsimp only
      rw [ih, Run.bind_apply]
    | error stop after => rfl

end SceneTracer
