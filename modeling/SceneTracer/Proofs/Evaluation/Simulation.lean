import SceneTracer.Proofs.Evaluation.Steps

namespace SceneTracer

/-!
# Runs that differ in the backend's state

Two runs are compared whose backends have states of their own. If the backends ask and end alike
while their states stay in some relation, so do the runs, and their stacks are the same throughout.

* `Dialogue.Alike`, `Backend.Alike` — the same questions and the same end, with related states.
* `Run.SameEnd`, `Run.Alike` — steps that end in the same way on the same stack.
* `Run.alike_conduct` — holding dialogues that are alike.
* `alike_call`, `alike_evaluate` — runs with backends that are alike.
-/

variable {ω ω' ρ τ : Type} {R : ω → ω' → Prop}

/-! ### Dialogues -/

namespace Dialogue

variable {Q A : Type}

/-- Two dialogues that ask the same questions, go on alike after the same answers and have the same
result, as long as their states are in `R`. Changes keep the states in `R`, whether they come
together or on one side alone. -/
inductive Alike (R : ω → ω' → Prop) : Dialogue Q A ω ρ → Dialogue Q A ω' ρ → Prop
  | done (result : ρ) : Alike R (.done result) (.done result)
  | ask (question : Q) {resume : A → Dialogue Q A ω ρ} {resume' : A → Dialogue Q A ω' ρ}
      (h : ∀ answer, Alike R (resume answer) (resume' answer)) :
      Alike R (.ask question resume) (.ask question resume')
  | change {update : ω → ω} {update' : ω' → ω'} {resume : ω → Dialogue Q A ω ρ}
      {resume' : ω' → Dialogue Q A ω' ρ} (hupdate : ∀ w w', R w w' → R (update w) (update' w'))
      (h : ∀ w w', R w w' → Alike R (resume w) (resume' w')) :
      Alike R (.change update resume) (.change update' resume')
  | changeLeft {update : ω → ω} {resume : ω → Dialogue Q A ω ρ} {d' : Dialogue Q A ω' ρ}
      (hupdate : ∀ w w', R w w' → R (update w) w') (h : ∀ w w', R w w' → Alike R (resume w) d') :
      Alike R (.change update resume) d'
  | changeRight {d : Dialogue Q A ω ρ} {update' : ω' → ω'} {resume' : ω' → Dialogue Q A ω' ρ}
      (hupdate : ∀ w w', R w w' → R w (update' w'))
      (h : ∀ w w', R w w' → Alike R d (resume' w')) : Alike R d (.change update' resume')

/-- Dialogues that are alike, followed by dialogues that are, stay alike whatever the result in
between. -/
theorem Alike.bind {d : Dialogue Q A ω ρ} {d' : Dialogue Q A ω' ρ} {next : ρ → Dialogue Q A ω τ}
    {next' : ρ → Dialogue Q A ω' τ} (h : d.Alike R d')
    (hnext : ∀ result, (next result).Alike R (next' result)) :
    (d.bind next).Alike R (d'.bind next') := by
  -- The rest hangs on the end of the first dialogue, so the induction is on how that one is held.
  induction h with
  | done result => exact hnext result
  | ask question _ ih => exact .ask question ih
  | change hupdate _ ih => exact .change hupdate ih
  | changeLeft hupdate _ ih => exact .changeLeft hupdate ih
  | changeRight hupdate _ ih => exact .changeRight hupdate ih

end Dialogue

/-- Two backends that take up every job alike. -/
def Backend.Alike (R : ω → ω' → Prop) (backend : Backend ω) (backend' : Backend ω') : Prop :=
  ∀ job, (backend job).Alike R (backend' job)

/-! ### Steps -/

namespace Run

/-- The same result or the same reason to stop, on the same stack, with states in `R`. -/
inductive SameEnd (R : ω → ω' → Prop) :
    EStateM.Result Stop (Machine ω) ρ → EStateM.Result Stop (Machine ω') ρ → Prop
  | ok {result : ρ} {stack : List Value} {w : ω} {w' : ω'} (h : R w w') :
      SameEnd R (.ok result ⟨stack, w⟩) (.ok result ⟨stack, w'⟩)
  | error {stop : Stop} {stack : List Value} {w : ω} {w' : ω'} (h : R w w') :
      SameEnd R (.error stop ⟨stack, w⟩) (.error stop ⟨stack, w'⟩)

/-- Two steps that end in the same way when they start on the same stack, with states in `R`. -/
def Alike (R : ω → ω' → Prop) (step : Run ω ρ) (step' : Run ω' ρ) : Prop :=
  ∀ stack w w', R w w' → SameEnd R (step ⟨stack, w⟩) (step' ⟨stack, w'⟩)

theorem alike_pure (result : ρ) : Alike R (pure result) (pure result) := fun _ _ _ h => .ok h

theorem alike_fail (f : Fault) : Alike (ρ := ρ) R (fail f) (fail f) := fun _ _ _ h => .error h

/-- What has been computed is the same for both runs. -/
theorem alike_ofExcept (outcome : Except Fault ρ) :
    Alike R (ofExcept outcome) (ofExcept outcome) := by
  cases outcome with
  | ok result => exact alike_pure result
  | error f => exact alike_fail f

/-- Two runs that are alike so far, and go on alike after each result. -/
theorem Alike.bind {step : Run ω ρ} {step' : Run ω' ρ} {next : ρ → Run ω τ} {next' : ρ → Run ω' τ}
    (h : Alike R step step') (hnext : ∀ result, Alike R (next result) (next' result)) :
    Alike R (step >>= next) (step' >>= next') := by
  intro stack w w' hw
  have hstep := h stack w w' hw
  rw [bind_apply, bind_apply]
  generalize step ⟨stack, w⟩ = r at hstep ⊢
  generalize step' ⟨stack, w'⟩ = r' at hstep ⊢
  -- Either both runs have the same result, or both have stopped for the same reason.
  cases hstep with
  | ok hafter => exact hnext _ _ _ _ hafter
  | error hafter => exact .error hafter

theorem alike_push (v : Value) : Alike R (push v) (push v) := fun _ _ _ h => .ok h

/-- The stacks are the same, so both runs take the same value or both underflow. -/
theorem alike_pop (consumer : Consumer) : Alike R (pop consumer) (pop consumer) := by
  intro stack w w' h
  cases stack with
  | nil => exact .error h
  | cons v rest => exact .ok h

theorem alike_popMany (n : Nat) : Alike R (popMany n) (popMany n) := fun _ _ _ h => .ok h

/-- Both runs take the same closure, or find the same fault with the value that there is. -/
theorem alike_popClosure (op : Operator) : Alike R (popClosure op) (popClosure op) := by
  refine (alike_pop _).bind fun v => ?_
  cases v with
  | closure c => exact alike_pure c
  | _ => exact alike_fail _

theorem alike_popReal : Alike R popReal popReal := by
  refine (alike_pop _).bind fun v => ?_
  cases v with
  | real x => exact alike_pure x
  | _ => exact alike_fail _

/-- Both runs read the same finish from what a surface function has left. -/
theorem alike_popFinish : Alike R popFinish popFinish := by
  refine alike_popReal.bind fun exponent => alike_popReal.bind fun ks => ?_
  refine alike_popReal.bind fun kd => (alike_pop _).bind fun v => ?_
  cases v with
  | point color => exact alike_pure _
  | _ => exact alike_fail _

/-- On stacks of their own, runs that are alike leave the same values. -/
theorem Alike.onStack {step : Run ω ρ} {step' : Run ω' ρ} (h : Alike R step step')
    (inner : List Value) : Alike R (onStack inner step) (onStack inner step') := by
  intro stack w w' hw
  -- Both start on the same inner stack, and both put back the same outer one.
  have hstep := h inner w w' hw
  unfold Run.onStack
  generalize step ⟨inner, w⟩ = r at hstep ⊢
  generalize step' ⟨inner, w'⟩ = r' at hstep ⊢
  cases hstep with
  | ok hafter => exact .ok hafter
  | error hafter => exact .error hafter

/-- A fault becomes the same answer in both runs, while running out of calls stops both. -/
theorem Alike.attempt {step : Run ω ρ} {step' : Run ω' ρ} (h : Alike R step step') :
    Alike R (attempt step) (attempt step') := by
  intro stack w w' hw
  have hstep := h stack w w' hw
  unfold Run.attempt
  generalize step ⟨stack, w⟩ = r at hstep ⊢
  generalize step' ⟨stack, w'⟩ = r' at hstep ⊢
  cases hstep with
  | ok hafter => exact .ok hafter
  | @error stop _ _ _ hafter =>
    -- Only faults are turned into results.
    cases stop with
    | fault f => exact .ok hafter
    | exhausted => exact .error hafter

/-- Dialogues that are alike end in the same way if their questions are answered alike. -/
theorem alike_conduct {Q A : Type} {answer : Q → Run ω A} {answer' : Q → Run ω' A}
    (hanswer : ∀ question, Alike R (answer question) (answer' question)) {d : Dialogue Q A ω ρ}
    {d' : Dialogue Q A ω' ρ} (h : d.Alike R d') :
    Alike R (d.conduct answer changeWorld) (d'.conduct answer' changeWorld) := by
  induction h with
  | done result => exact alike_pure result
  | ask question _ ih => exact (hanswer question).bind ih
  -- A change on one side alone keeps the states related, so that it does not matter which run makes
  -- it.
  | change hupdate _ ih => exact fun stack w w' hw => ih w w' hw stack _ _ (hupdate w w' hw)
  | changeLeft hupdate _ ih => exact fun stack w w' hw => ih w w' hw stack _ _ (hupdate w w' hw)
  | changeRight hupdate _ ih => exact fun stack w w' hw => ih w w' hw stack _ _ (hupdate w w' hw)

end Run

/-! ### Operators -/

variable {backend : Option (Backend ω)} {backend' : Option (Backend ω')}
  {callClosure : Closure → Run ω Unit} {callClosure' : Closure → Run ω' Unit}

/-- An operator that computes a value does not know of the backend. -/
theorem alike_operationStep (op : Operator) (operation : Operation) :
    Run.Alike R (operationStep op operation) (operationStep op operation) := by
  refine (Run.alike_popMany _).bind fun operands => ?_
  exact (Run.alike_ofExcept _).bind fun v => Run.alike_push v

section Calls

variable (hcall : ∀ c, Run.Alike R (callClosure c) (callClosure' c))

include hcall

/-- Shading is alike if calls are: both runs call the same surface function on the same operands. -/
theorem alike_shadeWith (query : SurfaceQuery Float Closure) :
    Run.Alike R (shadeWith callClosure query) (shadeWith callClosure' query) := by
  have hinside : Run.Alike R (do callClosure query.surface; Run.popFinish)
      (do callClosure' query.surface; Run.popFinish) :=
    (hcall query.surface).bind fun _ => Run.alike_popFinish
  exact ((hinside.onStack query.operands).bind fun _ => Run.alike_pure _).attempt

/-- Both runs call the same closure. -/
theorem alike_applyStep : Run.Alike R (applyStep callClosure) (applyStep callClosure') :=
  (Run.alike_popClosure _).bind fun c => hcall c

/-- Both runs find the same condition, and call the closure that it selects. -/
theorem alike_branchStep : Run.Alike R (branchStep callClosure) (branchStep callClosure') := by
  refine (Run.alike_popClosure _).bind fun otherwise => ?_
  refine (Run.alike_popClosure _).bind fun consequent => (Run.alike_pop _).bind fun condition => ?_
  -- The condition is the same value in both runs, so neither calls a closure where the other fails.
  match condition with
  | .boolean true => exact hcall consequent
  | .boolean false => exact hcall otherwise
  | .integer _ | .real _ | .string _ | .point _ | .array _ | .closure _ | .object _ | .light _ =>
    exact Run.alike_fail _

variable (hbackend : Option.Rel (Backend.Alike R) backend backend')

include hbackend

/-- Both runs read the same job, and their backends take it up alike. -/
theorem alike_renderStep :
    Run.Alike R (renderStep backend callClosure) (renderStep backend' callClosure') := by
  refine (Run.alike_popMany _).bind fun operands => (Run.alike_ofExcept _).bind fun job => ?_
  -- Either neither run has a backend, or both have one and these are alike.
  cases hbackend with
  | none => exact Run.alike_fail _
  | some h =>
    exact (Run.alike_conduct (alike_shadeWith hcall) (h job)).bind fun result =>
      Run.alike_ofExcept result

/-- **Operators are alike** if calls and backends are. -/
theorem alike_operatorStep (op : Operator) :
    Run.Alike R (operatorStep backend callClosure op) (operatorStep backend' callClosure' op) := by
  intro stack w w' hw
  rw [operatorStep_apply, operatorStep_apply]
  split
  · exact .error hw
  · -- Both runs come to the same kind of step, which the operator alone determines.
    refine operandsStep_cases
      (motive := fun op step => Run.Alike R step (operandsStep backend' callClosure' op))
      backend callClosure ?_ ?_ ?_ ?_ op stack w w' hw
    · intro op operation hop
      rw [operandsStep_of_operation backend' callClosure' hop]
      exact alike_operationStep op operation
    · exact alike_applyStep hcall
    · exact alike_branchStep hcall
    · exact alike_renderStep hcall hbackend

/-! ### Expressions and calls -/

/-- An expression is alike in both runs if the items of an array literal are, which are smaller. -/
theorem alike_evaluateOne {env : Environment} {e : Expr}
    (hitems : ∀ items, e = .array items → Run.Alike R
      (evaluateWith backend callClosure env items) (evaluateWith backend' callClosure' env items)) :
    Run.Alike R (evaluateOne backend callClosure env e)
      (evaluateOne backend' callClosure' env e) := by
  cases e with
  | integer _ | real _ | boolean _ | string _ | function _ =>
    exact (Run.alike_push _).bind fun _ => Run.alike_pure env
  | identifier name =>
    rw [evaluateOne, evaluateOne]
    -- Bindings are the same in both runs, so a name is bound in both or in neither.
    cases env.get? name with
    | some v => exact (Run.alike_push v).bind fun _ => Run.alike_pure env
    | none => exact Run.alike_fail _
  | binder name => exact (Run.alike_pop _).bind fun v => Run.alike_pure (env.bind name v)
  | array items =>
    refine ((hitems items rfl).onStack []).bind fun result => ?_
    exact (Run.alike_push _).bind fun _ => Run.alike_pure env
  | operator op =>
    exact (alike_operatorStep hcall hbackend op).bind fun _ => Run.alike_pure env

/-- Lists of expressions are alike. The induction goes into array literals, and calls are alike by
assumption. -/
theorem alike_evaluateWith (env : Environment) (body : List Expr) :
    Run.Alike R (evaluateWith backend callClosure env body)
      (evaluateWith backend' callClosure' env body) := by
  induction body using Expr.list_induction generalizing env with
  | nil => exact Run.alike_pure env
  | cons e es hbodies ih =>
    rw [evaluateWith, evaluateWith]
    refine (alike_evaluateOne hcall hbackend fun items he => ?_).bind ih
    exact hbodies items (Or.inr he) env

end Calls

/-- Calls are alike, by induction on how many may be nested. -/
theorem alike_call (hbackend : Option.Rel (Backend.Alike R) backend backend') (calls : Nat)
    (c : Closure) : Run.Alike R (call backend calls c) (call backend' calls c) := by
  induction calls generalizing c with
  -- Neither run has a call left.
  | zero => exact fun _ _ _ hw => .error hw
  | succ calls ih =>
    exact (alike_evaluateWith ih hbackend c.environment c.body).bind fun _ => Run.alike_pure ()

/-- **Runs with backends that are alike are alike.** -/
theorem alike_evaluate (hbackend : Option.Rel (Backend.Alike R) backend backend') (calls : Nat)
    (env : Environment) (body : List Expr) :
    Run.Alike R (evaluate backend calls env body) (evaluate backend' calls env body) :=
  alike_evaluateWith (alike_call hbackend calls) hbackend env body

/-- Shading by whole runs is alike. -/
theorem alike_shade (hbackend : Option.Rel (Backend.Alike R) backend backend') (calls : Nat)
    (query : SurfaceQuery Float Closure) :
    Run.Alike R (shade backend calls query) (shade backend' calls query) :=
  alike_shadeWith (alike_call hbackend calls) query

end SceneTracer
