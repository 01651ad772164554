import SceneTracer.Proofs.Dialogue.Faults
import SceneTracer.Proofs.Evaluation.Steps
import SceneTracer.Proofs.Operator.Closures

namespace SceneTracer

/-!
# What a run comes to

The expressions that a run comes to evaluate, with the bindings it has then: in its own body, in
array literals, and in the bodies of closures that operators or a backend have run.

* `Backend.ShadesScene` — backends that have surfaces of their scene run, and no names of their own.
* `Dialogue.AsksAt` — a question that is asked when a dialogue is held.
* `Operator.Calls` — a closure that an operator calls, at once or through a backend.
* `Reaches` — the expressions that a run comes to.
* `reaches_of_evaluate_unbound` — a run that stops for a name has come to an identifier with that
  name, and it was not bound there.
* `evaluate_unbound_iff` — without a backend, just such runs stop for a name.
-/

variable {ω ρ τ : Type}

/-- The backend asks about surfaces of the scene that it was handed, and fails for a name only if it
was told so. -/
structure Backend.ShadesScene (backend : Backend ω) : Prop where
  asks : ∀ job, (backend job).AsksOnly fun query =>
    query.surface ∈ job.scene.primitives.map (·.surface)
  nameless : ∀ job, (backend job).FailsOnly fun f => ∀ name, f ≠ .unbound name

/-- Held at `m`, with `answer` for its questions, the dialogue comes to ask `query` at `m'`. -/
inductive Dialogue.AsksAt {Q A : Type} (answer : Q → Run ω A) (query : Q) (m' : Machine ω) :
    Dialogue Q A ω ρ → Machine ω → Prop
  | here {resume : A → Dialogue Q A ω ρ} : AsksAt answer query m' (.ask query resume) m'
  | answered {question : Q} {resume : A → Dialogue Q A ω ρ} {m after : Machine ω} {a : A}
      (hanswer : answer question m = .ok a after) (h : AsksAt answer query m' (resume a) after) :
      AsksAt answer query m' (.ask question resume) m
  | changed {update : ω → ω} {resume : ω → Dialogue Q A ω ρ} {m after : Machine ω} {w : ω}
      (hchange : Run.changeWorld update m = .ok w after)
      (h : AsksAt answer query m' (resume w) after) :
      AsksAt answer query m' (.change update resume) m

/-- The operator, run at `m`, has the closure `c` run at `m'`. Rendering has surfaces run that the
backend asks about. -/
inductive Operator.Calls (backend : Option (Backend ω)) (callClosure : Closure → Run ω Unit)
    (m : Machine ω) : Operator → Closure → Machine ω → Prop
  | apply {c : Closure} {rest : List Value} (hstack : m.stack = .closure c :: rest) :
      Calls backend callClosure m .apply c (m.withStack rest)
  | consequent {c otherwise : Closure} {rest : List Value}
      (hstack : m.stack = .closure otherwise :: .closure c :: .boolean true :: rest) :
      Calls backend callClosure m .branch c (m.withStack rest)
  | otherwise {c consequent : Closure} {rest : List Value}
      (hstack : m.stack = .closure c :: .closure consequent :: .boolean false :: rest) :
      Calls backend callClosure m .branch c (m.withStack rest)
  | shade {renderer : Backend ω} {job : RenderJob} {query : SurfaceQuery Float Closure}
      {m' : Machine ω} (hbackend : backend = some renderer)
      (hjob : RenderJob.ofOperands (m.stack.take Operator.render.arity).reverse = .ok job)
      (hasks : (renderer job).AsksAt (shadeWith callClosure) query m'
        (m.withStack (m.stack.drop Operator.render.arity))) :
      Calls backend callClosure m .render query.surface (m'.withStack query.operands)

/-- Run at `m` with the bindings `env`, with at most `calls` calls nested, the list of expressions
comes to the expressions `rest` with the bindings `env'`. -/
inductive Reaches (backend : Option (Backend ω)) (env' : Environment) (rest : List Expr) :
    Nat → Environment → List Expr → Machine ω → Prop
  | here {calls : Nat} {m : Machine ω} : Reaches backend env' rest calls env' rest m
  | later {calls : Nat} {env next : Environment} {e : Expr} {es : List Expr} {m after : Machine ω}
      (hrun : evaluateOne backend (call backend calls) env e m = .ok next after)
      (h : Reaches backend env' rest calls next es after) :
      Reaches backend env' rest calls env (e :: es) m
  | items {calls : Nat} {env : Environment} {items es : List Expr} {m : Machine ω}
      (h : Reaches backend env' rest calls env items (m.withStack [])) :
      Reaches backend env' rest calls env (.array items :: es) m
  | called {calls : Nat} {env : Environment} {op : Operator} {es : List Expr} {m m' : Machine ω}
      {c : Closure} (hcall : op.Calls backend (call backend (calls + 1)) m c m')
      (h : Reaches backend env' rest calls c.environment c.body m') :
      Reaches backend env' rest (calls + 1) env (.operator op :: es) m

/-! ### Steps that do not stop for a name -/

/-- The step never stops for a name. -/
def Run.Nameless (step : Run ω ρ) : Prop :=
  ∀ m name after, step m ≠ .error (.fault (.unbound name)) after

namespace Run

theorem nameless_pure (result : ρ) : (pure result : Run ω ρ).Nameless :=
  fun _ _ _ h => nomatch h

/-- A step that fails for another reason does not stop for a name. -/
theorem nameless_fail {f : Fault} (h : ∀ name, f ≠ .unbound name) :
    (fail f : Run ω ρ).Nameless := by
  intro m name after hm
  cases hm
  exact h name rfl

/-- A computed outcome stops for a name only if it is such a fault. -/
theorem nameless_ofExcept {outcome : Except Fault ρ} (h : SceneTracer.Nameless outcome) :
    (ofExcept outcome : Run ω ρ).Nameless := by
  cases outcome with
  | ok result => exact nameless_pure result
  | error f => exact nameless_fail fun name hname => h name (congrArg Except.error hname)

/-- Two steps stop for a name only if one of them does. -/
theorem Nameless.bind {step : Run ω ρ} {next : ρ → Run ω τ} (h : step.Nameless)
    (hnext : ∀ result, (next result).Nameless) : (step >>= next).Nameless := by
  intro m name after hm
  rcases bind_eq_error.mp hm with hstep | ⟨result, middle, -, hnextm⟩
  · exact h m name after hstep
  · exact hnext result middle name after hnextm

/-- If the first of two steps does not stop for a name, the second does. -/
theorem Nameless.next_of_bind {step : Run ω ρ} {next : ρ → Run ω τ} (h : step.Nameless)
    {m after : Machine ω} {name : String}
    (hm : (step >>= next) m = .error (.fault (.unbound name)) after) :
    ∃ result middle, step m = .ok result middle ∧
      next result middle = .error (.fault (.unbound name)) after := by
  rcases bind_eq_error.mp hm with hstep | hnext
  · exact absurd hstep (h m name after)
  · exact hnext

theorem nameless_push (v : Value) : (push v : Run ω Unit).Nameless := fun _ _ _ h => nomatch h

/-- A missing value is an underflow, whatever asks for it. -/
theorem nameless_pop (consumer : Consumer) : (pop consumer : Run ω Value).Nameless := by
  intro m name after hm
  unfold pop at hm
  split at hm <;> cases hm

/-- Taking operands never stops: there are as many as there are. -/
theorem nameless_popMany (n : Nat) : (popMany n : Run ω (List Value)).Nameless :=
  fun _ _ _ h => nomatch h

/-- A value of another kind is a fault of its own, and so is a missing one. -/
theorem nameless_popClosure (op : Operator) : (popClosure op : Run ω Closure).Nameless := by
  refine (nameless_pop _).bind fun v => ?_
  cases v with
  | closure c => exact nameless_pure c
  | _ => exact nameless_fail (by simp)

theorem nameless_popReal : (popReal : Run ω Float).Nameless := by
  refine (nameless_pop _).bind fun v => ?_
  cases v with
  | real x => exact nameless_pure x
  | _ => exact nameless_fail (by simp)

/-- What a surface function leaves is read without looking up names. -/
theorem nameless_popFinish : (popFinish : Run ω (Finish Float)).Nameless := by
  refine nameless_popReal.bind fun exponent => nameless_popReal.bind fun ks => ?_
  refine nameless_popReal.bind fun kd => (nameless_pop _).bind fun v => ?_
  cases v with
  | point color => exact nameless_pure _
  | _ => exact nameless_fail (by simp)

end Run

/-! ### Dialogues and shading -/

section Dialogue

variable {Q A ε : Type} {answer : Q → Run ω (Except ε A)}

/-- A dialogue that fails has been told so, or fails by itself. -/
theorem Dialogue.exists_asksAt_of_conduct {P : ε → Prop}
    {d : Dialogue Q (Except ε A) ω (Except ε ρ)} (hd : d.FailsOnly P) {m after : Machine ω} {e : ε}
    (h : d.conduct answer Run.changeWorld m = .ok (.error e) after) :
    P e ∨ ∃ query m' after',
      d.AsksAt answer query m' m ∧ answer query m' = .ok (.error e) after' := by
  induction d generalizing P m with
  | done result =>
    cases h
    exact Or.inl (hd e rfl)
  | ask question resume ih =>
    obtain ⟨a, middle, hanswer, hresume⟩ := Run.bind_eq_ok.mp h
    -- The rest of the dialogue may end in what `P` allows, or in what it has just been told.
    rcases ih a (hd a) hresume with (hP | rfl) | ⟨query, m', after', hasks, hm'⟩
    · exact Or.inl hP
    · exact Or.inr ⟨question, m, middle, .here, hanswer⟩
    · exact Or.inr ⟨query, m', after', .answered hanswer hasks, hm'⟩
  | change update resume ih =>
    obtain ⟨w, middle, hchange, hresume⟩ := Run.bind_eq_ok.mp h
    rcases ih w (hd w) hresume with hP | ⟨query, m', after', hasks, hm'⟩
    · exact Or.inl hP
    · exact Or.inr ⟨query, m', after', .changed hchange hasks, hm'⟩

/-- Holding a dialogue stops for a name only if answering one of its questions does. -/
theorem Dialogue.nameless_conduct (hanswer : ∀ query, (answer query).Nameless)
    (d : Dialogue Q (Except ε A) ω ρ) : (d.conduct answer Run.changeWorld).Nameless := by
  induction d with
  | done result => exact Run.nameless_pure result
  | ask question resume ih => exact (hanswer question).bind ih
  -- A change of state never stops.
  | change update resume ih => exact Run.Nameless.bind (fun _ _ _ h => nomatch h) ih

end Dialogue

variable {backend : Option (Backend ω)} {callClosure : Closure → Run ω Unit} {x : String}

/-- Shading never stops a run for a name: the fault is an answer. -/
theorem nameless_shadeWith (query : SurfaceQuery Float Closure) :
    (shadeWith callClosure query).Nameless := by
  intro m name after h
  unfold shadeWith Run.attempt at h
  split at h <;> cases h

/-- If shading gives a fault about a name, the surface function stops for it. -/
theorem exists_call_of_shadeWith {query : SurfaceQuery Float Closure} {m after : Machine ω}
    (h : shadeWith callClosure query m = .ok (.error (.unbound x)) after) :
    ∃ after', callClosure query.surface (m.withStack query.operands)
      = .error (.fault (.unbound x)) after' := by
  unfold shadeWith Run.attempt at h
  split at h
  · cases h
  · rename_i f after' hstep
    cases h
    -- The fault comes from the call and not from reading what it leaves.
    rcases Run.bind_eq_error.mp hstep with honStack | ⟨_, _, -, hpure⟩
    · obtain ⟨inside, hinside, -⟩ := Run.onStack_eq_error.mp honStack
      rcases Run.bind_eq_error.mp hinside with hcall | ⟨_, _, -, hfinish⟩
      · exact ⟨_, hcall⟩
      · exact absurd hfinish (Run.nameless_popFinish _ _ _)
    · cases hpure
  · cases h

/-! ### Operators that stop for a name -/

namespace Operator

/-- If the step of the operator `op` stops for the name `x`, so does a closure that `op` calls. -/
def BlamesCallee (backend : Option (Backend ω)) (callClosure : Closure → Run ω Unit) (x : String)
    (op : Operator) (step : Run ω Unit) : Prop :=
  ∀ m after, step m = .error (.fault (.unbound x)) after → ∃ c m' after',
    op.Calls backend callClosure m c m' ∧ callClosure c m' = .error (.fault (.unbound x)) after'

/-- A step that never stops for a name has nobody to blame. -/
theorem blamesCallee_of_nameless {op : Operator} {step : Run ω Unit} (h : step.Nameless) :
    op.BlamesCallee backend callClosure x step :=
  fun m after hm => absurd hm (h m x after)

/-- No operator that computes a value looks up names. -/
theorem nameless_operationStep {op : Operator} {operation : Operation}
    (hop : op.operation? = some operation) :
    (operationStep op operation : Run ω Unit).Nameless := by
  refine (Run.nameless_popMany _).bind fun operands => ?_
  refine (Run.nameless_ofExcept (handsOn_run hop operands).nameless).bind fun v => ?_
  exact Run.nameless_push v

/-- An application stops for a name only if the closure on top of the stack does. -/
theorem blamesCallee_applyStep :
    BlamesCallee backend callClosure x .apply (applyStep callClosure) := by
  intro m after h
  obtain ⟨c, middle, hpop, hcall⟩ := (Run.nameless_popClosure _).next_of_bind h
  obtain ⟨rest, hstack, rfl⟩ := Run.popClosure_eq_ok hpop
  exact ⟨c, _, after, .apply hstack, hcall⟩

/-- A branch stops for a name only if the closure does that its condition selects. -/
theorem blamesCallee_branchStep :
    BlamesCallee backend callClosure x .branch (branchStep callClosure) := by
  intro m after h
  obtain ⟨otherwise, m₁, hpop₁, h⟩ := (Run.nameless_popClosure _).next_of_bind h
  obtain ⟨consequent, m₂, hpop₂, h⟩ := (Run.nameless_popClosure _).next_of_bind h
  obtain ⟨condition, m₃, hpop₃, h⟩ := (Run.nameless_pop _).next_of_bind h
  obtain ⟨rest₁, hstack₁, rfl⟩ := Run.popClosure_eq_ok hpop₁
  obtain ⟨rest₂, hstack₂, rfl⟩ := Run.popClosure_eq_ok hpop₂
  obtain ⟨rest, hstack₃, rfl⟩ := Run.pop_eq_ok.mp hpop₃
  -- Put together, the three operands are the top of the stack that the operator found.
  have hstack : m.stack = .closure otherwise :: .closure consequent :: condition :: rest := by
    rw [Machine.stack_withStack] at hstack₂ hstack₃
    rw [hstack₁, hstack₂, hstack₃]
  -- Only two conditions lead to a call. With all others the operator fails for its operand.
  match condition with
  | .boolean true => exact ⟨consequent, _, after, .consequent hstack, h⟩
  | .boolean false => exact ⟨otherwise, _, after, .otherwise hstack, h⟩
  | .integer _ | .real _ | .string _ | .point _ | .array _ | .closure _ | .object _ | .light _ =>
    exact absurd h (Run.nameless_fail (by simp) _ _ _)

/-- Rendering stops for a name only if a surface function does: neither the operands nor the backend
have to do with names. -/
theorem blamesCallee_renderStep (hbackend : ∀ renderer ∈ backend, renderer.ShadesScene) :
    BlamesCallee backend callClosure x .render (renderStep backend callClosure) := by
  intro m after h
  obtain ⟨operands, popped, hpop, h⟩ := (Run.nameless_popMany _).next_of_bind h
  cases hpop
  obtain ⟨job, m₁, hread, h⟩ :=
    (Run.nameless_ofExcept (RenderJob.nameless_ofOperands _)).next_of_bind h
  obtain ⟨hjob, rfl⟩ := Run.ofExcept_eq_ok.mp hread
  -- Without a backend rendering fails, but not for a name.
  match backend with
  | none => exact absurd h (Run.nameless_fail (by simp) _ _ _)
  | some renderer =>
    have hconduct : ((renderer job).conduct (shadeWith callClosure) Run.changeWorld).Nameless :=
      Dialogue.nameless_conduct nameless_shadeWith (renderer job)
    obtain ⟨result, m₂, hheld, hresult⟩ := hconduct.next_of_bind h
    obtain rfl := Run.eq_error_of_ofExcept hresult
    -- The backend has not failed by itself, so it was told of the fault.
    rcases Dialogue.exists_asksAt_of_conduct ((hbackend renderer rfl).nameless job) hheld with
      hown | ⟨query, m', after', hasks, hanswer⟩
    · exact absurd rfl (hown x)
    · obtain ⟨after'', hcall⟩ := exists_call_of_shadeWith hanswer
      exact ⟨query.surface, _, after'', .shade rfl hjob hasks, hcall⟩

/-- **Every operator blames a closure for a name.** Without enough operands it stops, but for an
underflow. -/
theorem exists_calls_of_unbound
    (hbackend : ∀ renderer ∈ backend, renderer.ShadesScene) (op : Operator) :
    op.BlamesCallee backend callClosure x (operatorStep backend callClosure op) := by
  intro m after h
  rw [operatorStep_apply] at h
  split at h
  · cases h
  · -- With its operands there, an operator is of one of four kinds.
    refine operandsStep_cases (motive := BlamesCallee backend callClosure x) backend callClosure
      ?_ ?_ ?_ ?_ op m after h
    · exact fun op operation hop => blamesCallee_of_nameless (nameless_operationStep hop)
    · exact blamesCallee_applyStep
    · exact blamesCallee_branchStep
    · exact blamesCallee_renderStep hbackend

end Operator

/-! ### Runs that stop for a name -/

/-- If a list of expressions stops for a name, it has come to an identifier with that name, provided
the closures that it calls have. -/
theorem reaches_of_evaluateWith_unbound (hbackend : ∀ renderer ∈ backend, renderer.ShadesScene)
    {calls : Nat}
    (hcall : ∀ c m after, call backend calls c m = .error (.fault (.unbound x)) after →
      ∃ fewer env' rest, calls = fewer + 1 ∧ env'.get? x = none ∧
        Reaches backend env' (.identifier x :: rest) fewer c.environment c.body m)
    {body : List Expr} {env : Environment} {m after : Machine ω}
    (h : evaluateWith backend (call backend calls) env body m
      = .error (.fault (.unbound x)) after) :
    ∃ env' rest, env'.get? x = none ∧
      Reaches backend env' (.identifier x :: rest) calls env body m := by
  induction body using Expr.list_induction generalizing env m after with
  | nil => cases h
  | cons e es hbodies ih =>
    rw [evaluateWith] at h
    -- Either the first expression stops for the name, or it is evaluated and the rest does.
    rcases Run.bind_eq_error.mp h with h | ⟨next, middle, hrun, h⟩
    · cases e with
      | identifier name =>
        rw [evaluateOne] at h
        cases hget : env.get? name with
        | some v =>
          rw [hget] at h
          exact absurd h ((Run.nameless_push v).bind (fun _ => Run.nameless_pure env) _ _ _)
        | none =>
          -- The run has come to this identifier, and stops at it.
          rw [hget] at h
          cases h
          exact ⟨env, es, hget, .here⟩
      | array items =>
        rcases Run.bind_eq_error.mp h with h | ⟨⟨_, inner⟩, middle, -, h⟩
        · obtain ⟨inside, hinside, -⟩ := Run.onStack_eq_error.mp h
          obtain ⟨env', rest, hx, hreach⟩ := hbodies items (Or.inr rfl) hinside
          exact ⟨env', rest, hx, .items hreach⟩
        · exact absurd h ((Run.nameless_push _).bind (fun _ => Run.nameless_pure env) _ _ _)
      | operator op =>
        rcases Run.bind_eq_error.mp h with h | ⟨_, _, -, h⟩
        · -- The operator stops as some closure does that it calls.
          obtain ⟨c, m', after', hcalls, hc⟩ :=
            Operator.exists_calls_of_unbound hbackend op m after h
          obtain ⟨fewer, env', rest, rfl, hx, hreach⟩ := hcall c m' after' hc
          exact ⟨env', rest, hx, .called hcalls hreach⟩
        · cases h
      -- All other expressions stop for other reasons, if at all.
      | binder name =>
        exact absurd h ((Run.nameless_pop _).bind (fun _ => Run.nameless_pure _) _ _ _)
      | integer _ | real _ | boolean _ | string _ | function _ =>
        exact absurd h ((Run.nameless_push _).bind (fun _ => Run.nameless_pure _) _ _ _)
    · obtain ⟨env', rest, hx, hreach⟩ := ih h
      exact ⟨env', rest, hx, .later hrun hreach⟩

/-- A call that stops for a name comes to an identifier with that name in its body or in that of a
closure further in. -/
theorem reaches_of_call_unbound (hbackend : ∀ renderer ∈ backend, renderer.ShadesScene)
    {calls : Nat} {c : Closure} {m after : Machine ω}
    (h : call backend calls c m = .error (.fault (.unbound x)) after) :
    ∃ fewer env' rest, calls = fewer + 1 ∧ env'.get? x = none ∧
      Reaches backend env' (.identifier x :: rest) fewer c.environment c.body m := by
  induction calls generalizing c m after with
  | zero => cases h
  | succ calls ih =>
    -- The body runs with one call fewer left, and so do the closures that it calls.
    rcases Run.bind_eq_error.mp h with h | ⟨_, _, -, h⟩
    · obtain ⟨env', rest, hx, hreach⟩ :=
        reaches_of_evaluateWith_unbound hbackend (fun c m after h => ih h) h
      exact ⟨calls, env', rest, rfl, hx, hreach⟩
    · cases h

/-- **A run that stops for a name has come to an identifier** with that name, and the name was not
bound there. -/
theorem reaches_of_evaluate_unbound (hbackend : ∀ renderer ∈ backend, renderer.ShadesScene)
    {calls : Nat} {env : Environment} {body : List Expr} {m after : Machine ω}
    (h : evaluate backend calls env body m = .error (.fault (.unbound x)) after) :
    ∃ env' rest, env'.get? x = none ∧
      Reaches backend env' (.identifier x :: rest) calls env body m :=
  reaches_of_evaluateWith_unbound hbackend
    (fun _ _ _ h => reaches_of_call_unbound hbackend h) h

/-! ### Runs without a backend -/

/-- Without a backend, an operator stops as the closure does that it calls. -/
theorem Operator.Calls.operatorStep_eq_error {op : Operator} {c : Closure} {m m' after : Machine ω}
    {stop : Stop} (h : op.Calls none callClosure m c m')
    (hc : callClosure c m' = .error stop after) :
    operatorStep none callClosure op m = .error stop after := by
  -- The operands are on the stack, so that the step computes up to the call.
  obtain ⟨stack, world⟩ := m
  cases h with
  | apply hstack =>
    cases hstack
    exact hc
  | consequent hstack =>
    cases hstack
    exact hc
  | otherwise hstack =>
    cases hstack
    exact hc
  | shade hbackend _ _ => cases hbackend

/-- Without a backend, a run stops where it comes to an identifier that is not bound. -/
theorem Reaches.evaluateWith_eq_error {calls : Nat} {env env' : Environment} {body rest : List Expr}
    {m : Machine ω} (h : Reaches none env' (.identifier x :: rest) calls env body m)
    (hx : env'.get? x = none) :
    ∃ after, evaluateWith none (call none calls) env body m
      = .error (.fault (.unbound x)) after := by
  induction h with
  | @here calls m =>
    refine ⟨m, ?_⟩
    rw [evaluateWith, evaluateOne, hx]
    rfl
  -- The induction is on how the run comes to the identifier. Whatever happened before has
  -- succeeded, so the fault is what the whole run ends in.
  | later hrun _ ih =>
    obtain ⟨after, hafter⟩ := ih
    rw [evaluateWith]
    exact ⟨after, Run.bind_eq_error.mpr (Or.inr ⟨_, _, hrun, hafter⟩)⟩
  | items _ ih =>
    obtain ⟨after, hafter⟩ := ih
    have honStack := Run.onStack_eq_error.mpr ⟨after, hafter, rfl⟩
    rw [evaluateWith]
    exact ⟨_, Run.bind_eq_error.mpr (Or.inl (Run.bind_eq_error.mpr (Or.inl honStack)))⟩
  | called hcalls _ ih =>
    obtain ⟨after, hafter⟩ := ih
    have hoperator := hcalls.operatorStep_eq_error (Run.bind_eq_error.mpr (Or.inl hafter))
    rw [evaluateWith]
    exact ⟨after, Run.bind_eq_error.mpr (Or.inl (Run.bind_eq_error.mpr (Or.inl hoperator)))⟩

/-- **Without a backend, a run stops for a name just if it comes to an identifier** with that name
which is not bound there. -/
theorem evaluate_unbound_iff {calls : Nat} {env : Environment} {body : List Expr} {m : Machine ω} :
    (∃ after, evaluate none calls env body m = .error (.fault (.unbound x)) after) ↔
      ∃ env' rest, env'.get? x = none ∧
        Reaches none env' (.identifier x :: rest) calls env body m := by
  constructor
  · rintro ⟨after, h⟩
    exact reaches_of_evaluate_unbound (by simp) h
  · rintro ⟨env', rest, hx, hreach⟩
    exact hreach.evaluateWith_eq_error hx

end SceneTracer
