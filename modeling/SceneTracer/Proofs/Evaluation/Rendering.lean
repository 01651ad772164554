import SceneTracer.Proofs.Evaluation.Shading

namespace SceneTracer

/-!
# What rendering does to the stack

Rendering takes its eight operands off the stack and then leaves the stack alone: neither the checks
of the operands nor the backend see it, and every surface function that the backend has run gets a
stack of its own, which is dropped when it ends or fails.

* `renderOperands` — what rendering does with its operands.
* `operatorStep_render`, `evaluateOne_render` — the operands come off the stack first.
* `render_takes_operands_only` — rendering as a whole.
-/

variable {ω : Type}

/-- What rendering does once its operands are off the stack. -/
def renderOperands (backend : Option (Backend ω)) (callClosure : Closure → Run ω Unit)
    (operands : List Value) : Run ω Unit := do
  let job ← Run.ofExcept (RenderJob.ofOperands operands)
  match backend with
  | none => Run.fail .noRenderer
  | some backend =>
    Run.ofExcept (← (backend job).conduct (shadeWith callClosure) Run.changeWorld)

/-- However a backend goes on, with whatever surface functions and whatever it makes of their
faults, it leaves the stack alone. -/
theorem ignoresStack_renderOperands (backend : Option (Backend ω))
    (callClosure : Closure → Run ω Unit) (operands : List Value) :
    (renderOperands backend callClosure operands).IgnoresStack := by
  refine (Run.ignoresStack_ofExcept _).bind fun job => ?_
  cases backend with
  | none => exact Run.ignoresStack_fail _
  | some backend =>
    have hconduct := Run.ignoresStack_conduct (ignoresStack_shadeWith callClosure) (backend job)
    exact hconduct.bind Run.ignoresStack_ofExcept

variable {backend : Option (Backend ω)} {callClosure : Closure → Run ω Unit}

/-- The operands come off the stack before anything else is done. -/
theorem operatorStep_render {operands : List Value} (hoperands : operands.length = 8)
    (base : List Value) (world : ω) :
    operatorStep backend callClosure .render ⟨operands ++ base, world⟩
      = renderOperands backend callClosure operands.reverse ⟨base, world⟩ := by
  have htake : (operands ++ base).take 8 = operands := List.take_left' hoperands
  have hdrop : (operands ++ base).drop 8 = base := List.drop_left' hoperands
  have henough : ¬ (operands ++ base).length < Operator.render.arity := by
    rw [List.length_append, hoperands]
    show ¬ 8 + base.length < 8
    omega
  rw [operatorStep_apply, if_neg henough]
  show renderOperands backend callClosure ((operands ++ base).take 8).reverse
    ⟨(operands ++ base).drop 8, world⟩ = _
  rw [htake, hdrop]

/-- With its eight operands on top of any others, rendering is a step on what is below them. -/
theorem evaluateOne_render (env : Environment) {operands : List Value}
    (hoperands : operands.length = 8) (base : List Value) (world : ω) :
    evaluateOne backend callClosure env (.operator .render) ⟨operands ++ base, world⟩
      = (renderOperands backend callClosure operands.reverse >>= fun _ => pure env)
          ⟨base, world⟩ := by
  rw [evaluateOne, Run.bind_apply, operatorStep_render hoperands, Run.bind_apply]

/-- **Rendering takes its operands off the stack and nothing else**, whatever the backend does. With
fewer than eight values on the stack it fails and leaves all of them. Otherwise, however it ends, the
stack it leaves is the one below the eight operands; on success the bindings are those of before. It
ends in the same way on any other stack below the same operands, and if an operand is not as it
should be, with the fault of the operands and no change to the backend's state. -/
theorem render_takes_operands_only (backend : Option (Backend ω)) (calls : Nat) (env : Environment)
    (m : Machine ω) :
    (m.stack.length < 8 →
      evaluateOne backend (call backend calls) env (.operator .render) m
        = .error (.fault (.underflow (.operator .render))) m) ∧
    (8 ≤ m.stack.length → ∃ outcome world,
      evaluateOne backend (call backend calls) env (.operator .render) m
        = Run.ended outcome ⟨m.stack.drop 8, world⟩ ∧
      (∀ env', outcome = .ok env' → env' = env) ∧
      (∀ base, evaluateOne backend (call backend calls) env (.operator .render)
        ⟨m.stack.take 8 ++ base, m.world⟩ = Run.ended outcome ⟨base, world⟩) ∧
      ∀ f, RenderJob.ofOperands (m.stack.take 8).reverse = .error f →
        outcome = .error (.fault f) ∧ world = m.world) := by
  constructor
  · intro hfew
    have hunderflow : operatorStep backend (call backend calls) .render m
        = .error (.fault (.underflow (.operator .render))) m := by
      rw [operatorStep_apply]
      exact if_pos hfew
    rw [evaluateOne, Run.bind_apply, hunderflow]
  · intro henough
    have hoperands : (m.stack.take 8).length = 8 := List.length_take_of_le henough
    have hignores :=
      ignoresStack_renderOperands backend (call backend calls) (m.stack.take 8).reverse
    obtain ⟨outcome, world, hends⟩ := hignores.exists_ended m.world
    have hall : ∀ base, evaluateOne backend (call backend calls) env (.operator .render)
        ⟨m.stack.take 8 ++ base, m.world⟩
          = Run.ended (outcome.map fun _ => env) ⟨base, world⟩ := by
      intro base
      rw [evaluateOne_render env hoperands, Run.bind_apply, hends base]
      cases outcome <;> rfl
    refine ⟨outcome.map fun _ => env, world, ?_, ?_, hall, ?_⟩
    · have hm := hall (m.stack.drop 8)
      rwa [List.take_append_drop] at hm
    · intro env' hok
      cases outcome <;> cases hok
      rfl
    · intro f hf
      -- The operands are checked before the backend is told of them.
      have hfault := hends []
      unfold renderOperands at hfault
      rw [hf] at hfault
      cases outcome <;> cases hfault
      exact ⟨rfl, rfl⟩

/-- The backend asks twice, takes no notice of the first answer and fails with the second one. The
surface function renders as well, and has too few operands for it. -/
theorem render_takes_operands_only_nested :
    let ask : Backend Nat := fun job =>
      match job.scene.primitives with
      | p :: _ => .ask ⟨p.surface, 0, 0.5, 0.5⟩ fun _ => .change (· + 1) fun _ =>
          .ask ⟨p.surface, 1, 0.25, 0.5⟩ fun answer => .done (answer.map fun _ => ())
      | [] => .done (.ok ())
    let surface : Closure := ⟨Environment.empty, [.operator .render]⟩
    let operands : List Value :=
      [.string "ball.ppm", .integer 1, .integer 1, .real 90, .integer 3,
        .object (.atOrigin .sphere surface), .array [], .point ⟨1, 1, 1⟩]
    let underflow : Stop := .fault (.underflow (.operator .render))
    (operands.drop 1).length < 8 ∧
    evaluateOne (some ask) (call (some ask) 2) .empty (.operator .render) ⟨operands.drop 1, 0⟩
      = .error underflow ⟨operands.drop 1, 0⟩ ∧
    8 ≤ (operands ++ [Value.integer 7]).length ∧
    ∀ base, evaluateOne (some ask) (call (some ask) 2) .empty (.operator .render)
      ⟨operands ++ base, 0⟩ = .error underflow ⟨base, 1⟩ := by
  intro ask surface operands underflow
  have hfew : (operands.drop 1).length < 8 := by decide
  have henough : 8 ≤ (operands ++ [Value.integer 7]).length := by decide
  have hunderflow :=
    (render_takes_operands_only (some ask) 2 .empty ⟨operands.drop 1, 0⟩).1 hfew
  obtain ⟨outcome, world, -, -, hall, -⟩ :=
    (render_takes_operands_only (some ask) 2 .empty ⟨operands ++ [Value.integer 7], 0⟩).2 henough
  -- How it ends is known from a run with nothing below the operands.
  have hempty : Run.ended outcome ⟨[], world⟩ = .error underflow ⟨[], 1⟩ := (hall []).symm
  cases outcome <;> cases hempty
  exact ⟨hfew, hunderflow, henough, hall⟩

end SceneTracer
