import SceneTracer.Proofs.Evaluation.Reach
import SceneTracer.Proofs.Expr.Places
import SceneTracer.Proofs.Renderer.Questions

namespace SceneTracer

/-!
# Lexical scoping

Every closure of a run was written at some place in the program, and its bindings have the names
that are bound at this place. So an identifier behind a binder of its name is never found unbound,
however closures are stored, handed over and called.

* `Environment.Fits` — bindings that fit a place in the program.
* `Value.Placed` — the closures in a value were written in the program, and their bindings fit.
* `keepsPlaced_evaluateWith`, `keepsPlaced_call` — runs keep closures placed.
* `Reaches.exists_place` — what a run comes to stands in the program, and the bindings fit.
* `unbound_only_out_of_scope` — programs stop for a name only at identifiers that are not in scope.
-/

variable {ω ρ τ : Type}

/-! ### Placed closures -/

/-- Every closure in the value is a function literal of the program: its body stands at a place
there, and all names that are bound at this place have a value in the bindings it was made with. -/
def Value.Placed (program : List Expr) (v : Value) : Prop :=
  ∀ c : Closure, c.Within v → ∃ names, Expr.Place program names c.body ∧
    ∀ name ∈ names, Environment.get? c.environment name ≠ none

/-- The bindings fit a place at which `names` are bound: these names have values, and all values are
placed. -/
structure Environment.Fits (program : List Expr) (names : List String) (env : Environment) :
    Prop where
  bound : ∀ name ∈ names, env.get? name ≠ none
  placed : ∀ binding ∈ env, binding.2.Placed program

variable {program : List Expr} {names : List String}

namespace Environment

/-- A name that has a value has been bound to it. -/
theorem mem_of_get? {env : Environment} {name : String} {v : Value} (h : env.get? name = some v) :
    (name, v) ∈ env := by
  obtain ⟨front, back, heq, -⟩ := List.lookup_eq_some_iff.mp h
  rw [heq]
  exact List.mem_append_right _ List.mem_cons_self

/-- Without bindings a run fits the start of the program. -/
theorem fits_empty : Fits program [] empty := ⟨by simp, by simp [empty]⟩

/-- A new binding of a placed value fits the place behind its binder. -/
theorem Fits.bind {env : Environment} (h : env.Fits program names) {v : Value}
    (hv : v.Placed program) (name : String) : (env.bind name v).Fits program (name :: names) := by
  constructor
  · intro other hother
    by_cases heq : other = name
    · rw [heq, get?_bind_self]
      simp
    · rw [get?_bind_of_ne env v heq]
      exact h.bound other (List.mem_of_ne_of_mem heq hother)
  · intro binding hbinding
    rcases List.mem_cons.mp hbinding with rfl | hmem
    · exact hv
    · exact h.placed binding hmem

end Environment

namespace Value

/-- Values that cannot hold closures are placed. -/
theorem placed_of_kind {v : Value} (h : v.kind ≠ .array ∧ v.kind ≠ .closure ∧ v.kind ≠ .object) :
    v.Placed program :=
  fun c hc => absurd hc (Closure.not_within_of_kind h c)

/-- An array is placed if its items are. -/
theorem placed_array {items : List Value} (h : ∀ v ∈ items, v.Placed program) :
    (array items).Placed program := by
  intro c hc
  cases hc with
  | item hmem hc => exact h _ hmem c hc

/-- A function literal of the program, closed over bindings that fit its place, is placed. -/
theorem placed_closure {c : Closure} {names : List String}
    (hplace : Expr.Place program names c.body)
    (hfits : Environment.Fits program names c.environment) : (closure c).Placed program := by
  intro c' hc'
  cases hc' with
  | self => exact ⟨names, hplace, hfits.bound⟩
  | captured hmem hc' => exact hfits.placed _ hmem c' hc'

/-- A closure that is placed was written at a place that its bindings fit. -/
theorem Placed.closure {c : Closure} (h : (closure c).Placed program) :
    ∃ names, Expr.Place program names c.body ∧ Environment.Fits program names c.environment := by
  obtain ⟨names, hplace, hbound⟩ := h c .self
  exact ⟨names, hplace, hbound, fun binding hmem c' hc' => h c' (.captured hmem hc')⟩

/-- The surfaces in a placed scene are placed closures. -/
theorem Placed.surface {scene : Scene Float Closure} (h : (object scene).Placed program)
    {c : Closure} (hc : c ∈ scene.primitives.map (·.surface)) :
    (Value.closure c).Placed program := by
  obtain ⟨p, hp, rfl⟩ := List.mem_map.mp hc
  exact fun c' hc' => h c' (.surface hp hc')

end Value

/-! ### Runs keep closures placed -/

variable {backend : Option (Backend ω)} {callClosure : Closure → Run ω Unit}

/-- A step that leaves placed values on a stack of placed values. -/
abbrev Run.KeepsPlaced (program : List Expr) (step : Run ω ρ) : Prop :=
  step.Keeps (Value.Placed program) fun _ => True

/-- Operators that compute a value put together what they have been given, and make no closures. -/
theorem keepsPlaced_operationStep {op : Operator} {operation : Operation}
    (hop : op.operation? = some operation) :
    Run.KeepsPlaced program (operationStep op operation : Run ω Unit) := by
  refine (Run.keeps_popMany op.arity).bind fun operands hoperands => ?_
  refine Run.Keeps.bind (Run.keeps_ofExcept fun v hv => ?_) fun v hv => Run.keeps_push hv
  -- The closures in the result are closures of operands.
  intro c hc
  obtain ⟨operand, hmem, hwithin⟩ := (Operator.handsOn_run hop operands).within v hv c hc
  exact hoperands operand hmem c hwithin

/-- Rendering leaves no values. -/
theorem keepsPlaced_renderStep :
    Run.KeepsPlaced program (renderStep backend callClosure) := by
  refine (Run.keeps_popMany _).bind fun operands _ => ?_
  refine (Run.ignoresStack_ofExcept _).keeps.bind fun job _ => ?_
  match backend with
  | none => exact Run.keeps_fail _
  | some renderer =>
    have hconduct := Run.ignoresStack_conduct (ignoresStack_shadeWith callClosure) (renderer job)
    exact (hconduct.bind Run.ignoresStack_ofExcept).keeps

section Calls

variable (hcall : ∀ c, (Value.closure c).Placed program → Run.KeepsPlaced program (callClosure c))

include hcall

/-- Applying a closure keeps closures placed if calling placed ones does. -/
theorem keepsPlaced_applyStep : Run.KeepsPlaced program (applyStep callClosure) :=
  (Run.keeps_popClosure _).bind fun c hc => hcall c hc

/-- Branching keeps closures placed if calling placed ones does: either closure is one of the placed
operands. -/
theorem keepsPlaced_branchStep : Run.KeepsPlaced program (branchStep callClosure) := by
  refine (Run.keeps_popClosure _).bind fun otherwise hotherwise => ?_
  refine (Run.keeps_popClosure _).bind fun consequent hconsequent => ?_
  refine (Run.keeps_pop _).bind fun condition _ => ?_
  match condition with
  | .boolean true => exact hcall consequent hconsequent
  | .boolean false => exact hcall otherwise hotherwise
  | .integer _ | .real _ | .string _ | .point _ | .array _ | .closure _ | .object _ | .light _ =>
    exact Run.keeps_fail _

/-- **Operators keep closures placed**, if calls of placed closures do. -/
theorem keepsPlaced_operatorStep (op : Operator) :
    Run.KeepsPlaced program (operatorStep backend callClosure op) := by
  intro m result after hm heq
  rw [operatorStep_apply] at heq
  split at heq
  · cases heq
  · refine operandsStep_cases (motive := fun _ step => Run.KeepsPlaced program step) backend
      callClosure ?_ ?_ ?_ ?_ op m result after hm heq
    · exact fun op operation hop => keepsPlaced_operationStep hop
    · exact keepsPlaced_applyStep hcall
    · exact keepsPlaced_branchStep hcall
    · exact keepsPlaced_renderStep

/-- Running the expression at a place, with bindings that fit it, leaves bindings that fit the place
behind it. -/
theorem keeps_evaluateOne {e : Expr} {es : List Expr} {env : Environment}
    (hplace : Expr.Place program names (e :: es)) (hfits : env.Fits program names)
    (hitems : ∀ items, e = .array items →
      Run.KeepsPlaced program (evaluateWith backend callClosure env items)) :
    (evaluateOne backend callClosure env e).Keeps (Value.Placed program) fun env' =>
      env'.Fits program (e.binds ++ names) := by
  cases e with
  | integer _ | real _ | boolean _ | string _ =>
    refine (Run.keeps_push (Value.placed_of_kind ?_)).bind fun _ _ => Run.keeps_pure hfits
    simp [Value.kind]
  | identifier name =>
    rw [evaluateOne]
    cases hget : env.get? name with
    | some v =>
      have hv := hfits.placed _ (Environment.mem_of_get? hget)
      exact (Run.keeps_push hv).bind fun _ _ => Run.keeps_pure hfits
    | none => exact Run.keeps_fail _
  | binder name => exact (Run.keeps_pop _).bind fun v hv => Run.keeps_pure (hfits.bind hv name)
  | function body =>
    -- The body of the literal is a place too, at which the same names are bound.
    have hclosure : (Value.closure ⟨env, body⟩).Placed program :=
      Value.placed_closure hplace.function hfits
    exact (Run.keeps_push hclosure).bind fun _ _ => Run.keeps_pure hfits
  | array items =>
    refine (Run.keeps_onStack (hitems items rfl) (by simp)).bind fun result hresult => ?_
    have harray : (Value.array result.2.reverse).Placed program :=
      Value.placed_array fun v hv => hresult.2 v (List.mem_reverse.mp hv)
    exact (Run.keeps_push harray).bind fun _ _ => Run.keeps_pure hfits
  | operator op =>
    exact (keepsPlaced_operatorStep hcall op).bind fun _ _ => Run.keeps_pure hfits

/-- A list of expressions that stands at a place keeps closures placed, if its bindings fit the
place. -/
theorem keepsPlaced_evaluateWith {body : List Expr} {env : Environment}
    (hplace : Expr.Place program names body) (hfits : env.Fits program names) :
    Run.KeepsPlaced program (evaluateWith backend callClosure env body) := by
  induction body using Expr.list_induction generalizing names env with
  | nil => exact Run.keeps_pure trivial
  | cons e es hbodies ih =>
    have hone := keeps_evaluateOne hcall hplace hfits fun items he => by
      subst he
      exact hbodies items (Or.inr rfl) hplace.array hfits
    rw [evaluateWith]
    exact hone.bind fun env' hfits' => ih hplace.next hfits'

end Calls

/-- Calling a placed closure keeps closures placed. -/
theorem keepsPlaced_call (calls : Nat) {c : Closure} (hc : (Value.closure c).Placed program) :
    Run.KeepsPlaced program (call backend calls c) := by
  induction calls generalizing c with
  | zero => exact fun _ _ _ _ h => nomatch h
  | succ calls ih =>
    -- What the closure calls is placed, and has one call fewer left.
    obtain ⟨names, hplace, hfits⟩ := hc.closure
    exact (keepsPlaced_evaluateWith (fun c hc => ih hc) hplace hfits).bind fun _ _ =>
      Run.keeps_pure trivial

/-! ### What a run comes to -/

/-- If a dialogue only asks questions of some sort, those that it comes to are of that sort. -/
theorem Dialogue.AsksAt.of_asksOnly {Q A : Type} {answer : Q → Run ω A} {query : Q}
    {m m' : Machine ω} {d : Dialogue Q A ω ρ} (h : d.AsksAt answer query m' m) {P : Q → Prop}
    (hd : d.AsksOnly P) : P query := by
  induction h with
  | here => exact hd.1
  | answered _ _ ih => exact ih (hd.2 _)
  | changed _ _ ih => exact ih (hd _)

/-- The closures that an operator has run are placed, and run on placed values. -/
theorem Operator.Calls.placed (hbackend : ∀ renderer ∈ backend, renderer.ShadesScene)
    {op : Operator} {c : Closure} {m m' : Machine ω} (h : op.Calls backend callClosure m c m')
    (hm : ∀ v ∈ m.stack, v.Placed program) :
    (Value.closure c).Placed program ∧ ∀ v ∈ m'.stack, v.Placed program := by
  cases h with
  | apply hstack =>
    rw [hstack] at hm
    exact List.forall_mem_cons.mp hm
  | consequent hstack =>
    rw [hstack] at hm
    simp only [List.forall_mem_cons] at hm
    exact ⟨hm.2.1, hm.2.2.2⟩
  | otherwise hstack =>
    rw [hstack] at hm
    simp only [List.forall_mem_cons] at hm
    exact ⟨hm.1, hm.2.2.2⟩
  | shade hrenderer hjob hasks =>
    have hmem := RenderJob.object_mem_of_ofOperands hjob
    have hscene := hm _ (List.mem_of_mem_take (List.mem_reverse.mp hmem))
    have hsurface := hasks.of_asksOnly ((hbackend _ hrenderer).asks _)
    refine ⟨hscene.surface hsurface, ?_⟩
    -- The surface function runs on a face and two parameters.
    intro v hv
    refine Value.placed_of_kind ?_
    simp only [Machine.stack_withStack, SurfaceQuery.operands, List.mem_cons, List.not_mem_nil,
      or_false] at hv
    rcases hv with rfl | rfl | rfl <;> simp [Value.kind]

/-- **What a run comes to stands in the program**, at a place that the bindings fit. -/
theorem Reaches.exists_place (hbackend : ∀ renderer ∈ backend, renderer.ShadesScene)
    {calls : Nat} {env env' : Environment} {body rest : List Expr} {m : Machine ω}
    (h : Reaches backend env' rest calls env body m) (hplace : Expr.Place program names body)
    (hfits : env.Fits program names) (hm : ∀ v ∈ m.stack, v.Placed program) :
    ∃ names', Expr.Place program names' rest ∧ env'.Fits program names' := by
  induction h generalizing names with
  | here => exact ⟨names, hplace, hfits⟩
  | @later calls env next e es m after hrun _ ih =>
    have hcall : ∀ c, (Value.closure c).Placed program →
        Run.KeepsPlaced program (call backend calls c) := fun c hc => keepsPlaced_call calls hc
    have hitems : ∀ items, e = .array items →
        Run.KeepsPlaced program (evaluateWith backend (call backend calls) env items) := by
      rintro items rfl
      exact keepsPlaced_evaluateWith hcall hplace.array hfits
    obtain ⟨hfits', hafter⟩ := keeps_evaluateOne hcall hplace hfits hitems m next after hm hrun
    exact ih hplace.next hfits' hafter
  | items _ ih => exact ih hplace.array hfits (by simp)
  | called hcalls _ ih =>
    -- The body runs with the bindings of the closure, not with those of its caller.
    obtain ⟨hc, hm'⟩ := hcalls.placed hbackend hm
    obtain ⟨names', hplace', hfits'⟩ := hc.closure
    exact ih hplace' hfits' hm'

/-! ### Whole programs -/

/-- The renderer has surfaces of its scene run, and no names of its own. -/
theorem Renderer.shadesScene_backend (renderer : Renderer) : renderer.backend.ShadesScene := by
  refine ⟨renderer.asksOnly_backend, fun job => (renderer.failsOnly_backend job).mono ?_⟩
  rintro f ⟨path, reason, rfl⟩
  simp

/-- **Programs stop for a name only out of scope.** With no backend, or one that has surfaces of its
scene run and no names of its own, a program in which all identifiers are bound by the text never
stops for a name. Any other program that does has come to an identifier with that name, which is not
bound then, at a place in the program where no binder of the name is in force. -/
theorem unbound_only_out_of_scope (backend : Option (Backend ω))
    (hbackend : ∀ renderer ∈ backend, renderer.ShadesScene) (calls : Nat) (program : List Expr)
    (world : ω) :
    (Expr.ScopedList [] program → ∀ x after,
      evaluate backend calls .empty program ⟨[], world⟩ ≠ .error (.fault (.unbound x)) after) ∧
    ∀ x after,
      evaluate backend calls .empty program ⟨[], world⟩ = .error (.fault (.unbound x)) after →
      ∃ env names rest,
        Reaches backend env (.identifier x :: rest) calls .empty program ⟨[], world⟩ ∧
        env.get? x = none ∧ Expr.Place program names (.identifier x :: rest) ∧ x ∉ names := by
  have hsource : ∀ x after,
      evaluate backend calls .empty program ⟨[], world⟩ = .error (.fault (.unbound x)) after →
      ∃ env names rest,
        Reaches backend env (.identifier x :: rest) calls .empty program ⟨[], world⟩ ∧
        env.get? x = none ∧ Expr.Place program names (.identifier x :: rest) ∧ x ∉ names := by
    intro x after h
    obtain ⟨env, rest, hx, hreach⟩ := reaches_of_evaluate_unbound hbackend h
    obtain ⟨names, hplace, hfits⟩ :=
      hreach.exists_place hbackend .start Environment.fits_empty (by simp)
    -- All names that are bound at this place have values, and `x` has none.
    exact ⟨env, names, rest, hreach, hx, hplace, fun hmem => hfits.bound x hmem hx⟩
  refine ⟨fun hscoped x after h => ?_, hsource⟩
  obtain ⟨env, names, rest, -, -, hplace, hx⟩ := hsource x after h
  exact hx (Expr.mem_names_of_place hscoped hplace)

/-- A function that is handed to itself is in scope; a name that only a function called before has
bound is not. -/
theorem unbound_only_out_of_scope_self_application :
    let backend := some (Renderer.backend ⟨.standard, none⟩)
    let files : Files := ⟨[], [], []⟩
    let recursion : List Expr :=
      [.function [.binder "self", .function [.identifier "self"], .operator .apply], .binder "f",
        .identifier "f", .identifier "f", .operator .apply]
    let sibling : List Expr :=
      [.integer 1, .function [.binder "x"], .operator .apply, .identifier "x"]
    (∀ x after, evaluate backend 2 .empty recursion ⟨[], files⟩
      ≠ .error (.fault (.unbound x)) after) ∧
    evaluate backend 2 .empty sibling ⟨[], files⟩
      = .error (.fault (.unbound "x")) ⟨[], files⟩ ∧
    ∃ env names rest, Reaches backend env (.identifier "x" :: rest) 2 .empty sibling ⟨[], files⟩ ∧
      env.get? "x" = none ∧ Expr.Place sibling names (.identifier "x" :: rest) ∧ "x" ∉ names := by
  intro backend files recursion sibling
  have hbackend : ∀ renderer ∈ backend, renderer.ShadesScene := by
    simpa [backend] using Renderer.shadesScene_backend _
  -- The recursive program names only what it binds; the other uses a name of a body that has ended.
  have hscoped : Expr.ScopedList [] recursion := by
    simp [recursion, Expr.ScopedList, Expr.Scoped, Expr.binds]
  have hunbound : evaluate backend 2 .empty sibling ⟨[], files⟩
      = .error (.fault (.unbound "x")) ⟨[], files⟩ := rfl
  refine ⟨?_, hunbound, ?_⟩
  · exact (unbound_only_out_of_scope backend hbackend 2 recursion files).1 hscoped
  · exact (unbound_only_out_of_scope backend hbackend 2 sibling files).2 "x" _ hunbound

end SceneTracer
