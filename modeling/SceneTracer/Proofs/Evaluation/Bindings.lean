import SceneTracer.Expr.Scope
import SceneTracer.Proofs.Evaluation.Steps

namespace SceneTracer

/-!
# The bindings that a run leaves

A run that succeeds leaves the bindings that it started with and, inside them, one for each binder
that stands in its own body. Whatever else binds names while it runs, in literals, in closures and
in surface functions, does so in bindings of its own, which are dropped.

* `Environment.get?_append_of_not_mem` — names that the inner bindings do not have.
* `bindings_of_binder`, `bindings_of_binds_eq_nil` — what one expression does to the bindings.
* `exists_bound_of_evaluateWith` — what a list of expressions does to them.
* `evaluate_binds_directly` — whole runs.
-/

variable {ω : Type}

/-- A name that none of the inner bindings has stands for what it stands for outside of them. -/
theorem Environment.get?_append_of_not_mem {inner : Environment} {name : String}
    (h : name ∉ inner.map Prod.fst) (env : Environment) :
    get? (inner ++ env) name = env.get? name := by
  have hnone : inner.lookup name = none := by
    rw [List.lookup_eq_none_iff]
    intro binding hbinding
    exact bne_iff_ne.mpr fun heq => h (List.mem_map.mpr ⟨binding, hbinding, heq.symm⟩)
  unfold get?
  rw [List.lookup_append, hnone, Option.none_or]

section Steps

variable {backend : Option (Backend ω)} {callClosure : Closure → Run ω Unit}
  {env env' : Environment} {m after : Machine ω}

/-! ### One expression -/

/-- A binder takes a value off the stack and binds its name to that, inside all other bindings. -/
theorem bindings_of_binder {name : String}
    (h : evaluateOne backend callClosure env (.binder name) m = .ok env' after) :
    ∃ v rest, m.stack = v :: rest ∧ env' = env.bind name v ∧ after = m.withStack rest := by
  obtain ⟨v, popped, hpop, hbind⟩ := Run.bind_eq_ok.mp h
  obtain ⟨rest, hstack, rfl⟩ := Run.pop_eq_ok.mp hpop
  cases hbind
  exact ⟨v, rest, hstack, rfl, rfl⟩

/-- Nothing else changes the bindings, whatever it has run. -/
theorem bindings_of_binds_eq_nil {e : Expr} (he : e.binds = [])
    (h : evaluateOne backend callClosure env e m = .ok env' after) : env' = env := by
  cases e with
  | binder name => cases he
  | identifier name =>
    rw [evaluateOne] at h
    cases hget : env.get? name with
    | none =>
      rw [hget] at h
      cases h
    | some v =>
      rw [hget] at h
      cases h
      rfl
  | integer _ | real _ | boolean _ | string _ | function _ =>
    cases h
    rfl
  | array items =>
    -- The bindings that the items leave are dropped with the result of their run.
    obtain ⟨_, _, -, h⟩ := Run.bind_eq_ok.mp h
    cases h
    rfl
  | operator op =>
    obtain ⟨_, _, -, h⟩ := Run.bind_eq_ok.mp h
    cases h
    rfl

/-! ### Lists of expressions -/

/-- A list of expressions adds the bindings of its own binders, the latest inside the others. -/
theorem exists_bound_of_evaluateWith {body : List Expr}
    (h : evaluateWith backend callClosure env body m = .ok env' after) :
    ∃ bound : Environment, env' = bound ++ env ∧ bound.map Prod.fst = Expr.bindsList body := by
  induction body generalizing env m with
  | nil =>
    cases h
    exact ⟨[], rfl, rfl⟩
  | cons e es ih =>
    rw [evaluateWith] at h
    obtain ⟨next, middle, hone, hrest⟩ := Run.bind_eq_ok.mp h
    obtain ⟨bound, rfl, hbound⟩ := ih hrest
    have hnames : Expr.bindsList (e :: es) = Expr.bindsList es ++ e.binds.reverse := by
      simp [Expr.bindsList]
    -- Only a binder at this level binds; whatever another expression binds inside it is gone behind
    -- it.
    cases e with
    | binder name =>
      obtain ⟨v, rest, -, rfl, -⟩ := bindings_of_binder hone
      refine ⟨bound ++ [(name, v)], by simp [Environment.bind], ?_⟩
      rw [hnames, List.map_append, hbound]
      rfl
    | _ =>
      obtain rfl := bindings_of_binds_eq_nil rfl hone
      refine ⟨bound, rfl, ?_⟩
      rw [hnames, hbound]
      exact (List.append_nil _).symm

/-- A binder in a list of expressions binds the value that those in front of it leave on top of the
stack, between what these bind and what the others do. -/
theorem exists_bound_of_binder {front back : List Expr} {name : String}
    (h : evaluateWith backend callClosure env (front ++ .binder name :: back) m = .ok env' after) :
    ∃ (outer inner : Environment) (v : Value) (rest : List Value) (world : ω),
      evaluateWith backend callClosure env front m = .ok (outer ++ env) ⟨v :: rest, world⟩ ∧
      env' = inner ++ (name, v) :: (outer ++ env) ∧
      outer.map Prod.fst = Expr.bindsList front ∧ inner.map Prod.fst = Expr.bindsList back := by
  rw [evaluateWith_append] at h
  obtain ⟨middle, ⟨stack, world⟩, hfront, h⟩ := Run.bind_eq_ok.mp h
  rw [evaluateWith] at h
  obtain ⟨next, popped, hbinder, hback⟩ := Run.bind_eq_ok.mp h
  obtain ⟨outer, rfl, houter⟩ := exists_bound_of_evaluateWith hfront
  obtain ⟨v, rest, hstack, rfl, -⟩ := bindings_of_binder hbinder
  obtain ⟨inner, rfl, hinner⟩ := exists_bound_of_evaluateWith hback
  obtain rfl : stack = v :: rest := hstack
  exact ⟨outer, inner, v, rest, world, hfront, rfl, houter, hinner⟩

end Steps

/-! ### Whole runs -/

/-- **A run leaves the bindings of before and those of its own binders.** If a body runs from any
bindings, on any stack and with any backend, and succeeds, then

* the bindings of before are left as they were, and inside them there is one for each binder that
  stands in the body itself, with its name, the latest innermost;
* each of these has the value that is on top of the stack when the run comes to its binder, and this
  is what the name stands for unless a binder behind it has the same name;
* all other names stand for what they stood for before.

Binders in literals, and in closures that operators or a backend have run, are none of the body's
own. -/
theorem evaluate_binds_directly {backend : Option (Backend ω)} {calls : Nat}
    {env env' : Environment} {body : List Expr} {m after : Machine ω}
    (h : evaluate backend calls env body m = .ok env' after) :
    (∃ bound : Environment, env' = bound ++ env ∧ bound.map Prod.fst = Expr.bindsList body) ∧
    (∀ front name back, body = front ++ .binder name :: back →
      ∃ (outer inner : Environment) (v : Value) (rest : List Value) (world : ω),
        evaluate backend calls env front m = .ok (outer ++ env) ⟨v :: rest, world⟩ ∧
        env' = inner ++ (name, v) :: (outer ++ env) ∧
        outer.map Prod.fst = Expr.bindsList front ∧ inner.map Prod.fst = Expr.bindsList back ∧
        (name ∉ Expr.bindsList back → env'.get? name = some v)) ∧
    ∀ name, name ∉ Expr.bindsList body → env'.get? name = env.get? name := by
  refine ⟨exists_bound_of_evaluateWith h, ?_, ?_⟩
  · rintro front name back rfl
    obtain ⟨outer, inner, v, rest, world, hfront, rfl, houter, hinner⟩ := exists_bound_of_binder h
    refine ⟨outer, inner, v, rest, world, hfront, rfl, houter, hinner, fun hlast => ?_⟩
    rw [← hinner] at hlast
    rw [Environment.get?_append_of_not_mem hlast]
    exact Environment.get?_bind_self (outer ++ env) name v
  · intro name hname
    obtain ⟨bound, rfl, hbound⟩ := exists_bound_of_evaluateWith h
    rw [← hbound] at hname
    exact Environment.get?_append_of_not_mem hname env

/-- Between two binders of `x`, names are bound in the branch that is taken, in an array, in the
surface function of a ball that is rendered, and in a function that this one calls. -/
theorem evaluate_binds_directly_shadowed :
    let ask : Backend Nat := fun job =>
      match job.scene.primitives with
      | p :: _ => .ask ⟨p.surface, 0, 0.5, 0.5⟩ fun answer => .done (answer.map fun _ => ())
      | [] => .done (.ok ())
    let white : List Expr := [.real 1, .real 1, .real 1, .operator .point]
    let surface : List Expr :=
      [.binder "v", .binder "u", .function [.binder "x"], .operator .apply] ++ white ++
        [.real 0.5, .real 0.5, .real 1]
    let picture : List Expr := white ++
      [.array [.integer 4, .binder "y"], .function surface, .operator .sphere, .integer 3, .real 90,
        .integer 1, .integer 1, .string "ball.ppm", .operator .render]
    let front : List Expr :=
      [.integer 1, .binder "x", .boolean true, .function [.integer 3, .binder "y"], .function [],
        .operator .branch] ++ picture ++ [.integer 5]
    let env : Environment := [("y", .integer 0)]
    let env' : Environment := [("x", .integer 5), ("x", .integer 1), ("y", .integer 0)]
    evaluate (some ask) 2 env (front ++ [.binder "x"]) ⟨[], 0⟩ = .ok env' ⟨[], 0⟩ ∧
    (∃ bound : Environment, env' = bound ++ env ∧ bound.map Prod.fst = ["x", "x"]) ∧
    (∃ v rest world, evaluate (some ask) 2 env front ⟨[], 0⟩
        = .ok [("x", .integer 1), ("y", .integer 0)] ⟨v :: rest, world⟩ ∧
      env'.get? "x" = some v) ∧
    env'.get? "y" = env.get? "y" := by
  intro ask white surface picture front env env'
  have hrun : evaluate (some ask) 2 env (front ++ [.binder "x"]) ⟨[], 0⟩ = .ok env' ⟨[], 0⟩ := rfl
  obtain ⟨hbound, hbinder, hother⟩ := evaluate_binds_directly hrun
  obtain ⟨outer, inner, v, rest, world, hfront, henv, -, hinner, hlast⟩ :=
    hbinder front "x" [] rfl
  -- No binder follows the last one.
  obtain rfl : inner = [] := List.map_eq_nil_iff.mp hinner
  have houter : [("x", .integer 1), ("y", .integer 0)] = outer ++ env := (List.cons.inj henv).2
  rw [houter]
  exact ⟨hrun, hbound, ⟨v, rest, world, hfront, hlast (by simp)⟩, hother "y" (by decide)⟩

end SceneTracer
