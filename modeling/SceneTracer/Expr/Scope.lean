import SceneTracer.Expr

namespace SceneTracer.Expr

/-!
# Scopes

Which names are bound where an expression stands, said on the text alone. A binder is in force for
what follows it in its own body, and in the function and array literals among that; binders inside
such a literal are in force only there.

* `binds` — the name that an expression binds in the body it is part of.
* `Scoped`, `ScopedList` — every identifier stands where its name is bound.
-/

/-- The name that an expression binds in the body it is part of. -/
def binds : Expr → List String
  | .binder name => [name]
  | _ => []

/-- The names that the expressions of a body bind in it, the latest first. -/
def bindsList (body : List Expr) : List String := (body.flatMap binds).reverse

@[simp] theorem bindsList_nil : bindsList [] = [] := rfl

/-- What is bound later comes first. -/
@[simp] theorem bindsList_append (as bs : List Expr) :
    bindsList (as ++ bs) = bindsList bs ++ bindsList as := by
  simp [bindsList]

mutual

/-- Every identifier in an expression is bound, where `names` are bound in front of it. -/
def Scoped (names : List String) : Expr → Prop
  | .identifier name => name ∈ names
  | .function body => ScopedList names body
  | .array items => ScopedList names items
  | _ => True

/-- Every identifier in a body is bound, where `names` are bound in front of it. -/
def ScopedList (names : List String) : List Expr → Prop
  | [] => True
  | e :: es => Scoped names e ∧ ScopedList (e.binds ++ names) es

end

end SceneTracer.Expr
