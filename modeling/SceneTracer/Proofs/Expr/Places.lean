import SceneTracer.Expr.Scope

namespace SceneTracer.Expr

/-!
# Places in a program

* `Place` — where in a program a list of expressions stands, and what is bound in front of it.
* `mem_names_of_place` — in a program whose identifiers are all bound, each stands behind a binder
  of its name.
-/

/-- The list of expressions stands in the program, as what is left of it or of a literal in it, and
`names` are the names that are bound there: by the binders in front of it in its own body, and in
each enclosing body by those in front of the literal that contains it. -/
inductive Place (program : List Expr) : List String → List Expr → Prop
  | start : Place program [] program
  | next {names : List String} {e : Expr} {es : List Expr} (h : Place program names (e :: es)) :
      Place program (e.binds ++ names) es
  | function {names : List String} {body es : List Expr}
      (h : Place program names (.function body :: es)) : Place program names body
  | array {names : List String} {items es : List Expr}
      (h : Place program names (.array items :: es)) : Place program names items

/-- Whatever stands in a scoped program is scoped by the names that are bound there. -/
theorem scopedList_of_place {program : List Expr} (hscoped : ScopedList [] program)
    {names : List String} {rest : List Expr} (h : Place program names rest) :
    ScopedList names rest := by
  induction h with
  | start => exact hscoped
  | next _ ih => exact ih.2
  | function _ ih => exact ih.1
  | array _ ih => exact ih.1

/-- In a program whose names are in scope, the names at a place are. -/
theorem mem_names_of_place {program : List Expr} (hscoped : ScopedList [] program)
    {names : List String} {x : String} {rest : List Expr}
    (h : Place program names (.identifier x :: rest)) : x ∈ names :=
  (scopedList_of_place hscoped h).1

end SceneTracer.Expr
