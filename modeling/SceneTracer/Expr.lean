import SceneTracer.Operator

namespace SceneTracer

/-!
# Expressions

A program is a list of expressions that run one after another. Function and array literals hold
such lists of their own.

* `Expr.size`, `Expr.sizeList` — the number of expressions in one or in a list, nested ones
  included.
* `Expr.list_induction` — induction over lists of expressions and the bodies in them.
-/

/-- An expression of the scene language. -/
inductive Expr
  | integer (value : Int64)
  | real (value : Float)
  | boolean (value : Bool)
  | string (text : String)
  | identifier (name : String)
  | binder (name : String)
  | function (body : List Expr)
  | array (items : List Expr)
  | operator (op : Operator)

namespace Expr

mutual

/-- The number of expressions in `e`, itself and nested ones included. -/
def size : Expr → Nat
  | .function body => 1 + sizeList body
  | .array items => 1 + sizeList items
  | _ => 1

/-- The number of expressions in a list, nested ones included. -/
def sizeList : List Expr → Nat
  | [] => 0
  | e :: es => e.size + sizeList es

end

@[simp] theorem sizeList_append (es fs : List Expr) :
    sizeList (es ++ fs) = sizeList es + sizeList fs := by
  induction es with
  | nil => simp [sizeList]
  | cons e es ih => simp [sizeList, ih, Nat.add_assoc]

/-- Induction over lists of expressions: the body of the first, if it is a literal with a body, and
the others. -/
@[elab_as_elim] theorem list_induction {motive : List Expr → Prop} (nil : motive [])
    (cons : ∀ e es, (∀ body, e = .function body ∨ e = .array body → motive body) → motive es →
      motive (e :: es)) :
    ∀ es, motive es
  | [] => nil
  | e :: es =>
    cons e es
      (fun body h => by
        rcases h with rfl | rfl
        · exact list_induction nil cons body
        · exact list_induction nil cons body)
      (list_induction nil cons es)

end Expr

end SceneTracer
