import SceneTracer.Operator.Operation

namespace SceneTracer.Operation

/-!
# Outcomes of operations

* `Ensures` — whatever operands an operation accepts, its outcome has some property.
* `Ensures.run` — running the operation ends in a fault about its operands, or with that property.
-/

/-- Whatever further operands of the wanted sorts the operation takes, its outcome and all operands
satisfy `post`. The operands `taken` were taken before, the latest first. -/
def Ensures (post : List Value → Except Fault Value → Prop) : List Value → Operation → Prop
  | taken, .result outcome => post taken outcome
  | taken, .integer next => ∀ n, (next n).Ensures post (.integer n :: taken)
  | taken, .real next => ∀ x, (next x).Ensures post (.real x :: taken)
  | taken, .number next =>
    (∀ x, (next x).Ensures post (.real x :: taken)) ∧
      ∀ n : Int64, (next n.toFloat).Ensures post (.integer n :: taken)
  | taken, .point next => ∀ p, (next p).Ensures post (.point p :: taken)
  | taken, .array next => ∀ items, (next items).Ensures post (.array items :: taken)
  | taken, .closure next => ∀ c, (next c).Ensures post (.closure c :: taken)
  | taken, .object next => ∀ scene, (next scene).Ensures post (.object scene :: taken)

variable {post : List Value → Except Fault Value → Prop} {taken : List Value}

/-- An operand that may be an integer as well is put with the others as it was found. -/
theorem Ensures.of_number {next : Float → Operation}
    (h : ∀ x v, (next x).Ensures post (v :: taken)) : (number next).Ensures post taken :=
  ⟨fun x => h x (.real x), fun n => h n.toFloat (.integer n)⟩

/-- A property of the outcome on all operands holds of a run, unless an operand is of the wrong sort
or operands are missing. -/
theorem Ensures.run {operation : Operation} (h : operation.Ensures post taken) (op : Operator)
    (operands : List Value) :
    (∃ wanted found, operation.run op operands = .error (.wrongKind (.operator op) wanted found)) ∨
    operation.run op operands = .error (.underflow (.operator op)) ∨
    post (operands.reverse ++ taken) (operation.run op operands) := by
  fun_induction Operation.run op operation operands generalizing taken with
  | case1 outcome => exact Or.inr (Or.inr h)
  -- An operand that is accepted goes on top of those taken before.
  | case2 next v rest ih | case4 next v rest ih | case9 next v rest ih | case11 next v rest ih
  | case13 next v rest ih | case15 next v rest ih => simpa using ih (h v)
  | case6 next x rest ih => simpa using ih (h.1 x)
  | case7 next n rest ih => simpa using ih (h.2 n)
  | case17 => exact Or.inr (Or.inl rfl)
  | case3 | case5 | case8 | case10 | case12 | case14 | case16 => exact Or.inl ⟨_, _, rfl⟩

end SceneTracer.Operation
