import SceneTracer.Dialogue

namespace SceneTracer.Dialogue

/-!
# The questions of a dialogue

* `AsksOnly` — every question it may ask is of some sort.
* `AsksAtMost` — how many questions it may ask, whatever it is told.
* `Stateless` — it neither looks at nor changes its state.
-/

variable {Q A ω ρ τ : Type}

/-- Every question that the dialogue may ask satisfies `P`. -/
def AsksOnly (P : Q → Prop) : Dialogue Q A ω ρ → Prop
  | .done _ => True
  | .ask question resume => P question ∧ ∀ answer, (resume answer).AsksOnly P
  | .change _ resume => ∀ state, (resume state).AsksOnly P

/-- The dialogue asks at most `n` questions, whatever it is told. -/
def AsksAtMost : Nat → Dialogue Q A ω ρ → Prop
  | _, .done _ => True
  | 0, .ask _ _ => False
  | n + 1, .ask _ resume => ∀ answer, (resume answer).AsksAtMost n
  | n, .change _ resume => ∀ state, (resume state).AsksAtMost n

/-- The dialogue does not use its state. -/
def Stateless : Dialogue Q A ω ρ → Prop
  | .done _ => True
  | .ask _ resume => ∀ answer, (resume answer).Stateless
  | .change _ _ => False

end SceneTracer.Dialogue
