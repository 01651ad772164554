import SceneTracer.Operator.Signature
import SceneTracer.Proofs.Evaluation.Steps

namespace SceneTracer

/-!
# What operators take and leave

An operator that computes a value takes as many operands as its signature lists, and looks at nothing
else. It fails for the first of them that the signature does not admit; if it admits all, there is a
value, or they have none for a reason that has nothing to do with their sorts.

* `Operator.refused?` — the first operand that the signature of an operator does not admit.
* `Operation.Takes` — an operation wants what a signature lists; `Operation.Takes.run` says how it
  ends, and `Operator.takes_signature` that the operators are such operations.
* `operatorStep_of_operation` — the operands come off the stack, and a value goes on it.
* `operatorStep_by_signature` — operators on stacks.
-/

/-! ### Operations -/

/-- The first operand that is not what is wanted in its place, with what is wanted there. -/
def Wanted.refused? (wanted : List Wanted) (operands : List Value) : Option (Wanted × Value) :=
  (wanted.zip operands).find? fun (w, v) => !w.admits v.kind

/-- The first operand that the signature does not admit, with what it wants there. -/
def Operator.refused? (op : Operator) (operands : List Value) : Option (Wanted × Value) :=
  Wanted.refused? op.signature operands

namespace Operation

/-- An outcome for operands of the right sorts: a value, or a fault that is not about their sorts or
their number. -/
inductive Computed : Except Fault Value → Prop
  | value (v : Value) : Computed (.ok v)
  | domain (f : DomainFault) : Computed (.error (.domain f))
  | outOfRange (index : Int64) (length : Nat) : Computed (.error (.outOfRange index length))

/-- The operation takes operands of the sorts that are wanted, one after the other, and then it has
an outcome. -/
def Takes : List Wanted → Operation → Prop
  | [], .result outcome => Computed outcome
  | .kind .integer :: wanted, .integer next => ∀ n, (next n).Takes wanted
  | .kind .real :: wanted, .real next => ∀ x, (next x).Takes wanted
  | .number :: wanted, .number next => ∀ x, (next x).Takes wanted
  | .kind .point :: wanted, .point next => ∀ p, (next p).Takes wanted
  | .kind .array :: wanted, .array next => ∀ items, (next items).Takes wanted
  | .kind .closure :: wanted, .closure next => ∀ c, (next c).Takes wanted
  | .kind .object :: wanted, .object next => ∀ scene, (next scene).Takes wanted
  | _, _ => False

/-- How an operator ends on operands: for the first one that is not as wanted, if there is one. -/
def EndsBy (op : Operator) (wanted : List Wanted) (operands : List Value)
    (outcome : Except Fault Value) : Prop :=
  match Wanted.refused? wanted operands with
  | some (w, v) => outcome = .error (.wrongKind (.operator op) w v.kind)
  | none => Computed outcome

/-- **An operation ends by what it wants.** It is run on one operand for each sort that is wanted. -/
theorem Takes.run {wanted : List Wanted} {operation : Operation} (h : operation.Takes wanted)
    (op : Operator) {operands : List Value} (hlength : operands.length = wanted.length) :
    EndsBy op wanted operands (operation.run op operands) := by
  fun_induction Takes wanted operation generalizing operands with
  | case1 outcome =>
    obtain rfl := List.length_eq_zero_iff.mp hlength
    exact h
  | case2 wanted next ih | case3 wanted next ih | case4 wanted next ih | case5 wanted next ih
  | case6 wanted next ih | case7 wanted next ih | case8 wanted next ih =>
    obtain ⟨v, rest, rfl⟩ := List.exists_cons_of_length_eq_add_one hlength
    have hrest : rest.length = wanted.length := Nat.succ.inj hlength
    -- A value of the right sort is taken, and the rest is left; any other value is refused.
    cases v <;> first | exact ih _ (h _) hrest | rfl
  | case9 => exact h.elim

namespace EndsBy

variable {op : Operator} {wanted : List Wanted} {operands : List Value}
  {outcome : Except Fault Value}

/-- The first operand that is refused is reported, with its kind and with what was wanted. -/
theorem wrongKind (h : EndsBy op wanted operands outcome) (w : Wanted) (v : Value)
    (hrefused : Wanted.refused? wanted operands = some (w, v)) :
    outcome = .error (.wrongKind (.operator op) w v.kind) := by
  rw [EndsBy, hrefused] at h
  exact h

/-- Operands that are all as wanted have an outcome that is not about their sorts, and no others
have. -/
theorem refused_eq_none_iff (h : EndsBy op wanted operands outcome) :
    Wanted.refused? wanted operands = none ↔
      (∃ v, outcome = .ok v) ∨ (∃ f, outcome = .error (.domain f)) ∨
        ∃ index length, outcome = .error (.outOfRange index length) := by
  unfold EndsBy at h
  split at h
  · rename_i w v hrefused
    rw [hrefused, h]
    simp
  · rename_i hnone
    rw [hnone]
    cases h <;> simp

end EndsBy

/-! ### Single operators -/

/-- Division wants no further operands. -/
theorem takes_divide (op : Operator) (f : Int64 → Int64 → Int64) (a b : Int64) :
    (divide op f a b).Takes [] := by
  unfold divide
  split
  · exact .domain _
  · split
    · exact .domain _
    · exact .value _

theorem takes_squareRoot (x : Float) : (squareRoot x).Takes [] := by
  unfold squareRoot
  split
  · exact .domain _
  · exact .value _

theorem takes_item (items : List Value) (index : Int64) : (item items index).Takes [] := by
  unfold item
  split
  · exact .value _
  · exact .outOfRange _ _

theorem takes_stretched (scene : Scene Float Closure) (x y z : Float) :
    (stretched scene x y z).Takes [] := by
  unfold stretched
  split
  · exact .value _
  · exact .domain _

end Operation

namespace Operator

open Operation

/-- **Every operator wants what its signature lists.** -/
theorem takes_signature {op : Operator} {operation : Operation}
    (h : op.operation? = some operation) : operation.Takes op.signature := by
  cases op with
  | apply | branch | render => cases h
  | divi | modi =>
    cases h
    exact fun a b => takes_divide _ _ a b
  | sqrt =>
    cases h
    exact takes_squareRoot
  | get =>
    cases h
    exact takes_item
  | scale =>
    cases h
    exact takes_stretched
  | uscale =>
    cases h
    exact fun scene s => takes_stretched scene s s s
  -- All others have a value for all operands of the right sorts.
  | _ =>
    cases h
    simp only [signature, integers, reals, realFunction, solid, joined, turned, moved, Takes]
    intros
    exact .value _

/-- The signature of an operator that computes a value lists all its operands. -/
theorem length_signature {op : Operator} {operation : Operation}
    (h : op.operation? = some operation) : op.signature.length = op.arity := by
  cases op with
  | apply | branch | render => cases h
  | _ => rfl

/-- All operators but the three that control the run compute a value. -/
theorem exists_operation {op : Operator} (h : op ≠ .apply ∧ op ≠ .branch ∧ op ≠ .render) :
    ∃ operation, op.operation? = some operation := by
  cases op with
  | apply => exact absurd rfl h.1
  | branch => exact absurd rfl h.2.1
  | render => exact absurd rfl h.2.2
  | _ => exact ⟨_, rfl⟩

end Operator

/-! ### Stacks -/

/-- **An operator replaces its operands by a value**, or takes them off the stack and fails. -/
theorem operatorStep_of_operation {ω : Type} {op : Operator} {operation : Operation}
    (h : op.operation? = some operation) (backend : Option (Backend ω))
    (callClosure : Closure → Run ω Unit) {operands : List Value}
    (hlength : operands.length = op.arity) (base : List Value) (world : ω) :
    operatorStep backend callClosure op ⟨operands.reverse ++ base, world⟩ =
      match operation.run op operands with
      | .ok v => .ok () ⟨v :: base, world⟩
      | .error f => .error (.fault f) ⟨base, world⟩ := by
  -- The last operand is on top of the stack, so the operands are taken off in reverse.
  have hreverse : operands.reverse.length = op.arity := by rw [List.length_reverse, hlength]
  have htake : (operands.reverse ++ base).take op.arity = operands.reverse :=
    List.take_left' hreverse
  have hdrop : (operands.reverse ++ base).drop op.arity = base := List.drop_left' hreverse
  have henough : ¬ (operands.reverse ++ base).length < op.arity := by
    rw [List.length_append, hreverse]
    omega
  rw [operatorStep_apply, if_neg henough, operandsStep_of_operation backend callClosure h]
  show (Run.ofExcept (operation.run op ((operands.reverse ++ base).take op.arity).reverse)
    >>= Run.push) ⟨(operands.reverse ++ base).drop op.arity, world⟩ = _
  rw [htake, hdrop, List.reverse_reverse]
  cases operation.run op operands <;> rfl

/-- **What an operator takes and leaves is in its signature.** This is so for all operators but
`apply`, `if` and `render`. With fewer values on the stack than its signature lists an operator fails
and leaves all of them. Otherwise its outcome is a matter of the operands alone, which are the
topmost values: it replaces them by one value, or it takes them off and fails. If the signature does
not admit all of them, it fails for the first that it does not admit, in the order in which they were
pushed. Just if it admits all, there is a value, or there is none because the operands are out of the
domain of the operator or an index is out of range. -/
theorem operatorStep_by_signature (op : Operator)
    (hop : op ≠ .apply ∧ op ≠ .branch ∧ op ≠ .render) :
    ∃ operation, op.operation? = some operation ∧ op.signature.length = op.arity ∧
      (∀ {ω : Type} (backend : Option (Backend ω)) (callClosure : Closure → Run ω Unit)
        (m : Machine ω), m.stack.length < op.arity →
          operatorStep backend callClosure op m = .error (.fault (.underflow (.operator op))) m) ∧
      ∀ operands : List Value, operands.length = op.arity →
        let outcome := operation.run op operands
        (∀ {ω : Type} (backend : Option (Backend ω)) (callClosure : Closure → Run ω Unit)
          (base : List Value) (world : ω),
            operatorStep backend callClosure op ⟨operands.reverse ++ base, world⟩ =
              match outcome with
              | .ok v => .ok () ⟨v :: base, world⟩
              | .error f => .error (.fault f) ⟨base, world⟩) ∧
        (∀ wanted v, op.refused? operands = some (wanted, v) →
          outcome = .error (.wrongKind (.operator op) wanted v.kind)) ∧
        (op.refused? operands = none ↔
          (∃ v, outcome = .ok v) ∨ (∃ f, outcome = .error (.domain f)) ∨
            ∃ index length, outcome = .error (.outOfRange index length)) := by
  obtain ⟨operation, hoperation⟩ := Operator.exists_operation hop
  have hsignature := Operator.length_signature hoperation
  refine ⟨operation, hoperation, hsignature, ?_, ?_⟩
  · intro ω backend callClosure m hfew
    rw [operatorStep_apply, if_pos hfew]
  · intro operands hlength outcome
    -- Reading the operands one after the other is what the signature is checked against.
    have hends : Operation.EndsBy op op.signature operands outcome :=
      (Operator.takes_signature hoperation).run op (hlength.trans hsignature.symm)
    refine ⟨fun backend callClosure base world => ?_, hends.wrongKind, hends.refused_eq_none_iff⟩
    exact operatorStep_of_operation hoperation backend callClosure hlength base world

/-- A solid is moved by an integer, a text and a truth value, of which the text comes first that is no
number. Without the solid operands are missing. -/
theorem operatorStep_by_signature_translate :
    let ball : Value := .object (.atOrigin .sphere ⟨Environment.empty, []⟩)
    let numbers : List Value := [.boolean true, .string "y", .integer 1]
    let callClosure : Closure → Run Unit Unit := fun _ => pure ()
    operatorStep none callClosure .translate ⟨numbers, ()⟩
      = .error (.fault (.underflow (.operator .translate))) ⟨numbers, ()⟩ ∧
    operatorStep none callClosure .translate ⟨numbers ++ [ball] ++ [.real 7], ()⟩
      = .error (.fault (.wrongKind (.operator .translate) .number .string)) ⟨[.real 7], ()⟩ := by
  intro ball numbers callClosure
  obtain ⟨operation, -, -, hfew, hfull⟩ :=
    operatorStep_by_signature .translate (by decide)
  obtain ⟨hstep, hrefused, -⟩ := hfull [ball, .integer 1, .string "y", .boolean true] rfl
  refine ⟨hfew none callClosure ⟨numbers, ()⟩ (by decide), ?_⟩
  have hends := hstep none callClosure [.real 7] ()
  rw [hrefused .number (.string "y") rfl] at hends
  exact hends

end SceneTracer
