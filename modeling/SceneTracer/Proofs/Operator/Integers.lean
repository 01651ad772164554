import Mathlib
import SceneTracer.Proofs.Operator.Contract

namespace SceneTracer

/-!
# Integers of 64 bits

The integer operators compute with the integers that their operands stand for. A sum, a difference, a
product or a negated integer that needs more than 64 bits is cut off at them, which keeps it modulo
`2 ^ 64`. A quotient that needs more is a fault, as is one by zero.

* `Operator.ComesTo` — how an operator ends on operands, whatever lies below them.
* `IsWrapped`, `isWrapped_of_toInt_eq_bmod` — the 64-bit integer that an integer is cut off to.
* `IsDivision`, `isDivision_tdiv_tmod` — quotient and remainder, rounded towards zero.
* `integer_operators_exact` — the operators on all 64-bit integers.
-/

/-- On any stack that has `operands` on top, in the order in which they were pushed, the operator
takes them off. It puts a value there instead, or fails, as `outcome` says. -/
def Operator.ComesTo (op : Operator) (operands : List Value) (outcome : Except Fault Value) : Prop :=
  ∀ (ω : Type) (backend : Option (Backend ω)) (callClosure : Closure → Run ω Unit)
    (base : List Value) (world : ω),
    operatorStep backend callClosure op ⟨operands.reverse ++ base, world⟩ =
      match outcome with
      | .ok v => .ok () ⟨v :: base, world⟩
      | .error f => .error (.fault f) ⟨base, world⟩

/-- An operator comes to what its operation computes from the operands, on any machine. -/
theorem Operator.comesTo_of_operation {op : Operator} {operation : Operation}
    (h : op.operation? = some operation) {operands : List Value}
    (hlength : operands.length = op.arity) {outcome : Except Fault Value}
    (hrun : operation.run op operands = outcome) : op.ComesTo operands outcome := by
  intro ω backend callClosure base world
  subst hrun
  exact operatorStep_of_operation h backend callClosure hlength base world

/-! ### Results cut off at 64 bits -/

/-- The 64-bit integer is the only one that is congruent to `n` modulo `2 ^ 64`. -/
def IsWrapped (n : ℤ) (r : Int64) : Prop :=
  ∀ r' : Int64, r'.toInt ≡ n [ZMOD 2 ^ 64] ↔ r' = r

/-- Different 64-bit integers are not congruent modulo `2 ^ 64`. -/
theorem int64_eq_of_modEq {r r' : Int64} (h : r'.toInt ≡ r.toInt [ZMOD 2 ^ 64]) : r' = r := by
  have hlow := r.le_toInt
  have hhigh := r.toInt_lt
  have hlow' := r'.le_toInt
  have hhigh' := r'.toInt_lt
  unfold Int.ModEq at h
  exact Int64.toInt_inj.mp (by omega)

/-- Machine arithmetic takes results modulo the number of words, to the representative around
zero. -/
theorem isWrapped_of_toInt_eq_bmod {n : ℤ} {r : Int64} (h : r.toInt = n.bmod (2 ^ 64)) :
    IsWrapped n r := by
  have hcongr : r.toInt ≡ n [ZMOD 2 ^ 64] := by
    rw [h]
    exact Int.bmod_emod
  refine fun r' => ⟨fun hr' => int64_eq_of_modEq (hr'.trans hcongr.symm), ?_⟩
  rintro rfl
  exact hcongr

/-! ### Quotients and remainders -/

/-- Why a quotient and a remainder by `b` do not exist. -/
def divisionFault (op : Operator) (b : Int64) : Fault :=
  .domain (if b = 0 then .divisionByZero op else .quotientOverflow op)

/-- There is no quotient of `a` and `b` of 64 bits. -/
def NoQuotient (a b : ℤ) : Prop := b = 0 ∨ a = -2 ^ 63 ∧ b = -1

instance (a b : ℤ) : Decidable (NoQuotient a b) := inferInstanceAs (Decidable (_ ∨ _))

/-- There is no quotient for two reasons: the divisor is zero, or the quotient is one beyond the
largest word. -/
theorem noQuotient_iff {a b : Int64} :
    NoQuotient a.toInt b.toInt ↔ b = 0 ∨ a = Int64.minValue ∧ b = -1 := by
  rw [← Int64.toInt_inj, ← Int64.toInt_inj, ← Int64.toInt_inj]
  rfl

/-- A division ends with a fault if there is no quotient, and otherwise with what it computes. -/
theorem run_divide (op : Operator) (f : Int64 → Int64 → Int64) (a b : Int64) :
    (Operation.divide op f a b).run op [] =
      if NoQuotient a.toInt b.toInt then .error (divisionFault op b)
      else .ok (.integer (f a b)) := by
  unfold Operation.divide divisionFault
  simp only [noQuotient_iff]
  by_cases hzero : b = 0
  · rw [if_pos hzero, if_pos hzero, if_pos (Or.inl hzero)]
    rfl
  · rw [if_neg hzero, if_neg hzero]
    by_cases hoverflow : a = Int64.minValue ∧ b = -1
    · rw [if_pos hoverflow, if_pos (Or.inr hoverflow)]
      rfl
    · rw [if_neg hoverflow, if_neg (not_or.mpr ⟨hzero, hoverflow⟩)]
      rfl

/-- Both operators that divide fail for the same operands, and otherwise leave what they compute. -/
theorem Operator.comesTo_divide (op : Operator) (f : Int64 → Int64 → Int64)
    (h : op.operation? = some (.integer fun a => .integer fun b => .divide op f a b))
    (harity : op.arity = 2) (a b : Int64) :
    op.ComesTo [.integer a, .integer b]
      (if NoQuotient a.toInt b.toInt then .error (divisionFault op b)
      else .ok (.integer (f a b))) := by
  refine Operator.comesTo_of_operation h ?_ (run_divide op f a b)
  exact harity.symm

/-- A quotient of 64 bits is the exact one, rounded towards zero. -/
theorem toInt_div_of_fits {a b : Int64} (h : ¬ NoQuotient a.toInt b.toInt) :
    (a / b).toInt = a.toInt.tdiv b.toInt := by
  rw [noQuotient_iff, not_or, not_and_or] at h
  obtain ⟨-, ha | hb⟩ := h
  · exact Int64.toInt_div_of_ne_left a b ha
  · exact Int64.toInt_div_of_ne_right a b hb

/-- Dividing `a` by `b` gives the quotient `q`, rounded towards zero, and leaves the remainder
`r`. -/
structure IsDivision (a b q r : ℤ) : Prop where
  exact : a = q * b + r
  small : |r| < |b|
  /-- The remainder is on the side of the dividend. -/
  sign : r = 0 ∨ r.sign = a.sign
  truncated : q = a.tdiv b

/-- The division that rounds towards zero is the one with these four properties. -/
theorem isDivision_tdiv_tmod (a : ℤ) {b : ℤ} (hb : b ≠ 0) :
    IsDivision a b (a.tdiv b) (a.tmod b) := by
  have hsmall : (a.tmod b).natAbs < b.natAbs := by
    rw [Int.natAbs_tmod]
    exact Nat.mod_lt _ (Int.natAbs_pos.mpr hb)
  refine ⟨(Int.tdiv_mul_add_tmod a b).symm, ?_, ?_, rfl⟩
  · rwa [Int.abs_eq_natAbs, Int.abs_eq_natAbs, Nat.cast_lt]
  · rw [← Int.dvd_iff_tmod_eq_zero, Int.sign_tmod]
    by_cases hdvd : b ∣ a
    · exact Or.inl hdvd
    · exact Or.inr (if_neg hdvd)

/-! ### All integer operators -/

/-- The operator leaves the integer `n`, cut off at 64 bits. -/
def Operator.LeavesWrapped (op : Operator) (operands : List Value) (n : ℤ) : Prop :=
  ∃ r, op.ComesTo operands (.ok (.integer r)) ∧ IsWrapped n r

/-- **Integer operators on all 64-bit integers.** Addition, subtraction, multiplication and negation
leave the exact result, cut off at 64 bits. Division and remainder both fail if the divisor is zero or
the quotient is `2 ^ 63`, and otherwise leave the exact quotient, rounded towards zero, and what
remains of the dividend. Comparisons are those of the integers. -/
theorem integer_operators_exact (a b : Int64) :
    let operands : List Value := [.integer a, .integer b]
    Operator.addi.LeavesWrapped operands (a.toInt + b.toInt) ∧
    Operator.subi.LeavesWrapped operands (a.toInt - b.toInt) ∧
    Operator.muli.LeavesWrapped operands (a.toInt * b.toInt) ∧
    Operator.negi.LeavesWrapped [.integer a] (-a.toInt) ∧
    (if NoQuotient a.toInt b.toInt then
      Operator.divi.ComesTo operands (.error (divisionFault .divi b)) ∧
      Operator.modi.ComesTo operands (.error (divisionFault .modi b))
    else ∃ q r,
      Operator.divi.ComesTo operands (.ok (.integer q)) ∧
      Operator.modi.ComesTo operands (.ok (.integer r)) ∧
      IsDivision a.toInt b.toInt q.toInt r.toInt) ∧
    Operator.eqi.ComesTo operands (.ok (.boolean (decide (a.toInt = b.toInt)))) ∧
    Operator.lessi.ComesTo operands (.ok (.boolean (decide (a.toInt < b.toInt)))) := by
  intro operands
  refine ⟨⟨a + b, ?_, ?_⟩, ⟨a - b, ?_, ?_⟩, ⟨a * b, ?_, ?_⟩, ⟨-a, ?_, ?_⟩, ?_, ?_, ?_⟩
  · exact Operator.comesTo_of_operation rfl rfl rfl
  · exact isWrapped_of_toInt_eq_bmod (Int64.toInt_add a b)
  · exact Operator.comesTo_of_operation rfl rfl rfl
  · exact isWrapped_of_toInt_eq_bmod (Int64.toInt_sub a b)
  · exact Operator.comesTo_of_operation rfl rfl rfl
  · exact isWrapped_of_toInt_eq_bmod (Int64.toInt_mul a b)
  · exact Operator.comesTo_of_operation rfl rfl rfl
  · exact isWrapped_of_toInt_eq_bmod (Int64.toInt_neg a)
  · -- Quotient and remainder come from one division, which both operators refuse alike.
    have hdivi := Operator.comesTo_divide .divi (· / ·) rfl rfl a b
    have hmodi := Operator.comesTo_divide .modi (· % ·) rfl rfl a b
    split
    · rename_i h
      rw [if_pos h] at hdivi hmodi
      exact ⟨hdivi, hmodi⟩
    · rename_i h
      rw [if_neg h] at hdivi hmodi
      refine ⟨a / b, a % b, hdivi, hmodi, ?_⟩
      rw [toInt_div_of_fits h, Int64.toInt_mod]
      exact isDivision_tdiv_tmod a.toInt fun hzero => h (Or.inl hzero)
  · have heqi : Operator.eqi.ComesTo operands (.ok (.boolean (decide (a = b)))) :=
      Operator.comesTo_of_operation rfl rfl rfl
    simpa only [Int64.toInt_inj] using heqi
  · have hlessi : Operator.lessi.ComesTo operands (.ok (.boolean (decide (a < b)))) :=
      Operator.comesTo_of_operation rfl rfl rfl
    simpa only [← Int64.lt_iff_toInt_lt] using hlessi

end SceneTracer
