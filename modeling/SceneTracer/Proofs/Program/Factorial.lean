import SceneTracer.Proofs.Evaluation.Running
import SceneTracer.Proofs.Operator.Integers
import SceneTracer.Proofs.Program.Words

namespace SceneTracer

/-!
# Factorials by self-application

Closures have no names for themselves. A closure that is to call itself gets itself as an operand,
and passes itself on. Factorials are computed in this way, whether the closure multiplies what the
inner call has left or has put its own factor below the operands of the inner call.

* `factorialSource`, `factorialProgram` — the program, around the expressions that call it again.
* `wrappedFactorial` — what it computes: the factorial, cut off at 64 bits.
* `MultipliesOn` — what these expressions are to do.
* `call_factorialClosure_step`, `call_factorialClosure` — one call, and all the calls inside it.
* `compile_factorialSource`, `run_factorialSource` — the source text.
* `factorial_by_self_application` — both programs on every integer.
-/

/-! ### The program -/

/-- A closure that gets itself and a number: it leaves one if the number is less than two, and
otherwise runs `recurse`. -/
def factorialBody (recurse : List Expr) : List Expr :=
  [.binder "self", .binder "n", .identifier "n", .integer 2, .operator .lessi,
    .function [.integer 1], .function recurse, .operator .branch]

/-- The closure is bound to a name, and called on itself and a number. -/
def factorialProgram (recurse : List Expr) (n : Int64) : List Expr :=
  [.function (factorialBody recurse), .binder "fact", .integer n, .identifier "fact",
    .identifier "fact", .operator .apply]

/-- The text of the program, given those of the expressions that call it again and of the number. -/
def factorialSource (recursion literal : String) : String :=
  " ".intercalate
    ["\x7b /self /n n 2 lessi \x7b 1 \x7d \x7b", recursion, "\x7d if \x7d /fact", literal,
      "fact fact apply"]

example : factorialSource "n 1 subi self self apply n muli" "12" =
    "\x7b /self /n n 2 lessi \x7b 1 \x7d \x7b n 1 subi self self apply n muli \x7d if \x7d " ++
      "/fact 12 fact fact apply" := rfl

/-- The closure that the program binds. -/
def factorialClosure (recurse : List Expr) : Closure := ⟨Environment.empty, factorialBody recurse⟩

/-! ### The numbers -/

/-- The factorial of `n`, that of zero if `n` is negative, cut off at 64 bits. -/
def wrappedFactorial (n : Int64) : Int64 := .ofInt n.toInt.toNat.factorial

/-- The comparison of the program is that of integers. -/
theorem toInt_lt_two {n : Int64} : n < 2 ↔ n.toInt < 2 := Int64.lt_iff_toInt_lt

/-- Below two, the factorial is one. -/
theorem wrappedFactorial_of_lt {n : Int64} (h : n < 2) : wrappedFactorial n = 1 := by
  have hsmall : n.toInt.toNat ≤ 1 := by
    have hlt := toInt_lt_two.mp h
    omega
  rw [wrappedFactorial, Nat.factorial_eq_one.mpr hsmall]
  rfl

/-- Counting down from two or more does not wrap around. -/
theorem toInt_sub_one {n : Int64} (h : ¬ n < 2) : (n - 1).toInt = n.toInt - 1 := by
  have hone : (1 : Int64).toInt = 1 := rfl
  have hhigh := n.toInt_lt
  rw [toInt_lt_two] at h
  rw [Int64.toInt_sub, hone, Int.bmod_eq_of_le (by omega) (by omega)]

/-- The recursion of the program, for values. -/
theorem wrappedFactorial_of_not_lt {n : Int64} (h : ¬ n < 2) :
    wrappedFactorial n = n * wrappedFactorial (n - 1) := by
  have hpos : 2 ≤ n.toInt := not_lt.mp fun hlt => h (toInt_lt_two.mpr hlt)
  obtain ⟨m, hm⟩ : ∃ m : ℕ, n.toInt = m + 1 := ⟨(n.toInt - 1).toNat, by omega⟩
  have hthis : n.toInt.toNat = m + 1 := by omega
  have hbefore : (n.toInt - 1).toNat = m := by omega
  have hn : n = .ofInt ((m + 1 : ℕ) : ℤ) := by rw [Nat.cast_succ, ← hm, Int64.ofInt_toInt]
  rw [wrappedFactorial, wrappedFactorial, toInt_sub_one h, hthis, hbefore, Nat.factorial_succ,
    Nat.cast_mul, Int64.ofInt_mul, ← hn]

/-- The product from two to `n` is the factorial of `n`. -/
theorem prod_Icc_two (m : ℕ) : ∏ k ∈ Finset.Icc 2 (m : ℤ), k = m.factorial := by
  induction m with
  | zero => rfl
  | succ m ih =>
    obtain hm | hm := Nat.lt_or_ge (m + 1) 2
    · obtain rfl : m = 0 := by omega
      rfl
    · have hle : (2 : ℤ) ≤ (m + 1 : ℕ) := by exact_mod_cast hm
      have hbefore : ((m + 1 : ℕ) : ℤ) - 1 = m := by push_cast; ring
      rw [← Finset.insert_Icc_sub_one_right_eq_Icc hle, Finset.prod_insert (by simp), hbefore, ih,
        Nat.factorial_succ, Nat.cast_mul]

/-- **The value is the product that the mathematical factorial is**, wrapped around. -/
theorem isWrapped_wrappedFactorial {n : Int64} (h : 2 ≤ n.toInt) :
    IsWrapped (∏ k ∈ Finset.Icc 2 n.toInt, k) (wrappedFactorial n) := by
  obtain ⟨m, hm⟩ := Int.eq_ofNat_of_zero_le (show 0 ≤ n.toInt by omega)
  rw [wrappedFactorial, hm, prod_Icc_two, Int.toNat_natCast]
  exact isWrapped_of_toInt_eq_bmod Int64.toInt_ofInt

/-! ### Calls -/

variable {ω : Type} {backend : Option (Backend ω)} {recurse : List Expr}

/-- The expressions multiply `n` and what a call of `self` on itself and `n - 1` leaves, if it
leaves the same on every stack. -/
def MultipliesOn (recurse : List Expr) : Prop :=
  ∀ {ω : Type} {backend : Option (Backend ω)} {callClosure : Closure → Run ω Unit}
    {env : Environment} {self : Closure} {n r : Int64} {world : ω},
    env.get? "self" = some (.closure self) → env.get? "n" = some (.integer n) →
    (∀ below, callClosure self ⟨.closure self :: .integer (n - 1) :: below, world⟩ =
      .ok () ⟨.integer r :: below, world⟩) →
    ∀ below, evaluateWith backend callClosure env recurse ⟨below, world⟩ =
      .ok env ⟨.integer (n * r) :: below, world⟩

/-- The inner call is made first, and what it leaves is multiplied. -/
def recurseFirst : List Expr :=
  [.identifier "n", .integer 1, .operator .subi, .identifier "self", .identifier "self",
    .operator .apply, .identifier "n", .operator .muli]

/-- The factor waits on the stack, below the operands of the inner call. -/
def factorFirst : List Expr :=
  [.identifier "n", .identifier "n", .integer 1, .operator .subi, .identifier "self",
    .identifier "self", .operator .apply, .operator .muli]

/-- Calling first and multiplying afterwards multiplies. -/
theorem multipliesOn_recurseFirst : MultipliesOn recurseFirst := by
  intro ω backend callClosure env self n r world hself hn hcall below
  rw [recurseFirst, evaluateWith_identifier hn, evaluateWith_integer,
    evaluateWith_operator (operatorStep_subi n 1), evaluateWith_identifier hself,
    evaluateWith_identifier hself,
    evaluateWith_operator ((operatorStep_apply_closure self).trans (hcall below)),
    evaluateWith_identifier hn, evaluateWith_operator (operatorStep_muli r n), evaluateWith_nil,
    Int64.mul_comm]

/-- Putting the factor on the stack first multiplies, too. -/
theorem multipliesOn_factorFirst : MultipliesOn factorFirst := by
  intro ω backend callClosure env self n r world hself hn hcall below
  -- The inner call runs on a stack with the factor on it.
  have hinner := hcall (.integer n :: below)
  rw [factorFirst, evaluateWith_identifier hn, evaluateWith_identifier hn, evaluateWith_integer,
    evaluateWith_operator (operatorStep_subi n 1), evaluateWith_identifier hself,
    evaluateWith_identifier hself,
    evaluateWith_operator ((operatorStep_apply_closure self).trans hinner),
    evaluateWith_operator (operatorStep_muli n r), evaluateWith_nil]

/-- The bindings inside a call. -/
def factorialBindings (self : Closure) (n : Int64) : Environment :=
  (Environment.empty.bind "self" (.closure self)).bind "n" (.integer n)

/-- One call of the closure runs the one or the other branch. -/
theorem call_factorialClosure_step {calls : Nat} {self : Closure} {n r : Int64}
    {below : List Value} {world : ω}
    (h : evaluateWith backend (call backend calls) (factorialBindings self n)
        (if n < 2 then [.integer 1] else recurse) ⟨below, world⟩ =
      .ok (factorialBindings self n) ⟨.integer r :: below, world⟩) :
    call backend (calls + 2) (factorialClosure recurse)
        ⟨.closure self :: .integer n :: below, world⟩ =
      .ok () ⟨.integer r :: below, world⟩ := by
  have hn : (factorialBindings self n).get? "n" = some (.integer n) :=
    Environment.get?_bind_self _ "n" (.integer n)
  -- The branch is a closure, so running it is a call inside the call.
  have hchosen : (if decide (n < 2) then ⟨factorialBindings self n, [.integer 1]⟩
      else ⟨factorialBindings self n, recurse⟩ : Closure) =
        ⟨factorialBindings self n, if n < 2 then [.integer 1] else recurse⟩ := by
    by_cases hlt : n < 2 <;> simp [hlt]
  have hbranch : operatorStep backend (call backend (calls + 1)) .branch
      ⟨.closure ⟨factorialBindings self n, recurse⟩ ::
        .closure ⟨factorialBindings self n, [.integer 1]⟩ :: .boolean (decide (n < 2)) :: below,
        world⟩ = .ok () ⟨.integer r :: below, world⟩ := by
    rw [operatorStep_branch_closures, hchosen]
    exact call_eq_ok h
  have hbody : evaluateWith backend (call backend (calls + 1)) Environment.empty
      (factorialBody recurse) ⟨.closure self :: .integer n :: below, world⟩ =
        .ok (factorialBindings self n) ⟨.integer r :: below, world⟩ := by
    rw [factorialBody, evaluateWith_binder, evaluateWith_binder, ← factorialBindings,
      evaluateWith_identifier hn, evaluateWith_integer,
      evaluateWith_operator (operatorStep_lessi n 2), evaluateWith_function,
      evaluateWith_function, evaluateWith_operator hbranch, evaluateWith_nil]
  exact call_eq_ok hbody

/-- **A call of the closure on itself and a number leaves the factorial** in place of both, if so
many calls may be nested that there are two for each factor. -/
theorem call_factorialClosure (hrecurse : MultipliesOn recurse) (n : Int64) {calls : Nat}
    (hcalls : 2 * max 1 n.toInt.toNat ≤ calls) (below : List Value) (world : ω) :
    call backend calls (factorialClosure recurse)
        ⟨.closure (factorialClosure recurse) :: .integer n :: below, world⟩ =
      .ok () ⟨.integer (wrappedFactorial n) :: below, world⟩ := by
  -- The induction is on the number, for all stacks: the factors that wait are below the operands.
  induction hm : n.toInt.toNat using Nat.strong_induction_on generalizing n calls below with
  | _ m ih =>
    obtain ⟨inner, rfl⟩ : ∃ inner, calls = inner + 2 := ⟨calls - 2, by omega⟩
    by_cases hlt : n < 2
    · rw [wrappedFactorial_of_lt hlt]
      refine call_factorialClosure_step ?_
      rw [if_pos hlt, evaluateWith_integer, evaluateWith_nil]
    · have hge : ¬ n.toInt < 2 := mt toInt_lt_two.mpr hlt
      -- The inner call has one factor less, and two calls less than this one may be nested in it.
      have hfewer : n.toInt.toNat = (n - 1).toInt.toNat + 1 := by
        rw [toInt_sub_one hlt]
        omega
      rw [wrappedFactorial_of_not_lt hlt]
      refine call_factorialClosure_step ?_
      rw [if_neg hlt]
      refine hrecurse (Environment.get?_bind_of_ne _ _ (by decide))
        (Environment.get?_bind_self _ "n" (.integer n)) (fun below => ?_) below
      exact ih (n - 1).toInt.toNat (by omega) (n - 1) (by omega) below rfl

/-! ### The whole program -/

/-- **The program leaves the wrapped factorial**, and nothing but the function bound. -/
theorem runBody_factorialProgram (hrecurse : MultipliesOn recurse) (n : Int64) {calls : Nat}
    (hcalls : 2 * max 1 n.toInt.toNat ≤ calls) (world : ω) :
    (Session.start world).runBody backend calls (factorialProgram recurse n) =
      .finished ⟨[("fact", .closure (factorialClosure recurse))],
        ⟨[.integer (wrappedFactorial n)], world⟩⟩ := by
  have hfact : (Environment.empty.bind "fact" (.closure (factorialClosure recurse))).get? "fact" =
      some (.closure (factorialClosure recurse)) := Environment.get?_bind_self _ _ _
  have hcall : call backend calls (factorialClosure recurse)
      ⟨[.closure (factorialClosure recurse), .integer n], world⟩ =
        .ok () ⟨[.integer (wrappedFactorial n)], world⟩ :=
    call_factorialClosure hrecurse n hcalls [] world
  rw [Session.runBody, Session.start, factorialProgram, evaluate, evaluateWith_function,
    evaluateWith_binder, evaluateWith_integer, ← factorialClosure, evaluateWith_identifier hfact,
    evaluateWith_identifier hfact,
    evaluateWith_operator ((operatorStep_apply_closure _).trans hcall), evaluateWith_nil]
  rfl

/-! ### The source text -/

/-- The names that the program binds. -/
def factorialNames : List String := ["self", "n", "fact"]

/-- The names in the program can be printed. -/
theorem printable_factorialName {name : String} (h : name ∈ factorialNames) :
    (Token.identifier name).Printable := by
  simp only [factorialNames, List.mem_cons, List.not_mem_nil, or_false] at h
  rcases h with rfl | rfl | rfl <;>
    exact ⟨isWord_cons_iff.mpr rfl, by decide, by decide, by decide⟩

theorem written_factorialName {name : String} (h : name ∈ factorialNames) :
    Token.Written (.identifier name) name.toList :=
  (printable_factorialName h).written rfl

theorem written_binder_factorialName {name : String} (h : name ∈ factorialNames) :
    Token.Written (.binder name) ('/' :: name.toList) := by
  have hname := printable_factorialName h
  have hbinder : (Token.binder name).Printable := ⟨hname.1, hname.2.1⟩
  exact hbinder.written rfl

/-- The tokens of the first text. -/
theorem spells_recurseFirst :
    Spells "n 1 subi self self apply n muli" (Expr.flattenList recurseFirst) := by
  have hself := written_factorialName (show "self" ∈ factorialNames by decide)
  have hn := written_factorialName (show "n" ∈ factorialNames by decide)
  refine ⟨["n".toList, "1".toList, "subi".toList, "self".toList, "self".toList, "apply".toList,
    "n".toList, "muli".toList], List.cons_ne_nil _ _, ?_, by simp⟩
  exact .cons hn <| .cons (written_integer 1) <| .cons (.operator .subi) <| .cons hself <|
    .cons hself <| .cons (.operator .apply) <| .cons hn <| .cons (.operator .muli) .nil

/-- The tokens of the second text. -/
theorem spells_factorFirst :
    Spells "n n 1 subi self self apply muli" (Expr.flattenList factorFirst) := by
  have hself := written_factorialName (show "self" ∈ factorialNames by decide)
  have hn := written_factorialName (show "n" ∈ factorialNames by decide)
  refine ⟨["n".toList, "n".toList, "1".toList, "subi".toList, "self".toList, "self".toList,
    "apply".toList, "muli".toList], List.cons_ne_nil _ _, ?_, by simp⟩
  exact .cons hn <| .cons hn <| .cons (written_integer 1) <| .cons (.operator .subi) <|
    .cons hself <| .cons hself <| .cons (.operator .apply) <| .cons (.operator .muli) .nil

/-- The program is read from its text, given how the expressions that call it again are read. -/
theorem compile_factorialSource {recursion literal : String} {n : Int64}
    (hrecursion : Spells recursion (Expr.flattenList recurse))
    (hliteral : Token.Written (.integer n) literal.toList) :
    compile (factorialSource recursion literal) = .ok (factorialProgram recurse n) := by
  have hn := written_factorialName (show "n" ∈ factorialNames by decide)
  have hfact := written_factorialName (show "fact" ∈ factorialNames by decide)
  have hbindSelf := written_binder_factorialName (show "self" ∈ factorialNames by decide)
  have hbindN := written_binder_factorialName (show "n" ∈ factorialNames by decide)
  have hbindFact := written_binder_factorialName (show "fact" ∈ factorialNames by decide)
  have hbody : Spells "\x7b /self /n n 2 lessi \x7b 1 \x7d \x7b"
      [.beginFunction, .binder "self", .binder "n", .identifier "n", .integer 2,
        .operator .lessi, .beginFunction, .integer 1, .endFunction, .beginFunction] := by
    refine ⟨["\x7b".toList, "/self".toList, "/n".toList, "n".toList, "2".toList, "lessi".toList,
      "\x7b".toList, "1".toList, "\x7d".toList, "\x7b".toList], List.cons_ne_nil _ _, ?_, by simp⟩
    exact .cons .beginFunction <| .cons hbindSelf <| .cons hbindN <| .cons hn <|
      .cons (written_integer 2) <| .cons (.operator .lessi) <| .cons .beginFunction <|
      .cons (written_integer 1) <| .cons .endFunction <| .cons .beginFunction .nil
  have hbranch : Spells "\x7d if \x7d /fact"
      [.endFunction, .operator .branch, .endFunction, .binder "fact"] := by
    refine ⟨["\x7d".toList, "if".toList, "\x7d".toList, "/fact".toList], List.cons_ne_nil _ _, ?_,
      by simp⟩
    exact .cons .endFunction <| .cons (.operator .branch) <| .cons .endFunction <|
      .cons hbindFact .nil
  have happly : Spells "fact fact apply"
      [.identifier "fact", .identifier "fact", .operator .apply] := by
    refine ⟨["fact".toList, "fact".toList, "apply".toList], List.cons_ne_nil _ _, ?_, by simp⟩
    exact .cons hfact <| .cons hfact <| .cons (.operator .apply) .nil
  -- The text is five parts with blanks between them, two of which the source leaves open.
  have hall : Spells (factorialSource recursion literal) _ :=
    Spells.intercalate (List.cons_ne_nil _ _) <|
      .cons hbody <| .cons hrecursion <| .cons hbranch <| .cons (.of_written hliteral) <|
      .cons happly .nil
  refine compile_of_spells ?_
  simpa only [factorialProgram, factorialBody, Expr.flattenList, Expr.flatten, List.flatten_cons,
    List.flatten_nil, List.cons_append, List.nil_append, List.append_nil, List.append_assoc]
    using hall

/-- **The source compiles and leaves the wrapped factorial.** -/
theorem run_factorialSource {recursion literal : String} {n : Int64}
    (hrecursion : Spells recursion (Expr.flattenList recurse)) (hrecurse : MultipliesOn recurse)
    (hliteral : Token.Written (.integer n) literal.toList) {calls : Nat}
    (hcalls : 2 * max 1 n.toInt.toNat ≤ calls) (world : ω) :
    (Session.start world).run backend calls (factorialSource recursion literal) =
      .finished ⟨[("fact", .closure (factorialClosure recurse))],
        ⟨[.integer (wrappedFactorial n)], world⟩⟩ := by
  rw [Session.run_of_compile (compile_factorialSource hrecursion hliteral),
    runBody_factorialProgram hrecurse n hcalls]

/-- **Self-application computes factorials.** Both programs, with any integer of 64 bits in them,
finish and leave one integer, the same for both: one if the number is less than two, and otherwise
the product of the integers from two up to it, cut off at 64 bits. The closure is the only binding
that is left. No more calls are nested than two for each factor. -/
theorem factorial_by_self_application (n : Int64) {literal : String}
    (hliteral : Token.Written (.integer n) literal.toList) :
    ∃ r : Int64, (n.toInt < 2 → r = 1) ∧
      (2 ≤ n.toInt → IsWrapped (∏ k ∈ Finset.Icc 2 n.toInt, k) r) ∧
      ∀ recursion ∈ ["n 1 subi self self apply n muli", "n n 1 subi self self apply muli"],
        ∃ fact : Value, ∀ (ω : Type) (backend : Option (Backend ω)) (calls : Nat) (world : ω),
          2 * max 1 n.toInt.toNat ≤ calls →
          (Session.start world).run backend calls (factorialSource recursion literal) =
            .finished ⟨[("fact", fact)], ⟨[.integer r], world⟩⟩ := by
  refine ⟨wrappedFactorial n, fun hlt => ?_, isWrapped_wrappedFactorial, ?_⟩
  · exact wrappedFactorial_of_lt (toInt_lt_two.mpr hlt)
  · rw [List.forall_mem_cons, List.forall_mem_singleton]
    constructor
    · exact ⟨_, fun ω backend calls world hcalls =>
        run_factorialSource spells_recurseFirst multipliesOn_recurseFirst hliteral hcalls world⟩
    · exact ⟨_, fun ω backend calls world hcalls =>
        run_factorialSource spells_factorFirst multipliesOn_factorFirst hliteral hcalls world⟩

/-- The factorial of 21 needs more than 64 bits. -/
theorem factorial_by_self_application_21 :
    Token.Written (.integer 21) "21".toList ∧ 2 * max 1 (21 : Int64).toInt.toNat ≤ 42 ∧
    ∃ fact : Value,
      (Session.start ()).run none 42 (factorialSource "n n 1 subi self self apply muli" "21") =
        .finished ⟨[("fact", fact)], ⟨[.integer (-4249290049419214848)], ()⟩⟩ := by
  have hliteral : Token.Written (.integer 21) "21".toList := written_integer 21
  have hcalls : 2 * max 1 (21 : Int64).toInt.toNat ≤ 42 := by decide
  obtain ⟨r, -, hwrapped, hruns⟩ := factorial_by_self_application 21 hliteral
  obtain ⟨fact, hrun⟩ := hruns "n n 1 subi self self apply muli" (by simp)
  -- The factorial of twenty-one is beyond the largest word, so that it has wrapped around.
  have hr : (-4249290049419214848) = r := by
    refine (hwrapped (by decide) _).mp ?_
    show _ ≡ ∏ k ∈ Finset.Icc 2 ((21 : ℕ) : ℤ), k [ZMOD 2 ^ 64]
    rw [prod_Icc_two]
    decide
  refine ⟨hliteral, hcalls, fact, ?_⟩
  rw [hr]
  exact hrun Unit none 42 () hcalls

end SceneTracer
