import SceneTracer.Proofs.Evaluation.Running
import SceneTracer.Proofs.Program.Words

namespace SceneTracer

/-!
# Names that are bound and read

A slash in front of a word binds it, unless the word is the name of an operator. The bare word reads
what was bound, but for `true` and `false`: these can be bound like other words and stand for the
truth values all the same.

* `tokenize_binder_iff` — the words that can be bound.
* `compile_bind_read`, `Session.runBody_bind_read` — a program that binds a name and reads it.
* `bindable_names_are_read` — the names that can be bound and read.
-/

variable {name : String}

/-- **A word can be bound** if it is not the name of an operator. -/
theorem tokenize_binder_iff :
    tokenize ("/" ++ name) = .ok [⟨.start, .binder name⟩] ↔
      IsWord name.toList ∧ Operator.ofName? name = none := by
  have htext : ("/" ++ name).toList = '/' :: name.toList := String.toList_append
  constructor
  · intro h
    have hlead : IsLead '/' := ⟨by decide, by decide⟩
    rw [tokenize, tokenizeFrom_eq, htext, skipTrivia_lead hlead] at h
    dsimp only at h
    -- The longest match writes the token, and what writes a binder is a slash and a word.
    have hreads := Lexeme.reads_scan '/' name.toList
    cases hscan : Lexeme.scan '/' name.toList with
    | error fault =>
      rw [hscan] at h
      cases h
    | ok lexeme =>
      rw [hscan] at h hreads
      dsimp only at h
      have htoken : lexeme.token = .binder name := by
        cases hafter : tokenizeFrom (Position.start.after lexeme.text) lexeme.rest with
        | error e =>
          rw [hafter] at h
          cases h
        | ok tokens =>
          rw [hafter] at h
          exact (LocatedToken.mk.inj (List.cons.inj (Except.ok.inj h)).1).2
      cases hreads with
      | token _ _ hwritten =>
        rw [htoken] at hwritten
        cases hwritten with
        | binder hname hoperator => exact ⟨by rwa [String.toList_ofList], hoperator⟩
  · rintro ⟨hword, hoperator⟩
    rw [← String.ofList_toList (s := name)] at hoperator
    refine tokenize_written ?_
    rw [htext]
    simpa using Token.Written.binder hword hoperator

/-- A program of a number, a name that is bound and the same name that is read. -/
theorem compile_bind_read {literal : String} {k : Int64}
    (hliteral : Token.Written (.integer k) literal.toList)
    (hname : (Token.identifier name).Printable) :
    compile (literal ++ " /" ++ name ++ " " ++ name) =
      .ok [.integer k, .binder name, .identifier name] := by
  have hbinder : (Token.binder name).Printable := ⟨hname.1, hname.2.1⟩
  have hwords : List.Forall₂ Token.Written [.integer k, .binder name, .identifier name]
      [literal.toList, '/' :: name.toList, name.toList] :=
    .cons hliteral (.cons (hbinder.written rfl) (.cons (hname.written rfl) .nil))
  have hspells : Spells (literal ++ " /" ++ name ++ " " ++ name)
      [.integer k, .binder name, .identifier name] :=
    ⟨_, List.cons_ne_nil _ _, hwords, by simp⟩
  exact compile_of_spells hspells

/-- What is bound last is what the name stands for. -/
theorem Session.runBody_bind_read {ω : Type} (backend : Option (Backend ω)) (calls : Nat)
    (s : Session ω) (k : Int64) :
    s.runBody backend calls [.integer k, .binder name, .identifier name] =
      .finished ⟨s.environment.bind name (.integer k),
        ⟨.integer k :: s.machine.stack, s.machine.world⟩⟩ := by
  have hread := s.environment.get?_bind_self name (.integer k)
  rw [runBody, evaluate, evaluateWith_integer, evaluateWith_binder, evaluateWith_identifier hread,
    evaluateWith_nil]

/-- **Names that can be bound can be read**, but for the two words that stand for truth values. If a
slash in front of a word binds it, the bare word is read as that name, unless it is `true` or
`false`, which are read as that truth value. So a program that binds any other such name to an
integer, however that is written, and then reads it leaves just the integer. -/
theorem bindable_names_are_read (h : tokenize ("/" ++ name) = .ok [⟨.start, .binder name⟩]) :
    (tokenize name = .ok [⟨.start, .identifier name⟩] ↔ name ≠ "true" ∧ name ≠ "false") ∧
    (∀ b : Bool, name = toString b → tokenize name = .ok [⟨.start, .boolean b⟩]) ∧
    (name ≠ "true" → name ≠ "false" →
      ∀ (k : Int64) (literal : String), Token.Written (.integer k) literal.toList →
        compile (literal ++ " /" ++ name ++ " " ++ name) =
          .ok [.integer k, .binder name, .identifier name] ∧
        ∀ (ω : Type) (backend : Option (Backend ω)) (calls : Nat) (s : Session ω),
          s.run backend calls (literal ++ " /" ++ name ++ " " ++ name) =
            .finished ⟨s.environment.bind name (.integer k),
              ⟨.integer k :: s.machine.stack, s.machine.world⟩⟩) := by
  obtain ⟨hword, hoperator⟩ := tokenize_binder_iff.mp h
  -- The same characters without the slash are a word, whichever it is.
  have hbare : tokenize name = .ok [⟨.start, .ofWord name⟩] := by
    refine tokenize_written ?_
    simpa using written_ofWord hword
  refine ⟨?_, ?_, ?_⟩
  · rw [hbare, Token.ofWord, hoperator]
    split_ifs with htrue hfalse
    · simp [htrue]
    · simp [hfalse]
    · simp [htrue, hfalse]
  · rintro b rfl
    rw [hbare]
    cases b <;> rfl
  · intro htrue hfalse k literal hliteral
    have hcompile := compile_bind_read hliteral ⟨hword, hoperator, htrue, hfalse⟩
    refine ⟨hcompile, fun ω backend calls s => ?_⟩
    rw [Session.run_of_compile hcompile, Session.runBody_bind_read]

/-- A word with a digit, a hyphen and an underscore, bound to an integer with a sign and zeros. -/
theorem bindable_names_are_read_self :
    let name := "self-2_x"
    let literal := "-007"
    tokenize ("/" ++ name) = .ok [⟨.start, .binder name⟩] ∧ name ≠ "true" ∧ name ≠ "false" ∧
    Token.Written (.integer (-7)) literal.toList ∧
    tokenize name = .ok [⟨.start, .identifier name⟩] ∧
    compile (literal ++ " /" ++ name ++ " " ++ name) =
      .ok [.integer (-7), .binder name, .identifier name] ∧
    (Session.start ()).run none 0 (literal ++ " /" ++ name ++ " " ++ name) =
      .finished ⟨[(name, .integer (-7))], ⟨[.integer (-7)], ()⟩⟩ := by
  intro name literal
  have hword : IsWord "self-2_x".toList := isWord_cons_iff.mpr rfl
  have hname : tokenize ("/" ++ name) = .ok [⟨.start, .binder name⟩] :=
    tokenize_binder_iff.mpr ⟨hword, by decide⟩
  have htrue : name ≠ "true" := by decide
  have hfalse : name ≠ "false" := by decide
  -- The literal has a sign and zeros in front.
  have hliteral : Token.Written (.integer (-7)) "-007".toList :=
    @Token.Written.integer true ['0', '0', '7'] (-7) (by decide) (by decide)
  obtain ⟨hread, -, hprogram⟩ := bindable_names_are_read hname
  obtain ⟨hcompile, hrun⟩ := hprogram htrue hfalse (-7) literal hliteral
  exact ⟨hname, htrue, hfalse, hliteral, hread.mpr ⟨htrue, hfalse⟩, hcompile, hrun Unit none 0 _⟩

/-- The word `true` can be bound and is not read as a name: what is left is the truth value. -/
theorem truth_values_hide_bindings :
    tokenize "/true" = .ok [⟨.start, .binder "true"⟩] ∧
    tokenize "true" = .ok [⟨.start, .boolean true⟩] ∧
    (Session.start ()).run none 0 "1 /true true" =
      .finished ⟨[("true", .integer 1)], ⟨[.boolean true], ()⟩⟩ ∧
    ¬ ∀ name, tokenize ("/" ++ name) = .ok [⟨.start, .binder name⟩] →
      tokenize name = .ok [⟨.start, .identifier name⟩] := by
  have hname : IsWord "true".toList := isWord_cons_iff.mpr rfl
  have hbinder : tokenize "/true" = .ok [⟨.start, .binder "true"⟩] :=
    tokenize_binder_iff.mpr ⟨hname, by decide⟩
  have hword : tokenize "true" = .ok [⟨.start, .boolean true⟩] := tokenize_written .true
  -- The binder is read as one, but the word behind it is a boolean.
  have hspells : Spells "1 /true true" [.integer 1, .binder "true", .boolean true] := by
    have hprintable : (Token.binder "true").Printable := ⟨hname, by decide⟩
    refine ⟨["1".toList, '/' :: "true".toList, "true".toList], List.cons_ne_nil _ _, ?_, by simp⟩
    exact .cons (written_integer 1) (.cons (hprintable.written rfl) (.cons .true .nil))
  have hcompile : compile "1 /true true" = .ok [.integer 1, .binder "true", .boolean true] :=
    compile_of_spells hspells
  refine ⟨hbinder, hword, ?_, fun hall => ?_⟩
  · rw [Session.run_of_compile hcompile]
    rfl
  · have hread := hall "true" hbinder
    rw [hword] at hread
    cases hread

end SceneTracer
