import SceneTracer.Program
import SceneTracer.Proofs.Evaluation.Steps
import SceneTracer.Proofs.Expr.Parsing
import SceneTracer.Proofs.Token.Lines
import SceneTracer.Proofs.Token.LongestMatch

namespace SceneTracer

/-!
# One source text after another

Two source texts with a line feed between them are one program, which runs as the two do one after
the other: no token, comment or region of the first reaches into the second, and the second starts
with the bindings and the machine that the first has left.

* `Expr.parse_append` — programs that parse make one that parses.
* `compile_line` — the expressions of two source texts with a line feed between them.
* `Outcome.andThen` — one run after another.
* `Session.runBody_append` — one list of expressions after another.
* `compile_and_run_line` — both laws for source texts.
-/

/-! ### Compiling -/

/-- A text compiles just if it has tokens and these are a program. -/
theorem compile_eq_ok_iff {source : String} {body : List Expr} :
    compile source = .ok body ↔
      ∃ tokens, tokenize source = .ok tokens ∧ Expr.parse tokens = .ok body := by
  unfold compile
  match tokenize source with
  | .error e => simp
  | .ok tokens =>
    match hparse : Expr.parse tokens with
    | .error e => simp [hparse]
    | .ok body' => simp [hparse]

/-- The same tokens are read wherever a text starts. -/
theorem exists_tokenizeFrom {p : Position} {cs : List Char} {tokens : List LocatedToken}
    (h : tokenizeFrom p cs = .ok tokens) (q : Position) :
    ∃ moved, tokenizeFrom q cs = .ok moved ∧ moved.map (·.token) = tokens.map (·.token) := by
  have hsame : reading (tokenizeFrom q cs) = reading (tokenizeFrom p cs) :=
    (scanned_reading p cs).reading_eq q
  rw [h] at hsame
  match hmoved : tokenizeFrom q cs with
  | .ok moved =>
    rw [hmoved] at hsame
    exact ⟨moved, rfl, Except.ok.inj hsame⟩
  | .error e =>
    rw [hmoved] at hsame
    cases hsame

/-- A program is not empty. -/
theorem Expr.ne_nil_of_parse {ts : List LocatedToken} {es : List Expr} (h : parse ts = .ok es) :
    es ≠ [] := by
  rintro rfl
  have hflat := flattenList_of_parse h
  cases ts with
  | nil => cases h
  | cons t ts => cases hflat

/-- The tokens of two programs, wherever they stand, are those of the two programs together. -/
theorem Expr.parse_append {ts us vs : List LocatedToken} {es fs : List Expr}
    (hes : parse ts = .ok es) (hfs : parse us = .ok fs)
    (hvs : vs.map (·.token) = ts.map (·.token) ++ us.map (·.token)) :
    parse vs = .ok (es ++ fs) := by
  have hne : es ++ fs ≠ [] := List.append_ne_nil_of_left_ne_nil (ne_nil_of_parse hes) fs
  refine parse_of_flattenList hne ?_
  rw [hvs, flattenList_append, flattenList_of_parse hes, flattenList_of_parse hfs]

/-- **Two source texts compile to the expressions of both.** -/
theorem compile_line {first second : String} {es fs : List Expr} (hes : compile first = .ok es)
    (hfs : compile second = .ok fs) : compile (first ++ "\n" ++ second) = .ok (es ++ fs) := by
  obtain ⟨ts, hts, hes⟩ := compile_eq_ok_iff.mp hes
  obtain ⟨us, hus, hfs⟩ := compile_eq_ok_iff.mp hfs
  -- The second text starts on a line of its own, where the same tokens are read.
  obtain ⟨moved, hmoved, htokens⟩ :=
    exists_tokenizeFrom hus ((Position.start.after first.toList).advance '\n')
  have hboth : tokenize (first ++ "\n" ++ second) = .ok (ts ++ moved) := by
    have hfirst : tokenizeFrom .start first.toList = .ok ts := hts
    rw [tokenize, toList_line, tokenizeFrom_line, hfirst]
    dsimp only
    rw [hmoved]
    rfl
  refine compile_eq_ok_iff.mpr ⟨ts ++ moved, hboth, ?_⟩
  refine Expr.parse_append hes hfs ?_
  rw [List.map_append, htokens]

/-! ### Running -/

variable {ω : Type}

/-- Goes on with `next` where a run that started from `s` has finished. If that fails, the bindings
are those of before both runs. -/
def Outcome.andThen (s : Session ω) (next : Session ω → Outcome ω) : Outcome ω → Outcome ω
  | .finished middle =>
    match next middle with
    | .failed error after => .failed error { after with environment := s.environment }
    | outcome => outcome
  | outcome => outcome

/-- **Two lists of expressions run one after the other.** -/
theorem Session.runBody_append (backend : Option (Backend ω)) (calls : Nat) (s : Session ω)
    (es fs : List Expr) :
    s.runBody backend calls (es ++ fs) =
      (s.runBody backend calls es).andThen s fun middle => middle.runBody backend calls fs := by
  unfold runBody
  rw [evaluate, evaluateWith_append, Run.bind_apply, evaluate]
  -- If the first part stops, neither run gets to the second.
  match evaluateWith backend (call backend calls) s.environment es s.machine with
  | .error (.fault f) after => rfl
  | .error .exhausted after => rfl
  | .ok env middle =>
    dsimp only [Outcome.andThen]
    rw [evaluate]
    match evaluateWith backend (call backend calls) env fs middle with
    | .ok env' after => rfl
    | .error (.fault f) after => rfl
    | .error .exhausted after => rfl

/-- Running a text is running the program that it compiles to. -/
theorem Session.run_of_compile {source : String} {body : List Expr} (h : compile source = .ok body)
    (backend : Option (Backend ω)) (calls : Nat) (s : Session ω) :
    s.run backend calls source = s.runBody backend calls body := by
  rw [run, h]

/-- **A source text made of two runs as the two do one after the other.** Two texts that compile,
with a line feed between them, compile to the expressions of both. In any session and with any
backend, or none, they run as the first does and then, if it finishes, the second in the session
that the first has left: what finishes leaves the same bindings, stack and backend state, and what
fails does so with the same error and leaves the same stack and backend state. -/
theorem compile_and_run_line {first second : String} {es fs : List Expr}
    (hes : compile first = .ok es) (hfs : compile second = .ok fs) :
    compile (first ++ "\n" ++ second) = .ok (es ++ fs) ∧
    ∀ {ω : Type} (backend : Option (Backend ω)) (calls : Nat) (s : Session ω),
      s.run backend calls (first ++ "\n" ++ second) =
        (s.run backend calls first).andThen s fun middle => middle.run backend calls second := by
  have hboth := compile_line hes hfs
  refine ⟨hboth, fun backend calls s => ?_⟩
  have hsecond : (fun middle => Session.run backend calls middle second)
      = fun middle => middle.runBody backend calls fs :=
    funext fun middle => middle.run_of_compile hfs backend calls
  rw [s.run_of_compile hboth, s.run_of_compile hes, hsecond, Session.runBody_append]

/-- The first text ends in a comment that nothing in it ends. The second uses what the first has
bound and then fails, leaving on the stack what both have pushed. -/
theorem compile_and_run_line_comment :
    let first := "7 /x [ x ] % [ x"
    let second := "\x7b x \x7d apply nope"
    let es : List Expr := [.integer 7, .binder "x", .array [.identifier "x"]]
    let fs : List Expr := [.function [.identifier "x"], .operator .apply, .identifier "nope"]
    compile first = .ok es ∧ compile second = .ok fs ∧
    compile (first ++ "\n" ++ second) = .ok (es ++ fs) ∧
    (Session.start ()).run none 1 (first ++ "\n" ++ second)
      = .failed (.run (.unbound "nope")) ⟨.empty, ⟨[.integer 7, .array [.integer 7]], ()⟩⟩ := by
  intro first second es fs
  have hes : compile first = .ok es := by cbv
  have hfs : compile second = .ok fs := by cbv
  obtain ⟨hboth, hrun⟩ := compile_and_run_line hes hfs
  refine ⟨hes, hfs, hboth, ?_⟩
  let middle : Session Unit :=
    ⟨[("x", .integer 7)], ⟨[.array [.integer 7]], ()⟩⟩
  -- The comment ends with the first line, and takes the open bracket in it along.
  have hfirst : (Session.start ()).runBody none 1 es = .finished middle := rfl
  rw [hrun none 1 (.start ()), Session.run_of_compile hes, hfirst]
  dsimp only [Outcome.andThen]
  rw [Session.run_of_compile hfs]
  rfl

end SceneTracer
