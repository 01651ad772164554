import SceneTracer.Proofs.Token.Lines

namespace SceneTracer

/-!
# Reading further down

A text that starts some lines further down is read in the same way. Its tokens, or its first fault,
stand as many lines further down, in the same columns.

* `Position.down`, `LocatedToken.down`, `LexError.down` — the same, some lines further down.
* `tokenizeFrom_down` — reading a text from a place further down.
* `tokenize_line` — two source texts with a line feed between them.
-/

/-- The place in the same column of the line that follows after `lines` lines. -/
def Position.down (lines : Nat) (p : Position) : Position := { p with line := p.line + lines }

/-- The same token `lines` lines further down. -/
def LocatedToken.down (lines : Nat) (t : LocatedToken) : LocatedToken :=
  { t with position := t.position.down lines }

/-- The same fault `lines` lines further down. -/
def LexError.down (lines : Nat) (e : LexError) : LexError :=
  { e with position := e.position.down lines }

/-! ### Places -/

namespace Position

/-- Moving on and moving down by lines commute. -/
theorem advance_down (lines : Nat) (p : Position) (c : Char) :
    (p.down lines).advance c = (p.advance c).down lines := by
  unfold advance
  split
  · simp only [down, Nat.add_right_comm]
  · rfl

/-- Reading a text and moving down by lines commute. -/
theorem after_down (lines : Nat) (p : Position) (cs : List Char) :
    (p.down lines).after cs = (p.after cs).down lines := by
  induction cs generalizing p with
  | nil => rfl
  | cons c cs ih => rw [after_cons, after_cons, advance_down, ih]

/-- Only line feeds lead to further lines. -/
theorem line_after (p : Position) (cs : List Char) :
    (p.after cs).line = p.line + cs.count '\n' := by
  induction cs generalizing p with
  | nil => rfl
  | cons c cs ih =>
    rw [after_cons, ih, advance]
    split
    · rename_i hc
      rw [hc, List.count_cons_self]
      show p.line + 1 + _ = _
      omega
    · rename_i hc
      rw [List.count_cons_of_ne hc]

/-- The line behind a text and a line feed starts at the first column. -/
theorem advance_after_start (cs : List Char) :
    (start.after cs).advance '\n' = start.down (cs.count '\n' + 1) := by
  have hline := line_after start cs
  show Position.mk ((start.after cs).line + 1) 1 = ⟨start.line + (cs.count '\n' + 1), 1⟩
  rw [hline, Nat.add_assoc]

end Position

/-! ### Tokens -/

/-- Skipping does not depend on the line. -/
theorem skipTrivia_down (inComment : Bool) (lines : Nat) (p : Position) (cs : List Char) :
    skipTrivia inComment (p.down lines) cs =
      ((skipTrivia inComment p cs).1.down lines, (skipTrivia inComment p cs).2) := by
  induction cs generalizing inComment p with
  | nil => rfl
  | cons c cs ih =>
    simp only [skipTrivia, Position.advance_down, ih]
    split_ifs <;> rfl

/-- **A text that starts further down is read in the same way.** -/
theorem tokenizeFrom_down (lines : Nat) (p : Position) (cs : List Char) :
    tokenizeFrom (p.down lines) cs =
      match tokenizeFrom p cs with
      | .error e => .error (e.down lines)
      | .ok tokens => .ok (tokens.map (·.down lines)) := by
  fun_induction tokenizeFrom p cs with
  | case1 p cs q hskip =>
    rw [tokenizeFrom_eq, skipTrivia_down, hskip]
    rfl
  | case2 p cs q c rest hskip fault hscan =>
    rw [tokenizeFrom_eq, skipTrivia_down, hskip]
    dsimp only
    rw [hscan]
    rfl
  | case3 p cs q c rest hskip lexeme hscan _ hread ih
  | case4 p cs q c rest hskip lexeme hscan _ hread ih =>
    -- What follows the first token starts further down as well.
    rw [hread] at ih
    rw [tokenizeFrom_eq, skipTrivia_down, hskip]
    dsimp only
    rw [hscan]
    dsimp only
    rw [Position.after_down, ih]
    rfl

/-- **Source texts are read line by line.** Two source texts with a line feed between them fail as the
first one does. If that is read, they fail as the second does, or they are read as the tokens of both;
the faults and the tokens of the second are further down by the lines of the first, in the same
columns. -/
theorem tokenize_line (first second : String) :
    tokenize (first ++ "\n" ++ second) =
      match tokenize first, tokenize second with
      | .error e, _ => .error e
      | .ok _, .error e => .error (e.down (first.toList.count '\n' + 1))
      | .ok tokens, .ok more =>
        .ok (tokens ++ more.map (·.down (first.toList.count '\n' + 1))) := by
  unfold tokenize
  rw [toList_line, tokenizeFrom_line, Position.advance_after_start, tokenizeFrom_down]
  cases tokenizeFrom .start first.toList with
  | error e => rfl
  | ok tokens => cases tokenizeFrom .start second.toList <;> rfl

/-- The comment ends with its line, and the fault of the second text is in the third line of both. -/
example : tokenize ("1\n2 % \"" ++ "\n" ++ " /") = .error ⟨⟨3, 2⟩, .nameExpected⟩ := by cbv

end SceneTracer
