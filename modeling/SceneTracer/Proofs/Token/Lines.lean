import SceneTracer.Proofs.Token.Numbers

namespace SceneTracer

/-!
# Texts are read line by line

No token reaches beyond the end of its line, and a comment ends there. So what is read in front of a
line feed does not depend on what follows it, and what follows is read as if nothing were in front,
but for the places of its tokens.

* `Lexeme.followedBy` — a lexeme with more text behind it.
* `Lexeme.scan_line` — one token in front of a line feed.
* `skipTrivia_line` — blanks and comments in front of a line feed.
* `tokenizeFrom_line` — all tokens of two texts with a line feed between them.
-/

/-! ### Parts of a line -/

section Parts

variable {p : Char → Bool} (cs ds : List Char)

/-- What a scanner takes on a line does not depend on the lines that follow. -/
theorem takeWhile_line (hp : p '\n' = false) :
    (cs ++ '\n' :: ds).takeWhile p = cs.takeWhile p := by
  induction cs with
  | nil => exact takeWhile_of_stops (stops_cons.mpr hp)
  | cons c cs ih => by_cases hc : p c = true <;> simp [hc, ih]

theorem dropWhile_line (hp : p '\n' = false) :
    (cs ++ '\n' :: ds).dropWhile p = cs.dropWhile p ++ '\n' :: ds := by
  induction cs with
  | nil => exact dropWhile_of_stops (stops_cons.mpr hp)
  | cons c cs ih => by_cases hc : p c = true <;> simp [hc, ih]

/-- Digits end with the line at the latest. -/
theorem spanDigits_line :
    spanDigits (cs ++ '\n' :: ds) = ((spanDigits cs).1, (spanDigits cs).2 ++ '\n' :: ds) := by
  have hp : Char.isDigit '\n' = false := by decide
  simp only [spanDigits, takeWhile_line _ _ hp, dropWhile_line _ _ hp]

/-- A fraction is not continued on the next line. -/
theorem spanFraction_line :
    spanFraction (cs ++ '\n' :: ds) = ((spanFraction cs).1, (spanFraction cs).2 ++ '\n' :: ds) := by
  by_cases hpoint : cs.head? = some '.'
  · obtain ⟨cs, rfl⟩ := List.head?_eq_some_iff.mp hpoint
    cases cs with
    | nil => rfl
    | cons d cs =>
      -- A point is part of the number only before a digit, and a line feed is none.
      by_cases hd : d.isDigit = true
      · have hline := spanDigits_line (d :: cs) ds
        rw [List.cons_append] at hline
        simp [spanFraction, hd, hline]
      · simp [spanFraction, hd]
  · have hpoint' : (cs ++ '\n' :: ds).head? ≠ some '.' := by
      cases cs with
      | nil => simp
      | cons c cs => simpa using hpoint
    rw [spanFraction_of_ne hpoint, spanFraction_of_ne hpoint']

/-- The digits of an exponent stand behind its mark or behind a minus sign that follows the mark. -/
theorem spanExponent_of_not_minus {mark d : Char} (hd : d ≠ '-') :
    spanExponent (mark :: d :: cs) =
      if (mark = 'e' || mark = 'E') && d.isDigit then
        (mark :: (spanDigits (d :: cs)).1, (spanDigits (d :: cs)).2)
      else ([], mark :: d :: cs) := by
  rw [spanExponent]
  rintro d' cs' hminus
  exact absurd hminus hd

/-- An exponent is not continued on the next line. -/
theorem spanExponent_line :
    spanExponent (cs ++ '\n' :: ds) = ((spanExponent cs).1, (spanExponent cs).2 ++ '\n' :: ds) := by
  have hn : Char.isDigit '\n' = false := by decide
  -- The scanner looks at up to three characters, and the line may end after each of them.
  cases cs with
  | nil =>
    cases ds with
    | nil => rfl
    | cons d ds =>
      cases ds with
      | nil => simp [spanExponent]
      | cons d' ds => by_cases hd : d = '-' <;> simp [spanExponent, hd]
  | cons mark cs =>
    cases cs with
    | nil =>
      show spanExponent (mark :: '\n' :: ds) = _
      rw [spanExponent_of_not_minus _ (by decide)]
      simp [spanExponent, hn]
    | cons d cs =>
      by_cases hd : d = '-'
      · subst hd
        cases cs with
        | nil => simp [spanExponent, hn]
        | cons d cs =>
          have hline := spanDigits_line (d :: cs) ds
          rw [List.cons_append] at hline
          by_cases hdigit : (mark = 'e' || mark = 'E') && d.isDigit <;>
            simp [spanExponent, hdigit, hline]
      · have hline := spanDigits_line (d :: cs) ds
        rw [List.cons_append] at hline
        rw [List.cons_append, List.cons_append, spanExponent_of_not_minus _ hd,
          spanExponent_of_not_minus _ hd, hline]
        by_cases hdigit : (mark = 'e' || mark = 'E') && d.isDigit <;> simp [hdigit]

end Parts

/-! ### One token -/

namespace Lexeme

/-- The same lexeme with more text behind it. -/
def followedBy (more : List Char) (lexeme : Lexeme) : Lexeme :=
  { lexeme with rest := lexeme.rest ++ more }

variable (cs ds : List Char)

/-- Strings end with the line, or are refused there. -/
theorem scanString_line :
    scanString (cs ++ '\n' :: ds) = (scanString cs).map (followedBy ('\n' :: ds)) := by
  let p : Char → Bool := fun c => c != '"' && c != '\n'
  have hp : p '\n' = false := by decide
  have htake : (cs ++ '\n' :: ds).takeWhile p = cs.takeWhile p := takeWhile_line cs ds hp
  have hdrop : (cs ++ '\n' :: ds).dropWhile p = cs.dropWhile p ++ '\n' :: ds :=
    dropWhile_line cs ds hp
  unfold scanString
  dsimp only
  rw [htake, hdrop]
  cases cs.dropWhile p with
  | nil => rfl
  | cons c rest =>
    by_cases hc : c = '"'
    · subst hc
      rfl
    · simp [hc, Except.map]

/-- Binders end with the line. -/
theorem scanBinder_line :
    scanBinder (cs ++ '\n' :: ds) = (scanBinder cs).map (followedBy ('\n' :: ds)) := by
  have hp : isWordChar '\n' = false := by decide
  cases cs with
  | nil => rfl
  | cons c cs =>
    have htake := takeWhile_line (c :: cs) ds hp
    have hdrop := dropWhile_line (c :: cs) ds hp
    rw [List.cons_append] at htake hdrop
    rw [List.cons_append, scanBinder, scanBinder, htake, hdrop]
    by_cases hc : c.isAlpha = true
    · simp only [hc, if_true]
      cases Operator.ofName? (.ofList ((c :: cs).takeWhile isWordChar)) <;> rfl
    · simp [hc, Except.map]

/-- **Numbers end with the line.** -/
theorem scanNumber_line (negative : Bool) :
    scanNumber negative (cs ++ '\n' :: ds)
      = (scanNumber negative cs).map (followedBy ('\n' :: ds)) := by
  unfold scanNumber
  simp only [spanDigits_line, spanFraction_line, spanExponent_line]
  split
  · cases integerValue? negative (spanDigits cs).1 <;> rfl
  · rfl

/-- **A token in front of a line feed** is read as if nothing followed, and so is a fault. -/
theorem scan_line (c : Char) :
    scan c (cs ++ '\n' :: ds) = (scan c cs).map (followedBy ('\n' :: ds)) := by
  have hword : isWordChar '\n' = false := by decide
  have hhead : ((cs ++ '\n' :: ds).headD ' ').isDigit = (cs.headD ' ').isDigit := by
    cases cs <;> rfl
  have htake := takeWhile_line (c :: cs) ds hword
  have hdrop := dropWhile_line (c :: cs) ds hword
  have hnumber := scanNumber_line (c :: cs) ds false
  rw [List.cons_append] at htake hdrop hnumber
  unfold scan
  rw [hhead, htake, hdrop, hnumber, scanString_line, scanBinder_line, scanNumber_line]
  repeat' split
  all_goals rfl

end Lexeme

/-! ### Blanks and comments -/

/-- What is skipped lies in front of what is left. -/
theorem after_skipTrivia (inComment : Bool) (p : Position) (cs : List Char) :
    (skipTrivia inComment p cs).1.after (skipTrivia inComment p cs).2 = p.after cs := by
  induction cs generalizing inComment p with
  | nil => rfl
  | cons c cs ih =>
    rw [skipTrivia]
    split
    · exact ih _ _
    · split
      · exact ih _ _
      · split
        · exact ih _ _
        · rfl

/-- Blanks and comments in front of a line feed are skipped with it if nothing else is there, and as
if nothing followed if something is. -/
theorem skipTrivia_line (inComment : Bool) (p : Position) (cs ds : List Char) :
    skipTrivia inComment p (cs ++ '\n' :: ds) =
      match skipTrivia inComment p cs with
      | (_, []) => skipTrivia false ((p.after cs).advance '\n') ds
      | (q, c :: rest) => (q, c :: (rest ++ '\n' :: ds)) := by
  induction cs generalizing inComment p with
  | nil =>
    -- Inside a comment or not, the line feed is skipped, and no comment goes on behind it.
    cases inComment <;> rfl
  | cons c cs ih =>
    rw [List.cons_append, skipTrivia, skipTrivia]
    split
    · exact ih _ _
    · split
      · exact ih _ _
      · split
        · exact ih _ _
        · rfl

/-! ### Whole texts -/

/-- Tokens are read behind blanks and comments, one after the other. -/
theorem tokenizeFrom_eq (p : Position) (cs : List Char) :
    tokenizeFrom p cs = match skipTrivia false p cs with
      | (_, []) => .ok []
      | (q, d :: ds) => match Lexeme.scan d ds with
        | .error fault => .error ⟨q, fault⟩
        | .ok lexeme =>
          (tokenizeFrom (q.after lexeme.text) lexeme.rest).map (⟨q, lexeme.token⟩ :: ·) := by
  rw [tokenizeFrom]
  split
  · rename_i hnil
    rw [hnil]
  · rename_i q d ds hcons
    rw [hcons]
    dsimp only
    split
    · rename_i fault hscan
      rw [hscan]
    · rename_i lexeme hscan
      rw [hscan]
      dsimp only
      -- The definition matches on what comes after the token; here that is mapped.
      cases tokenizeFrom (q.after lexeme.text) lexeme.rest <;> rfl

/-- **Texts are read line by line.** The tokens of two texts with a line feed between them are those
of the first and then those of the second, which starts at the place behind the line feed. A fault
in the first text is the first fault of both. -/
theorem tokenizeFrom_line (p : Position) (cs ds : List Char) :
    tokenizeFrom p (cs ++ '\n' :: ds) =
      match tokenizeFrom p cs with
      | .error e => .error e
      | .ok tokens => (tokenizeFrom ((p.after cs).advance '\n') ds).map (tokens ++ ·) := by
  fun_induction tokenizeFrom p cs with
  | case1 p cs q hskip =>
    -- Nothing is left of the first text, and the second one is read from where it starts.
    rw [tokenizeFrom_eq, skipTrivia_line, hskip]
    dsimp only
    rw [← tokenizeFrom_eq]
    cases tokenizeFrom ((p.after cs).advance '\n') ds <;> rfl
  | case2 p cs q c rest hskip fault hscan =>
    rw [tokenizeFrom_eq, skipTrivia_line, hskip]
    dsimp only
    rw [Lexeme.scan_line, hscan]
    rfl
  | case3 p cs q c rest hskip lexeme hscan _ hread ih
  | case4 p cs q c rest hskip lexeme hscan _ hread ih =>
    -- The place behind the first text is reached through the first token.
    have hafter : (q.after lexeme.text).after lexeme.rest = p.after cs := by
      have hall := after_skipTrivia false p cs
      rw [hskip] at hall
      rw [← Position.after_append, Lexeme.scan_append hscan]
      exact hall
    rw [hread, hafter] at ih
    rw [tokenizeFrom_eq, skipTrivia_line, hskip]
    dsimp only
    rw [Lexeme.scan_line, hscan]
    show (tokenizeFrom (q.after lexeme.text) (lexeme.rest ++ '\n' :: ds)).map _ = _
    rw [ih]
    cases tokenizeFrom ((p.after cs).advance '\n') ds <;> rfl

/-- The characters of two texts with a line feed between them. -/
theorem toList_line (first second : String) :
    (first ++ "\n" ++ second).toList = first.toList ++ '\n' :: second.toList := by
  rw [String.toList_append, String.toList_append, List.append_assoc]
  rfl

end SceneTracer
