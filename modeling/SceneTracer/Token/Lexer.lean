import SceneTracer.Token
import SceneTracer.Token.Literal

namespace SceneTracer

/-!
# From text to tokens

The text is read from left to right. Blanks and comments separate tokens and make none; at any
other place the longest text that makes a token is taken.

* `skipTrivia` — what is left after blanks and comments.
* `Lexeme.scan` — the token at the front of a text, with its own text and what follows it.
* `tokenize` — all tokens of a text with their places, or the first fault.
-/

/-! ### Faults -/

/-- Why no token can be read at some place. -/
inductive LexFault
  /-- No token starts with a character whose encoding starts with this byte. -/
  | unexpectedCharacter (lead : UInt8)
  /-- A slash with no name behind it. -/
  | nameExpected
  /-- A slash before the name of an operator. -/
  | reservedName (op : Operator)
  /-- A quote with no second one on its line. -/
  | unterminatedString
  /-- An integer that 64 bits cannot hold. -/
  | malformedNumber (text : String)
  deriving DecidableEq, Repr

/-- A fault and the place of the token it was found in. -/
structure LexError where
  position : Position
  fault : LexFault
  deriving DecidableEq, Repr

/-! ### Character classes -/

/-- The six ASCII blanks. -/
def isBlank (c : Char) : Bool :=
  c = ' ' || c = '\t' || c = '\r' || c = '\n' || c = '\x0b' || c = '\x0c'

/-- Letters, digits, underscores and hyphens continue a word that a letter began. -/
def isWordChar (c : Char) : Bool := c.isAlphanum || c = '_' || c = '-'

/-- The first byte of a character's UTF-8 form. -/
def leadByte (c : Char) : UInt8 := (String.utf8EncodeChar c).headD 0

/-! ### Blanks and comments -/

/-- Skips blanks and comments in front of `cs`, whose first character stands at `p`. A comment runs
from a percent sign to the end of its line; `inComment` tells whether `cs` starts inside one. -/
def skipTrivia (inComment : Bool) (p : Position) : List Char → Position × List Char
  | [] => (p, [])
  | c :: cs =>
    if inComment then skipTrivia (c != '\n') (p.advance c) cs
    else if isBlank c then skipTrivia false (p.advance c) cs
    else if c = '%' then skipTrivia true (p.advance c) cs
    else (p, c :: cs)

/-- Skipping leaves no more than there was. -/
theorem skipTrivia_length_le (inComment : Bool) (p : Position) (cs : List Char) :
    (skipTrivia inComment p cs).2.length ≤ cs.length := by
  induction cs generalizing inComment p with
  | nil => simp [skipTrivia]
  | cons c cs ih =>
    simp only [skipTrivia]
    split
    · exact Nat.le_succ_of_le (ih ..)
    · split
      · exact Nat.le_succ_of_le (ih ..)
      · split
        · exact Nat.le_succ_of_le (ih ..)
        · simp

/-! ### Parts of a number -/

/-- The digits of the front of `cs` and what follows them. -/
def spanDigits (cs : List Char) : List Char × List Char :=
  (cs.takeWhile Char.isDigit, cs.dropWhile Char.isDigit)

/-- Takes a point and the digits behind it, if there is at least one. -/
def spanFraction : List Char → List Char × List Char
  | '.' :: d :: cs =>
    if d.isDigit then ('.' :: (spanDigits (d :: cs)).1, (spanDigits (d :: cs)).2)
    else ([], '.' :: d :: cs)
  | cs => ([], cs)

/-- Takes an `e` or `E`, a minus sign or none, and the digits behind it, if there is at least
one. -/
def spanExponent : List Char → List Char × List Char
  | e :: '-' :: d :: cs =>
    if (e = 'e' || e = 'E') && d.isDigit then
      (e :: '-' :: (spanDigits (d :: cs)).1, (spanDigits (d :: cs)).2)
    else ([], e :: '-' :: d :: cs)
  | e :: d :: cs =>
    if (e = 'e' || e = 'E') && d.isDigit then
      (e :: (spanDigits (d :: cs)).1, (spanDigits (d :: cs)).2)
    else ([], e :: d :: cs)
  | cs => ([], cs)

@[simp] theorem spanDigits_append (cs : List Char) :
    (spanDigits cs).1 ++ (spanDigits cs).2 = cs := List.takeWhile_append_dropWhile

@[simp] theorem spanFraction_append (cs : List Char) :
    (spanFraction cs).1 ++ (spanFraction cs).2 = cs := by
  unfold spanFraction
  split
  · split
    · rw [List.cons_append, spanDigits_append]
    · simp
  · simp

@[simp] theorem spanExponent_append (cs : List Char) :
    (spanExponent cs).1 ++ (spanExponent cs).2 = cs := by
  unfold spanExponent
  split
  · split
    · rw [List.cons_append, List.cons_append, spanDigits_append]
    · simp
  · split
    · rw [List.cons_append, spanDigits_append]
    · simp
  · simp

/-! ### Lexemes -/

/-- A token, the text it was read from, and the text that follows. -/
structure Lexeme where
  token : Token
  text : List Char
  rest : List Char

namespace Lexeme

/-- Reads a string, the opening quote having been read. -/
def scanString (cs : List Char) : Except LexFault Lexeme :=
  let inside := cs.takeWhile fun c => c != '"' && c != '\n'
  match cs.dropWhile fun c => c != '"' && c != '\n' with
  | '"' :: rest => .ok ⟨.string (.ofList inside), '"' :: (inside ++ ['"']), rest⟩
  | _ => .error .unterminatedString

/-- Reads the name that a slash binds, the slash having been read. -/
def scanBinder (cs : List Char) : Except LexFault Lexeme :=
  match cs with
  | c :: _ =>
    if c.isAlpha then
      let name := cs.takeWhile isWordChar
      match Operator.ofName? (.ofList name) with
      | some op => .error (.reservedName op)
      | none => .ok ⟨.binder (.ofList name), '/' :: name, cs.dropWhile isWordChar⟩
    else .error .nameExpected
  | [] => .error .nameExpected

/-- Reads a number whose digits start at the front of `cs`, a minus sign in front of them having
been read if `negative`. A fraction or an exponent makes the number real; each is taken only when
it is complete. -/
def scanNumber (negative : Bool) (cs : List Char) : Except LexFault Lexeme :=
  let (whole, afterWhole) := spanDigits cs
  let (fraction, afterFraction) := spanFraction afterWhole
  let (exponent, rest) := spanExponent afterFraction
  let sign := if negative then ['-'] else []
  let text := sign ++ (whole ++ (fraction ++ exponent))
  if fraction.isEmpty && exponent.isEmpty then
    match integerValue? negative whole with
    | some value => .ok ⟨.integer value, text, rest⟩
    | none => .error (.malformedNumber (.ofList text))
  else .ok ⟨.real (realValue negative whole fraction exponent), text, rest⟩

/-- Reads the token whose first character is `c` and whose next characters are at the front of
`cs`. -/
def scan (c : Char) (cs : List Char) : Except LexFault Lexeme :=
  if c = '\x7b' then .ok ⟨.beginFunction, [c], cs⟩
  else if c = '\x7d' then .ok ⟨.endFunction, [c], cs⟩
  else if c = '[' then .ok ⟨.beginArray, [c], cs⟩
  else if c = ']' then .ok ⟨.endArray, [c], cs⟩
  else if c = '"' then scanString cs
  else if c = '/' then scanBinder cs
  else if c = '-' && (cs.headD ' ').isDigit then scanNumber true cs
  else if c.isDigit then scanNumber false (c :: cs)
  else if c.isAlpha then
    let word := (c :: cs).takeWhile isWordChar
    .ok ⟨.ofWord (.ofList word), word, (c :: cs).dropWhile isWordChar⟩
  else .error (.unexpectedCharacter (leadByte c))

/-! Nothing of the text is lost: a lexeme's own text and what follows it make up what was read. -/

/-- A string and the rest are the whole text, with the quote that has been read. -/
theorem scanString_append {cs : List Char} {lexeme : Lexeme} (h : scanString cs = .ok lexeme) :
    lexeme.text ++ lexeme.rest = '"' :: cs := by
  unfold scanString at h
  simp only at h
  split at h
  · rename_i rest hr
    cases h
    have := List.takeWhile_append_dropWhile (p := fun c => c != '"' && c != '\n') (l := cs)
    rw [hr] at this
    simpa using this
  · cases h

theorem scanBinder_append {cs : List Char} {lexeme : Lexeme} (h : scanBinder cs = .ok lexeme) :
    lexeme.text ++ lexeme.rest = '/' :: cs := by
  unfold scanBinder at h
  split at h
  · split at h
    · simp only at h
      split at h
      · cases h
      · cases h
        rw [List.cons_append, List.takeWhile_append_dropWhile]
    · cases h
  · cases h

theorem scanNumber_append {negative : Bool} {cs : List Char} {lexeme : Lexeme}
    (h : scanNumber negative cs = .ok lexeme) :
    lexeme.text ++ lexeme.rest = (if negative then ['-'] else []) ++ cs := by
  unfold scanNumber at h
  simp only at h
  split at h
  · split at h
    · cases h
      simp [List.append_assoc]
    · cases h
  · cases h
    simp [List.append_assoc]

/-- **A token and the rest are the whole text.** -/
theorem scan_append {c : Char} {cs : List Char} {lexeme : Lexeme} (h : scan c cs = .ok lexeme) :
    lexeme.text ++ lexeme.rest = c :: cs := by
  unfold scan at h
  repeat' split at h
  all_goals first
    | (cases h; rfl)
    | (subst_vars; exact scanString_append h)
    | (subst_vars; exact scanBinder_append h)
    | (rename_i hc; simp only [Bool.and_eq_true, decide_eq_true_eq] at hc
       rw [hc.1]; exact scanNumber_append h)
    | exact scanNumber_append h
    | (cases h; exact List.takeWhile_append_dropWhile)
    | cases h

/-- A lexeme has at least one character, so reading tokens comes to an end. -/
theorem scan_text_ne_nil {c : Char} {cs : List Char} {lexeme : Lexeme}
    (h : scan c cs = .ok lexeme) : lexeme.text ≠ [] := by
  intro hempty
  unfold scan at h
  -- Every branch of the scanner takes the character that it has been decided on.
  repeat' split at h
  · cases h; cases hempty
  · cases h; cases hempty
  · cases h; cases hempty
  · cases h; cases hempty
  · unfold scanString at h
    simp only at h
    split at h <;> cases h
    cases hempty
  · unfold scanBinder at h
    simp only at h
    repeat' split at h
    all_goals cases h
    cases hempty
  · unfold scanNumber at h
    simp only at h
    repeat' split at h
    all_goals cases h
    all_goals simp_all
  · rename_i hdigit
    unfold scanNumber at h
    simp only at h
    repeat' split at h
    all_goals cases h
    all_goals simp [spanDigits, hdigit] at hempty
  · rename_i halpha
    cases h
    simp [isWordChar, Char.isAlphanum, halpha] at hempty
  · cases h

/-- A token takes a character at least. -/
theorem scan_rest_length_le {c : Char} {cs : List Char} {lexeme : Lexeme}
    (h : scan c cs = .ok lexeme) : lexeme.rest.length ≤ cs.length := by
  have hlength := congrArg List.length (scan_append h)
  have hpos := List.length_pos_iff.2 (scan_text_ne_nil h)
  simp only [List.length_append, List.length_cons] at hlength
  omega

end Lexeme

/-! ### Whole texts -/

/-- The tokens of the text `cs`, whose first character stands at `p`. -/
def tokenizeFrom (p : Position) (cs : List Char) : Except LexError (List LocatedToken) :=
  match _hskip : skipTrivia false p cs with
  | (_, []) => .ok []
  | (q, d :: ds) =>
    match _hscan : Lexeme.scan d ds with
    | .error fault => .error ⟨q, fault⟩
    | .ok lexeme =>
      match tokenizeFrom (q.after lexeme.text) lexeme.rest with
      | .error e => .error e
      | .ok tokens => .ok (⟨q, lexeme.token⟩ :: tokens)
termination_by cs.length
decreasing_by
  have hrest := Lexeme.scan_rest_length_le _hscan
  have hcs := skipTrivia_length_le false p cs
  rw [_hskip] at hcs
  simp only [List.length_cons] at hcs
  omega

/-- The tokens of a source text with their places, or the first fault in it. -/
def tokenize (source : String) : Except LexError (List LocatedToken) :=
  tokenizeFrom .start source.toList

end SceneTracer
