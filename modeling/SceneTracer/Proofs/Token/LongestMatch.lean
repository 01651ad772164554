import SceneTracer.Proofs.Token.Lexemes
import SceneTracer.Proofs.Token.Lines

namespace SceneTracer

/-!
# Tokens are longest matches

Reading all tokens of a text comes to what the grammar says: blanks and comments are skipped, and
the longest match of what follows is taken, until the text ends or no token can be read.

* `EndsInTrivia` — the texts in which no token is left.
* `Scanned` — the tokens of a text by the grammar, or the code of the first fault.
* `scanned_iff_tokenize` — reading a text comes to that, and to nothing else.
-/

/-! ### Blanks and comments -/

/-- The character starts neither a blank nor a comment. -/
def IsLead (c : Char) : Prop := ¬ IsBlank c ∧ c ≠ '%'

/-- Blanks and comments to the end of the text. The last comment need not have an end. -/
def EndsInTrivia (cs : List Char) : Prop :=
  ∃ trivia rest, cs = trivia ++ rest ∧ IsTrivia trivia ∧
    (rest = [] ∨ ∃ text, rest = '%' :: text ∧ ∀ c ∈ text, c ≠ '\n')

/-- A comment is skipped up to the end of its line. -/
theorem skipTrivia_comment {text : List Char} (htext : ∀ c ∈ text, c ≠ '\n') (p : Position)
    (cs : List Char) :
    skipTrivia true p (text ++ '\n' :: cs) = skipTrivia false (p.after (text ++ ['\n'])) cs := by
  induction text generalizing p with
  | nil => rfl
  | cons c text ih =>
    obtain ⟨hc, hrest⟩ := List.forall_mem_cons.mp htext
    have hinside : (c != '\n') = true := bne_iff_ne.mpr hc
    simpa [skipTrivia, hinside] using ih hrest (p.advance c)

/-- A comment that the text ends in leaves nothing. -/
theorem skipTrivia_unended {text : List Char} (htext : ∀ c ∈ text, c ≠ '\n') (p : Position) :
    (skipTrivia true p text).2 = [] := by
  induction text generalizing p with
  | nil => rfl
  | cons c text ih =>
    obtain ⟨hc, hrest⟩ := List.forall_mem_cons.mp htext
    have hinside : (c != '\n') = true := bne_iff_ne.mpr hc
    simpa [skipTrivia, hinside] using ih hrest (p.advance c)

/-- A percent sign starts a comment. -/
theorem skipTrivia_percent (p : Position) (cs : List Char) :
    skipTrivia false p ('%' :: cs) = skipTrivia true (p.advance '%') cs := rfl

/-- Blanks and comments are skipped. -/
theorem skipTrivia_append {trivia : List Char} (h : IsTrivia trivia) (p : Position)
    (cs : List Char) : skipTrivia false p (trivia ++ cs) = skipTrivia false (p.after trivia) cs := by
  induction h generalizing p with
  | nil => rfl
  | @blank c trivia hc _ ih => simpa [skipTrivia, isBlank_iff.mpr hc] using ih (p.advance c)
  | @comment text trivia htext _ ih =>
    rw [List.cons_append, skipTrivia_percent, List.append_assoc, List.cons_append,
      skipTrivia_comment htext, ih, ← Position.after_append, Position.after_cons,
      List.append_assoc, List.singleton_append]

/-- A character that can lead a token is not skipped. -/
theorem skipTrivia_lead {c : Char} (h : IsLead c) (p : Position) (cs : List Char) :
    skipTrivia false p (c :: cs) = (p, c :: cs) := by
  simp [skipTrivia, isBlank_iff, h.1, h.2]

/-- Of blanks and comments at the end, nothing is left. -/
theorem skipTrivia_endsInTrivia {cs : List Char} (h : EndsInTrivia cs) (p : Position) :
    (skipTrivia false p cs).2 = [] := by
  obtain ⟨trivia, rest, rfl, htrivia, hrest⟩ := h
  rw [skipTrivia_append htrivia]
  obtain rfl | ⟨text, rfl, htext⟩ := hrest
  · rfl
  · rw [skipTrivia_percent]
    exact skipTrivia_unended htext _

/-- Either no token is left in a text, or one starts behind its blanks and comments. -/
theorem endsInTrivia_or_lead (cs : List Char) :
    EndsInTrivia cs ∨ ∃ trivia c rest, cs = trivia ++ c :: rest ∧ IsTrivia trivia ∧ IsLead c := by
  -- What is behind a blank or a comment is split, and the blank or the comment put in front again.
  have hskip : ∀ front rest : List Char, (∀ trivia, IsTrivia trivia → IsTrivia (front ++ trivia)) →
      (EndsInTrivia rest ∨ ∃ trivia c cs, rest = trivia ++ c :: cs ∧ IsTrivia trivia ∧ IsLead c) →
      EndsInTrivia (front ++ rest) ∨
        ∃ trivia c cs, front ++ rest = trivia ++ c :: cs ∧ IsTrivia trivia ∧ IsLead c := by
    rintro front rest hfront
      (⟨trivia, last, rfl, htrivia, hlast⟩ | ⟨trivia, c, cs, rfl, htrivia, hc⟩)
    · exact Or.inl ⟨front ++ trivia, last, by simp, hfront trivia htrivia, hlast⟩
    · exact Or.inr ⟨front ++ trivia, c, cs, by simp, hfront trivia htrivia, hc⟩
  induction hlength : cs.length using Nat.strong_induction_on generalizing cs with
  | _ n ih =>
    subst hlength
    cases cs with
    | nil => exact Or.inl ⟨[], [], rfl, .nil, Or.inl rfl⟩
    | cons c cs =>
      by_cases hblank : IsBlank c
      · exact hskip [c] cs (fun _ => .blank hblank) (ih _ (by simp) cs rfl)
      · by_cases hpercent : c = '%'
        · subst hpercent
          by_cases hline : '\n' ∈ cs
          · obtain ⟨text, rest, rfl, htext⟩ := List.eq_append_cons_of_mem hline
            have hcomment : ∀ trivia, IsTrivia trivia →
                IsTrivia ('%' :: (text ++ ['\n']) ++ trivia) := by
              intro trivia htrivia
              simpa using IsTrivia.comment (fun c hc => ne_of_mem_of_not_mem hc htext) htrivia
            have hrest := ih rest.length (by simp; omega) rest rfl
            simpa using hskip ('%' :: (text ++ ['\n'])) rest hcomment hrest
          · refine Or.inl ⟨[], '%' :: cs, rfl, .nil, Or.inr ⟨cs, rfl, fun c hc => ?_⟩⟩
            exact ne_of_mem_of_not_mem hc hline
        · exact Or.inr ⟨[], c, cs, rfl, .nil, hblank, hpercent⟩

/-! ### Whole texts -/

/-- The tokens of a text as the grammar has it, or the code of the first fault. -/
inductive Scanned : List Char → Except String (List Token) → Prop
  | done {cs : List Char} (h : EndsInTrivia cs) : Scanned cs (.ok [])
  | token {trivia cs rest : List Char} {c : Char} {token : Token}
      {result : Except String (List Token)} (htrivia : IsTrivia trivia) (hlead : IsLead c)
      (hreads : Reads (c :: cs) (.ok (token, rest))) (hrest : Scanned rest result) :
      Scanned (trivia ++ c :: cs) (result.map (token :: ·))
  | fault {trivia cs : List Char} {c : Char} {code : String} (htrivia : IsTrivia trivia)
      (hlead : IsLead c) (hreads : Reads (c :: cs) (.error code)) :
      Scanned (trivia ++ c :: cs) (.error code)

/-- The tokens without their places, or the code of the fault. -/
def reading : Except LexError (List LocatedToken) → Except String (List Token)
  | .ok tokens => .ok (tokens.map (·.token))
  | .error e => .error e.fault.code

/-- There are no tokens in blanks and comments at the end. -/
theorem tokenizeFrom_of_endsInTrivia {cs : List Char} (h : EndsInTrivia cs) (p : Position) :
    tokenizeFrom p cs = .ok [] := by
  have hskip := skipTrivia_endsInTrivia h p
  rw [tokenizeFrom_eq]
  split
  · rfl
  · rename_i hsome
    rw [hsome] at hskip
    cases hskip

/-- The first token is read behind blanks and comments, and the others behind it. -/
theorem tokenizeFrom_of_lead {trivia : List Char} {c : Char} (htrivia : IsTrivia trivia)
    (hlead : IsLead c) (p : Position) (cs : List Char) :
    tokenizeFrom p (trivia ++ c :: cs) = match Lexeme.scan c cs with
      | .error fault => .error ⟨p.after trivia, fault⟩
      | .ok lexeme => (tokenizeFrom ((p.after trivia).after lexeme.text) lexeme.rest).map
          (⟨p.after trivia, lexeme.token⟩ :: ·) := by
  have hread := tokenizeFrom_eq p (trivia ++ c :: cs)
  rw [skipTrivia_append htrivia, skipTrivia_lead hlead] at hread
  exact hread

/-- Before a token, blanks and comments are skipped. What is read then is a matter of the token and
the rest. -/
theorem reading_of_lead {trivia : List Char} {c : Char} (htrivia : IsTrivia trivia)
    (hlead : IsLead c) (p : Position) (cs : List Char) :
    ∃ q, reading (tokenizeFrom p (trivia ++ c :: cs)) =
      match Lexeme.outcome (Lexeme.scan c cs) with
      | .ok (token, rest) => (reading (tokenizeFrom q rest)).map (token :: ·)
      | .error code => .error code := by
  rw [tokenizeFrom_of_lead htrivia hlead]
  cases Lexeme.scan c cs with
  | error fault => exact ⟨p, rfl⟩
  | ok lexeme =>
    refine ⟨(p.after trivia).after lexeme.text, ?_⟩
    dsimp only [Lexeme.outcome]
    cases tokenizeFrom ((p.after trivia).after lexeme.text) lexeme.rest <;> rfl

/-- Reading a text comes to what the grammar has. -/
theorem scanned_reading (p : Position) (cs : List Char) :
    Scanned cs (reading (tokenizeFrom p cs)) := by
  induction hlength : cs.length using Nat.strong_induction_on generalizing p cs with
  | _ n ih =>
    subst hlength
    obtain hends | ⟨trivia, c, cs, rfl, htrivia, hlead⟩ := endsInTrivia_or_lead cs
    · rw [tokenizeFrom_of_endsInTrivia hends]
      exact .done hends
    · have hreads := Lexeme.reads_scan c cs
      obtain ⟨q, hreading⟩ := reading_of_lead htrivia hlead p cs
      rw [hreading]
      match hscan : Lexeme.scan c cs with
      | .error fault =>
        rw [hscan] at hreads
        exact .fault htrivia hlead hreads
      | .ok lexeme =>
        rw [hscan] at hreads
        -- A token takes at least one character, so that less is left for the rest.
        have hshorter := Lexeme.scan_rest_length_le hscan
        refine .token htrivia hlead hreads (ih lexeme.rest.length ?_ q lexeme.rest rfl)
        simp only [List.length_append, List.length_cons]
        omega

/-- It comes to nothing else. -/
theorem Scanned.reading_eq {cs : List Char} {result : Except String (List Token)}
    (h : Scanned cs result) (p : Position) : reading (tokenizeFrom p cs) = result := by
  induction h generalizing p with
  | done hends => rw [tokenizeFrom_of_endsInTrivia hends, reading, List.map_nil]
  | @token trivia cs rest c token result htrivia hlead hreads _ ih =>
    obtain ⟨q, hreading⟩ := reading_of_lead htrivia hlead p cs
    rw [hreading, (Lexeme.reads_scan c cs).unique hreads]
    dsimp only
    rw [ih q]
  | @fault trivia cs c code htrivia hlead hreads =>
    obtain ⟨q, hreading⟩ := reading_of_lead htrivia hlead p cs
    rw [hreading, (Lexeme.reads_scan c cs).unique hreads]

/-- **Tokens are longest matches.** The tokens of a source text, or the code of the first fault in
it, are what the grammar has: again and again, blanks and comments are skipped and the longest match
is taken. -/
theorem scanned_iff_tokenize (source : String) (result : Except String (List Token)) :
    Scanned source.toList result ↔ reading (tokenize source) = result := by
  constructor
  · intro h
    exact h.reading_eq .start
  · rintro rfl
    exact scanned_reading .start source.toList

end SceneTracer
