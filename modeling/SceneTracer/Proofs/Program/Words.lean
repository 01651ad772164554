import SceneTracer.Proofs.Program.Concatenation
import SceneTracer.Proofs.Token.Printing

namespace SceneTracer

/-!
# Programs as words

A source text of words, each of which writes a token, with one blank between any two of them has
just these tokens, and compiles to the expressions that are written with them.

* `tokenize_written` — one word.
* `scanned_words` — words with blanks between them are read one by one.
* `Spells` — a text of such words and the tokens that they write.
* `Spells.append`, `Spells.intercalate` — texts of words put together.
* `compile_of_spells` — words compile to the expressions that are written with their tokens.
-/

/-- The end of the text separates. -/
theorem separates_nil : Separates [] := by
  intro d hd
  cases hd

/-- A text that writes a token is read as that token. -/
theorem tokenize_written {token : Token} {text : String} (h : Token.Written token text.toList) :
    tokenize text = .ok [⟨.start, token⟩] := by
  have hmatches : Matches text.toList := Or.inl ⟨token, h⟩
  rw [tokenize]
  cases htext : text.toList with
  | nil => exact absurd (htext ▸ hmatches) not_matches_nil
  | cons c cs =>
    rw [htext] at h hmatches
    -- The end of the text is a separator, so the whole text is the longest match.
    have hreads : Reads (c :: cs) (.ok (token, [])) := by simpa using h.reads separates_nil
    have hscan := (Lexeme.reads_scan c cs).unique hreads
    rw [tokenizeFrom_eq, skipTrivia_lead hmatches.hasForm.isLead_head]
    dsimp only
    cases hlexeme : Lexeme.scan c cs with
    | error fault =>
      rw [hlexeme] at hscan
      cases hscan
    | ok lexeme =>
      rw [hlexeme] at hscan
      obtain ⟨rfl, hrest⟩ := Prod.mk.inj (Except.ok.inj hscan)
      dsimp only
      rw [hrest, tokenizeFrom_eq]
      rfl

/-- Two lists of words, put together. -/
theorem intercalate_append {α : Type} (separator : List α) {front back : List (List α)}
    (hfront : front ≠ []) (hback : back ≠ []) :
    separator.intercalate (front ++ back) =
      separator.intercalate front ++ (separator ++ separator.intercalate back) := by
  induction front with
  | nil => exact absurd rfl hfront
  | cons word words ih =>
    cases words with
    | nil =>
      obtain ⟨first, others, rfl⟩ := List.exists_cons_of_ne_nil hback
      simp
    | cons next others =>
      rw [List.cons_append, List.cons_append, List.intercalate_cons_cons,
        List.intercalate_cons_cons, ← List.cons_append, ih (List.cons_ne_nil next others)]
      simp only [List.append_assoc]

/-- Words that write tokens are read one by one, if a blank stands between any two of them. -/
theorem scanned_words {tokens : List Token} {words : List (List Char)}
    (h : List.Forall₂ Token.Written tokens words) {leading : List Char}
    (hleading : IsTrivia leading) :
    Scanned (leading ++ [' '].intercalate words) (.ok tokens) := by
  induction h generalizing leading with
  | nil =>
    refine .done ⟨leading, [], ?_, hleading, Or.inl rfl⟩
    rw [List.intercalate_nil]
  | @cons token word tokens words hword hwords ih =>
    -- The blank leads the words that are left, and separates them from this one.
    have hblanks : IsTrivia [' '] := .blank (by decide) .nil
    have hrest := ih hblanks
    cases hwords with
    | nil =>
      have hnone : Scanned [] (.ok []) := .done ⟨[], [], rfl, .nil, Or.inl rfl⟩
      simpa using Scanned.written hleading hword separates_nil hnone
    | cons _ _ =>
      have hblank : IsSeparator [' '] := ⟨List.cons_ne_nil _ _, hblanks⟩
      rw [List.intercalate_cons_cons, List.append_assoc]
      exact .written hleading hword (hblank.separates _) hrest

/-- The text consists of words that write the tokens, with one blank between any two of them. -/
def Spells (text : String) (tokens : List Token) : Prop :=
  ∃ words, words ≠ [] ∧ List.Forall₂ Token.Written tokens words ∧
    text.toList = [' '].intercalate words

/-- A text that writes a token spells it. -/
theorem Spells.of_written {token : Token} {text : String} (h : Token.Written token text.toList) :
    Spells text [token] :=
  ⟨[text.toList], List.cons_ne_nil _ _, .cons h .nil, by simp⟩

/-- A blank between two texts of words makes one such text. -/
theorem Spells.append {text text' : String} {tokens tokens' : List Token} (h : Spells text tokens)
    (h' : Spells text' tokens') : Spells (text ++ " " ++ text') (tokens ++ tokens') := by
  obtain ⟨words, hne, hwords, htext⟩ := h
  obtain ⟨words', hne', hwords', htext'⟩ := h'
  refine ⟨words ++ words', List.append_ne_nil_of_left_ne_nil hne words',
    List.rel_append hwords hwords', ?_⟩
  rw [intercalate_append [' '] hne hne', String.toList_append, String.toList_append, htext, htext',
    List.append_assoc]
  rfl

/-- Texts with blanks between them spell what each of them spells. -/
theorem Spells.intercalate {texts : List String} {parts : List (List Token)} (hne : texts ≠ [])
    (h : List.Forall₂ Spells texts parts) : Spells (" ".intercalate texts) parts.flatten := by
  induction h with
  | nil => exact absurd rfl hne
  | @cons text part texts parts htext htexts ih =>
    cases htexts with
    | nil => simpa using htext
    | cons _ _ =>
      rw [String.intercalate_cons_cons, List.flatten_cons]
      exact htext.append (ih (List.cons_ne_nil _ _))

/-- **Words compile to the expressions that are written with them.** -/
theorem compile_of_spells {source : String} {es : List Expr}
    (h : Spells source (Expr.flattenList es)) : compile source = .ok es := by
  obtain ⟨words, hne, hwords, hsource⟩ := h
  have hes : es ≠ [] := by
    rintro rfl
    cases hwords
    exact hne rfl
  -- The words are scanned one by one, since blanks separate them.
  have hreading := (scanned_words hwords .nil).reading_eq .start
  rw [List.nil_append, ← hsource] at hreading
  cases htokens : tokenizeFrom .start source.toList with
  | error e =>
    rw [htokens] at hreading
    cases hreading
  | ok tokens =>
    rw [htokens] at hreading
    exact compile_eq_ok_iff.mpr
      ⟨tokens, htokens, Expr.parse_of_flattenList hes (Except.ok.inj hreading)⟩

end SceneTracer
