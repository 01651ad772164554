import Mathlib
import SceneTracer.Error
import SceneTracer.Proofs.Token.Numbers

namespace SceneTracer

/-!
# Reading one token

The first character of a text tells which form a token there can have. What is read is the longest
text of that form, and the token that it writes.

* `Lead` — the sorts of characters that tokens start with.
* `Matches.hasForm` — the form of a token by its first character.
* `Reads` — what the longest match at the front of a text comes to.
* `reads_scan`, `Reads.unique` — reading a token comes to that, and to nothing else.
-/

/-! ### First characters -/

/-- What sort of token a character starts. -/
inductive Lead
  | delimiter
  | quote
  | slash
  | minus
  | digit
  | letter
  /-- No token starts with it. -/
  | other

/-- What sort of token the character `c` starts. -/
def Lead.of (c : Char) : Lead :=
  if c = '\x7b' ∨ c = '\x7d' ∨ c = '[' ∨ c = ']' then .delimiter
  else if c = '"' then .quote
  else if c = '/' then .slash
  else if c = '-' then .minus
  else if c.isDigit then .digit
  else if c.isAlpha then .letter
  else .other

/-- Characters in and out of a class are different. -/
theorem ne_of_class {p : Char → Bool} {c d : Char} (hc : p c = true) (hd : p d = false) :
    c ≠ d := by
  rintro rfl
  rw [hc] at hd
  cases hd

/-- A letter is not a digit. -/
theorem isDigit_eq_false {c : Char} (hc : c.isAlpha = true) : c.isDigit = false := by
  have hnine : '9'.toNat = 57 := rfl
  have hupper : 'A'.toNat = 65 := rfl
  have hlower : 'a'.toNat = 97 := rfl
  rw [isAlpha_iff] at hc
  rw [← Bool.not_eq_true, isDigit_iff]
  simp only [IsLetter, IsDigit, le_iff_toNat] at hc ⊢
  omega

/-- A digit leads a number. -/
theorem Lead.of_isDigit {c : Char} (hc : c.isDigit = true) : Lead.of c = .digit := by
  have hne : ∀ d, d.isDigit = false → c ≠ d := fun d => ne_of_class hc
  simp [Lead.of, hc, hne]

/-- A letter leads a word. -/
theorem Lead.of_isAlpha {c : Char} (hc : c.isAlpha = true) : Lead.of c = .letter := by
  have hne : ∀ d, d.isAlpha = false → c ≠ d := fun d => ne_of_class hc
  simp [Lead.of, hc, hne, isDigit_eq_false hc]

/-- The characters of each sort. -/
theorem Lead.of_spec (c : Char) :
    match Lead.of c with
    | .delimiter => c = '\x7b' ∨ c = '\x7d' ∨ c = '[' ∨ c = ']'
    | .quote => c = '"'
    | .slash => c = '/'
    | .minus => c = '-'
    | .digit => c.isDigit = true
    | .letter => c.isAlpha = true
    | .other => c ≠ '"' := by
  unfold Lead.of
  split_ifs <;> assumption

namespace Lexeme

/-- How a token is read goes by its first character. -/
theorem scan_eq (c : Char) (cs : List Char) : scan c cs =
    match Lead.of c with
    | .delimiter =>
      .ok ⟨if c = '\x7b' then .beginFunction else if c = '\x7d' then .endFunction
        else if c = '[' then .beginArray else .endArray, [c], cs⟩
    | .quote => scanString cs
    | .slash => scanBinder cs
    | .minus =>
      if (cs.headD ' ').isDigit then scanNumber true cs
      else .error (.unexpectedCharacter (leadByte c))
    | .digit => scanNumber false (c :: cs)
    | .letter =>
      .ok ⟨.ofWord (.ofList ((c :: cs).takeWhile isWordChar)), (c :: cs).takeWhile isWordChar,
        (c :: cs).dropWhile isWordChar⟩
    | .other => .error (.unexpectedCharacter (leadByte c)) := by
  unfold scan Lead.of
  -- The tests of the scanner, one after the other. Each of them excludes the ones before.
  by_cases h₁ : c = '\x7b' ∨ c = '\x7d' ∨ c = '[' ∨ c = ']'
  · rw [if_pos h₁]
    rcases h₁ with rfl | rfl | rfl | rfl <;> rfl
  · rw [if_neg h₁]
    simp only [not_or] at h₁
    simp only [h₁, if_false]
    by_cases h₂ : c = '"'
    · simp [h₂]
    · by_cases h₃ : c = '/'
      · simp [h₃]
      · by_cases h₄ : c = '-'
        · simp [h₄]
        · by_cases h₅ : c.isDigit = true
          · simp [h₂, h₃, h₄, h₅]
          · by_cases h₆ : c.isAlpha = true
            · simp [h₂, h₃, h₄, h₅, h₆]
            · simp [h₂, h₃, h₄, h₅, h₆]

end Lexeme

/-! ### Words -/

/-- A letter may stand in a word. -/
theorem isWordChar_of_isAlpha {c : Char} (hc : c.isAlpha = true) : isWordChar c = true := by
  simp [isWordChar, Char.isAlphanum, hc]

/-- The reader goes on over all of a word. -/
theorem IsWord.all {word : List Char} (h : IsWord word) : ∀ d ∈ word, isWordChar d = true := by
  obtain ⟨c, cs, rfl, hc, hcs⟩ := h
  refine List.forall_mem_cons.mpr ⟨isWordChar_iff.mpr (Or.inl hc), fun d hd => ?_⟩
  exact isWordChar_iff.mpr (hcs d hd)

/-- The reader takes a word for one by its first character. -/
theorem IsWord.exists_cons {word : List Char} (h : IsWord word) :
    ∃ c cs, word = c :: cs ∧ c.isAlpha = true := by
  obtain ⟨c, cs, rfl, hc, -⟩ := h
  exact ⟨c, cs, rfl, isAlpha_iff.mpr hc⟩

/-- Words of letters, digits, underscores and hyphens are read to their end. -/
theorem isWord_takeWhile {c : Char} (hc : c.isAlpha = true) (cs : List Char) :
    IsWord ((c :: cs).takeWhile isWordChar) := by
  rw [List.takeWhile_cons_of_pos (isWordChar_of_isAlpha hc)]
  exact ⟨c, _, rfl, isAlpha_iff.mp hc, fun d hd => isWordChar_iff.mp (List.mem_takeWhile_imp hd)⟩

/-- What is found as an operator is its name. -/
theorem Operator.toList_name_of_ofName? {word : List Char} {op : Operator}
    (h : ofName? (.ofList word) = some op) : op.name.toList = word := by
  have hname : op.name = .ofList word := by simpa using List.find?_some h
  rw [hname, String.toList_ofList]

/-- Every operator is found by its name. -/
theorem Operator.ofName?_name (op : Operator) : ofName? op.name = some op := by
  cases op <;> decide

/-- The name of an operator, as a word, is the operator. -/
theorem Token.ofWord_name (op : Operator) : Token.ofWord op.name = .operator op := by
  have htrue : op.name ≠ "true" := by cases op <;> decide
  have hfalse : op.name ≠ "false" := by cases op <;> decide
  rw [ofWord, if_neg htrue, if_neg hfalse, op.ofName?_name]

/-- Words are decidable: a letter and then characters of words. -/
theorem isWord_cons_iff {c : Char} {cs : List Char} :
    IsWord (c :: cs) ↔ (c.isAlpha && cs.all isWordChar) = true := by
  simp only [Bool.and_eq_true, List.all_eq_true, isAlpha_iff, isWordChar_iff]
  constructor
  · rintro ⟨d, ds, htext, hd, hds⟩
    cases htext
    exact ⟨hd, hds⟩
  · rintro ⟨hc, hcs⟩
    exact ⟨c, cs, rfl, hc, hcs⟩

/-- The names of operators are words. -/
theorem Operator.isWord_name (op : Operator) : IsWord op.name.toList := by
  cases op <;> exact isWord_cons_iff.mpr rfl

/-- A whole word writes a truth value, an operator or an identifier. -/
theorem written_ofWord {word : List Char} (h : IsWord word) :
    Token.Written (.ofWord (.ofList word)) word := by
  unfold Token.ofWord
  have htext : ∀ text : String, String.ofList word = text → word = text.toList := by
    rintro text rfl
    rw [String.toList_ofList]
  split
  · rename_i htrue
    rw [htext _ htrue]
    exact .true
  · split
    · rename_i hfalse
      rw [htext _ hfalse]
      exact .false
    · -- A word that is none of the two booleans is an operator or a name.
      rename_i htrue hfalse
      split
      · rename_i op hop
        rw [← Operator.toList_name_of_ofName? hop]
        exact .operator op
      · rename_i hop
        exact .identifier h hop htrue hfalse

/-! ### The forms of tokens -/

/-- Digits alone are a number without fraction and exponent. -/
theorem isNumber_of_isDigits {digits : List Char} (h : IsDigits digits) : IsNumber digits :=
  ⟨digits, [], [], by simp, h, Or.inl rfl, Or.inl rfl⟩

/-- A number starts with a digit. -/
theorem IsNumber.head_isDigit {c : Char} {cs : List Char} (h : IsNumber (c :: cs)) :
    c.isDigit = true := by
  obtain ⟨whole, fraction, exponent, htext, hwhole, -, -⟩ := h
  match whole with
  | [] => exact absurd rfl hwhole.1
  | d :: ds =>
    rw [(List.cons.inj htext).1]
    exact hwhole.all d List.mem_cons_self

/-- The patterns of tokens: a delimiter, a string, a word, a slash and a word, and a number. -/
theorem matches_iff {text : List Char} :
    Matches text ↔
      text ∈ [['\x7b'], ['\x7d'], ['['], [']']] ∨
      (∃ inside, text = '"' :: (inside ++ ['"']) ∧ IsQuotable inside) ∨
      IsWord text ∨
      (∃ name, text = '/' :: name ∧ IsWord name) ∨
      ∃ negative number, text = signText negative ++ number ∧ IsNumber number := by
  constructor
  · rintro (⟨token, htoken⟩ | ⟨name, rfl, hname⟩ | ⟨negative, digits, rfl, hdigits⟩)
    · -- From left to right, each kind of token has one of the five shapes.
      cases htoken with
      | beginFunction | endFunction | beginArray | endArray => exact Or.inl (by simp)
      | string hinside => exact Or.inr (Or.inl ⟨_, rfl, hinside⟩)
      | true | false => exact Or.inr (Or.inr (Or.inl (isWord_cons_iff.mpr rfl)))
      | identifier hname _ _ _ => exact Or.inr (Or.inr (Or.inl hname))
      | operator op => exact Or.inr (Or.inr (Or.inl op.isWord_name))
      | binder hname _ => exact Or.inr (Or.inr (Or.inr (Or.inl ⟨_, rfl, hname⟩)))
      | integer hdigits _ =>
        exact Or.inr (Or.inr (Or.inr (Or.inr ⟨_, _, rfl, isNumber_of_isDigits hdigits⟩)))
      | real hwhole hfraction hexponent _ =>
        have hnumber : IsNumber _ := ⟨_, _, _, rfl, hwhole, hfraction, hexponent⟩
        exact Or.inr (Or.inr (Or.inr (Or.inr ⟨_, _, rfl, hnumber⟩)))
    · exact Or.inr (Or.inr (Or.inr (Or.inl ⟨name, rfl, hname⟩)))
    · exact Or.inr (Or.inr (Or.inr (Or.inr ⟨negative, _, rfl, isNumber_of_isDigits hdigits⟩)))
  · rintro (hdelimiter | ⟨inside, rfl, hinside⟩ | hword | ⟨name, rfl, hname⟩ |
      ⟨negative, number, rfl, whole, fraction, exponent, rfl, hwhole, hfraction, hexponent⟩)
    · simp only [List.mem_cons, List.not_mem_nil, or_false] at hdelimiter
      rcases hdelimiter with rfl | rfl | rfl | rfl
      · exact Or.inl ⟨_, .beginFunction⟩
      · exact Or.inl ⟨_, .endFunction⟩
      · exact Or.inl ⟨_, .beginArray⟩
      · exact Or.inl ⟨_, .endArray⟩
    · exact Or.inl ⟨_, .string hinside⟩
    · exact Or.inl ⟨_, written_ofWord hword⟩
    · exact Or.inr (Or.inl ⟨name, rfl, hname⟩)
    · -- Digits alone match even if the number is too large for a token.
      by_cases hparts : fraction = [] ∧ exponent = []
      · obtain ⟨rfl, rfl⟩ := hparts
        exact Or.inr (Or.inr ⟨negative, whole, by simp, hwhole⟩)
      · exact Or.inl ⟨_, .real hwhole hfraction hexponent (not_and_or.mp hparts)⟩

/-- The text `c :: cs` has a form that tokens can have which start with `c`. -/
def HasForm (c : Char) (cs : List Char) : Prop :=
  match Lead.of c with
  | .delimiter => cs = []
  | .quote => ∃ inside, cs = inside ++ ['"'] ∧ IsQuotable inside
  | .slash => IsWord cs
  | .minus => IsNumber cs
  | .digit => IsNumber (c :: cs)
  | .letter => ∀ d ∈ cs, isWordChar d = true
  | .other => False

/-- A number has the shape that its first character promises. -/
theorem hasForm_number {negative : Bool} {text cs : List Char} {c : Char} (h : IsNumber text)
    (htext : signText negative ++ text = c :: cs) : HasForm c cs := by
  cases negative with
  | true =>
    cases htext
    exact h
  | false =>
    replace htext : text = c :: cs := htext
    subst htext
    rw [HasForm, Lead.of_isDigit h.head_isDigit]
    exact h

/-- A word has the shape that its first character promises. -/
theorem hasForm_word {c : Char} {cs : List Char} (h : IsWord (c :: cs)) : HasForm c cs := by
  obtain ⟨d, ds, htext, hd⟩ := h.exists_cons
  cases htext
  rw [HasForm, Lead.of_isAlpha hd]
  exact fun d hd => h.all d (List.mem_cons_of_mem c hd)

/-- A text with the form of a token has the form that goes with its first character. -/
theorem Matches.hasForm {c : Char} {cs : List Char} (h : Matches (c :: cs)) : HasForm c cs := by
  rcases matches_iff.mp h with hdelimiter | ⟨inside, htext, hinside⟩ | hword |
    ⟨name, htext, hname⟩ | ⟨negative, number, htext, hnumber⟩
  · simp only [List.mem_cons, List.not_mem_nil, or_false] at hdelimiter
    rcases hdelimiter with h | h | h | h <;> cases h <;> rfl
  · cases htext
    exact ⟨_, rfl, hinside⟩
  · exact hasForm_word hword
  · cases htext
    exact hname
  · exact hasForm_number hnumber htext.symm

theorem not_matches_nil : ¬ Matches [] := by
  intro h
  rcases matches_iff.mp h with hdelimiter | ⟨_, htext, -⟩ | ⟨_, _, htext, -⟩ | ⟨_, htext, -⟩ |
    ⟨negative, _, htext, whole, fraction, exponent, rfl, hwhole, -, -⟩
  · exact absurd hdelimiter (by simp)
  · cases htext
  · cases htext
  · cases htext
  · have hnumber := (List.append_eq_nil_iff.mp htext.symm).2
    exact hwhole.1 (List.append_eq_nil_iff.mp hnumber).1

/-- To be the longest match is to be at least as long as all texts of the form that goes with the
first character. -/
theorem isLongestMatch_of_hasForm {c : Char} {cs text rest : List Char}
    (happend : text ++ rest = c :: cs) (hmatches : Matches text)
    (hlongest : ∀ ds, ds <+: cs → HasForm c ds → ds.length + 1 ≤ text.length) :
    IsLongestMatch text (c :: cs) := by
  refine ⟨⟨rest, happend⟩, hmatches, fun longer hprefix hlonger => ?_⟩
  cases longer with
  | nil => exact Nat.zero_le _
  | cons d ds =>
    obtain ⟨rfl, hds⟩ := List.cons_prefix_cons.mp hprefix
    exact hlongest ds hds hlonger.hasForm

/-- If no text behind the first character has its shape, nothing matches. -/
theorem not_matches_of_hasForm {c : Char} {cs : List Char}
    (hnone : ∀ ds, ds <+: cs → ¬ HasForm c ds) : ∀ text, text <+: c :: cs → ¬ Matches text := by
  intro text hprefix hmatches
  cases text with
  | nil => exact not_matches_nil hmatches
  | cons d ds =>
    obtain ⟨rfl, hds⟩ := List.cons_prefix_cons.mp hprefix
    exact hnone ds hds hmatches.hasForm

/-- There is one longest match. -/
theorem IsLongestMatch.unique {text text' cs : List Char} (h : IsLongestMatch text cs)
    (h' : IsLongestMatch text' cs) : text = text' := by
  have hlength : text.length = text'.length :=
    Nat.le_antisymm (h'.2.2 text h.1 h.2.1) (h.2.2 text' h'.1 h'.2.1)
  exact (List.prefix_of_prefix_length_le h.1 h'.1 hlength.le).eq_of_length hlength

/-! ### The longest match -/

/-- What the longest match at the front of a text comes to: a token and the text behind it, or the
code of a fault. -/
inductive Reads (cs : List Char) : Except String (Token × List Char) → Prop
  /-- The longest match writes a token. -/
  | token {text rest : List Char} {token : Token} (happend : text ++ rest = cs)
      (hlongest : IsLongestMatch text cs) (hwritten : Token.Written token text) :
      Reads cs (.ok (token, rest))
  /-- The longest match binds the name of an operator. -/
  | reserved {op : Operator} (hlongest : IsLongestMatch ('/' :: op.name.toList) cs) :
      Reads cs (.error "L002")
  /-- The longest match is an integer that 64 bits cannot hold. -/
  | tooLarge {negative : Bool} {digits : List Char} (hdigits : IsDigits digits)
      (hvalue : wholeNumber negative digits < -2 ^ 63 ∨ 2 ^ 63 ≤ wholeNumber negative digits)
      (hlongest : IsLongestMatch (signText negative ++ digits) cs) : Reads cs (.error "L003")
  /-- Nothing matches. -/
  | unmatched {c : Char} {ds : List Char} (hcs : cs = c :: ds)
      (hnone : ∀ text, text <+: cs → ¬ Matches text) :
      Reads cs (.error (if c = '"' then "L003" else "L001"))

namespace Lexeme

/-- What reading a token comes to: the token and the text behind it, or the code of a fault. -/
def outcome : Except LexFault Lexeme → Except String (Token × List Char)
  | .ok lexeme => .ok (lexeme.token, lexeme.rest)
  | .error fault => .error fault.code

variable {c : Char} {cs : List Char}

/-- **Strings are read as they should be**: up to the closing quote, or not at all. -/
theorem reads_scanString : Reads ('"' :: cs) (outcome (scanString cs)) := by
  have hquotable : ∀ {inside : List Char}, IsQuotable inside →
      ∀ d ∈ inside, (d != '"' && d != '\n') = true := fun h d hd => by simpa using h d hd
  -- Whatever matches ends at the first quote.
  have hends : ∀ inside rest, IsQuotable inside → inside ++ '"' :: rest = cs →
      cs.takeWhile (fun d => d != '"' && d != '\n') = inside ∧
      cs.dropWhile (fun d => d != '"' && d != '\n') = '"' :: rest := by
    rintro inside rest hinside rfl
    have hstops : Stops (fun d => d != '"' && d != '\n') ('"' :: rest) := stops_cons.mpr rfl
    exact ⟨takeWhile_exact (hquotable hinside) hstops, dropWhile_exact (hquotable hinside) hstops⟩
  unfold scanString
  dsimp only
  split
  · rename_i rest hrest
    have hinside : IsQuotable (cs.takeWhile fun d => d != '"' && d != '\n') := fun d hd => by
      simpa using List.mem_takeWhile_imp hd
    have happend : '"' :: ((cs.takeWhile fun d => d != '"' && d != '\n') ++ ['"']) ++ rest
        = '"' :: cs := by
      have hparts := List.takeWhile_append_dropWhile (p := fun d => d != '"' && d != '\n') (l := cs)
      rw [hrest] at hparts
      simpa using hparts
    have hwritten := Token.Written.string hinside
    refine .token happend ?_ hwritten
    refine isLongestMatch_of_hasForm happend (Or.inl ⟨_, hwritten⟩) ?_
    rintro ds ⟨after, hds⟩ ⟨inside, rfl, hinside⟩
    have htake := (hends inside after hinside (by simpa using hds)).1
    rw [htake]
    simp
  · rename_i hrest
    refine .unmatched rfl (not_matches_of_hasForm ?_)
    rintro ds ⟨after, hds⟩ ⟨inside, rfl, hinside⟩
    exact hrest after (hends inside after hinside (by simpa using hds)).2

/-- **Binders are read as they should be**: a slash and a word, which must not be an operator's
name. -/
theorem reads_scanBinder : Reads ('/' :: cs) (outcome (scanBinder cs)) := by
  cases cs with
  | nil =>
    refine .unmatched rfl (not_matches_of_hasForm fun ds hds hform => ?_)
    obtain ⟨d, ds', rfl, -⟩ := IsWord.exists_cons hform
    exact absurd hds (by simp)
  | cons c cs =>
    unfold scanBinder
    dsimp only
    by_cases hc : c.isAlpha = true
    · rw [if_pos hc]
      have hname := isWord_takeWhile hc cs
      have happend := List.takeWhile_append_dropWhile (p := isWordChar) (l := c :: cs)
      -- No longer word stands here, since the next character is not one of words.
      have hlongest : IsLongestMatch ('/' :: (c :: cs).takeWhile isWordChar) ('/' :: c :: cs) := by
        refine isLongestMatch_of_hasForm (congrArg ('/' :: ·) happend)
          (Or.inr (Or.inl ⟨_, rfl, hname⟩)) fun ds hds hform => ?_
        exact Nat.succ_le_succ (length_le_takeWhile (IsWord.all hform) hds)
      match hoperator : Operator.ofName? (.ofList ((c :: cs).takeWhile isWordChar)) with
      | some op =>
        have hop : op.name.toList = (c :: cs).takeWhile isWordChar :=
          Operator.toList_name_of_ofName? hoperator
        rw [← hop] at hlongest
        exact .reserved hlongest
      | none => exact .token (congrArg ('/' :: ·) happend) hlongest (.binder hname hoperator)
    · rw [if_neg hc]
      refine .unmatched rfl (not_matches_of_hasForm fun ds hds hform => hc ?_)
      obtain ⟨d, ds', rfl, hd⟩ := IsWord.exists_cons hform
      rwa [← (List.cons_prefix_cons.mp hds).1]

/-- **Words are read as they should be**: all characters of words that there are. -/
theorem reads_word (hc : c.isAlpha = true) :
    Reads (c :: cs) (.ok (.ofWord (.ofList ((c :: cs).takeWhile isWordChar)),
      (c :: cs).dropWhile isWordChar)) := by
  have hword := isWord_takeWhile hc cs
  have happend := List.takeWhile_append_dropWhile (p := isWordChar) (l := c :: cs)
  refine .token happend ?_ (written_ofWord hword)
  refine isLongestMatch_of_hasForm happend (Or.inl ⟨_, written_ofWord hword⟩) fun ds hds hform => ?_
  rw [HasForm, Lead.of_isAlpha hc] at hform
  have hall : ∀ d ∈ c :: ds, isWordChar d = true :=
    List.forall_mem_cons.mpr ⟨isWordChar_of_isAlpha hc, hform⟩
  exact length_le_takeWhile hall (List.cons_prefix_cons.mpr ⟨rfl, hds⟩)

/-- Numbers are read at their longest, if all that matches there is a number with the same sign. -/
theorem reads_scanNumber {negative : Bool} {d : Char} {ds : List Char} (hd : d.isDigit = true)
    (hcs : signText negative ++ d :: ds = c :: cs)
    (hform : ∀ longer, longer <+: cs → HasForm c longer →
      ∃ number, c :: longer = signText negative ++ number ∧ IsNumber number) :
    Reads (c :: cs) (outcome (scanNumber negative (d :: ds))) := by
  -- Whatever the number of a longer match, the scanner has taken as much.
  have hlongest : ∀ longer, longer <+: cs → HasForm c longer →
      longer.length + 1 ≤ (signText negative ++ numberText (d :: ds)).length := by
    intro longer hprefix hlonger
    obtain ⟨number, htext, hnumber⟩ := hform longer hprefix hlonger
    have hfront : signText negative ++ number <+: signText negative ++ d :: ds := by
      rw [← htext, hcs]
      exact List.cons_prefix_cons.mpr ⟨rfl, hprefix⟩
    have hlength := length_le_numberText hnumber ((List.prefix_append_right_inj _).mp hfront)
    have hcount := congrArg List.length htext
    simp only [List.length_cons, List.length_append] at hcount ⊢
    omega
  match hscan : scanNumber negative (d :: ds) with
  | .ok lexeme =>
    obtain ⟨htext, hwritten⟩ := written_of_scanNumber hd hscan
    have happend : lexeme.text ++ lexeme.rest = c :: cs := (scanNumber_append hscan).trans hcs
    exact .token happend
      (isLongestMatch_of_hasForm happend (Or.inl ⟨_, hwritten⟩) (htext ▸ hlongest)) hwritten
  | .error fault =>
    -- Only digits alone can be refused, for their value.
    obtain ⟨⟨text, rfl⟩, hdigits, hvalue⟩ := tooLarge_of_scanNumber hd hscan
    obtain ⟨rest, hrest⟩ := numberText_prefix (d :: ds)
    have happend : signText negative ++ numberText (d :: ds) ++ rest = c :: cs := by
      rw [List.append_assoc, hrest, hcs]
    refine .tooLarge hdigits hvalue (isLongestMatch_of_hasForm happend ?_ hlongest)
    exact Or.inr (Or.inr ⟨negative, _, rfl, hdigits⟩)

/-- **Delimiters are read as they should be**: each of them is a token. -/
theorem reads_delimiter (hlead : Lead.of c = .delimiter) :
    Reads (c :: cs) (outcome (scan c cs)) := by
  have hspec := Lead.of_spec c
  have hlongest : ∀ ds, ds <+: cs → HasForm c ds → ds.length + 1 ≤ [c].length := by
    intro ds _ hform
    rw [HasForm, hlead] at hform
    rw [hform]
    rfl
  have hreads : ∀ {token : Token}, Token.Written token [c] → Reads (c :: cs) (.ok (token, cs)) :=
    fun hwritten =>
      .token rfl (isLongestMatch_of_hasForm rfl (Or.inl ⟨_, hwritten⟩) hlongest) hwritten
  rw [hlead] at hspec
  rcases hspec with rfl | rfl | rfl | rfl
  · exact hreads .beginFunction
  · exact hreads .endFunction
  · exact hreads .beginArray
  · exact hreads .endArray

/-- A minus sign before a digit starts a number. -/
theorem scan_minus {d : Char} {ds : List Char} (hd : d.isDigit = true) :
    scan '-' (d :: ds) = scanNumber true (d :: ds) := by
  rw [scan_eq]
  show (if d.isDigit = true then _ else _) = _
  rw [if_pos hd]

/-- A minus sign is read as part of a number, and otherwise not at all. -/
theorem reads_minus : Reads ('-' :: cs) (outcome (scan '-' cs)) := by
  by_cases hdigit : (cs.headD ' ').isDigit = true
  · match cs with
    | [] => exact absurd hdigit (by decide)
    | d :: ds =>
      have hd : d.isDigit = true := hdigit
      rw [scan_minus hd]
      refine reads_scanNumber hd rfl fun longer _ hform => ⟨longer, rfl, hform⟩
  · rw [scan_eq]
    show Reads _ (outcome (if (cs.headD ' ').isDigit = true then _ else _))
    rw [if_neg hdigit]
    refine .unmatched rfl (not_matches_of_hasForm fun ds hds hform => hdigit ?_)
    have hnumber : IsNumber ds := hform
    -- A minus sign with no digit behind it starts nothing.
    match ds with
    | [] =>
      obtain ⟨whole, _, _, htext, hwhole, -, -⟩ := hnumber
      exact absurd (List.append_eq_nil_iff.mp htext.symm).1 hwhole.1
    | d :: ds =>
      obtain ⟨rest, rfl⟩ := hds
      exact hnumber.head_isDigit

/-- **Reading a token comes to what the longest match comes to.** -/
theorem reads_scan (c : Char) (cs : List Char) : Reads (c :: cs) (outcome (scan c cs)) := by
  have hspec := Lead.of_spec c
  match hlead : Lead.of c with
  | .delimiter => exact reads_delimiter hlead
  | .quote =>
    rw [hlead] at hspec
    obtain rfl : c = '"' := hspec
    exact reads_scanString
  | .slash =>
    rw [hlead] at hspec
    obtain rfl : c = '/' := hspec
    exact reads_scanBinder
  | .minus =>
    rw [hlead] at hspec
    obtain rfl : c = '-' := hspec
    exact reads_minus
  | .digit =>
    rw [hlead] at hspec
    rw [scan_eq, hlead]
    refine reads_scanNumber hspec rfl fun longer _ hform => ⟨c :: longer, rfl, ?_⟩
    rwa [HasForm, hlead] at hform
  | .letter =>
    rw [hlead] at hspec
    rw [scan_eq, hlead]
    exact reads_word hspec
  | .other =>
    rw [hlead] at hspec
    rw [scan_eq, hlead]
    have hnone : ∀ text, text <+: c :: cs → ¬ Matches text :=
      not_matches_of_hasForm fun ds _ hform => by rwa [HasForm, hlead] at hform
    have hreads := Reads.unmatched rfl hnone
    rwa [if_neg hspec] at hreads

/-! ### A text on its own -/

/-- What reading the whole of a text comes to: its token, or the code of a fault. -/
def alone : List Char → Except String Token
  | [] => .error ""
  | c :: cs => (outcome (scan c cs)).map (·.1)

/-- A word by itself is read as the token for it. -/
theorem alone_word {word : List Char} (h : IsWord word) :
    alone word = .ok (.ofWord (.ofList word)) := by
  have htake : word.takeWhile isWordChar = word := by
    simpa using takeWhile_exact h.all stops_nil
  obtain ⟨c, cs, rfl, hc⟩ := h.exists_cons
  rw [alone, scan_eq, Lead.of_isAlpha hc]
  dsimp only
  rw [htake]
  rfl

/-- A binder by itself is read, or refused for its name. -/
theorem alone_binder {name : List Char} (h : IsWord name) :
    alone ('/' :: name) = match Operator.ofName? (.ofList name) with
      | some _ => .error "L002"
      | none => .ok (.binder (.ofList name)) := by
  have htake : name.takeWhile isWordChar = name := by
    simpa using takeWhile_exact h.all stops_nil
  obtain ⟨c, cs, rfl, hc⟩ := h.exists_cons
  show (outcome (scanBinder (c :: cs))).map (·.1) = _
  unfold scanBinder
  dsimp only
  rw [if_pos hc, htake]
  cases Operator.ofName? (.ofList (c :: cs)) <;> rfl

/-- A string by itself is read without its quotes. -/
theorem alone_string {inside : List Char} (h : IsQuotable inside) :
    alone ('"' :: (inside ++ ['"'])) = .ok (.string (.ofList inside)) := by
  have hall : ∀ d ∈ inside, (d != '"' && d != '\n') = true := fun d hd => by simpa using h d hd
  have hstops : Stops (fun d => d != '"' && d != '\n') ['"'] := stops_cons.mpr rfl
  show (outcome (scanString (inside ++ ['"']))).map (·.1) = _
  unfold scanString
  dsimp only
  rw [takeWhile_exact hall hstops, dropWhile_exact hall hstops]
  rfl

/-- A number by itself is read as an integer if it has no further part, and otherwise as a real. -/
theorem alone_number (negative : Bool) {whole fraction exponent : List Char}
    (hwhole : IsDigits whole) (hfraction : IsFraction fraction) (hexponent : IsExponent exponent) :
    alone (signText negative ++ (whole ++ (fraction ++ exponent))) =
      if fraction.isEmpty && exponent.isEmpty then
        match integerValue? negative whole with
        | some value => .ok (.integer value)
        | none => .error "L003"
      else .ok (.real (realValue negative whole fraction exponent)) := by
  have hscan := scanNumber_of_parts negative hwhole hfraction hexponent
  obtain ⟨c, cs, rfl⟩ := List.exists_cons_of_ne_nil hwhole.1
  have hc : c.isDigit = true := hwhole.all c List.mem_cons_self
  -- With or without a sign, the number is read from its first digit on.
  have halone : alone (signText negative ++ (c :: cs ++ (fraction ++ exponent))) =
      (outcome (scanNumber negative (c :: cs ++ (fraction ++ exponent)))).map (·.1) := by
    cases negative with
    | true =>
      show (outcome (scan '-' (c :: _))).map _ = _
      rw [scan_minus hc]
      rfl
    | false =>
      show (outcome (scan c _)).map _ = _
      rw [scan_eq, Lead.of_isDigit hc]
      rfl
  rw [halone, hscan]
  split
  · cases integerValue? negative (c :: cs) <;> rfl
  · rfl

/-- Digits by themselves are an integer, or out of range. -/
theorem alone_integer (negative : Bool) {digits : List Char} (hdigits : IsDigits digits) :
    alone (signText negative ++ digits) = match integerValue? negative digits with
      | some value => .ok (.integer value)
      | none => .error "L003" := by
  simpa using alone_number negative hdigits (Or.inl rfl) (Or.inl rfl)

/-- The token that a text writes is the one that is read from it. -/
theorem alone_of_written {token : Token} {text : List Char} (h : Token.Written token text) :
    alone text = .ok token := by
  cases h with
  | beginFunction | endFunction | beginArray | endArray => rfl
  | integer hdigits hvalue => rw [alone_integer _ hdigits, integerValue?_eq_some_iff.mpr hvalue]
  | real hwhole hfraction hexponent hpart =>
    -- There is a fraction or an exponent, so the number is a real.
    rw [alone_number _ hwhole hfraction hexponent, if_neg]
    simpa [or_iff_not_imp_left] using hpart
  | true => exact alone_word (isWord_cons_iff.mpr rfl)
  | false => exact alone_word (isWord_cons_iff.mpr rfl)
  | string hinside => exact alone_string hinside
  | identifier hname hoperator htrue hfalse =>
    rw [alone_word hname, Token.ofWord, if_neg htrue, if_neg hfalse, hoperator]
  | binder hname hoperator => rw [alone_binder hname, hoperator]
  | operator op => rw [alone_word op.isWord_name, String.ofList_toList, Token.ofWord_name]

end Lexeme

open Lexeme in
/-- The longest match comes to what it comes to on its own. -/
theorem Reads.of_longest {cs text : List Char} {result : Except String (Token × List Char)}
    (h : Reads cs result) (hlongest : IsLongestMatch text cs) :
    result = (alone text).map fun token => (token, cs.drop text.length) := by
  cases h with
  | token happend hlongest' hwritten =>
    obtain rfl := hlongest.unique hlongest'
    rw [alone_of_written hwritten, ← happend, List.drop_left]
    rfl
  -- In each case the longest match is the only one, and is read alone as it is in front of the
  -- rest.
  | @reserved op hlongest' =>
    obtain rfl := hlongest.unique hlongest'
    rw [alone_binder op.isWord_name, String.ofList_toList, op.ofName?_name]
    rfl
  | tooLarge hdigits hvalue hlongest' =>
    obtain rfl := hlongest.unique hlongest'
    rw [alone_integer _ hdigits, integerValue?_eq_none_iff.mpr hvalue]
    rfl
  | unmatched _ hnone => exact absurd hlongest.2.1 (hnone text hlongest.1)

/-- What the longest match comes to is one thing only. -/
theorem Reads.unique {cs : List Char} {result result' : Except String (Token × List Char)}
    (h : Reads cs result) (h' : Reads cs result') : result = result' := by
  by_cases hsome : ∃ text, IsLongestMatch text cs
  · obtain ⟨text, hlongest⟩ := hsome
    rw [h.of_longest hlongest, h'.of_longest hlongest]
  · -- All but the last way of reading a token have a longest match.
    cases h with
    | token _ hlongest _ | reserved hlongest | tooLarge _ _ hlongest =>
      exact absurd ⟨_, hlongest⟩ hsome
    | unmatched hcs _ =>
      cases h' with
      | token _ hlongest _ | reserved hlongest | tooLarge _ _ hlongest =>
        exact absurd ⟨_, hlongest⟩ hsome
      | unmatched hcs' _ => rw [(List.cons.inj (hcs.symm.trans hcs')).1]

end SceneTracer
