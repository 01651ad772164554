import SceneTracer.Proofs.Token.Lines
import SceneTracer.Proofs.Token.Readers

namespace SceneTracer.ByteReader

/-!
# Reading a token byte by byte

Each piece of a token is cut out of the bytes where it is cut out of the characters.

* `comesTo_fraction`, `comesTo_exponent`, `comesTo_number` — numbers.
* `comesTo_string`, `comesTo_binder` — strings and binders.
* `comesTo_token` — one token, whatever it starts with.
-/

variable {ρ : Type}

/-! ### Numbers -/

/-- A byte that is looked at for nothing does not matter. -/
theorem comesTo_of_peek {k : Nat} {next : List UInt8 → Char → ByteReader ρ} {cs : List Char}
    {outcome : Except LexFault (ρ × List Char)}
    (h : ∀ c, ComesTo (fun bytes => next bytes c) cs outcome) :
    ComesTo (fun bytes => peek bytes k >>= next bytes) cs outcome := fun front => h _ front

/-- The scanner sees whether a character is a digit. -/
theorem isDigit_seen (c : Char) : (seen c).isDigit = c.isDigit :=
  (asciiClass_of fun _ => toNat_lt_of_isDigit).seen c

/-- Behind a point, the fraction depends on the next character. -/
theorem spanFraction_cons (cs : List Char) :
    spanFraction ('.' :: cs) =
      if (cs.headD '\x00').isDigit then ('.' :: (spanDigits cs).1, (spanDigits cs).2)
      else ([], '.' :: cs) := by
  cases cs <;> rfl

/-- The fraction is read as it is spanned. -/
theorem comesTo_fraction (cs : List Char) :
    ComesTo fraction cs (.ok ((spanFraction cs).1, (spanFraction cs).1)) := by
  refine (comesTo_peek_zero cs).look ?_
  by_cases hhead : cs.head? = some '.'
  · obtain ⟨cs, rfl⟩ := List.head?_eq_some_iff.mp hhead
    have hpoint : seen '.' = '.' := seen_ascii (by decide)
    have hascii : ∀ c ∈ ['.'], c.toNat < 128 := List.forall_mem_singleton.mpr (by decide)
    refine (comesTo_peek _ hascii cs).look ?_
    rw [spanFraction_cons]
    simp only [List.headD_cons, hpoint, isDigit_seen, decide_true, Bool.true_and]
    split
    · exact (comesTo_advance (by decide) cs).bind rfl
        ((comesTo_digits cs).bind (spanDigits_append cs) (comesTo_pure _ _) rfl) (by simp [Except.map])
    · exact comesTo_pure _ []
  · have hpoint : seen (cs.headD '\x00') ≠ '.' := by
      intro h
      rw [seen_eq_iff (by decide)] at h
      cases cs with
      | nil => cases h
      | cons c cs => exact hhead (congrArg some h)
    -- Without a point, the byte behind does not matter, which may be inside a character.
    refine comesTo_of_peek fun digit => ?_
    simp only [hpoint, decide_false, Bool.false_and, Bool.false_eq_true, if_false]
    rw [spanFraction_of_ne hhead]
    exact comesTo_pure cs []

/-- A mark starts an exponent in front of a digit, or of a minus sign and a digit. -/
theorem spanExponent_cons (mark : Char) (cs : List Char) :
    spanExponent (mark :: cs) =
      if (mark = 'e' || mark = 'E') && (cs.headD '\x00').isDigit then
        (mark :: (spanDigits cs).1, (spanDigits cs).2)
      else if (mark = 'e' || mark = 'E') && (cs.headD '\x00' = '-' &&
          (cs.tail.headD '\x00').isDigit) then
        (mark :: '-' :: (spanDigits cs.tail).1, (spanDigits cs.tail).2)
      else ([], mark :: cs) := by
  have hzero : ('\x00').isDigit = false := rfl
  have hminus : ('-').isDigit = false := rfl
  cases cs with
  | nil => simp [spanExponent, hzero]
  | cons d cs =>
    by_cases hd : d = '-'
    · subst hd
      cases cs with
      | nil => simp [spanExponent, hzero, hminus]
      | cons d cs => simp [spanExponent, hminus]
    · rw [spanExponent_of_not_minus _ hd]
      simp [hd]

/-- An exponent with a minus sign is read as it is spanned. -/
theorem comesTo_exponent_minus {mark : Char} (hmark : mark = 'e' ∨ mark = 'E') (cs : List Char) :
    ComesTo exponent (mark :: '-' :: cs)
      (.ok ((spanExponent (mark :: '-' :: cs)).1, (spanExponent (mark :: '-' :: cs)).1)) := by
  have hascii : mark.toNat < 128 := by rcases hmark with rfl | rfl <;> decide
  have hfirst : (decide (mark = 'e') || decide (mark = 'E')) = true := by simpa using hmark
  have hboth : ∀ c ∈ [mark, '-'], c.toNat < 128 :=
    List.forall_mem_cons.mpr ⟨hascii, List.forall_mem_singleton.mpr (by decide)⟩
  -- The reader looks at three characters. The first two are known.
  have hminus : seen '-' = '-' := seen_ascii (by decide)
  have hdigit : ('-').isDigit = false := rfl
  refine (comesTo_peek_zero (mark :: '-' :: cs)).look ?_
  refine (comesTo_peek _ (List.forall_mem_singleton.mpr hascii) ('-' :: cs)).look ?_
  refine (comesTo_peek _ hboth cs).look ?_
  rw [spanExponent_cons]
  simp only [List.headD_cons, List.tail_cons, seen_ascii hascii, hfirst, hminus, hdigit,
    isDigit_seen, decide_true, Bool.true_and, Bool.false_or, Bool.false_eq_true, if_true, if_false]
  split
  · exact (comesTo_advance hascii _).bind rfl ((comesTo_advance (by decide) cs).bind rfl
      ((comesTo_digits cs).bind (spanDigits_append cs) (comesTo_pure _ _) rfl) rfl)
      (by simp [Except.map])
  · exact comesTo_pure _ []

/-- An exponent without a sign is read as it is spanned. -/
theorem comesTo_exponent_plus {mark : Char} (hmark : mark = 'e' ∨ mark = 'E') {cs : List Char}
    (hminus : cs.headD '\x00' ≠ '-') :
    ComesTo exponent (mark :: cs)
      (.ok ((spanExponent (mark :: cs)).1, (spanExponent (mark :: cs)).1)) := by
  have hascii : mark.toNat < 128 := by rcases hmark with rfl | rfl <;> decide
  have hfirst : (decide (mark = 'e') || decide (mark = 'E')) = true := by simpa using hmark
  have hseen : seen (cs.headD '\x00') ≠ '-' := fun h => hminus ((seen_eq_iff (by decide)).mp h)
  refine (comesTo_peek_zero (mark :: cs)).look ?_
  refine (comesTo_peek _ (List.forall_mem_singleton.mpr hascii) cs).look ?_
  -- The third character is looked at and does not matter.
  refine comesTo_of_peek fun third => ?_
  rw [spanExponent_cons]
  simp only [List.headD_cons, seen_ascii hascii, hfirst, hminus, hseen, isDigit_seen, decide_false,
    Bool.true_and, Bool.false_and, Bool.or_false, Bool.false_eq_true, if_false]
  split
  · exact (comesTo_advance hascii cs).bind rfl
      ((comesTo_digits cs).bind (spanDigits_append cs) (comesTo_pure _ _) rfl) (by simp [Except.map])
  · exact comesTo_pure _ []

/-- Every exponent is read as it is spanned, or found not to be there. -/
theorem comesTo_exponent (cs : List Char) :
    ComesTo exponent cs (.ok ((spanExponent cs).1, (spanExponent cs).1)) := by
  by_cases hmark : cs.headD '\x00' = 'e' ∨ cs.headD '\x00' = 'E'
  · cases cs with
    | nil => rcases hmark with hmark | hmark <;> cases hmark
    | cons mark cs =>
      by_cases hminus : cs.headD '\x00' = '-'
      · cases cs with
        | nil => cases hminus
        | cons d cs =>
          obtain rfl : d = '-' := hminus
          exact comesTo_exponent_minus hmark cs
      · exact comesTo_exponent_plus hmark hminus
  · have hnone : spanExponent cs = ([], cs) := by
      cases cs with
      | nil => rfl
      | cons mark cs =>
        have hfirst : (decide (mark = 'e') || decide (mark = 'E')) = false := by simpa using hmark
        simp only [spanExponent_cons, hfirst, Bool.false_and, Bool.false_eq_true, if_false]
    have hseen : ¬ (seen (cs.headD '\x00') = 'e' ∨ seen (cs.headD '\x00') = 'E') := by
      rwa [seen_eq_iff (by decide), seen_eq_iff (by decide)]
    -- Without a mark, neither of the two bytes behind matters.
    refine (comesTo_peek_zero cs).look ?_
    refine comesTo_of_peek fun second => comesTo_of_peek fun third => ?_
    rw [hnone]
    simp only [not_or] at hseen
    simp only [hseen, decide_false, Bool.or_self, Bool.false_and, Bool.false_eq_true, if_false]
    exact comesTo_pure cs []

/-- The token and its text without the first character. -/
def behindLead (lexeme : Lexeme) : Token × List Char := (lexeme.token, lexeme.text.tail)

/-- What has been read of a number is converted as it is in the scanner. -/
theorem comesTo_numeral (first : Char) (taken fraction exponent rest : List Char) :
    ComesTo (fun _ => numeral first taken fraction exponent) rest
      (if fraction.isEmpty && exponent.isEmpty then
        match integerValue? (first = '-') (if first = '-' then taken else first :: taken) with
        | some value => .ok (.integer value, [])
        | none => .error (.malformedNumber (.ofList (first :: taken)))
      else
        .ok (.real (realValue (first = '-') (if first = '-' then taken else first :: taken) fraction
          exponent), [])) := by
  unfold numeral
  simp only [decide_eq_true_eq]
  split
  · cases integerValue? (first = '-') (if first = '-' then taken else first :: taken) with
    | none => exact comesTo_fail _ _
    | some value => exact comesTo_pure _ _
  · exact comesTo_pure _ _

/-- **Numbers are read as they are scanned.** -/
theorem comesTo_number {first : Char} (hfirst : first = '-' ∨ first.isDigit = true)
    (cs : List Char) :
    ComesTo (fun bytes => number bytes first) cs
      ((Lexeme.scanNumber (first = '-') (if first = '-' then cs else first :: cs)).map behindLead) := by
  -- Only the digits behind the first character are read here. A first digit is put back in front.
  have hspan : spanDigits (if first = '-' then cs else first :: cs)
      = (if first = '-' then (spanDigits cs).1 else first :: (spanDigits cs).1, (spanDigits cs).2) := by
    by_cases hminus : first = '-'
    · rw [if_pos hminus, if_pos hminus]
    · have hdigit : first.isDigit = true := hfirst.resolve_left hminus
      rw [if_neg hminus, if_neg hminus, spanDigits, List.takeWhile_cons_of_pos hdigit,
        List.dropWhile_cons_of_pos hdigit]
      rfl
  have htext : (if decide (first = '-') = true then ['-'] else [])
      ++ (if first = '-' then (spanDigits cs).1 else first :: (spanDigits cs).1)
      = first :: (spanDigits cs).1 := by
    by_cases hminus : first = '-' <;> simp [hminus]
  refine (comesTo_digits cs).bind (spanDigits_append cs) ((comesTo_fraction _).bind
    (spanFraction_append _) ((comesTo_exponent _).bind (spanExponent_append _)
      (comesTo_numeral _ _ _ _ _) rfl) rfl) ?_
  rw [Lexeme.scanNumber, hspan]
  dsimp only
  rw [← List.append_assoc, htext]
  split
  · rename_i hempty
    obtain ⟨hfraction, hexponent⟩ := Bool.and_eq_true_iff.mp hempty
    rw [List.isEmpty_iff.mp hfraction, List.isEmpty_iff.mp hexponent]
    cases integerValue? (first = '-') (if first = '-' then (spanDigits cs).1
      else first :: (spanDigits cs).1) <;> simp [Except.map, behindLead]
  · simp [Except.map, behindLead]

/-! ### Strings and names -/

/-- What may stand in strings is a class of this kind, since quotes and line feeds are ASCII. -/
theorem asciiClass_quotable : AsciiClass fun c => c != '"' && c != '\n' :=
  (asciiClass_ne (by decide)).and (asciiClass_ne (by decide))

/-- What stands between two cursors is cut out of the bytes as it is cut out of the text. -/
theorem drop_take_encode (front text rest : List Char) :
    ((Utf8.encode (front ++ (text ++ rest))).take (Utf8.encode (front ++ text)).length).drop
      (Utf8.encode front).length = Utf8.encode text := by
  rw [← List.append_assoc, Utf8.encode_append (front ++ text), List.take_left, Utf8.encode_append,
    List.drop_left]

/-- A string ends where the first character is that cannot stand in it, if that is a quote. -/
theorem scanString_eq (cs : List Char) :
    Lexeme.scanString cs =
      if (cs.dropWhile fun c => c != '"' && c != '\n').head? = some '"' then
        .ok ⟨.string (.ofList (cs.takeWhile fun c => c != '"' && c != '\n')),
          '"' :: ((cs.takeWhile fun c => c != '"' && c != '\n') ++ ['"']),
          (cs.dropWhile fun c => c != '"' && c != '\n').tail⟩
      else .error .unterminatedString := by
  unfold Lexeme.scanString
  dsimp only
  split
  · rename_i rest hrest
    rw [hrest]
    rfl
  · rename_i hrest
    refine (if_neg fun h => ?_).symm
    obtain ⟨rest, hquote⟩ := List.head?_eq_some_iff.mp h
    exact hrest rest hquote

/-- A string goes up to its closing quote, if there is one on the line. -/
theorem comesTo_closingQuote (cs : List Char) :
    ComesTo closingQuote cs
      (if (cs.dropWhile fun c => c != '"' && c != '\n').head? = some '"' then
        .ok ((), (cs.takeWhile fun c => c != '"' && c != '\n') ++ ['"'])
      else .error .unterminatedString) := by
  have happend := List.takeWhile_append_dropWhile (p := fun c => c != '"' && c != '\n') (l := cs)
  have hascii : ('"').toNat < 128 := by decide
  generalize cs.dropWhile (fun c => c != '"' && c != '\n') = rest at *
  by_cases hquote : rest.head? = some '"'
  · obtain ⟨rest, rfl⟩ := List.head?_eq_some_iff.mp hquote
    rw [if_pos hquote]
    refine (comesTo_takeWhile rfl asciiClass_quotable cs).bind happend
      ((comesTo_next? _).look ?_) (show Except.map _ (.ok ((), ['"'])) = _ from rfl)
    simp only [List.head?_cons, Option.map_some, seen_ascii hascii, if_true]
    exact (comesTo_advance hascii rest).bind rfl (comesTo_pure _ _) rfl
  · -- Another character is not seen as a quote.
    have hseen : rest.head?.map seen ≠ some '"' := by
      rw [ne_eq, Option.map_eq_some_iff]
      rintro ⟨c, hc, hcquote⟩
      rw [seen_eq_iff hascii] at hcquote
      exact hquote (hcquote ▸ hc)
    rw [if_neg hquote]
    refine (comesTo_takeWhile rfl asciiClass_quotable cs).bind happend
      ((comesTo_next? _).look ?_) (show Except.map _ (.error .unterminatedString) = _ from rfl)
    simp only [hseen, if_false]
    exact comesTo_fail _ _

/-- The text of a string is the slice before its closing quote, decoded. -/
theorem run_string (bytes : List UInt8) (c : Cursor) :
    (string bytes).run c = match (closingQuote bytes).run c with
      | .error fault => .error fault
      | .ok (_, d) =>
        .ok (.string (Utf8.textLossy ((bytes.take (d.offset - 1)).drop c.offset)), d) := by
  change (closingQuote bytes >>= fun _ => offset >>= fun stop =>
    pure (Token.string (Utf8.textLossy ((bytes.take (stop - 1)).drop c.offset)))).run c = _
  rw [run_bind]
  cases (closingQuote bytes).run c <;> rfl

/-- The text of a string is cut out of the bytes without a loss. -/
theorem comesTo_string (cs : List Char) :
    ComesTo string cs ((Lexeme.scanString cs).map behindLead) := by
  intro front
  have happend := List.takeWhile_append_dropWhile (p := fun c => c != '"' && c != '\n') (l := cs)
  have hclosing := comesTo_closingQuote cs front
  rw [scanString_eq]
  generalize cs.takeWhile (fun c => c != '"' && c != '\n') = inside at *
  generalize cs.dropWhile (fun c => c != '"' && c != '\n') = rest at *
  rw [run_string, hclosing]
  by_cases hquote : rest.head? = some '"'
  · -- The closing quote is one byte, so that the text ends one byte in front of the cursor.
    have hstop : (Cursor.behind (Utf8.encode (front ++ (inside ++ ['"'])))).offset - 1
        = (Utf8.encode (front ++ inside)).length := by
      rw [← List.append_assoc, Utf8.encode_append, Cursor.behind, List.length_append]
      rfl
    rw [if_pos hquote, if_pos hquote]
    dsimp only [Except.map, behindLead, List.tail_cons]
    rw [hstop, ← happend]
    dsimp only [Cursor.behind]
    rw [drop_take_encode, Utf8.textLossy_encode]
  · rw [if_neg hquote, if_neg hquote]
    rfl

/-- Words are read as far as they go. -/
theorem comesTo_word (first : Char) (cs : List Char) :
    ComesTo (fun bytes => word bytes first) cs
      (.ok (first :: cs.takeWhile isWordChar, cs.takeWhile isWordChar)) := by
  have hascii : ∀ c ∈ cs.takeWhile isWordChar, c.toNat < 128 := fun c hc =>
    toNat_lt_of_isWordChar (List.mem_takeWhile_imp hc)
  have hmap := Utf8.map_ofByte_encode hascii
  refine (comesTo_takeWhile rfl (asciiClass_of fun _ => toNat_lt_of_isWordChar) cs).bind
    List.takeWhile_append_dropWhile (comesTo_pure _ _) ?_
  change Except.ok (first :: (Utf8.encode (cs.takeWhile isWordChar)).map Utf8.ofByte,
    cs.takeWhile isWordChar ++ []) = _
  rw [hmap, List.append_nil]

/-- A name is bound, or refused as an operator's. -/
theorem comesTo_bound (name rest : List Char) :
    ComesTo (fun _ => bound name) rest
      (match Operator.ofName? (.ofList name) with
      | some op => .error (.reservedName op)
      | none => .ok (.binder (.ofList name), [])) := by
  unfold bound
  cases Operator.ofName? (.ofList name) with
  | some op => exact comesTo_fail _ _
  | none => exact comesTo_pure _ _

/-- The scanner sees whether a character is a letter. -/
theorem isAlpha_seen (c : Char) : (seen c).isAlpha = c.isAlpha :=
  (asciiClass_of fun _ h => toNat_lt_of_isWordChar (isWordChar_of_isAlpha h)).seen c

/-- **Binders are read as they are scanned.** -/
theorem comesTo_binder (cs : List Char) :
    ComesTo binder cs ((Lexeme.scanBinder cs).map behindLead) := by
  refine (comesTo_peek_zero cs).look ?_
  simp only [isAlpha_seen]
  cases cs with
  | nil => exact comesTo_fail [] .nameExpected
  | cons c cs =>
    rw [List.headD_cons, Lexeme.scanBinder]
    by_cases hc : c.isAlpha = true
    · have hword := isWordChar_of_isAlpha hc
      have hascii := toNat_lt_of_isWordChar hword
      -- The letter is ASCII, so that it is seen as it is.
      have hseen : Utf8.ofByte (leadByte c) = c := seen_ascii hascii
      simp only [hc, if_true]
      refine (comesTo_advance hascii cs).bind rfl ((comesTo_word _ cs).bind
        List.takeWhile_append_dropWhile (comesTo_bound _ _) rfl) ?_
      rw [hseen, List.takeWhile_cons_of_pos hword]
      cases Operator.ofName? (.ofList (c :: cs.takeWhile isWordChar)) <;>
        simp [Except.map, behindLead]
    · simp only [hc, Bool.false_eq_true, if_false]
      exact comesTo_fail _ .nameExpected

/-! ### Tokens -/

/-- Readers and scanners that branch alike come to the same. -/
theorem comesTo_ite {reader other : List UInt8 → ByteReader Token} {cs : List Char}
    {x y : Except LexFault Lexeme} {p : Prop} [Decidable p]
    (hpos : p → ComesTo reader cs (x.map behindLead))
    (hneg : ¬ p → ComesTo other cs (y.map behindLead)) :
    ComesTo (fun bytes => if p then reader bytes else other bytes) cs
      ((if p then x else y).map behindLead) := by
  by_cases h : p
  · simpa only [h, if_true] using hpos h
  · simpa only [h, if_false] using hneg h

/-- A token that starts with an ASCII character goes on behind it. -/
theorem comesTo_tokenFrom {c : Char} (hc : c.toNat < 128) (cs : List Char) :
    ComesTo (fun bytes => tokenFrom bytes (leadByte c)) cs
      ((Lexeme.scan c cs).map behindLead) := by
  have hseen : Utf8.ofByte (leadByte c) = c := seen_ascii hc
  have hnext : (seen (cs.headD '\x00')).isDigit = (cs.headD ' ').isDigit := by
    rw [isDigit_seen]
    cases cs <;> rfl
  refine (comesTo_peek_zero cs).look ?_
  simp only [hseen, hnext]
  -- Both ask for the kinds of first characters in the same order.
  refine comesTo_ite (fun _ => comesTo_pure cs _) fun _ => ?_
  refine comesTo_ite (fun _ => comesTo_pure cs _) fun _ => ?_
  refine comesTo_ite (fun _ => comesTo_pure cs _) fun _ => ?_
  refine comesTo_ite (fun _ => comesTo_pure cs _) fun _ => ?_
  refine comesTo_ite (fun _ => comesTo_string cs) fun _ => ?_
  refine comesTo_ite (fun _ => comesTo_binder cs) fun _ => ?_
  refine comesTo_ite (fun hminus => ?_) fun _ => ?_
  · obtain rfl : c = '-' := by simpa using (Bool.and_eq_true_iff.mp hminus).1
    exact comesTo_number (Or.inl rfl) cs
  refine comesTo_ite (fun hdigit => ?_) fun _ => ?_
  · have hminus : c ≠ '-' := ne_of_class hdigit rfl
    simpa only [hminus, decide_false, if_false] using comesTo_number (Or.inr hdigit) cs
  refine comesTo_ite (fun halpha => ?_) fun _ => comesTo_fail cs _
  refine (comesTo_word c cs).bind List.takeWhile_append_dropWhile (comesTo_pure _ _) ?_
  rw [List.takeWhile_cons_of_pos (isWordChar_of_isAlpha halpha)]
  simp [Except.map, behindLead]

section
variable {c : Char} (hc : 128 ≤ c.toNat)
include hc

/-- A character beyond ASCII leads nothing. -/
theorem not_ascii_of_le :
    (∀ d : Char, d.toNat < 128 → c ≠ d) ∧ c.isDigit = false ∧ c.isAlpha = false := by
  have hword : ¬ isWordChar c = true := fun h => by
    have := toNat_lt_of_isWordChar h
    omega
  simp only [isWordChar, Char.isAlphanum, Bool.or_eq_true, not_or, Bool.not_eq_true] at hword
  refine ⟨?_, hword.1.1.2, hword.1.1.1⟩
  rintro d hd rfl
  omega

/-- No token starts with a character beyond ASCII. -/
theorem scan_of_le (cs : List Char) :
    Lexeme.scan c cs = .error (.unexpectedCharacter (leadByte c)) := by
  obtain ⟨hne, hdigit, halpha⟩ := not_ascii_of_le hc
  simp [Lexeme.scan, hne, hdigit, halpha]

/-- No token starts with the first byte of one. -/
theorem run_tokenFrom_of_le (bytes : List UInt8) (d : Cursor) :
    (tokenFrom bytes (leadByte c)).run d
      = .error (.lexical (.unexpectedCharacter (leadByte c))) := by
  obtain ⟨hne, hdigit, halpha⟩ := not_ascii_of_le (le_toNat_seen hc)
  have hseen : Utf8.ofByte (leadByte c) = seen c := rfl
  have hfail : tokenFrom bytes (leadByte c)
      = peek bytes 0 >>= fun _ => fail (.unexpectedCharacter (leadByte c)) := by
    simp [tokenFrom, hseen, hne, hdigit, halpha]
  rw [hfail]
  rfl

end

/-- **One token.** Reading bytes in front of a character comes to what reading characters does. -/
theorem comesTo_token (c : Char) (cs : List Char) :
    ComesTo token (c :: cs)
      ((Lexeme.scan c cs).map fun lexeme => (lexeme.token, lexeme.text)) := by
  rcases Nat.lt_or_ge c.toNat 128 with hc | hc
  · refine (comesTo_advance hc cs).bind rfl (comesTo_tokenFrom hc cs) ?_
    cases hscan : Lexeme.scan c cs with
    | error fault => rfl
    | ok lexeme =>
      have happend := Lexeme.scan_append hscan
      obtain ⟨d, text, htext⟩ := List.exists_cons_of_ne_nil (Lexeme.scan_text_ne_nil hscan)
      rw [htext, List.cons_append] at happend
      dsimp only [Except.map, behindLead]
      rw [htext, (List.cons.inj happend).1]
      rfl
  · -- The first byte alone is taken. That leads into the character, but to no token.
    intro front
    obtain ⟨behind, hbytes⟩ := Utf8.utf8EncodeChar_eq_cons c
    rw [scan_of_le hc, token, run_bind, Utf8.encode_append, Utf8.encode_cons, hbytes,
      List.cons_append, run_advance_behind]
    exact run_tokenFrom_of_le hc _ _

end SceneTracer.ByteReader
