import SceneTracer.Proofs.Token.LongestMatch
import SceneTracer.Token.Printed

namespace SceneTracer

/-!
# Printed tokens are read back

A printed token in front of a blank, a comment or the end of the text is the longest match there,
for no form of a token but a string goes on with a blank or a percent sign, and a string ends at its
second quote. So a text of printed tokens is read as these tokens, whatever stands between them.

* `Token.Printable.written` — a printed form writes its token.
* `HasForm.length_le` — what matches in front of a separator does not reach into it.
* `Token.Written.reads` — a token that is written in front of a separator is read.
* `scanned_of_isPrinting` — the induction over the printed tokens.
* `tokenize_of_isPrinting` — printed tokens are read back.
-/

/-! ### Printed forms write their tokens -/

/-- The decimal digits of a number are digits, and there is one at least. -/
theorem isDigits_toDigits (n : Nat) : IsDigits (Nat.toDigits 10 n) :=
  ⟨Nat.toDigits_ne_nil, fun _ hd =>
    isDigit_iff.mp (Nat.isDigit_of_mem_toDigits (by decide) (by decide) hd)⟩

/-- The decimal form of an integer is its sign and the digits of its magnitude. -/
theorem toList_toString (value : Int64) :
    (toString value).toList
      = signText (decide (value.toInt < 0)) ++ Nat.toDigits 10 value.toInt.natAbs := by
  have hrepr : toString value = value.toInt.repr := rfl
  rw [hrepr, Int.repr_eq_if]
  by_cases hneg : value.toInt < 0
  · have habs : (-value.toInt).toNat = value.toInt.natAbs := by omega
    rw [if_neg (not_le.mpr hneg), habs, decide_eq_true hneg, String.toList_append, Nat.toList_repr]
    rfl
  · have habs : value.toInt.toNat = value.toInt.natAbs := by omega
    rw [if_pos (not_lt.mp hneg), habs, decide_eq_false hneg, Nat.toList_repr]
    rfl

/-- The sign and the magnitude of an integer make up its value. -/
theorem wholeNumber_toDigits (n : ℤ) :
    wholeNumber (decide (n < 0)) (Nat.toDigits 10 n.natAbs) = n := by
  rw [wholeNumber, ← natOfDigits_eq_positionalValue, Decimal.natOfDigits_toDigits]
  split_ifs with hneg
  · have := of_decide_eq_true hneg
    omega
  · have := of_decide_eq_false (Bool.eq_false_iff.mpr hneg)
    omega

/-- An integer is written by its decimal numeral. -/
theorem written_integer (value : Int64) :
    Token.Written (.integer value) (toString value).toList := by
  rw [toList_toString]
  exact .integer (isDigits_toDigits _) (wholeNumber_toDigits _).symm

/-- The printed form of a token writes it. -/
theorem Token.Printable.written {token : Token} {text : List Char} (h : token.Printable)
    (hprints : token.Prints text) : Token.Written token text := by
  cases token with
  | beginFunction =>
    obtain rfl := hprints
    exact .beginFunction
  | endFunction =>
    obtain rfl := hprints
    exact .endFunction
  | beginArray =>
    obtain rfl := hprints
    exact .beginArray
  | endArray =>
    obtain rfl := hprints
    exact .endArray
  | integer value =>
    obtain rfl := hprints
    exact written_integer value
  | real value =>
    obtain ⟨negative, whole, fraction, exponent, rfl, hwhole, hfraction, hexponent, hpart, rfl⟩ :=
      hprints
    exact .real hwhole hfraction hexponent hpart
  | boolean value =>
    obtain rfl := hprints
    cases value with
    | true => exact .true
    | false => exact .false
  | string inside =>
    obtain rfl := hprints
    simpa using Token.Written.string h
  -- A printable name is not one of the reserved words.
  | identifier name =>
    obtain rfl := hprints
    obtain ⟨hname, hoperator, htrue, hfalse⟩ := h
    rw [← String.ofList_toList (s := name)] at hoperator htrue hfalse
    simpa using Token.Written.identifier hname hoperator htrue hfalse
  | binder name =>
    obtain rfl := hprints
    obtain ⟨hname, hoperator⟩ := h
    rw [← String.ofList_toList (s := name)] at hoperator
    simpa using Token.Written.binder hname hoperator
  | operator op =>
    obtain rfl := hprints
    exact .operator op

/-! ### Where a match ends -/

/-- The characters of a class that has no blank and no percent sign start neither a blank nor a
comment. -/
theorem isLead_of_class {p : Char → Bool} {c : Char} (hc : p c = true)
    (hnone : [' ', '\t', '\r', '\n', '\x0b', '\x0c', '%'].all (fun d => !p d) = true) :
    IsLead c := by
  have hne : ∀ d ∈ [' ', '\t', '\r', '\n', '\x0b', '\x0c', '%'], c ≠ d := by
    intro d hd
    have hpd : (!p d) = true := List.all_eq_true.mp hnone d hd
    exact ne_of_class hc (by simpa using hpd)
  simp only [List.mem_cons, List.not_mem_nil, or_false, forall_eq_or_imp, forall_eq] at hne
  rw [IsLead, ← isBlank_iff]
  simp [isBlank, hne]

/-- A character of words is not skipped. -/
theorem isLead_of_isWordChar {c : Char} (hc : isWordChar c = true) : IsLead c :=
  isLead_of_class hc (by decide)

theorem isLead_of_isDigit {c : Char} (hc : c.isDigit = true) : IsLead c :=
  isLead_of_class hc (by decide)

/-- No character of a number is skipped. -/
theorem IsNumber.isLead {text : List Char} (h : IsNumber text) : ∀ d ∈ text, IsLead d := by
  obtain ⟨whole, fraction, exponent, rfl, hwhole, hfraction, hexponent⟩ := h
  have hdigits : ∀ {digits : List Char}, IsDigits digits → ∀ d ∈ digits, IsLead d :=
    fun hdigits d hd => isLead_of_isDigit (hdigits.all d hd)
  intro d hd
  -- It is in the whole part, in the fraction or in the exponent.
  rcases List.mem_append.mp hd with hd | hd
  · exact hdigits hwhole d hd
  rcases List.mem_append.mp hd with hd | hd
  · obtain rfl | ⟨places, rfl, hplaces⟩ := hfraction
    · cases hd
    · rcases List.mem_cons.mp hd with rfl | hd
      · exact ⟨by decide, by decide⟩
      · exact hdigits hplaces d hd
  · obtain rfl | ⟨mark, negative, places, rfl, hmark, hplaces⟩ := hexponent
    · cases hd
    · rcases List.mem_cons.mp hd with rfl | hd
      · rcases hmark with rfl | rfl <;> exact ⟨by decide, by decide⟩
      rcases List.mem_append.mp hd with hd | hd
      · cases negative with
        | true =>
          obtain rfl := List.mem_singleton.mp hd
          exact ⟨by decide, by decide⟩
        | false => cases hd
      · exact hdigits hplaces d hd

/-- No form of a token but a string has a blank or a percent sign in it. -/
theorem HasForm.isLead {c : Char} {cs : List Char} (h : HasForm c cs) (hquote : c ≠ '"') :
    ∀ d ∈ cs, IsLead d := by
  have hspec := Lead.of_spec c
  unfold HasForm at h
  -- Only strings contain characters that are skipped outside of them.
  match hlead : Lead.of c with
  | .delimiter =>
    rw [hlead] at h
    obtain rfl : cs = [] := h
    exact nofun
  | .quote =>
    rw [hlead] at hspec
    exact absurd hspec hquote
  | .slash =>
    rw [hlead] at h
    exact fun d hd => isLead_of_isWordChar (IsWord.all h d hd)
  | .minus =>
    rw [hlead] at h
    exact IsNumber.isLead h
  | .digit =>
    rw [hlead] at h
    exact fun d hd => IsNumber.isLead h d (List.mem_cons_of_mem c hd)
  | .letter =>
    rw [hlead] at h
    exact fun d hd => isLead_of_isWordChar (h d hd)
  | .other =>
    rw [hlead] at h
    exact h.elim

/-- No form of a token starts with a blank or a percent sign. -/
theorem HasForm.isLead_head {c : Char} {cs : List Char} (h : HasForm c cs) : IsLead c := by
  have hspec := Lead.of_spec c
  unfold HasForm at h
  match hlead : Lead.of c with
  | .delimiter =>
    rw [hlead] at hspec
    rcases hspec with rfl | rfl | rfl | rfl <;> exact ⟨by decide, by decide⟩
  | .quote | .slash | .minus =>
    rw [hlead] at hspec
    obtain rfl := hspec
    exact ⟨by decide, by decide⟩
  | .digit =>
    rw [hlead] at hspec
    exact isLead_of_isDigit hspec
  | .letter =>
    rw [hlead] at hspec
    exact isLead_of_isWordChar (isWordChar_of_isAlpha hspec)
  | .other =>
    rw [hlead] at h
    exact h.elim

/-- Nothing, a blank or a percent sign comes next. -/
def Separates (rest : List Char) : Prop := ∀ d ∈ rest.head?, ¬ IsLead d

/-- **A match in front of a separator does not reach into it.** Of two texts with a form of a token
that start at the same place, the one that ends at a separator is the longer. -/
theorem HasForm.length_le {c : Char} {cs rest ds : List Char} (h : HasForm c cs)
    (hrest : Separates rest) (hstart : ds <+: cs ++ rest) (hds : HasForm c ds) :
    ds.length ≤ cs.length := by
  by_contra hlonger
  have hfront : cs <+: ds :=
    List.prefix_of_prefix_length_le (List.prefix_append cs rest) hstart (by omega)
  obtain ⟨more, rfl⟩ := hfront
  cases more with
  | nil => simp at hlonger
  | cons d more =>
    by_cases hquote : c = '"'
    · -- The quote that ends `cs` would be inside the longer string.
      subst hquote
      obtain ⟨inside, rfl, -⟩ : ∃ inside, cs = inside ++ ['"'] ∧ IsQuotable inside := h
      obtain ⟨longer, heq, hquotable⟩ :
        ∃ longer, inside ++ ['"'] ++ d :: more = longer ++ ['"'] ∧ IsQuotable longer := hds
      have hmem : '"' ∈ longer := by
        have hdropLast := congrArg List.dropLast heq
        rw [List.dropLast_concat, List.dropLast_append_of_ne_nil (List.cons_ne_nil d more)]
          at hdropLast
        rw [← hdropLast]
        simp
      exact (hquotable '"' hmem).1 rfl
    · -- The separator would be a part of the longer match.
      have hlead : IsLead d := hds.isLead hquote d (by simp)
      obtain ⟨after, hafter⟩ := (List.prefix_append_right_inj cs).mp hstart
      exact hrest d (by simp [← hafter]) hlead

/-- What is written in front of a separator is the longest match there, and read. -/
theorem Token.Written.reads {token : Token} {c : Char} {cs rest : List Char}
    (h : Token.Written token (c :: cs)) (hrest : Separates rest) :
    Reads (c :: (cs ++ rest)) (.ok (token, rest)) := by
  have hmatches : Matches (c :: cs) := Or.inl ⟨token, h⟩
  refine .token (List.cons_append ..) (isLongestMatch_of_hasForm rfl hmatches ?_) h
  intro ds hds hform
  exact Nat.succ_le_succ (hmatches.hasForm.length_le hrest hds hform)

/-! ### Blanks and comments between tokens -/

/-- Blanks and comments may follow each other. -/
theorem IsTrivia.append {front back : List Char} (h : IsTrivia front) (hback : IsTrivia back) :
    IsTrivia (front ++ back) := by
  induction h with
  | nil => exact hback
  | blank hc _ ih => exact .blank hc ih
  | comment htext _ ih => simpa using IsTrivia.comment htext ih

/-- What separates does so behind blanks and comments, too. -/
theorem IsTrivia.separates {trivia rest : List Char} (h : IsTrivia trivia)
    (hrest : Separates rest) : Separates (trivia ++ rest) := by
  cases h with
  | nil => exact hrest
  | @blank c _ hc _ =>
    intro d hd hlead
    obtain rfl : c = d := by simpa using hd
    exact hlead.1 hc
  | comment _ _ =>
    intro d hd hlead
    obtain rfl : '%' = d := by simpa using hd
    exact hlead.2 rfl

/-- Blanks and comments at the end separate. -/
theorem EndsInTrivia.separates {cs : List Char} (h : EndsInTrivia cs) : Separates cs := by
  obtain ⟨trivia, rest, rfl, htrivia, hrest⟩ := h
  refine htrivia.separates ?_
  obtain rfl | ⟨text, rfl, -⟩ := hrest
  · exact nofun
  · intro d hd hlead
    obtain rfl : '%' = d := by simpa using hd
    exact hlead.2 rfl

/-- A separator separates, whatever comes behind it. -/
theorem IsSeparator.separates {separator : List Char} (h : IsSeparator separator)
    (rest : List Char) : Separates (separator ++ rest) := by
  obtain ⟨hne, htrivia⟩ := h
  have hown : Separates (separator ++ []) := htrivia.separates nofun
  obtain ⟨d, ds, rfl⟩ := List.exists_cons_of_ne_nil hne
  exact hown

/-- Blanks and comments before an end in them make such an end. -/
theorem EndsInTrivia.after {trivia cs : List Char} (htrivia : IsTrivia trivia)
    (h : EndsInTrivia cs) : EndsInTrivia (trivia ++ cs) := by
  obtain ⟨front, rest, rfl, hfront, hrest⟩ := h
  exact ⟨trivia ++ front, rest, by simp, htrivia.append hfront, hrest⟩

/-! ### Whole texts -/

/-- A token in front of a separator, and the tokens behind it. -/
theorem Scanned.written {token : Token} {text leading rest : List Char} {tokens : List Token}
    (hleading : IsTrivia leading) (htext : Token.Written token text) (hrest : Separates rest)
    (htokens : Scanned rest (.ok tokens)) :
    Scanned (leading ++ (text ++ rest)) (.ok (token :: tokens)) := by
  have hmatches : Matches text := Or.inl ⟨token, htext⟩
  cases text with
  | nil => exact absurd hmatches not_matches_nil
  | cons c cs => exact .token hleading hmatches.hasForm.isLead_head (htext.reads hrest) htokens

/-- **A printing is scanned as its tokens**, by induction on the printing: each token is the longest
match before what separates it. -/
theorem scanned_of_isPrinting {tokens : List Token} {text : List Char} (h : IsPrinting tokens text)
    (htokens : ∀ token ∈ tokens, token.Printable) {leading trailing : List Char}
    (hleading : IsTrivia leading) (htrailing : EndsInTrivia trailing) :
    Scanned (leading ++ (text ++ trailing)) (.ok tokens) := by
  induction h generalizing leading with
  | nil => exact .done (htrailing.after hleading)
  | last htoken =>
    have hwritten := (htokens _ List.mem_cons_self).written htoken
    exact .written hleading hwritten htrailing.separates (.done htrailing)
  | @cons token next tokens text separator rest htoken hseparator _ ih =>
    obtain ⟨hfirst, hothers⟩ := List.forall_mem_cons.mp htokens
    -- The separator leads the tokens that are left.
    have hrest := ih hothers hseparator.2
    rw [List.append_assoc, List.append_assoc]
    exact .written hleading (hfirst.written htoken) (hseparator.separates _) hrest

/-- **Printed tokens are read back.** A text in which printable tokens are printed one after
another, with any blanks and ended comments between them, has exactly these tokens. There may be
blanks and comments in front of the first and behind the last, where the last comment need not
end. -/
theorem tokenize_of_isPrinting {tokens : List Token} {text leading trailing : List Char}
    (htokens : ∀ token ∈ tokens, token.Printable) (hprinting : IsPrinting tokens text)
    (hleading : IsTrivia leading) (htrailing : EndsInTrivia trailing) :
    (tokenize (.ofList (leading ++ (text ++ trailing)))).map (fun located => located.map (·.token))
      = .ok tokens := by
  have hscanned := scanned_of_isPrinting hprinting htokens hleading htrailing
  have hreading := hscanned.reading_eq .start
  rw [tokenize, String.toList_ofList]
  cases htokenize : tokenizeFrom .start (leading ++ (text ++ trailing)) with
  | error e =>
    rw [htokenize] at hreading
    cases hreading
  | ok located =>
    rw [htokenize] at hreading
    exact congrArg Except.ok (Except.ok.inj hreading)

/-- The least integer, a real of half a thousandth with an exponent and a sign, a binder of a word
that is no name, a string with a percent sign and a letter outside ASCII, a word that goes on from an
operator, and that operator. A comment with a quote and a bracket in it stands between the first two,
and one without an end behind the last. -/
theorem tokenize_of_isPrinting_extremes :
    let real : List Char := ['-'] ++ (['0'] ++ (['.', '5'] ++ ['E', '-', '3']))
    let tokens : List Token :=
      [.integer (-9223372036854775808), .real (-0.0005), .binder "true", .string "é % [",
        .identifier "addi_", .operator .addi]
    let text : List Char :=
      "-9223372036854775808".toList ++ (['%', '"', '[', '\n'] ++ (real ++ (['\t'] ++
        ("/true".toList ++ ([' '] ++ ("\"é % [\"".toList ++ (['\n', ' '] ++
          ("addi_".toList ++ (['\x0b'] ++ "addi".toList)))))))))
    (∀ token ∈ tokens, token.Printable) ∧ IsPrinting tokens text ∧
    IsTrivia ['\r', '\n'] ∧ EndsInTrivia ['%', '"'] ∧
    (tokenize (.ofList (['\r', '\n'] ++ (text ++ ['%', '"'])))).map
      (fun located => located.map (·.token)) = .ok tokens := by
  intro real tokens text
  have htokens : ∀ token ∈ tokens, token.Printable := by
    have hname : IsWord "true".toList := isWord_cons_iff.mpr rfl
    have hname' : IsWord "addi_".toList := isWord_cons_iff.mpr rfl
    have hinside : IsQuotable "é % [".toList := by simp [IsQuotable]
    simp only [tokens, List.forall_mem_cons]
    exact ⟨trivial, trivial, ⟨hname, by decide⟩, hinside,
      ⟨hname', by decide, by decide, by decide⟩, trivial, nofun⟩
  have hblank : ∀ c, IsBlank c → IsSeparator [c] :=
    fun c hc => ⟨List.cons_ne_nil c [], .blank hc .nil⟩
  have hcomment : IsSeparator ['%', '"', '[', '\n'] :=
    ⟨List.cons_ne_nil _ _, @IsTrivia.comment ['"', '['] [] (by simp) .nil⟩
  -- Five times ten to the power of minus four: one for the place behind the point, three as written.
  have hreal : (Token.real (-0.0005)).Prints real :=
    ⟨true, ['0'], ['.', '5'], ['E', '-', '3'], rfl, by decide, Or.inr ⟨['5'], rfl, by decide⟩,
      Or.inr ⟨'E', true, ['3'], rfl, Or.inr rfl, by decide⟩, by simp, rfl⟩
  have hprinting : IsPrinting tokens text :=
    .cons rfl hcomment <| .cons hreal (hblank '\t' (by decide)) <|
      .cons rfl (hblank ' ' (by decide)) <|
        .cons rfl ⟨List.cons_ne_nil _ _, .blank (by decide) (.blank (by decide) .nil)⟩ <|
          .cons rfl (hblank '\x0b' (by decide)) <| .last rfl
  have hleading : IsTrivia ['\r', '\n'] := .blank (by decide) (.blank (by decide) .nil)
  have htrailing : EndsInTrivia ['%', '"'] :=
    ⟨[], ['%', '"'], rfl, .nil, Or.inr ⟨['"'], rfl, by simp⟩⟩
  exact ⟨htokens, hprinting, hleading, htrailing,
    tokenize_of_isPrinting htokens hprinting hleading htrailing⟩

end SceneTracer
