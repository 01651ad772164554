import Mathlib.Data.List.TakeWhile
import SceneTracer.Proofs.Token.Classes

namespace SceneTracer

/-!
# Reading numbers

A number is read part by part, and each optional part is taken only if it is complete. What is taken
is the longest text at that place that writes a number.

* `Stops` — no character of some sort comes next.
* `spanDigits_exact`, `spanFraction_exact`, `spanExponent_exact` — a part that is followed by
  something else is read as it is.
* `numberText` — what is read of a number.
* `length_le_numberText` — no longer text writes a number.
* `Lexeme.scanNumber_of_parts` — a text that writes a number is read as that number.
-/

/-! ### Characters of one sort -/

/-- No character that satisfies `p` comes next. -/
def Stops (p : Char → Bool) (cs : List Char) : Prop := ∀ c ∈ cs.head?, p c = false

section Span

variable {p : Char → Bool} {front rest cs : List Char}

theorem stops_nil : Stops p [] := nofun

theorem stops_cons {c : Char} : Stops p (c :: cs) ↔ p c = false := by simp [Stops]

theorem takeWhile_of_stops (h : Stops p cs) : cs.takeWhile p = [] := by
  cases cs with
  | nil => rfl
  | cons c cs => simp [stops_cons.mp h]

theorem dropWhile_of_stops (h : Stops p cs) : cs.dropWhile p = cs := by
  cases cs with
  | nil => rfl
  | cons c cs => simp [stops_cons.mp h]

/-- A part in a class, up to where it stops, is taken as a whole. -/
theorem takeWhile_exact (hfront : ∀ c ∈ front, p c = true) (hrest : Stops p rest) :
    (front ++ rest).takeWhile p = front := by
  rw [List.takeWhile_append_of_pos hfront, takeWhile_of_stops hrest, List.append_nil]

/-- What follows such a part is left. -/
theorem dropWhile_exact (hfront : ∀ c ∈ front, p c = true) (hrest : Stops p rest) :
    (front ++ rest).dropWhile p = rest := by
  rw [List.dropWhile_append_of_pos hfront, dropWhile_of_stops hrest]

/-- No longer text of such characters stands at the front. -/
theorem length_le_takeWhile (hfront : ∀ c ∈ front, p c = true) (h : front <+: cs) :
    front.length ≤ (cs.takeWhile p).length := by
  obtain ⟨rest, rfl⟩ := h
  rw [List.takeWhile_append_of_pos hfront, List.length_append]
  exact Nat.le_add_right _ _

end Span

/-! ### The parts of a number -/

variable {digits whole fraction exponent rest cs : List Char}

/-- The reader takes the digits of a number for digits. -/
theorem IsDigits.all (h : IsDigits digits) : ∀ d ∈ digits, d.isDigit = true :=
  fun d hd => isDigit_iff.mpr (h.2 d hd)

/-- What the reader takes for digits are the digits of a number, if there is one. -/
theorem isDigits_cons {c : Char} (hc : c.isDigit = true) (hcs : ∀ d ∈ cs, d.isDigit = true) :
    IsDigits (c :: cs) := by
  refine ⟨List.cons_ne_nil c cs, List.forall_mem_cons.mpr ⟨isDigit_iff.mp hc, fun d hd => ?_⟩⟩
  exact isDigit_iff.mp (hcs d hd)

/-- Digits are read if at least one stands in front. -/
theorem isDigits_spanDigits {c : Char} (hc : c.isDigit = true) :
    IsDigits (spanDigits (c :: cs)).1 := by
  rw [spanDigits, List.takeWhile_cons_of_pos hc]
  exact isDigits_cons hc fun d hd => List.mem_takeWhile_imp hd

/-- What is taken as a fraction is one. -/
theorem isFraction_spanFraction (cs : List Char) : IsFraction (spanFraction cs).1 := by
  unfold spanFraction
  split
  · rename_i d cs
    by_cases hd : d.isDigit = true
    · rw [if_pos hd]
      exact Or.inr ⟨_, rfl, isDigits_spanDigits hd⟩
    · rw [if_neg hd]
      exact Or.inl rfl
  · exact Or.inl rfl

/-- What is taken as an exponent is one. -/
theorem isExponent_spanExponent (cs : List Char) : IsExponent (spanExponent cs).1 := by
  unfold spanExponent
  split
  · rename_i mark d cs
    by_cases h : (mark = 'e' ∨ mark = 'E') ∧ d.isDigit = true
    · rw [if_pos (by simpa using h)]
      exact Or.inr ⟨mark, true, _, rfl, h.1, isDigits_spanDigits h.2⟩
    · rw [if_neg (by simpa using h)]
      exact Or.inl rfl
  · -- Without a minus sign, the digits follow the mark at once.
    rename_i mark d cs _
    by_cases h : (mark = 'e' ∨ mark = 'E') ∧ d.isDigit = true
    · rw [if_pos (by simpa using h)]
      exact Or.inr ⟨mark, false, _, rfl, h.1, isDigits_spanDigits h.2⟩
    · rw [if_neg (by simpa using h)]
      exact Or.inl rfl
  · exact Or.inl rfl

/-- Digits are taken as a whole. -/
theorem spanDigits_exact (hdigits : IsDigits digits) (hrest : Stops Char.isDigit rest) :
    spanDigits (digits ++ rest) = (digits, rest) := by
  rw [spanDigits, takeWhile_exact hdigits.all hrest, dropWhile_exact hdigits.all hrest]

/-- What reading a fraction or an exponent comes to when its first digit is reached. -/
theorem spanFraction_point (hdigits : IsDigits digits) (rest : List Char) :
    spanFraction ('.' :: (digits ++ rest))
      = ('.' :: (spanDigits (digits ++ rest)).1, (spanDigits (digits ++ rest)).2) := by
  match digits with
  | [] => exact absurd rfl hdigits.1
  | d :: ds =>
    have hd : d.isDigit = true := hdigits.all d List.mem_cons_self
    simp [spanFraction, hd]

/-- Behind the mark and the sign, all digits are taken. -/
theorem spanExponent_mark {mark : Char} (hmark : mark = 'e' ∨ mark = 'E') (negative : Bool)
    (hdigits : IsDigits digits) (rest : List Char) :
    spanExponent (mark :: (signText negative ++ (digits ++ rest)))
      = (mark :: (signText negative ++ (spanDigits (digits ++ rest)).1),
          (spanDigits (digits ++ rest)).2) := by
  match digits with
  | [] => exact absurd rfl hdigits.1
  | d :: ds =>
    have hd : d.isDigit = true := hdigits.all d List.mem_cons_self
    cases negative with
    | true => simp [spanExponent, signText, hmark, hd]
    | false =>
      -- A digit is no sign.
      have hminus : d ≠ '-' := by
        rintro rfl
        exact absurd hd (by decide)
      show spanExponent (mark :: d :: (ds ++ rest)) = _
      rw [spanExponent, if_pos (by simpa [hd] using hmark)]
      · rfl
      · rintro d' cs' h
        exact absurd h hminus

/-- Without a point there is no fraction. -/
theorem spanFraction_of_ne (h : cs.head? ≠ some '.') : spanFraction cs = ([], cs) := by
  unfold spanFraction
  split
  · exact absurd rfl h
  · rfl

/-- Digits, a point or a mark: what comes first in a part tells which part it is. -/
theorem IsFraction.head? (h : IsFraction fraction) (hne : fraction ≠ []) :
    fraction.head? = some '.' := by
  obtain rfl | ⟨digits, rfl, -⟩ := h
  · exact absurd rfl hne
  · rfl

/-- An exponent ends the digits before it, and is no fraction. -/
theorem IsExponent.stops (h : IsExponent exponent) (hne : exponent ≠ []) (rest : List Char) :
    Stops Char.isDigit (exponent ++ rest) ∧ (exponent ++ rest).head? ≠ some '.' := by
  obtain rfl | ⟨mark, negative, digits, rfl, hmark, -⟩ := h
  · exact absurd rfl hne
  · obtain rfl | rfl := hmark <;> exact ⟨stops_cons.mpr (by decide), by simp⟩

/-- A fraction ends the digits before it. -/
theorem IsFraction.stops (h : IsFraction fraction) (hne : fraction ≠ []) (rest : List Char) :
    Stops Char.isDigit (fraction ++ rest) := by
  obtain rfl | ⟨digits, rfl, -⟩ := h
  · exact absurd rfl hne
  · exact stops_cons.mpr (by decide)

/-- A fraction is taken as a whole. -/
theorem spanFraction_exact (hfraction : IsFraction fraction) (hrest : Stops Char.isDigit rest)
    (hpoint : rest.head? ≠ some '.') : spanFraction (fraction ++ rest) = (fraction, rest) := by
  obtain rfl | ⟨digits, rfl, hdigits⟩ := hfraction
  · exact spanFraction_of_ne hpoint
  · rw [List.cons_append, spanFraction_point hdigits, spanDigits_exact hdigits hrest]

/-- An exponent is taken as a whole. -/
theorem spanExponent_exact (hexponent : IsExponent exponent) :
    spanExponent exponent = (exponent, []) := by
  obtain rfl | ⟨mark, negative, digits, rfl, hmark, hdigits⟩ := hexponent
  · rfl
  · have hexact := spanDigits_exact hdigits stops_nil
    have hmarked := spanExponent_mark hmark negative hdigits []
    rw [hexact, List.append_nil] at hmarked
    exact hmarked

/-! ### The longest number -/

/-- At least the digits that are there are taken. -/
theorem length_le_spanDigits (hdigits : IsDigits digits) (rest : List Char) :
    digits.length ≤ (spanDigits (digits ++ rest)).1.length :=
  length_le_takeWhile hdigits.all (List.prefix_append digits rest)

/-- At least the fraction that is there is taken. -/
theorem length_le_spanFraction (hfraction : IsFraction fraction) (rest : List Char) :
    fraction.length ≤ (spanFraction (fraction ++ rest)).1.length := by
  obtain rfl | ⟨digits, rfl, hdigits⟩ := hfraction
  · exact Nat.zero_le _
  · rw [List.cons_append, spanFraction_point hdigits]
    exact Nat.succ_le_succ (length_le_spanDigits hdigits rest)

/-- At least the exponent that is there is taken. -/
theorem length_le_spanExponent (hexponent : IsExponent exponent) (rest : List Char) :
    exponent.length ≤ (spanExponent (exponent ++ rest)).1.length := by
  obtain rfl | ⟨mark, negative, digits, rfl, hmark, hdigits⟩ := hexponent
  · exact Nat.zero_le _
  · rw [List.cons_append, List.append_assoc, spanExponent_mark hmark negative hdigits]
    have hlength := length_le_spanDigits hdigits rest
    simp only [List.length_cons, List.length_append]
    omega

/-- What is read of a number whose digits start at the front of `cs`. -/
def numberText (cs : List Char) : List Char :=
  let afterWhole := (spanDigits cs).2
  let afterFraction := (spanFraction afterWhole).2
  (spanDigits cs).1 ++ ((spanFraction afterWhole).1 ++ (spanExponent afterFraction).1)

/-- What is taken of a number stands at the front. -/
theorem numberText_prefix (cs : List Char) : numberText cs <+: cs :=
  ⟨(spanExponent (spanFraction (spanDigits cs).2).2).2, by simp [numberText]⟩

theorem length_numberText (cs : List Char) :
    (numberText cs).length = (spanDigits cs).1.length +
      ((spanFraction (spanDigits cs).2).1.length +
        (spanExponent (spanFraction (spanDigits cs).2).2).1.length) := by
  simp only [numberText, List.length_append]

/-- A number is written by its digits, perhaps a fraction and perhaps an exponent. -/
def IsNumber (text : List Char) : Prop :=
  ∃ whole fraction exponent, text = whole ++ (fraction ++ exponent) ∧ IsDigits whole ∧
    IsFraction fraction ∧ IsExponent exponent

/-- No longer text at the same place writes a number. -/
theorem length_le_numberText {text : List Char} (htext : IsNumber text) (h : text <+: cs) :
    text.length ≤ (numberText cs).length := by
  obtain ⟨whole, fraction, exponent, rfl, hwhole, hfraction, hexponent⟩ := htext
  obtain ⟨rest, rfl⟩ := h
  rw [length_numberText]
  simp only [List.append_assoc, List.length_append]
  by_cases hstop : Stops Char.isDigit (fraction ++ (exponent ++ rest))
  · rw [spanDigits_exact hwhole hstop]
    by_cases hstop' : exponent ≠ []
    · -- The mark of an exponent ends the digits in front of it.
      obtain ⟨hdigit, hpoint⟩ := hexponent.stops hstop' rest
      rw [spanFraction_exact hfraction hdigit hpoint]
      dsimp only
      have hlength := length_le_spanExponent hexponent rest
      omega
    · dsimp only
      have hlength := length_le_spanFraction hfraction (exponent ++ rest)
      have hnone : exponent.length = 0 := by
        rw [not_not.mp hstop']
        rfl
      omega
  · -- If more digits follow, there is neither a fraction nor an exponent.
    have hnone : fraction = [] := by
      by_contra hne
      exact hstop (hfraction.stops hne _)
    subst hnone
    have hnone' : exponent = [] := by
      by_contra hne
      exact hstop (hexponent.stops hne rest).1
    subst hnone'
    have hlength := length_le_spanDigits hwhole ([] ++ ([] ++ rest))
    simp only [List.length_nil]
    omega

/-! ### Numbers as tokens -/

namespace Lexeme

/-- What a number is read as is written by the text that was read. -/
theorem written_of_scanNumber {negative : Bool} {c : Char} {cs : List Char} {lexeme : Lexeme}
    (hc : c.isDigit = true) (h : scanNumber negative (c :: cs) = .ok lexeme) :
    lexeme.text = signText negative ++ numberText (c :: cs) ∧
      Token.Written lexeme.token lexeme.text := by
  have hwhole : IsDigits (spanDigits (c :: cs)).1 := isDigits_spanDigits hc
  have hfraction := isFraction_spanFraction (spanDigits (c :: cs)).2
  have hexponent := isExponent_spanExponent (spanFraction (spanDigits (c :: cs)).2).2
  unfold scanNumber at h
  dsimp only at h
  split at h
  · -- Without fraction and exponent, the digits are an integer if it is in range.
    rename_i hempty
    simp only [Bool.and_eq_true, List.isEmpty_iff] at hempty
    obtain ⟨hnone, hnone'⟩ := hempty
    split at h
    · rename_i value hvalue
      cases h
      refine ⟨rfl, ?_⟩
      dsimp only
      rw [hnone, hnone', List.append_nil, List.append_nil]
      exact .integer hwhole (integerValue?_eq_some_iff.mp hvalue)
    · cases h
  · rename_i hparts
    cases h
    refine ⟨rfl, .real hwhole hfraction hexponent ?_⟩
    by_contra hnone
    rw [not_or, not_not, not_not] at hnone
    exact hparts (by simp [hnone])

/-- A number that cannot be read is an integer that 64 bits cannot hold. -/
theorem tooLarge_of_scanNumber {negative : Bool} {c : Char} {cs : List Char} {fault : LexFault}
    (hc : c.isDigit = true) (h : scanNumber negative (c :: cs) = .error fault) :
    (∃ text, fault = .malformedNumber text) ∧ IsDigits (numberText (c :: cs)) ∧
      (wholeNumber negative (numberText (c :: cs)) < -2 ^ 63 ∨
        2 ^ 63 ≤ wholeNumber negative (numberText (c :: cs))) := by
  unfold scanNumber at h
  dsimp only at h
  split at h
  · rename_i hempty
    simp only [Bool.and_eq_true, List.isEmpty_iff] at hempty
    obtain ⟨hnone, hnone'⟩ := hempty
    -- The number is its digits alone, since one with another part is a real.
    have htext : numberText (c :: cs) = (spanDigits (c :: cs)).1 := by
      rw [numberText, hnone, hnone', List.append_nil, List.append_nil]
    split at h
    · cases h
    · rename_i hvalue
      cases h
      rw [htext]
      exact ⟨⟨_, rfl⟩, isDigits_spanDigits hc, integerValue?_eq_none_iff.mp hvalue⟩
  · cases h

/-- A text that writes a number is read part by part as it is written. -/
theorem scanNumber_of_parts (negative : Bool) {whole fraction exponent : List Char}
    (hwhole : IsDigits whole) (hfraction : IsFraction fraction) (hexponent : IsExponent exponent) :
    scanNumber negative (whole ++ (fraction ++ exponent)) =
      if fraction.isEmpty && exponent.isEmpty then
        match integerValue? negative whole with
        | some value =>
          .ok ⟨.integer value, signText negative ++ (whole ++ (fraction ++ exponent)), []⟩
        | none => .error (.malformedNumber
            (.ofList (signText negative ++ (whole ++ (fraction ++ exponent)))))
      else .ok ⟨.real (realValue negative whole fraction exponent),
        signText negative ++ (whole ++ (fraction ++ exponent)), []⟩ := by
  -- Each part ends where the next one starts, so that the scanner takes just these.
  have hstops : Stops Char.isDigit exponent ∧ exponent.head? ≠ some '.' := by
    by_cases hne : exponent = []
    · subst hne
      exact ⟨stops_nil, by simp⟩
    · simpa using hexponent.stops hne []
  have hstops' : Stops Char.isDigit (fraction ++ exponent) := by
    by_cases hne : fraction = []
    · subst hne
      exact hstops.1
    · exact hfraction.stops hne exponent
  unfold scanNumber
  rw [spanDigits_exact hwhole hstops']
  dsimp only
  rw [spanFraction_exact hfraction hstops.1 hstops.2]
  dsimp only
  rw [spanExponent_exact hexponent]
  rfl

end Lexeme

end SceneTracer
