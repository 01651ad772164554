import SceneTracer.Token.Lexer
import SceneTracer.Token.Written

namespace SceneTracer

/-!
# The alphabets of the grammar

The grammar has ranges of characters for its alphabets and positional notation for its integers. The
reader asks questions of its own about both. Here they are shown to mean the same.

* `isBlank_iff`, `isAlpha_iff`, `isDigit_iff`, `isWordChar_iff` — the classes of characters.
* `integerValue?_eq_some_iff`, `integerValue?_eq_none_iff` — the integers that 64 bits can hold, and
  those that they cannot.
-/

/-! ### Characters -/

section

variable {c : Char}

/-- The order of characters is the order of their numbers. -/
theorem le_iff_toNat {d : Char} : c ≤ d ↔ c.toNat ≤ d.toNat := UInt32.le_iff_toNat_le

/-- The blanks that the reader skips are those of the grammar. -/
theorem isBlank_iff : isBlank c = true ↔ IsBlank c := by
  -- All six are compared by their numbers, of which five follow one another.
  have htab : ('\t').toNat = 9 := rfl
  have hline : ('\n').toNat = 10 := rfl
  have hvertical : ('\x0b').toNat = 11 := rfl
  have hform : ('\x0c').toNat = 12 := rfl
  have hreturn : ('\r').toNat = 13 := rfl
  simp only [isBlank, IsBlank, Bool.or_eq_true, decide_eq_true_eq, ← Char.toNat_inj, le_iff_toNat,
    htab, hline, hvertical, hform, hreturn]
  omega

/-- The letters of the library are those of the grammar. -/
theorem isAlpha_iff : c.isAlpha = true ↔ IsLetter c := by
  have hupper : c.isUpper = true ↔ 'A' ≤ c ∧ c ≤ 'Z' := decide_eq_true_iff
  have hlower : c.isLower = true ↔ 'a' ≤ c ∧ c ≤ 'z' :=
    Bool.and_eq_true_iff.trans (and_congr decide_eq_true_iff decide_eq_true_iff)
  exact Bool.or_eq_true_iff.trans (or_congr hupper hlower)

/-- The digits of the library are those of the grammar. -/
theorem isDigit_iff : c.isDigit = true ↔ IsDigit c := by
  simp [Char.isDigit, IsDigit, Char.le_def]

/-- The characters that the reader goes on with in a word are those of the grammar. -/
theorem isWordChar_iff : isWordChar c = true ↔ IsWordPart c := by
  simp only [isWordChar, Char.isAlphanum, Bool.or_eq_true, decide_eq_true_eq, isAlpha_iff,
    isDigit_iff, IsWordPart, or_assoc]

end

/-! ### Integers -/

section

variable {negative : Bool} {digits : List Char}

/-- Reading digits from the left comes to the number that they write by their positions. -/
theorem natOfDigits_eq_positionalValue (digits : List Char) :
    Decimal.natOfDigits digits = positionalValue digits := by
  rw [positionalValue, Nat.ofDigits_eq_foldr, List.foldr_map, List.foldr_reverse,
    Decimal.natOfDigits]
  congr 1
  funext n d
  exact Nat.add_comm _ _

/-- The number of a literal is cut off at the ends of the 64-bit integers. -/
theorem integerValue?_eq : integerValue? negative digits =
    if -2 ^ 63 ≤ wholeNumber negative digits ∧ wholeNumber negative digits < 2 ^ 63 then
      some (.ofInt (wholeNumber negative digits)) else none := by
  have hmax : wholeNumber negative digits ≤ Int64.maxValue.toInt ↔
      wholeNumber negative digits < 2 ^ 63 := Int.le_sub_one_iff (n := 2 ^ 63)
  unfold integerValue?
  dsimp only
  rw [natOfDigits_eq_positionalValue]
  exact if_congr (and_congr_right' hmax) rfl rfl

/-- A literal stands for the 64-bit integer that is the number which its sign and digits write. -/
theorem integerValue?_eq_some_iff {value : Int64} :
    integerValue? negative digits = some value ↔ value.toInt = wholeNumber negative digits := by
  rw [integerValue?_eq, Option.ite_none_right_eq_some, Option.some.injEq]
  constructor
  · rintro ⟨⟨hlow, hhigh⟩, rfl⟩
    exact Int64.toInt_ofInt_of_le hlow hhigh
  · intro h
    rw [← h]
    exact ⟨⟨value.le_toInt, value.toInt_lt⟩, value.ofInt_toInt⟩

/-- A literal stands for nothing if its number is not one of 64 bits. -/
theorem integerValue?_eq_none_iff :
    integerValue? negative digits = none ↔
      wholeNumber negative digits < -2 ^ 63 ∨ 2 ^ 63 ≤ wholeNumber negative digits := by
  rw [integerValue?_eq, ite_eq_right_iff]
  simp only [reduceCtorEq, imp_false, not_and_or, not_le, not_lt]

end

end SceneTracer
