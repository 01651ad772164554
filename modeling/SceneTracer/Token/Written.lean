import Mathlib.Data.Nat.Digits.Defs
import SceneTracer.Token
import SceneTracer.Token.Literal

namespace SceneTracer

/-!
# How tokens are written

The grammar of the scene language's words, said without reading any text. The alphabets are ranges of
characters, and the integers are those that a sign and digits write in positional notation.

* `IsBlank`, `IsLetter`, `IsDigit`, `IsWordPart` — the classes of characters.
* `IsWord`, `IsDigits`, … — the classes of texts that tokens are written with.
* `wholeNumber` — the number that a sign and digits write.
* `Token.Written` — a token and a text that writes it.
* `Matches` — the texts that have the form of a token.
* `IsSeparator` — the texts that may stand between tokens.
-/

/-! ### Classes of characters -/

/-- A space, or one of the five control characters from the tab to the carriage return. -/
def IsBlank (c : Char) : Prop := c = ' ' ∨ '\t' ≤ c ∧ c ≤ '\r'

/-- A letter of the basic Latin alphabet. -/
def IsLetter (c : Char) : Prop := ('A' ≤ c ∧ c ≤ 'Z') ∨ ('a' ≤ c ∧ c ≤ 'z')

/-- A decimal digit. -/
def IsDigit (c : Char) : Prop := '0' ≤ c ∧ c ≤ '9'

/-- What a word can go on with: a letter, a digit, an underscore or a hyphen. -/
def IsWordPart (c : Char) : Prop := IsLetter c ∨ IsDigit c ∨ c = '_' ∨ c = '-'

instance (c : Char) : Decidable (IsBlank c) :=
  inferInstanceAs (Decidable (c = ' ' ∨ '\t' ≤ c ∧ c ≤ '\r'))

instance (c : Char) : Decidable (IsDigit c) := inferInstanceAs (Decidable ('0' ≤ c ∧ c ≤ '9'))

/-! ### Classes of texts -/

/-- A letter, and then letters, digits, underscores and hyphens. -/
def IsWord (text : List Char) : Prop :=
  ∃ c cs, text = c :: cs ∧ IsLetter c ∧ ∀ d ∈ cs, IsWordPart d

/-- At least one digit, and nothing else. -/
def IsDigits (text : List Char) : Prop := text ≠ [] ∧ ∀ d ∈ text, IsDigit d

instance (text : List Char) : Decidable (IsDigits text) :=
  @instDecidableAnd (text ≠ []) (∀ d ∈ text, IsDigit d) _ (List.decidableBAll IsDigit text)

/-- The minus sign of a negative number, nothing for others. -/
def signText (negative : Bool) : List Char := if negative then ['-'] else []

/-- Nothing, or a point and digits. -/
def IsFraction (text : List Char) : Prop := text = [] ∨ ∃ digits, text = '.' :: digits ∧ IsDigits digits

/-- Nothing, or an `e` or `E`, a minus sign or none, and digits. -/
def IsExponent (text : List Char) : Prop :=
  text = [] ∨ ∃ mark negative digits, text = mark :: (signText negative ++ digits) ∧
    (mark = 'e' ∨ mark = 'E') ∧ IsDigits digits

/-- Characters that may stand between quotes. -/
def IsQuotable (text : List Char) : Prop := ∀ c ∈ text, c ≠ '"' ∧ c ≠ '\n'

/-! ### Integers -/

/-- The number that digits write: the last of them counts ones, the one in front of it tens, and so
on. -/
def positionalValue (digits : List Char) : ℕ :=
  Nat.ofDigits 10 (digits.reverse.map fun d => d.toNat - '0'.toNat)

/-- The whole number that a sign and digits write. -/
def wholeNumber (negative : Bool) (digits : List Char) : ℤ :=
  if negative then -positionalValue digits else positionalValue digits

/-! ### Tokens -/

/-- The token is written by the text. Numbers may be written in several ways, all else in one. -/
inductive Token.Written : Token → List Char → Prop
  | beginFunction : Written .beginFunction ['\x7b']
  | endFunction : Written .endFunction ['\x7d']
  | beginArray : Written .beginArray ['[']
  | endArray : Written .endArray [']']
  | integer {negative : Bool} {digits : List Char} {value : Int64} (hdigits : IsDigits digits)
      (hvalue : value.toInt = wholeNumber negative digits) :
      Written (.integer value) (signText negative ++ digits)
  | real {negative : Bool} {whole fraction exponent : List Char} (hwhole : IsDigits whole)
      (hfraction : IsFraction fraction) (hexponent : IsExponent exponent)
      (hpart : fraction ≠ [] ∨ exponent ≠ []) :
      Written (.real (realValue negative whole fraction exponent))
        (signText negative ++ (whole ++ (fraction ++ exponent)))
  | true : Written (.boolean Bool.true) ['t', 'r', 'u', 'e']
  | false : Written (.boolean Bool.false) ['f', 'a', 'l', 's', 'e']
  | string {text : List Char} (htext : IsQuotable text) :
      Written (.string (.ofList text)) ('"' :: (text ++ ['"']))
  | identifier {name : List Char} (hname : IsWord name)
      (hoperator : Operator.ofName? (.ofList name) = none)
      (htrue : String.ofList name ≠ "true") (hfalse : String.ofList name ≠ "false") :
      Written (.identifier (.ofList name)) name
  | binder {name : List Char} (hname : IsWord name)
      (hoperator : Operator.ofName? (.ofList name) = none) :
      Written (.binder (.ofList name)) ('/' :: name)
  | operator (op : Operator) : Written (.operator op) op.name.toList

/-- The text has the form of a token: it writes one, binds the name of an operator, or is an integer
of any size. -/
def Matches (text : List Char) : Prop :=
  (∃ token, Token.Written token text) ∨
  (∃ name, text = '/' :: name ∧ IsWord name) ∨
  ∃ negative digits, text = signText negative ++ digits ∧ IsDigits digits

/-- The longest text at the front of `cs` that has the form of a token. -/
def IsLongestMatch (text cs : List Char) : Prop :=
  text <+: cs ∧ Matches text ∧
    ∀ longer, longer <+: cs → Matches longer → longer.length ≤ text.length

/-! ### What stands between tokens -/

/-- Blanks, and comments up to the end of their line. -/
inductive IsTrivia : List Char → Prop
  | nil : IsTrivia []
  | blank {c : Char} {cs : List Char} (hc : IsBlank c) (hcs : IsTrivia cs) :
      IsTrivia (c :: cs)
  | comment {text cs : List Char} (htext : ∀ c ∈ text, c ≠ '\n') (hcs : IsTrivia cs) :
      IsTrivia ('%' :: (text ++ '\n' :: cs))

/-- Blanks and comments, at least one of them. -/
def IsSeparator (text : List Char) : Prop := text ≠ [] ∧ IsTrivia text

end SceneTracer
