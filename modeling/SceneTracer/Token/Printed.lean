import SceneTracer.Token.Written

namespace SceneTracer

/-!
# How tokens are printed

Every token is printed in one form, but for reals, which any of their literals may stand for. The
tokens of a text are printed one after another, with blanks or ended comments between them.

* `Token.Printable` — the tokens that a text can have.
* `Token.Prints` — a token and its printed form.
* `IsPrinting` — a list of tokens and a text that prints all of them.
-/

namespace Token

/-- Some text has the token: a name is a word that stands for nothing else, and what stands between
quotes has no quote in it and stays on its line. -/
def Printable : Token → Prop
  | .identifier name =>
    IsWord name.toList ∧ Operator.ofName? name = none ∧ name ≠ "true" ∧ name ≠ "false"
  | .binder name => IsWord name.toList ∧ Operator.ofName? name = none
  | .string text => IsQuotable text.toList
  | _ => True

/-- The text is the printed form of the token: integers in decimal, reals as any literal of theirs,
operators by name, binders behind a slash, strings in quotes. -/
def Prints : Token → List Char → Prop
  | .beginFunction, text => text = ['\x7b']
  | .endFunction, text => text = ['\x7d']
  | .beginArray, text => text = ['[']
  | .endArray, text => text = [']']
  | .integer value, text => text = (toString value).toList
  | .real value, text =>
    ∃ negative whole fraction exponent,
      text = signText negative ++ (whole ++ (fraction ++ exponent)) ∧
      IsDigits whole ∧ IsFraction fraction ∧ IsExponent exponent ∧
      (fraction ≠ [] ∨ exponent ≠ []) ∧ value = realValue negative whole fraction exponent
  | .boolean value, text => text = (toString value).toList
  | .string inside, text => text = '"' :: (inside.toList ++ ['"'])
  | .identifier name, text => text = name.toList
  | .binder name, text => text = '/' :: name.toList
  | .operator op, text => text = op.name.toList

end Token

/-- The text prints the tokens in order, with blanks and comments between any two of them. -/
inductive IsPrinting : List Token → List Char → Prop
  | nil : IsPrinting [] []
  | last {token : Token} {text : List Char} (htoken : token.Prints text) : IsPrinting [token] text
  | cons {token next : Token} {tokens : List Token} {text separator rest : List Char}
      (htoken : token.Prints text) (hseparator : IsSeparator separator)
      (hrest : IsPrinting (next :: tokens) rest) :
      IsPrinting (token :: next :: tokens) (text ++ (separator ++ rest))

end SceneTracer
