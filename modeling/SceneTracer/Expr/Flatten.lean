import SceneTracer.Expr.Parser

namespace SceneTracer

/-!
# From expressions back to tokens

* `Expr.flatten`, `Expr.flattenList` — the tokens that an expression or a program is written with.
* `Token.isCloser` — the two closing delimiters.
* `bracketsAfter?` — the regions that a list of tokens leaves open, or none if a closing delimiter
  in it matches no open region.
-/

/-- The opening delimiter of a region. -/
def Bracket.opener : Bracket → Token
  | .function => .beginFunction
  | .array => .beginArray

/-- The closing delimiter of a region. -/
def Bracket.closer : Bracket → Token
  | .function => .endFunction
  | .array => .endArray

/-- Whether a token closes a region. -/
def Token.isCloser : Token → Bool
  | .endFunction | .endArray => true
  | _ => false

namespace Expr

mutual

/-- The tokens that an expression is written with. -/
def flatten : Expr → List Token
  | .integer value => [.integer value]
  | .real value => [.real value]
  | .boolean value => [.boolean value]
  | .string text => [.string text]
  | .identifier name => [.identifier name]
  | .binder name => [.binder name]
  | .function body => .beginFunction :: (flattenList body ++ [.endFunction])
  | .array items => .beginArray :: (flattenList items ++ [.endArray])
  | .operator op => [.operator op]

/-- The tokens that a list of expressions is written with. -/
def flattenList : List Expr → List Token
  | [] => []
  | e :: es => e.flatten ++ flattenList es

end

@[simp] theorem flattenList_append (es fs : List Expr) :
    flattenList (es ++ fs) = flattenList es ++ flattenList fs := by
  induction es with
  | nil => rfl
  | cons e es ih => simp [flattenList, ih]

end Expr

/-- The kinds of the regions that are open after `tokens`, innermost first, when those in `inside`
are open before them; none if a closing delimiter matches no open region. -/
def bracketsAfter? (inside : List Bracket) : List Token → Option (List Bracket)
  | [] => some inside
  | t :: ts =>
    match t.role with
    | .leaf _ => bracketsAfter? inside ts
    | .opens kind => bracketsAfter? (kind :: inside) ts
    | .closes kind =>
      match inside with
      | inner :: outer => if inner = kind then bracketsAfter? outer ts else none
      | [] => none

end SceneTracer
