import SceneTracer.Expr
import SceneTracer.Token

namespace SceneTracer

/-!
# From tokens to expressions

Braces enclose functions and square brackets enclose arrays; every other token is an expression
already. The tokens are read once, with the regions that are still open on a stack.

* `Expr.parseFrom` — the reading, from any set of open regions.
* `Expr.parse` — a whole program, which has at least one token.
-/

/-- The two kinds of region that delimiters enclose. -/
inductive Bracket
  | function
  | array
  deriving DecidableEq, Repr

/-- Why a list of tokens is no program. -/
inductive ParseFault
  | emptyProgram
  /-- The tokens end inside a region of this kind. -/
  | unexpectedEnd (inside : Bracket)
  /-- A closing delimiter of the kind `found` while the innermost open region is `inside`. -/
  | unexpectedCloser (found : Bracket) (inside : Option Bracket)
  deriving DecidableEq, Repr

/-- A fault and its place: that of the wrong delimiter, or of the last token. -/
structure ParseError where
  position : Position
  fault : ParseFault
  deriving DecidableEq, Repr

/-- A region that is still open: its kind, and the expressions in front of it in the region around
it, latest first. -/
structure OpenRegion where
  kind : Bracket
  before : List Expr

/-- The expression of a region with the given content. -/
def Bracket.enclose : Bracket → List Expr → Expr
  | .function, body => .function body
  | .array, items => .array items

/-- What a token is to the parser: an expression by itself or a delimiter. -/
inductive TokenRole
  | leaf (e : Expr)
  | opens (kind : Bracket)
  | closes (kind : Bracket)

/-- The role of a token. -/
def Token.role : Token → TokenRole
  | .beginFunction => .opens .function
  | .beginArray => .opens .array
  | .endFunction => .closes .function
  | .endArray => .closes .array
  | .integer value => .leaf (.integer value)
  | .real value => .leaf (.real value)
  | .boolean value => .leaf (.boolean value)
  | .string text => .leaf (.string text)
  | .identifier name => .leaf (.identifier name)
  | .binder name => .leaf (.binder name)
  | .operator op => .leaf (.operator op)

namespace Expr

/-- Reads the rest of a program. `regions` are the open regions, innermost first; `body` holds the
expressions read so far in the innermost one, latest first; `last` is the place of the token before
the rest. -/
def parseFrom (regions : List OpenRegion) (body : List Expr) (last : Position) :
    List LocatedToken → Except ParseError (List Expr)
  | [] =>
    match regions with
    | [] => .ok body.reverse
    | region :: _ => .error ⟨last, .unexpectedEnd region.kind⟩
  | t :: ts =>
    match t.token.role with
    | .leaf e => parseFrom regions (e :: body) t.position ts
    | .opens kind => parseFrom (⟨kind, body⟩ :: regions) [] t.position ts
    | .closes kind =>
      match regions with
      | region :: outer =>
        if region.kind = kind then
          parseFrom outer (kind.enclose body.reverse :: region.before) t.position ts
        else .error ⟨t.position, .unexpectedCloser kind (some region.kind)⟩
      | [] => .error ⟨t.position, .unexpectedCloser kind none⟩

/-- The expressions of a whole program. -/
def parse : List LocatedToken → Except ParseError (List Expr)
  | [] => .error ⟨.start, .emptyProgram⟩
  | t :: ts => parseFrom [] [] t.position (t :: ts)

end Expr

end SceneTracer
