import SceneTracer.Decimal.Shortest
import SceneTracer.Expr.Parser
import SceneTracer.Fault
import SceneTracer.Token.Lexer

namespace SceneTracer

/-!
# Errors and their wording

An error of a program is a fault of its text, of its nesting or of its run.

* `Error` — all three.
* `Error.code`, `Error.category`, `Error.message` — the short code, the class that reports name, and
  the full text.
-/

/-- Why a program has no result. -/
inductive Error
  | lexical (e : LexError)
  | nesting (e : ParseError)
  | run (f : Fault)

/-- The classes of errors that reports tell apart. -/
inductive Category
  | wrongSyntax
  | runtime
  | subscript
  | unimplemented
  deriving DecidableEq, Repr

/-- The words for a class of errors. -/
def Category.name : Category → String
  | .wrongSyntax => "syntax error"
  | .runtime => "runtime error"
  | .subscript => "subscript error"
  | .unimplemented => "unimplemented feature"

/-! ### Words for the parts of a message -/

/-- A name between backquotes. -/
def quoted (name : String) : String := "`" ++ name ++ "`"

/-- The closing delimiter of a region, or the end of the text outside all regions. -/
def closerName : Option Bracket → String
  | some .function => quoted "\x7d"
  | some .array => quoted "]"
  | none => "end of input"

/-- The word for what asked for operands. -/
def Consumer.name : Consumer → String
  | .operator op => op.name
  | .binder => "bind"
  | .surface => "surface"

/-- The word for what was expected. -/
def Wanted.name : Wanted → String
  | .kind k => k.name
  | .number => "number"

/-- The word for an operand that counts something. -/
def Count.name : Count → String
  | .depth => "depth"
  | .width => "width"
  | .height => "height"

/-- The operator that has no result for its operands. -/
def DomainFault.consumer : DomainFault → Operator
  | .divisionByZero op => op
  | .quotientOverflow op => op
  | .negativeRoot _ => .sqrt
  | .zeroScale _ _ _ => .scale
  | .badCount _ _ => .render
  | .imageTooLarge _ _ => .render

/-! ### Messages -/

/-- The text of a fault in a token. -/
def LexFault.message : LexFault → String
  | .unexpectedCharacter lead =>
    "unexpected character " ++ quoted (String.singleton (Char.ofNat lead.toNat))
  | .nameExpected => "expected a name after " ++ quoted "/"
  | .reservedName op => quoted op.name ++ " is a reserved word and cannot be bound"
  | .unterminatedString => "unterminated string literal"
  | .malformedNumber text => "malformed number literal " ++ quoted text

/-- The text of a fault in the nesting. -/
def ParseFault.message : ParseFault → String
  | .emptyProgram => "empty program"
  | .unexpectedEnd inside => "unexpected end of input, expected " ++ closerName (some inside)
  | .unexpectedCloser found inside =>
    "unexpected " ++ closerName (some found) ++ ", expected " ++ closerName inside

/-- Why operands have no result, in words. -/
def DomainFault.message : DomainFault → String
  | .divisionByZero _ => "division by zero"
  | .quotientOverflow _ => "quotient overflows"
  | .negativeRoot operand => "negative operand " ++ Decimal.text operand
  | .zeroScale x y z =>
    "zero scale factor (" ++ Decimal.text x ++ ", " ++ Decimal.text y ++ ", " ++ Decimal.text z ++ ")"
  | .badCount which value => which.name ++ " must be non-negative, got " ++ toString value.toInt
  | .imageTooLarge width height =>
    "image size " ++ toString width ++ "x" ++ toString height ++ " is too large"

/-- The code of a fault in a token. -/
def LexFault.code : LexFault → String
  | .unexpectedCharacter _ | .nameExpected => "L001"
  | .reservedName _ => "L002"
  | .unterminatedString | .malformedNumber _ => "L003"

/-- The code of a fault in the nesting. -/
def ParseFault.code : ParseFault → String
  | .unexpectedEnd _ | .unexpectedCloser _ _ => "P001"
  | .emptyProgram => "P002"

/-- The code of a fault of a run. -/
def Fault.code : Fault → String
  | .unbound _ => "R001"
  | .wrongKind _ _ _ => "R002"
  | .outOfRange _ _ => "R003"
  | .underflow _ => "R004"
  | .noRenderer => "R005"
  | .domain _ => "R006"
  | .unwritable _ _ => "R007"

/-- The text of a fault of a run, without its code. -/
def Fault.message : Fault → String
  | .unbound name => "unbound identifier " ++ quoted name
  | .wrongKind consumer wanted found =>
    quoted consumer.name ++ " expects " ++ wanted.name ++ ", got " ++ found.name
  | .outOfRange index length =>
    "index " ++ toString index.toInt ++ " out of range for array of length " ++ toString length
  | .underflow consumer => "stack underflow in " ++ quoted consumer.name
  | .noRenderer => "unsupported: render: no render backend attached"
  | .domain fault => quoted fault.consumer.name ++ ": " ++ fault.message
  | .unwritable path reason =>
    "render failed: cannot write image " ++ path ++ ": " ++ reason.message

/-- The class of a fault of a run. -/
def Fault.category : Fault → Category
  | .outOfRange _ _ => .subscript
  | .noRenderer => .unimplemented
  | _ => .runtime

/-- A place, as messages name it. -/
def Position.text (p : Position) : String := toString p.line ++ ":" ++ toString p.column

namespace Error

/-- The short code of an error: a letter for its phase and a number. -/
def code : Error → String
  | .lexical e => e.fault.code
  | .nesting e => e.fault.code
  | .run f => f.code

/-- The class that reports name. -/
def category : Error → Category
  | .lexical _ | .nesting _ => .wrongSyntax
  | .run f => f.category

/-- The full text of an error: its code, its place if it has one, and what is wrong. -/
def message (e : Error) : String :=
  "[" ++ e.code ++ "] " ++
    match e with
    | .lexical e => e.position.text ++ ": " ++ e.fault.message
    | .nesting e => e.position.text ++ ": " ++ e.fault.message
    | .run f => f.message

end Error

end SceneTracer
