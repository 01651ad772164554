import SceneTracer.Operator
import SceneTracer.Position

namespace SceneTracer

/-!
# Tokens

The words of the scene language: delimiters of function and array literals, literals, names,
binders and operators.
-/

/-- A token of the scene language. -/
inductive Token
  | beginFunction
  | endFunction
  | beginArray
  | endArray
  | integer (value : Int64)
  | real (value : Float)
  | boolean (value : Bool)
  | string (text : String)
  | identifier (name : String)
  | binder (name : String)
  | operator (op : Operator)

/-- A token and the place of its first character. -/
structure LocatedToken where
  position : Position
  token : Token

/-- The token of a whole word: a truth value, an operator or an identifier. -/
def Token.ofWord (word : String) : Token :=
  if word = "true" then .boolean true
  else if word = "false" then .boolean false
  else match Operator.ofName? word with
    | some op => .operator op
    | none => .identifier word

end SceneTracer
