namespace SceneTracer

/-!
# Operators

The fifty built-in operators of the scene language. Each has a name that is a reserved word and
takes a fixed number of operands from the stack.

* `Operator.all` — every operator, in the order of the reference table.
* `Operator.name`, `Operator.arity` — its word and the number of its operands.
* `Operator.ofName?` — the operator a word stands for.
-/

/-- A built-in operator of the scene language. -/
inductive Operator
  | acos | addi | addf | apply | asin | clampf | cone | cos | cube | cylinder
  | difference | divi | divf | eqi | eqf | floor | frac | get | getx | gety
  | getz | branch | intersect | length | lessi | lessf | light | modi | muli | mulf
  | negi | negf | plane | point | pointlight | real | render | rotatex | rotatey | rotatez
  | scale | sin | sphere | spotlight | sqrt | subi | subf | translate | union | uscale
  deriving DecidableEq, Repr

namespace Operator

/-- Every operator, in the order of the reference table. -/
def all : List Operator :=
  [acos, addi, addf, apply, asin, clampf, cone, cos, cube, cylinder,
   difference, divi, divf, eqi, eqf, floor, frac, get, getx, gety,
   getz, branch, intersect, length, lessi, lessf, light, modi, muli, mulf,
   negi, negf, plane, point, pointlight, real, render, rotatex, rotatey, rotatez,
   scale, sin, sphere, spotlight, sqrt, subi, subf, translate, union, uscale]

/-- The reserved word of an operator. -/
def name : Operator → String
  | acos => "acos" | addi => "addi" | addf => "addf" | apply => "apply" | asin => "asin"
  | clampf => "clampf" | cone => "cone" | cos => "cos" | cube => "cube"
  | cylinder => "cylinder" | difference => "difference" | divi => "divi" | divf => "divf"
  | eqi => "eqi" | eqf => "eqf" | floor => "floor" | frac => "frac" | get => "get"
  | getx => "getx" | gety => "gety" | getz => "getz" | branch => "if"
  | intersect => "intersect" | length => "length" | lessi => "lessi" | lessf => "lessf"
  | light => "light" | modi => "modi" | muli => "muli" | mulf => "mulf" | negi => "negi"
  | negf => "negf" | plane => "plane" | point => "point" | pointlight => "pointlight"
  | real => "real" | render => "render" | rotatex => "rotatex" | rotatey => "rotatey"
  | rotatez => "rotatez" | scale => "scale" | sin => "sin" | sphere => "sphere"
  | spotlight => "spotlight" | sqrt => "sqrt" | subi => "subi" | subf => "subf"
  | translate => "translate" | union => "union" | uscale => "uscale"

/-- The number of operands an operator takes from the stack. -/
def arity : Operator → Nat
  | acos | apply | asin | clampf | cone | cos | cube | cylinder | floor | frac => 1
  | getx | gety | getz | length | negi | negf | plane | real | sin | sphere | sqrt => 1
  | addi | addf | difference | divi | divf | eqi | eqf | get | intersect | lessi => 2
  | lessf | light | modi | muli | mulf | pointlight | rotatex | rotatey | rotatez => 2
  | subi | subf | union | uscale => 2
  | branch | point => 3
  | scale | translate => 4
  | spotlight => 5
  | render => 8

/-- The operator that the word `word` stands for, if it is reserved. -/
def ofName? (word : String) : Option Operator := all.find? (·.name == word)

end Operator

end SceneTracer
