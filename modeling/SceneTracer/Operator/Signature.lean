import SceneTracer.Operator.Operation

namespace SceneTracer

/-!
# Signatures of operators

* `Operator.signature` — what an operator wants each of its operands to be.
* `Wanted.admits` — whether a value is what is wanted.
-/

/-- Whether a value of some sort is what is wanted. -/
def Wanted.admits : Wanted → Kind → Bool
  | .kind k, found => k = found
  | .number, found => found = .real || found = .integer

namespace Operator

/-- What an operator wants its operands to be, in the order in which they are pushed. The operators
that control the run want nothing of theirs until they look at them. -/
def signature : Operator → List Wanted
  | .addi | .subi | .muli | .divi | .modi | .eqi | .lessi => [.kind .integer, .kind .integer]
  | .negi | .real => [.kind .integer]
  | .addf | .subf | .mulf | .divf | .eqf | .lessf => [.kind .real, .kind .real]
  | .negf | .sqrt | .frac | .clampf | .sin | .cos | .asin | .acos | .floor => [.kind .real]
  | .point => [.kind .real, .kind .real, .kind .real]
  | .getx | .gety | .getz => [.kind .point]
  | .get => [.kind .array, .kind .integer]
  | .length => [.kind .array]
  | .sphere | .cube | .cylinder | .cone | .plane => [.kind .closure]
  | .union | .intersect | .difference => [.kind .object, .kind .object]
  | .translate | .scale => [.kind .object, .number, .number, .number]
  | .uscale | .rotatex | .rotatey | .rotatez => [.kind .object, .number]
  | .light | .pointlight => [.kind .point, .kind .point]
  | .spotlight => [.kind .point, .kind .point, .kind .point, .kind .real, .kind .real]
  | .apply | .branch | .render => []

end Operator

end SceneTracer
