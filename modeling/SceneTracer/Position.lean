namespace SceneTracer

/-!
# Places in a source text

A place is a line and a column, both counted from one. Columns count the bytes of a text's UTF-8
form, and a line feed alone ends a line.

* `Position.advance` — the place after one more character.
* `Position.after` — the place after a whole text.
-/

/-- A line and a byte column, both counted from one. -/
structure Position where
  line : Nat
  column : Nat
  deriving DecidableEq, Repr, Inhabited

namespace Position

/-- The place of the first character of a text. -/
def start : Position := ⟨1, 1⟩

/-- The place that follows the character `c` when `c` itself stands at `p`. -/
def advance (p : Position) (c : Char) : Position :=
  if c = '\n' then ⟨p.line + 1, 1⟩ else ⟨p.line, p.column + c.utf8Size⟩

/-- The place that follows the text `cs` when its first character stands at `p`. -/
def after (p : Position) (cs : List Char) : Position := cs.foldl advance p

@[simp] theorem after_nil (p : Position) : p.after [] = p := rfl

@[simp] theorem after_cons (p : Position) (c : Char) (cs : List Char) :
    p.after (c :: cs) = (p.advance c).after cs := rfl

/-- A text in two parts moves on by the first and then by the second. -/
@[simp] theorem after_append (p : Position) (cs ds : List Char) :
    p.after (cs ++ ds) = (p.after cs).after ds := List.foldl_append

end Position

end SceneTracer
