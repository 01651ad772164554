import SceneTracer.Scene

namespace SceneTracer

/-!
# Which places of a line a scene holds

* `Hit.insideAt` — whether a list of crossings leads inside at some parameter.
* `Scene.holdsAt` — membership in a scene, from membership in its primitives.
* `Hit.Alternates` — entries and exits take turns.
-/

variable {α σ : Type} [Scalar α]

/-- Whether the last of the crossings in front of the parameter `t` leads inside. -/
def Hit.insideAt (hits : List (Hit α σ)) (t : α) : Bool :=
  ((hits.filter fun h => decide (h.t < t)).getLast?).any fun h => h.crossing = .entry

/-- Entries and exits take turns. The first is an entry if `outside`, and the last leads outside. -/
def Hit.Alternates : Bool → List (Hit α σ) → Prop
  | outside, [] => outside = true
  | outside, h :: hits => h.crossing = .ofInside outside ∧ Alternates (!outside) hits

/-- Whether the scene holds the place at parameter `t` of a line: the primitives that hold it are
joined as the scene says. -/
def Scene.holdsAt (origin direction : Vec3 α) (t : α) : Scene α σ → Bool
  | .primitive p => Hit.insideAt (p.hits origin direction) t
  | .join how a b => how.holds (a.holdsAt origin direction t) (b.holdsAt origin direction t)

end SceneTracer
