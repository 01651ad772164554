import SceneTracer.Hit

namespace SceneTracer

/-!
# Scenes

A scene is a tree of primitives joined by union, intersection and difference.

* `Hit.merge` — the crossings of two joined solids, from those of each.
* `Scene.hits` — all crossings of a line with a scene, in order.
* `Scene.changeInPlace`, `Scene.change?` — a change of place, which reaches every primitive.
* `Scene.primitives`, `Scene.numbered` — the primitives from left to right.
-/

/-- A way of joining two solids. -/
inductive Join
  | union
  | intersection
  | difference
  deriving DecidableEq, Repr

/-- Whether a place is in the joined solid, given whether it is in the first and in the second. -/
def Join.holds : Join → Bool → Bool → Bool
  | .union, a, b => a || b
  | .intersection, a, b => a && b
  | .difference, a, b => a && !b

/-- A solid: a primitive, or two solids joined. -/
inductive Scene (α σ : Type)
  | primitive (p : Primitive α σ)
  | join (how : Join) (a b : Scene α σ)

variable {α σ : Type}

namespace Hit

variable [Scalar α]

/-- Whether the crossing `a` of the first solid is taken before the crossing `b` of the second. Where
they meet, entries go first, so touching solids leave no gap. -/
def precedes (a b : Hit α σ) : Bool :=
  if a.t == b.t then a.crossing = .entry || b.crossing = .exit else decide (a.t < b.t)

/-- The same crossing seen as one into (`inside`) or out of a joined solid. The normal turns around
when that is not how the primitive was crossed. -/
def relabel (h : Hit α σ) (inside : Bool) : Hit α σ :=
  if h.crossing = .ofInside inside then h
  else { h with normal := -h.normal, crossing := .ofInside inside }

/-- Keeps the crossing `h` in front of `rest` if membership changes from `before` to `after` at it. -/
def keep (h : Hit α σ) (before after : Bool) (rest : List (Hit α σ)) : List (Hit α σ) :=
  if before = after then rest else h.relabel after :: rest

/-- Walks along the crossings `as` and `bs` of two solids, of which the first holds the place reached
so far if `inA` and the second if `inB`, and keeps those at which membership in the solid joined by
`rule` changes. -/
def mergeFrom (rule : Bool → Bool → Bool) (inA inB : Bool) :
    List (Hit α σ) → List (Hit α σ) → List (Hit α σ)
  | [], [] => []
  | a :: as, [] =>
    let entering := decide (a.crossing = .entry)
    a.keep (rule inA inB) (rule entering inB) (mergeFrom rule entering inB as [])
  | [], b :: bs =>
    let entering := decide (b.crossing = .entry)
    b.keep (rule inA inB) (rule inA entering) (mergeFrom rule inA entering [] bs)
  | a :: as, b :: bs =>
    if a.precedes b then
      let entering := decide (a.crossing = .entry)
      a.keep (rule inA inB) (rule entering inB) (mergeFrom rule entering inB as (b :: bs))
    else
      let entering := decide (b.crossing = .entry)
      b.keep (rule inA inB) (rule inA entering) (mergeFrom rule inA entering (a :: as) bs)
termination_by as bs => as.length + bs.length

/-- The crossings of two solids joined by `rule`. Both lists cover the whole line, so the walk starts
outside both. -/
def merge (rule : Bool → Bool → Bool) (as bs : List (Hit α σ)) : List (Hit α σ) :=
  mergeFrom rule false false as bs

end Hit

namespace Scene

/-- The number of primitives. -/
def primitiveCount : Scene α σ → Nat
  | .primitive _ => 1
  | .join _ a b => a.primitiveCount + b.primitiveCount

/-- The primitives from left to right. -/
def primitives : Scene α σ → List (Primitive α σ)
  | .primitive p => [p]
  | .join _ a b => a.primitives ++ b.primitives

/-- The primitives are listed once each. -/
@[simp] theorem length_primitives (s : Scene α σ) : s.primitives.length = s.primitiveCount := by
  induction s with
  | primitive p => rfl
  | join how a b iha ihb => simp [primitives, primitiveCount, iha, ihb]

/-- The same scene with each surface paired with the number of its primitive, counted from `first`
and from left to right. -/
def numberedFrom (first : Nat) : Scene α σ → Scene α (Nat × σ)
  | .primitive p => .primitive ⟨p.shape, (first, p.surface), p.transform⟩
  | .join how a b => .join how (a.numberedFrom first) (b.numberedFrom (first + a.primitiveCount))

/-- The same scene with each surface paired with the number of its primitive. -/
def numbered (s : Scene α σ) : Scene α (Nat × σ) := s.numberedFrom 0

/-- Puts the transform of each primitive, from left to right, through `f`, which carries a state
along. -/
def eachTransform {τ : Type} (f : Transform α → StateM τ (Transform α)) :
    Scene α σ → StateM τ (Scene α σ)
  | .primitive p => do return .primitive { p with transform := ← f p.transform }
  | .join how a b => do return .join how (← a.eachTransform f) (← b.eachTransform f)

/-- The walk comes to a primitive and changes its transform. -/
theorem run_eachTransform_primitive {τ : Type} (f : Transform α → StateM τ (Transform α))
    (p : Primitive α σ) (state : τ) :
    ((primitive p).eachTransform f).run state =
      (.primitive { p with transform := ((f p.transform).run state).1 },
        ((f p.transform).run state).2) :=
  rfl

/-- The walk comes to the first operand, and with what it leaves to the second. -/
theorem run_eachTransform_join {τ : Type} (f : Transform α → StateM τ (Transform α)) (how : Join)
    (a b : Scene α σ) (state : τ) :
    ((join how a b).eachTransform f).run state =
      (.join how ((a.eachTransform f).run state).1
          ((b.eachTransform f).run ((a.eachTransform f).run state).2).1,
        ((b.eachTransform f).run ((a.eachTransform f).run state).2).2) :=
  rfl

/-- The same scene with each transform changed, if all of them can be. -/
def mapTransform? (f : Transform α → Option (Transform α)) : Scene α σ → Option (Scene α σ)
  | .primitive p => (f p.transform).map fun t => .primitive { p with transform := t }
  | .join how a b => do return .join how (← a.mapTransform? f) (← b.mapTransform? f)

variable [Scalar α]

/-- A primitive in its own object space. -/
def atOrigin (shape : Shape) (surface : σ) : Scene α σ := .primitive (.atOrigin shape surface)

/-- Adds a change to the transform of each primitive: what becomes of the scene, and whether all the
changes have a result. -/
def changeInPlace (s : Scene α σ) (c : Change α) : Scene α σ × Bool :=
  (s.eachTransform (Transform.changeUnlessFailed c)).run true

/-- The scene with a change added to the transform of each primitive, if all of them have a result. -/
def change? (s : Scene α σ) (c : Change α) : Option (Scene α σ) :=
  match s.changeInPlace c with
  | (changed, true) => some changed
  | (_, false) => none

/-- After a change that has failed, none is made. -/
theorem run_eachTransform_false (s : Scene α σ) (c : Change α) :
    (s.eachTransform (Transform.changeUnlessFailed c)).run false = (s, false) := by
  induction s with
  | primitive p => rfl
  | join how a b iha ihb => rw [run_eachTransform_join, iha, ihb]

/-- Changing the transforms in turn has a result just if each of them has one by itself. -/
theorem change?_eq_mapTransform? (s : Scene α σ) (c : Change α) :
    s.change? c = s.mapTransform? fun t => t.change? c := by
  unfold change? changeInPlace
  induction s with
  | primitive p =>
    rw [run_eachTransform_primitive, mapTransform?, Transform.run_changeUnlessFailed_true]
    cases p.transform.change? c <;> rfl
  | join how a b iha ihb =>
    rw [run_eachTransform_join, mapTransform?, ← iha, ← ihb]
    -- If the first operand has failed, so has the scene. Otherwise the second decides.
    match (a.eachTransform (Transform.changeUnlessFailed c)).run true with
    | (a', false) =>
      rw [run_eachTransform_false]
      rfl
    | (a', true) =>
      match (b.eachTransform (Transform.changeUnlessFailed c)).run true with
      | (b', false) => rfl
      | (b', true) => rfl

/-- All crossings of the line through `origin` along `direction` with the boundary of a scene. -/
def hits (origin direction : Vec3 α) : Scene α σ → List (Hit α σ)
  | .primitive p => p.hits origin direction
  | .join how a b => Hit.merge how.holds (a.hits origin direction) (b.hits origin direction)

/-- The first crossing at a parameter above `least`. -/
def firstHitAfter? (s : Scene α σ) (least : α) (origin direction : Vec3 α) : Option (Hit α σ) :=
  (s.hits origin direction).find? fun h => decide (least < h.t)

end Scene

end SceneTracer
