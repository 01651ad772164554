import SceneTracer.Proofs.Operator.Integers

namespace SceneTracer

/-!
# Solids in other places

A change of place goes from one primitive of a scene to the next, and changes their transforms
where they stand. Whether a transform can be changed depends on the change alone: only one that
stretches by zero has no result, and that for all transforms. So such a walk either changes every
transform, or it fails at the first one and leaves all as they were.

* `Change.HasZeroFactor` — the changes that have no result.
* `Scene.ChangedBy` — one scene is another one with each transform changed once.
* `Scene.changeInPlace_of_hasZeroFactor`, `Scene.exists_changedBy` — the two ways in which a walk
  goes.
* `Operator.Asks` — the operators that change the place of a solid.
* `placing_is_all_or_nothing` — walks and operators.
-/

section

variable {α σ : Type} [Scalar α]

/-! ### Transforms -/

/-- The change stretches by zero along some axis. -/
def Change.HasZeroFactor : Change α → Prop
  | .scale x y z => (x == 0.0) = true ∨ (y == 0.0) = true ∨ (z == 0.0) = true
  | .translate _ _ _ | .rotateX _ | .rotateY _ | .rotateZ _ => False

/-- Only a stretch has factors that can be zero. -/
theorem Change.exists_scale_of_hasZeroFactor {c : Change α} (h : c.HasZeroFactor) :
    ∃ x y z, c = .scale x y z := by
  cases c with
  | scale x y z => exact ⟨x, y, z, rfl⟩
  | _ => exact h.elim

/-- Whether a change has a result does not depend on the transform that is changed. -/
theorem Transform.change?_eq_none_iff_hasZeroFactor (t : Transform α) {c : Change α} :
    t.change? c = none ↔ c.HasZeroFactor := by
  cases c with
  | scale x y z =>
    have hzero : (x == 0.0 || y == 0.0 || z == 0.0) = true
        ↔ (Change.scale x y z).HasZeroFactor := by
      simp only [Change.HasZeroFactor, Bool.or_eq_true, or_assoc]
    rw [← hzero, change?]
    split <;> simp_all
  | _ => simp [change?, Change.HasZeroFactor]

/-! ### Scenes -/

namespace Scene

/-- The second scene is the first one, in which the change has been made once to each transform. -/
inductive ChangedBy (c : Change α) : Scene α σ → Scene α σ → Prop
  | primitive {p : Primitive α σ} {t : Transform α} (h : p.transform.change? c = some t) :
    ChangedBy c (.primitive p) (.primitive { p with transform := t })
  | join {how : Join} {a b a' b' : Scene α σ} (ha : ChangedBy c a a') (hb : ChangedBy c b b') :
    ChangedBy c (.join how a b) (.join how a' b')

/-- A change moves primitives and neither adds nor removes any. -/
theorem ChangedBy.primitiveCount_eq {c : Change α} {s moved : Scene α σ} (h : s.ChangedBy c moved) :
    moved.primitiveCount = s.primitiveCount := by
  induction h with
  | primitive h => rfl
  | join ha hb iha ihb => rw [primitiveCount, primitiveCount, iha, ihb]

/-- From left to right the primitives have the same shapes and surfaces, and changed transforms. -/
theorem ChangedBy.forall₂_primitives {c : Change α} {s moved : Scene α σ}
    (h : s.ChangedBy c moved) :
    List.Forall₂ (fun p q => q.shape = p.shape ∧ q.surface = p.surface ∧
      p.transform.change? c = some q.transform) s.primitives moved.primitives := by
  induction h with
  | primitive h => exact .cons ⟨rfl, rfl, h⟩ .nil
  | join ha hb iha ihb => exact List.rel_append iha ihb

/-- **A walk that stretches by zero changes nothing.** -/
theorem changeInPlace_of_hasZeroFactor {c : Change α} (hc : c.HasZeroFactor) (s : Scene α σ) :
    s.changeInPlace c = (s, false) := by
  unfold changeInPlace
  induction s with
  | primitive p =>
    have hnone := p.transform.change?_eq_none_iff_hasZeroFactor.mpr hc
    rw [run_eachTransform_primitive, Transform.run_changeUnlessFailed_true, hnone]
    rfl
  | join how a b iha ihb =>
    -- It has failed already when it comes to the second operand.
    rw [run_eachTransform_join, iha, run_eachTransform_false]

/-- **Any other walk changes every transform.** -/
theorem exists_changedBy {c : Change α} (hc : ¬ c.HasZeroFactor) (s : Scene α σ) :
    ∃ moved, s.changeInPlace c = (moved, true) ∧ s.ChangedBy c moved := by
  unfold changeInPlace
  induction s with
  -- The change has an inverse, so the transform of the primitive can be changed.
  | primitive p =>
    have hne := mt p.transform.change?_eq_none_iff_hasZeroFactor.mp hc
    obtain ⟨t, ht⟩ := Option.ne_none_iff_exists'.mp hne
    refine ⟨_, ?_, .primitive ht⟩
    rw [run_eachTransform_primitive, Transform.run_changeUnlessFailed_true, ht]
    rfl
  | join how a b iha ihb =>
    obtain ⟨a', ha, hachanged⟩ := iha
    obtain ⟨b', hb, hbchanged⟩ := ihb
    refine ⟨.join how a' b', ?_, .join hachanged hbchanged⟩
    -- The walk comes to the second operand with no failure so far.
    rw [run_eachTransform_join, ha, hb]

end Scene

end

/-! ### Operators -/

/-- The value is an integer or a real, which stands for the number `x`. -/
inductive Value.IsNumber : Value → Float → Prop
  | real (x : Float) : IsNumber (.real x) x
  | integer (n : Int64) : IsNumber (.integer n) n.toFloat

/-- The operator takes a solid and these numbers, and asks for this change of the solid. -/
inductive Operator.Asks : Operator → List Float → Change Float → Prop
  | translate (x y z : Float) : Asks .translate [x, y, z] (.translate x y z)
  | scale (x y z : Float) : Asks .scale [x, y, z] (.scale x y z)
  | uscale (s : Float) : Asks .uscale [s] (.scale s s s)
  | rotatex (degrees : Float) : Asks .rotatex [degrees] (.rotateX degrees)
  | rotatey (degrees : Float) : Asks .rotatey [degrees] (.rotateY degrees)
  | rotatez (degrees : Float) : Asks .rotatez [degrees] (.rotateZ degrees)

namespace Operation

/-- Where a number is wanted, an integer is taken as the real that it is converted to. -/
theorem run_number {v : Value} {x : Float} (hv : v.IsNumber x) (op : Operator)
    (next : Float → Operation) (rest : List Value) :
    (Operation.number next).run op (v :: rest) = (next x).run op rest := by
  cases hv <;> rfl

/-- What is left to do when an operator has taken a solid and all numbers that a change needs. -/
def placed (s : Scene Float Closure) : Change Float → Operation
  | .scale x y z => stretched s x y z
  | c => moved s c

/-- A change that succeeds leaves the scene that it has changed. -/
theorem run_placed (op : Operator) {s moved : Scene Float Closure} {c : Change Float}
    (h : s.changeInPlace c = (moved, true)) : (placed s c).run op [] = .ok (.object moved) := by
  have hchange : s.change? c = some moved := by rw [Scene.change?, h]
  cases c with
  | scale x y z =>
    rw [placed, stretched, hchange]
    rfl
  | translate | rotateX | rotateY | rotateZ =>
    show (Operation.moved s _).run op [] = _
    rw [Operation.moved, hchange]
    rfl

/-- A stretch that fails is reported with its three factors. -/
theorem run_placed_scale (op : Operator) {s after : Scene Float Closure} {x y z : Float}
    (h : s.changeInPlace (.scale x y z) = (after, false)) :
    (placed s (.scale x y z)).run op [] = .error (.domain (.zeroScale x y z)) := by
  have hchange : s.change? (.scale x y z) = none := by rw [Scene.change?, h]
  rw [placed, stretched, hchange]
  rfl

end Operation

/-- **An operator that asks for a change makes it**, on any stack that has its operands on top. -/
theorem Operator.Asks.comesTo {op : Operator} {numbers : List Float} {c : Change Float}
    (hasks : op.Asks numbers c) {values : List Value}
    (hvalues : List.Forall₂ Value.IsNumber values numbers) (s : Scene Float Closure)
    {outcome : Except Fault Value} (houtcome : (Operation.placed s c).run op [] = outcome) :
    op.ComesTo (.object s :: values) outcome := by
  -- The operators with three numbers read them alike, and so do those with one.
  cases hasks with
  | translate x y z | scale x y z =>
    cases hvalues with | cons hx hvalues =>
    cases hvalues with | cons hy hvalues =>
    cases hvalues with | cons hz hvalues =>
    cases hvalues
    refine Operator.comesTo_of_operation rfl rfl (Eq.trans ?_ houtcome)
    simp only [Operation.run, Operation.run_number hx, Operation.run_number hy,
      Operation.run_number hz]
    rfl
  | uscale x | rotatex x | rotatey x | rotatez x =>
    cases hvalues with | cons hx hvalues =>
    cases hvalues
    refine Operator.comesTo_of_operation rfl rfl (Eq.trans ?_ houtcome)
    simp only [Operation.turned, Operation.run, Operation.run_number hx]
    rfl

/-! ### All or nothing -/

/-- **A change of place is made to all of a scene or to nothing.** Unless it stretches by zero,
every transform is changed once, by what the change does to a transform, and nothing but transforms
is: the tree, the joins, the order of the primitives, their shapes and surfaces stay. The operators
that ask for the change, with integers or reals, leave the changed solid. A change that stretches by
zero fails and leaves the whole scene as it was, and just then the operators end with a fault about
their domain. -/
theorem placing_is_all_or_nothing (s : Scene Float Closure) (c : Change Float) :
    (¬ c.HasZeroFactor → ∃ moved, s.changeInPlace c = (moved, true) ∧ s.ChangedBy c moved ∧
      moved.primitiveCount = s.primitiveCount ∧
      List.Forall₂ (fun p q => q.shape = p.shape ∧ q.surface = p.surface ∧
        p.transform.change? c = some q.transform) s.primitives moved.primitives ∧
      ∀ (op : Operator) numbers values, op.Asks numbers c →
        List.Forall₂ Value.IsNumber values numbers →
        op.ComesTo (.object s :: values) (.ok (.object moved))) ∧
    (c.HasZeroFactor → s.changeInPlace c = (s, false) ∧ ∃ x y z, c = .scale x y z ∧
      ∀ (op : Operator) numbers values, op.Asks numbers c →
        List.Forall₂ Value.IsNumber values numbers →
        op.ComesTo (.object s :: values) (.error (.domain (.zeroScale x y z)))) := by
  refine ⟨fun hc => ?_, fun hc => ?_⟩
  · obtain ⟨moved, hmoved, hchanged⟩ := Scene.exists_changedBy hc s
    refine ⟨moved, hmoved, hchanged, hchanged.primitiveCount_eq, hchanged.forall₂_primitives, ?_⟩
    intro op numbers values hasks hvalues
    exact hasks.comesTo hvalues s (Operation.run_placed op hmoved)
  · have hfailed := Scene.changeInPlace_of_hasZeroFactor hc s
    obtain ⟨x, y, z, rfl⟩ := Change.exists_scale_of_hasZeroFactor hc
    refine ⟨hfailed, x, y, z, rfl, fun op numbers values hasks hvalues => ?_⟩
    exact hasks.comesTo hvalues s (Operation.run_placed_scale op hfailed)

/-- A sphere and a cube, joined. Moved up by an integer, both are; made flat, neither is changed. -/
theorem placing_is_all_or_nothing_pair :
    let surface : Closure := ⟨Environment.empty, []⟩
    let s : Scene Float Closure :=
      .join .union (.atOrigin .sphere surface) (.atOrigin .cube surface)
    let up : Change Float := .translate 0 (2 : Int64).toFloat 0
    let flat : Change Float := .scale 1 0 1
    ¬ up.HasZeroFactor ∧ flat.HasZeroFactor ∧
    (∃ moved, s.changeInPlace up = (moved, true) ∧ s.ChangedBy up moved ∧
      moved.primitiveCount = 2 ∧
      Operator.translate.ComesTo [.object s, .real 0, .integer 2, .real 0]
        (.ok (.object moved))) ∧
    s.changeInPlace flat = (s, false) ∧
    Operator.scale.ComesTo [.object s, .real 1, .real 0, .real 1]
      (.error (.domain (.zeroScale 1 0 1))) := by
  intro surface s up flat
  have hup : ¬ up.HasZeroFactor := id
  have hflat : flat.HasZeroFactor := Or.inr (Or.inl (by decide))
  obtain ⟨moved, hmoved, hchanged, hcount, -, hcomes⟩ := (placing_is_all_or_nothing s up).1 hup
  obtain ⟨hfailed, x, y, z, heq, hfaults⟩ := (placing_is_all_or_nothing s flat).2 hflat
  refine ⟨hup, hflat, ⟨moved, hmoved, hchanged, hcount, ?_⟩, hfailed, ?_⟩
  · exact hcomes .translate _ _ (.translate 0 (2 : Int64).toFloat 0)
      (.cons (.real 0) (.cons (.integer 2) (.cons (.real 0) .nil)))
  · -- The factors in the report are those of the stretch.
    obtain ⟨rfl, rfl, rfl⟩ := Change.scale.inj heq
    exact hfaults .scale _ _ (.scale 1 0 1)
      (.cons (.real 1) (.cons (.real 0) (.cons (.real 1) .nil)))

end SceneTracer
