import SceneTracer.Proofs.Operator.Outcomes
import SceneTracer.RenderJob

namespace SceneTracer

/-!
# The closures in values

Operators hand closures on but make none, and they have nothing to do with names. Only function
literals make closures, and only identifiers look names up.

* `Closure.Within` — a closure is part of a value.
* `Nameless` — outcomes that are no fault about a name.
* `Operator.handsOn_run` — the closures in the result of an operator were in its operands.
* `RenderJob.object_mem_of_ofOperands` — the scene of a job is an operand.
-/

/-- The closure `c` is part of a value: the value itself, or bound to a name there, an item of an
array, or the surface of a primitive. -/
inductive Closure.Within (c : Closure) : Value → Prop
  | self : Within c (.closure c)
  | captured {name : String} {v : Value} {outer : Closure} (hmem : (name, v) ∈ outer.environment)
      (h : Within c v) : Within c (.closure outer)
  | item {v : Value} {items : List Value} (hmem : v ∈ items) (h : Within c v) :
      Within c (.array items)
  | surface {p : Primitive Float Closure} {scene : Scene Float Closure}
      (hmem : p ∈ scene.primitives) (h : Within c (.closure p.surface)) : Within c (.object scene)

/-- A value that is neither an array nor a closure nor a solid holds no closures. -/
theorem Closure.not_within_of_kind {v : Value}
    (h : v.kind ≠ .array ∧ v.kind ≠ .closure ∧ v.kind ≠ .object) (c : Closure) : ¬ c.Within v := by
  obtain ⟨harray, hclosure, hobject⟩ := h
  intro hc
  cases hc with
  | self => exact absurd rfl hclosure
  | captured => exact absurd rfl hclosure
  | item => exact absurd rfl harray
  | surface => exact absurd rfl hobject

/-! ### Faults about names -/

variable {ρ τ : Type}

/-- A computation that does not fail for a name. -/
def Nameless (outcome : Except Fault ρ) : Prop := ∀ name, outcome ≠ .error (.unbound name)

/-- Two computations in a row have a result just if the first has one, and the second has it from
there. -/
theorem Except.bind_eq_ok {ε : Type} {outcome : Except ε ρ} {next : ρ → Except ε τ} {result : τ} :
    outcome >>= next = .ok result ↔ ∃ first, outcome = .ok first ∧ next first = .ok result := by
  cases outcome <;> simp [Bind.bind, Except.bind]

/-- Two computations in a row report a name only if one of them does. -/
theorem Nameless.bind {outcome : Except Fault ρ} {next : ρ → Except Fault τ} (h : Nameless outcome)
    (hnext : ∀ result, Nameless (next result)) : Nameless (outcome >>= next) := by
  cases outcome with
  | ok result => exact hnext result
  | error f =>
    intro name hname
    exact h name (congrArg Except.error (Except.error.inj hname))

/-! ### Operations -/

/-- The outcome of a computation on `operands` holds no closures but theirs, and is no fault about a
name. -/
structure HandsOn (operands : List Value) (outcome : Except Fault Value) : Prop where
  within : ∀ v, outcome = .ok v → ∀ c : Closure, c.Within v → ∃ operand ∈ operands, c.Within operand
  nameless : Nameless outcome

namespace HandsOn

variable {operands : List Value}

/-- A fault hands on nothing, if it is not about a name. -/
theorem error {f : Fault} (h : ∀ name, f ≠ .unbound name) : HandsOn operands (.error f) := by
  refine ⟨fun v hv => (nomatch hv), fun name hname => ?_⟩
  exact h name (Except.error.inj hname)

/-- A value may hold only closures that are within operands. -/
theorem ok {v : Value}
    (h : ∀ c : Closure, c.Within v → ∃ operand ∈ operands, c.Within operand) :
    HandsOn operands (.ok v) := by
  refine ⟨fun v' hv' => ?_, fun name hname => (nomatch hname)⟩
  rw [← Except.ok.inj hv']
  exact h

/-- A value that cannot hold closures holds none. -/
theorem atom {v : Value} (h : v.kind ≠ .array ∧ v.kind ≠ .closure ∧ v.kind ≠ .object) :
    HandsOn operands (.ok v) :=
  ok fun c hc => absurd hc (Closure.not_within_of_kind h c)

/-- A solid holds the closures of its surfaces. -/
theorem object {scene : Scene Float Closure}
    (h : ∀ p ∈ scene.primitives, ∃ operand ∈ operands,
      ∀ c : Closure, c.Within (.closure p.surface) → c.Within operand) :
    HandsOn operands (.ok (.object scene)) := by
  refine ok fun c hc => ?_
  cases hc with
  | surface hmem hc =>
    obtain ⟨operand, hoperand, hwithin⟩ := h _ hmem
    exact ⟨operand, hoperand, hwithin c hc⟩

end HandsOn

namespace Scene

/-- A change of place leaves the surfaces of a scene as they are. -/
theorem surfaces_of_mapTransform? {α σ : Type} {f : Transform α → Option (Transform α)}
    {s s' : Scene α σ} (h : s.mapTransform? f = some s') :
    s'.primitives.map (·.surface) = s.primitives.map (·.surface) := by
  induction s generalizing s' with
  | primitive p =>
    obtain ⟨t, -, rfl⟩ := Option.map_eq_some_iff.mp h
    rfl
  | join how a b iha ihb =>
    simp only [mapTransform?, Option.bind_eq_bind, Option.bind_eq_some_iff] at h
    obtain ⟨a', ha, b', hb, hs⟩ := h
    cases hs
    simp [primitives, iha ha, ihb hb]

/-- The closures in a scene that has been moved were in it before. -/
theorem handsOn_of_change? {scene changed : Scene Float Closure} {c : Change Float}
    {operands : List Value} (h : scene.change? c = some changed) (hmem : .object scene ∈ operands) :
    HandsOn operands (.ok (.object changed)) := by
  rw [change?_eq_mapTransform?] at h
  refine HandsOn.object fun p hp => ⟨.object scene, hmem, fun c hc => ?_⟩
  have hsurface : p.surface ∈ scene.primitives.map (·.surface) := by
    rw [← surfaces_of_mapTransform? h]
    exact List.mem_map_of_mem hp
  obtain ⟨q, hq, hqp⟩ := List.mem_map.mp hsurface
  rw [← hqp] at hc
  exact .surface hq hc

end Scene

namespace Operation

variable {taken : List Value}

/-- An operation that ends in such a value hands on nothing. -/
theorem handsOn_value {v : Value}
    (h : v.kind ≠ .array ∧ v.kind ≠ .closure ∧ v.kind ≠ .object) :
    (value v).Ensures HandsOn taken :=
  HandsOn.atom h

/-- A value out of the domain of an operation has nothing to do with names. -/
theorem handsOn_fail (f : DomainFault) : (fail f).Ensures HandsOn taken :=
  HandsOn.error (by simp)

/-- Division leaves an integer, or fails for the divisor. -/
theorem handsOn_divide (op : Operator) (f : Int64 → Int64 → Int64) (a b : Int64) :
    (divide op f a b).Ensures HandsOn taken := by
  unfold divide
  split
  · exact handsOn_fail _
  · split
    · exact handsOn_fail _
    · exact handsOn_value (by simp [Value.kind])

/-- The square root leaves a real, or fails for a negative argument. -/
theorem handsOn_squareRoot (x : Float) : (squareRoot x).Ensures HandsOn taken := by
  unfold squareRoot
  split
  · exact handsOn_fail _
  · exact handsOn_value (by simp [Value.kind])

/-- An item of an array has the closures that it has in the array. -/
theorem handsOn_item {items : List Value} (hmem : .array items ∈ taken) (index : Int64) :
    (item items index).Ensures HandsOn taken := by
  unfold item
  split
  · rename_i v hv
    refine HandsOn.ok fun c hc => ⟨.array items, hmem, .item ?_ hc⟩
    split at hv
    · exact absurd hv (by simp)
    · exact List.mem_of_getElem? hv
  · exact HandsOn.error (by simp)

/-- A solid has the one closure that it has been given as its surface. -/
theorem handsOn_solid (shape : Shape) : (solid shape).Ensures HandsOn taken := by
  intro c
  refine HandsOn.object fun p hp => ⟨.closure c, by simp, fun c' hc' => ?_⟩
  rw [List.mem_singleton.mp hp] at hc'
  exact hc'

/-- Joined solids have the surfaces of both. -/
theorem handsOn_joined (how : Join) : (joined how).Ensures HandsOn taken := by
  intro a b
  refine HandsOn.object fun p hp => ?_
  rcases List.mem_append.mp hp with hp | hp
  · exact ⟨.object a, by simp, fun c hc => .surface hp hc⟩
  · exact ⟨.object b, by simp, fun c hc => .surface hp hc⟩

/-- A solid that has been moved has the surfaces that it had. -/
theorem handsOn_moved {scene : Scene Float Closure} (hmem : .object scene ∈ taken)
    (c : Change Float) : (moved scene c).Ensures HandsOn taken := by
  unfold moved
  match h : scene.change? c with
  | some changed => exact Scene.handsOn_of_change? h hmem
  | none => exact HandsOn.ok fun c' hc' => ⟨.object scene, hmem, hc'⟩

/-- A solid that has been stretched has the surfaces that it had, unless a factor of zero is
refused. -/
theorem handsOn_stretched {scene : Scene Float Closure} (hmem : .object scene ∈ taken)
    (x y z : Float) : (stretched scene x y z).Ensures HandsOn taken := by
  unfold stretched
  split
  · rename_i changed h
    exact Scene.handsOn_of_change? h hmem
  · exact handsOn_fail _

theorem handsOn_turned (turn : Float → Change Float) : (turned turn).Ensures HandsOn taken := by
  intro scene
  exact .of_number fun angle v => handsOn_moved (by simp) _

end Operation

open Operation in
/-- The closures in a result were in the operands that were accepted, and no operator fails for a
name. -/
theorem Operator.ensures_handsOn {op : Operator} {operation : Operation}
    (h : op.operation? = some operation) : operation.Ensures HandsOn [] := by
  cases op with
  | apply | branch | render => cases h
  | divi | modi =>
    cases h
    exact fun a b => handsOn_divide _ _ a b
  | sqrt =>
    cases h
    exact fun x => handsOn_squareRoot x
  | get =>
    cases h
    exact fun items index => handsOn_item (by simp) index
  | sphere | cube | cylinder | cone | plane =>
    cases h
    exact handsOn_solid _
  | union | intersect | difference =>
    cases h
    exact handsOn_joined _
  | translate =>
    cases h
    intro scene
    refine .of_number fun x v => .of_number fun y w => .of_number fun z u => ?_
    exact handsOn_moved (by simp) _
  | scale =>
    cases h
    intro scene
    refine .of_number fun x v => .of_number fun y w => .of_number fun z u => ?_
    exact handsOn_stretched (by simp) x y z
  | uscale =>
    cases h
    intro scene
    exact .of_number fun s v => handsOn_stretched (by simp) s s s
  | rotatex | rotatey | rotatez =>
    cases h
    exact handsOn_turned _
  -- All others make a number, a truth value, a point or a light.
  | _ =>
    cases h
    simp only [integers, reals, realFunction, Ensures]
    intros
    exact handsOn_value (by simp [Value.kind])

/-- **Running an operator hands closures on**, whatever the operands are. -/
theorem Operator.handsOn_run {op : Operator} {operation : Operation}
    (h : op.operation? = some operation) (operands : List Value) :
    HandsOn operands (operation.run op operands) := by
  rcases (ensures_handsOn h).run op operands with ⟨wanted, found, hrun⟩ | hrun | hrun
  · rw [hrun]
    exact HandsOn.error (by simp)
  · rw [hrun]
    exact HandsOn.error (by simp)
  · -- The operands taken are listed from the last to the first.
    refine ⟨fun v hv c hc => ?_, hrun.nameless⟩
    obtain ⟨operand, hmem, hwithin⟩ := hrun.within v hv c hc
    exact ⟨operand, by simpa using hmem, hwithin⟩

/-! ### Render jobs -/

namespace RenderJob

/-- An operand of another kind than wanted is reported by its kind. -/
theorem nameless_wrongKind (wanted : Kind) (v : Value) :
    Nameless (.error (wrongKind wanted v) : Except Fault ρ) := by
  simp [Nameless, wrongKind]

/-- Reading lights from an array reports kinds, not names. -/
theorem nameless_lightsOf (items : List Value) : Nameless (lightsOf items) := by
  induction items with
  | nil => simp [Nameless, lightsOf]
  | cons v rest ih =>
    cases v with
    | light l =>
      rw [lightsOf]
      intro name h
      -- The first item is a light, so that a fault is one about an item further on.
      cases hrest : lightsOf rest with
      | ok lights => simp [hrest, Except.map] at h
      | error f =>
        rw [hrest] at h
        exact ih name (by rw [hrest, Except.error.inj h])
    | _ => exact nameless_wrongKind .light _

/-- The operand for the lights is reported by its kind, as each of its items is. -/
theorem nameless_lightsOperand (v : Value) : Nameless (lightsOperand v) := by
  cases v with
  | array items => exact nameless_lightsOf items
  | _ => exact nameless_wrongKind .array _

/-- Operands are refused for their sort. -/
theorem nameless_readers (v : Value) :
    Nameless (sceneOperand v) ∧ Nameless (outputOperand v) ∧ Nameless (pointOperand v) ∧
      Nameless (realOperand v) := by
  cases v <;>
    simp [Nameless, sceneOperand, outputOperand, pointOperand, realOperand, wrongKind]

/-- A count is reported by its kind, or as out of its range. -/
theorem nameless_countOf (which : Count) (limit : Nat) (v : Value) :
    Nameless (countOf which limit v) := by
  cases v with
  | integer n =>
    rw [countOf]
    split <;> simp [Nameless]
  | _ => exact nameless_wrongKind .integer _

/-- No operand of `render` is refused for a name. -/
theorem nameless_ofOperands (operands : List Value) : Nameless (ofOperands operands) := by
  unfold ofOperands
  split
  · -- The operands are read in the order in which faults are reported, each by one of the readers
    -- above.
    refine (nameless_lightsOperand _).bind fun _ => ?_
    refine (nameless_readers _).1.bind fun _ => ?_
    refine (nameless_readers _).2.1.bind fun _ => ?_
    refine (nameless_readers _).2.2.1.bind fun _ => ?_
    refine (nameless_countOf _ _ _).bind fun _ => ?_
    refine (nameless_readers _).2.2.2.bind fun _ => ?_
    refine (nameless_countOf _ _ _).bind fun width => ?_
    refine (nameless_countOf _ _ _).bind fun height => ?_
    split <;> simp [Nameless, pure, Except.pure, throw, throwThe, MonadExceptOf.throw]
  · simp [Nameless]

/-- The scene of a job is one of its operands. -/
theorem object_mem_of_ofOperands {operands : List Value} {job : RenderJob}
    (h : ofOperands operands = .ok job) : .object job.scene ∈ operands := by
  unfold ofOperands at h
  split at h
  · rename_i ambient lights scene depth fieldOfView width height output
    simp only [Except.bind_eq_ok] at h
    obtain ⟨_, -, scene', hscene, _, -, _, -, _, -, _, -, _, -, _, -, hjob⟩ := h
    split at hjob
    · cases hjob
      -- Only an object is read as a scene, and it is read as its own.
      cases scene <;> cases hscene
      simp
    · cases hjob
  · cases h

end RenderJob

end SceneTracer
