import SceneTracer.Proofs.Scene.Crossings

namespace SceneTracer

/-!
# Solids that a line misses

A line that misses a solid is outside it all along. Joined with that solid, another one stays as it
is, or is gone: the walk goes along the crossings of the other solid alone, and either follows them
or does not mind them. It follows them crossing by crossing because those of every scene take turns,
also where their parameters cannot be compared.

* `Scene.alternates_hits` — the crossings of every scene on every line take turns.
* `Hit.mergeFrom_nil_of_follows`, `Hit.mergeFrom_nil_of_ignores` — walks along one solid alone.
* `Scene.hits_join_of_missed` — the joins with a solid that the line misses.
-/

variable {α σ : Type} [Scalar α]

/-! ### Walks along one solid -/

namespace Hit

/-- A walk along the second solid alone is one along the first, with the rule turned round. -/
theorem mergeFrom_nil_left (rule : Bool → Bool → Bool) (inA inB : Bool) (hits : List (Hit α σ)) :
    mergeFrom rule inA inB [] hits = mergeFrom (fun b a => rule a b) inB inA hits [] := by
  induction hits generalizing inB with
  | nil => simp [mergeFrom]
  | cons h hits ih => simp only [mergeFrom, ih]

/-- A walk keeps all crossings as they are if membership in the joined solid follows that in the
only solid left. -/
theorem mergeFrom_nil_of_follows {rule : Bool → Bool → Bool} {inA inB : Bool}
    (hrule : ∀ inside, rule inside inB = inside) {hits : List (Hit α σ)}
    (halt : Alternates (!inA) hits) : mergeFrom rule inA inB hits [] = hits := by
  induction hits generalizing inA with
  | nil => rw [mergeFrom]
  | cons h hits ih =>
    obtain ⟨hcrossing, hrest⟩ := halt
    have hentering : decide (h.crossing = .entry) = !inA := by
      rw [hcrossing]
      cases inA <;> rfl
    -- Each crossing leads to the other side, as the joined solid does there.
    have hchange : inA ≠ !inA := by cases inA <;> decide
    rw [mergeFrom, hentering, ih hrest, hrule, hrule, keep, if_neg hchange, relabel,
      if_pos hcrossing]

/-- A walk keeps nothing if membership in the joined solid does not depend on the one left. -/
theorem mergeFrom_nil_of_ignores {rule : Bool → Bool → Bool} (inA : Bool) {inB : Bool}
    (hrule : ∀ inside inside', rule inside inB = rule inside' inB) (hits : List (Hit α σ)) :
    mergeFrom rule inA inB hits [] = [] := by
  induction hits generalizing inA with
  | nil => rw [mergeFrom]
  | cons h hits ih => rw [mergeFrom, ih, keep, if_pos (hrule _ _)]

end Hit

namespace Scene

/-- **The crossings of a scene take turns**, from outside to outside, on every line. -/
theorem alternates_hits (s : Scene α σ) (origin direction : Vec3 α) :
    Hit.Alternates true (s.hits origin direction) := by
  induction s with
  | primitive p =>
    rw [hits, Primitive.hits]
    split
    · rfl
    · exact ⟨rfl, rfl, rfl⟩
  | join how a b iha ihb => exact Hit.alternates_merge iha ihb (join_holds_false how)

/-- **A solid that the line misses.** Where the scene `b` has no crossings, whatever those of `a`
are, the union of both and `a` without `b` have just the crossings of `a`, and the intersection of
both and `b` without `a` have none. -/
theorem hits_join_of_missed (a : Scene α σ) {b : Scene α σ} {origin direction : Vec3 α}
    (hb : b.hits origin direction = []) :
    (join .union a b).hits origin direction = a.hits origin direction ∧
    (join .union b a).hits origin direction = a.hits origin direction ∧
    (join .difference a b).hits origin direction = a.hits origin direction ∧
    (join .intersection a b).hits origin direction = [] ∧
    (join .intersection b a).hits origin direction = [] ∧
    (join .difference b a).hits origin direction = [] := by
  have halt : Hit.Alternates (!false) (a.hits origin direction) := a.alternates_hits _ _
  simp only [hits, hb, Hit.merge, Hit.mergeFrom_nil_left]
  refine ⟨?_, ?_, ?_, ?_, ?_, ?_⟩
  · exact Hit.mergeFrom_nil_of_follows (by simp [Join.holds]) halt
  · exact Hit.mergeFrom_nil_of_follows (by simp [Join.holds]) halt
  · exact Hit.mergeFrom_nil_of_follows (by simp [Join.holds]) halt
  · exact Hit.mergeFrom_nil_of_ignores false (by simp [Join.holds]) _
  · exact Hit.mergeFrom_nil_of_ignores false (by simp [Join.holds]) _
  · exact Hit.mergeFrom_nil_of_ignores false (by simp [Join.holds]) _

/-- A line that goes nowhere: its crossings with a sphere are at parameters that are not numbers,
and it has none with a cube. -/
theorem hits_join_of_missed_degenerate :
    let sphere : Scene Float Unit := .atOrigin .sphere ()
    let cube : Scene Float Unit := .atOrigin .cube ()
    let origin : Vec3 Float := ⟨0.5, 0.5, 0.5⟩
    let direction : Vec3 Float := ⟨0, 0, 0⟩
    cube.hits origin direction = [] ∧
    (∀ h ∈ sphere.hits origin direction, (h.t == h.t) = false) ∧
    ((join .union cube sphere).hits origin direction).map (·.crossing) = [.entry, .exit] ∧
    (join .union cube sphere).hits origin direction = sphere.hits origin direction ∧
    (join .difference cube sphere).hits origin direction = [] := by
  intro sphere cube origin direction
  -- With no direction to go in, the cube is missed, and the parameters for the sphere are not numbers.
  have hmissed : cube.hits origin direction = [] := by
    rw [← List.length_eq_zero_iff]
    decide +kernel
  obtain ⟨-, hunion, -, -, -, hdifference⟩ := hits_join_of_missed sphere hmissed
  refine ⟨hmissed, by decide +kernel, ?_, hunion, hdifference⟩
  rw [hunion]
  decide +kernel

end Scene

end SceneTracer
