import SceneTracer.Proofs.Scene.Merge

namespace SceneTracer

/-!
# Crossings of whole scenes

Where every primitive is entered and left once, or not at all, the crossings of a scene are in
order, alternate, and bound just the places that the scene holds, however deep solids are joined and
wherever their boundaries meet.

* `Hit.IsSpan` — an entry and an exit in order, or nothing.
* `Scene.Holds` — the formula of a scene over membership in its primitives.
* `Scene.regular_hits`, `Scene.insideAt_hits` — the induction over the tree.
* `Scene.hits_alternate_and_bound` — both for floating point scalars.
-/

variable {α σ : Type}

/-- Crossings of a solid that a line enters and leaves once, or misses. -/
def Hit.IsSpan [Scalar α] (hits : List (Hit α σ)) : Prop :=
  hits = [] ∨ ∃ near far, hits = [near, far] ∧ near.crossing = .entry ∧ far.crossing = .exit ∧
    near.t ≤ far.t

/-- The crossings of a primitive are a span unless their parameters cannot be compared. -/
theorem Primitive.isSpan_hits_iff [Scalar α] (p : Primitive α σ) (origin direction : Vec3 α) :
    Hit.IsSpan (p.hits origin direction)
      ↔ (p.hits origin direction).Pairwise fun h k => h.t ≤ k.t := by
  constructor
  · rintro (h | ⟨near, far, h, -, -, hle⟩)
    · rw [h]
      exact List.Pairwise.nil
    · rw [h]
      simpa using hle
  · intro h
    rw [Primitive.hits] at h ⊢
    split
    · exact Or.inl rfl
    · -- A primitive that is met has just these two crossings, whose order is all there is to ask.
      rename_i s hs
      rw [hs] at h
      exact Or.inr ⟨_, _, rfl, rfl, rfl, by simpa using h⟩

namespace Scene

/-- Whether a scene holds a place, given which primitives do. -/
def Holds (member : Primitive α σ → Prop) : Scene α σ → Prop
  | .primitive p => member p
  | .join .union a b => a.Holds member ∨ b.Holds member
  | .join .intersection a b => a.Holds member ∧ b.Holds member
  | .join .difference a b => a.Holds member ∧ ¬ b.Holds member

/-- Membership in a scene depends on its primitives alone. -/
theorem holds_congr {member member' : Primitive α σ → Prop} (s : Scene α σ)
    (h : ∀ p ∈ s.primitives, member p ↔ member' p) : s.Holds member ↔ s.Holds member' := by
  induction s with
  | primitive p => exact h p (List.mem_singleton_self p)
  | join how a b iha ihb =>
    have ha := iha fun p hp => h p (List.mem_append_left _ hp)
    have hb := ihb fun p hp => h p (List.mem_append_right _ hp)
    cases how <;> simp only [Holds, ha, hb]

variable [Scalar α]

/-- The membership that is computed is the one that is stated. -/
theorem holdsAt_iff_holds (s : Scene α σ) (origin direction : Vec3 α) (t : α) :
    s.holdsAt origin direction t = true
      ↔ s.Holds fun p => Hit.insideAt (p.hits origin direction) t = true := by
  induction s with
  | primitive p => rfl
  | join how a b iha ihb =>
    cases how <;> simp [holdsAt, Holds, Join.holds, ← iha, ← ihb]

variable [OrderedScalar α]

/-- The two crossings of a span are in order and alternate. -/
theorem regular_of_isSpan {hits : List (Hit α σ)} (h : Hit.IsSpan hits) : Hit.Regular hits := by
  rcases h with rfl | ⟨near, far, rfl, hnear, hfar, hle⟩
  · exact ⟨⟨by simp, by simp⟩, rfl⟩
  · obtain ⟨hn, hf⟩ := OrderedScalar.le_self hle
    refine ⟨⟨?_, ?_⟩, ?_⟩
    · simp [hn, hf]
    · simpa using hle
    · simp [Hit.Alternates, hnear, hfar, Crossing.ofInside]

/-- A span holds the parameters between its ends. -/
theorem insideAt_iff_of_isSpan {hits : List (Hit α σ)} (h : Hit.IsSpan hits) {t : α}
    (ht : ∀ k ∈ hits, (k.t == t) = false) :
    Hit.insideAt hits t = true ↔ ∃ near far, hits = [near, far] ∧ near.t < t ∧ t < far.t := by
  rcases h with rfl | ⟨near, far, rfl, hnear, hfar, hle⟩
  · simp [Hit.insideAt]
  · obtain ⟨hn, hf⟩ := OrderedScalar.le_self hle
    have hfar_ne : (far.t == t) = false := ht far (by simp)
    by_cases hnt : near.t < t
    · have htt : t ≤ t := (OrderedScalar.le_self (OrderedScalar.le_of_lt hnt)).2
      by_cases hft : far.t < t
      · have hnot : ¬ t < far.t :=
          fun h => (OrderedScalar.lt_iff.mp h).2 (OrderedScalar.le_of_lt hft)
        simp [Hit.insideAt, hnt, hft, hfar, hnot]
      · -- `t` is not behind the exit, and it is not at it.
        have htf : t < far.t := by
          have hle' : t ≤ far.t := OrderedScalar.le_of_not_lt hf htt hft
          refine OrderedScalar.lt_iff.mpr ⟨hle', fun hge => ?_⟩
          rw [OrderedScalar.beq_iff.mpr ⟨hge, hle'⟩] at hfar_ne
          exact absurd hfar_ne (by simp)
        have hinside : Hit.insideAt [near, far] t = true := by simp [Hit.insideAt, hnt, hft, hnear]
        exact iff_of_true hinside ⟨near, far, rfl, hnt, htf⟩
    · -- In front of the entry, `t` is in front of the exit as well.
      have hft : ¬ far.t < t := fun h => hnt (OrderedScalar.lt_of_le_of_lt hle h)
      simp [Hit.insideAt, hnt, hft]

/-- What is in neither operand is in no join of them. -/
theorem join_holds_false (how : Join) : how.holds false false = false := by
  cases how <;> rfl

/-- **The crossings of a scene are regular** if those of each primitive are a span. -/
theorem regular_hits (s : Scene α σ) (origin direction : Vec3 α)
    (h : ∀ p ∈ s.primitives, Hit.IsSpan (p.hits origin direction)) :
    Hit.Regular (s.hits origin direction) := by
  induction s with
  | primitive p => exact regular_of_isSpan (h p (List.mem_singleton_self p))
  | join how a b iha ihb =>
    have ha := iha fun p hp => h p (List.mem_append_left _ hp)
    have hb := ihb fun p hp => h p (List.mem_append_right _ hp)
    -- No way of joining solids holds a place that neither of them holds.
    exact ha.merge hb (join_holds_false how)

/-- **The crossings of a scene lead inside where its formula holds.** -/
theorem insideAt_hits (s : Scene α σ) (origin direction : Vec3 α)
    (h : ∀ p ∈ s.primitives, Hit.IsSpan (p.hits origin direction)) (t : α) :
    Hit.insideAt (s.hits origin direction) t = s.holdsAt origin direction t := by
  induction s with
  | primitive p => rfl
  | join how a b iha ihb =>
    have hla : ∀ p ∈ a.primitives, Hit.IsSpan (p.hits origin direction) :=
      fun p hp => h p (List.mem_append_left _ hp)
    have hlb : ∀ p ∈ b.primitives, Hit.IsSpan (p.hits origin direction) :=
      fun p hp => h p (List.mem_append_right _ hp)
    have ha := (regular_hits a origin direction hla).inOrder
    have hb := (regular_hits b origin direction hlb).inOrder
    rw [hits, holdsAt, Hit.insideAt_merge ha hb (join_holds_false how), iha hla, ihb hlb]

/-- **The crossings of a scene are those of the solid that it describes.** Where every primitive has
a span or nothing on the line, the crossings of the scene are in order, entries and exits take turns
from outside to outside, and a parameter that is not at a crossing of a primitive is inside just if
the formula of the scene holds of the spans that it is in. -/
theorem hits_alternate_and_bound (s : Scene Float σ) (origin direction : Vec3 Float)
    (h : ∀ p ∈ s.primitives, Hit.IsSpan (p.hits origin direction)) :
    (s.hits origin direction).Pairwise (fun h k => h.t ≤ k.t) ∧
    Hit.Alternates true (s.hits origin direction) ∧
    Even (s.hits origin direction).length ∧
    ∀ t, (∀ p ∈ s.primitives, ∀ k ∈ p.hits origin direction, (k.t == t) = false) →
      (Hit.insideAt (s.hits origin direction) t = true ↔
        s.Holds fun p =>
          ∃ near far, p.hits origin direction = [near, far] ∧ near.t < t ∧ t < far.t) := by
  have hregular := regular_hits s origin direction h
  refine ⟨List.pairwise_map.mp hregular.inOrder.sorted, hregular.alternates, ?_, ?_⟩
  · exact (Hit.even_length_of_alternates hregular.alternates).mpr rfl
  · intro t ht
    rw [insideAt_hits s origin direction h, holdsAt_iff_holds]
    exact holds_congr s fun p hp => insideAt_iff_of_isSpan (h p hp) (ht p hp)

/-- A cube without a half of it that is taken away twice: three of the six crossings of the three
cubes are at one parameter, and two more at another. -/
theorem hits_alternate_and_bound_cubes :
    let half : Scene Float Unit := .primitive ⟨.cube, (), ⟨.scaling 0.5 1 1, .scaling 2 1 1⟩⟩
    let s : Scene Float Unit := .join .difference (.atOrigin .cube ()) (.join .union half half)
    let origin : Vec3 Float := ⟨-1, 0.5, 0.5⟩
    let direction : Vec3 Float := ⟨1, 0, 0⟩
    (∀ p ∈ s.primitives, Hit.IsSpan (p.hits origin direction)) ∧
    Hit.Alternates true (s.hits origin direction) ∧
    (Hit.insideAt (s.hits origin direction) 1.75 = true ↔
      s.Holds fun p =>
        ∃ near far, p.hits origin direction = [near, far] ∧ near.t < 1.75 ∧ 1.75 < far.t) := by
  intro half s origin direction
  -- The two halves have their crossings at the same parameters.
  have hspan : ∀ p ∈ s.primitives, Hit.IsSpan (p.hits origin direction) := by
    simp only [Primitive.isSpan_hits_iff]
    decide +kernel
  obtain ⟨-, halternates, -, hinside⟩ := hits_alternate_and_bound s origin direction hspan
  exact ⟨hspan, halternates, hinside 1.75 (by decide +kernel)⟩

end Scene

end SceneTracer
