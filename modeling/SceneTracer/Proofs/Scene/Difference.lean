import SceneTracer.Proofs.Scene.Crossings

namespace SceneTracer

/-!
# When a difference leaves nothing

The walk along two solids goes outside of the second one at its exit, and where crossings meet, an
entry of the first solid goes first. So the difference of two solids has no crossing just if the
line is in the second solid already when it enters the first, and still when it leaves it. Where it
enters both at one place, a skin of no thickness is left.

* `Hit.spans` — the entries of a list of crossings, each with its exit.
* `Hit.Within` — whether a span lies in what a walk has left of a solid.
* `Hit.Covered` — the walk has nothing to keep, with one lemma for each way in which it goes on.
* `Hit.mergeFrom_difference_eq_nil_iff` — the walk from any state that it can be in.
* `Scene.hits_difference_eq_nil_iff` — the difference of two scenes.
-/

namespace Hit

variable {α σ : Type}

/-! ### Spans -/

/-- The entries of crossings that alternate, each with the exit behind it. -/
def spans : List (Hit α σ) → List (Hit α σ × Hit α σ)
  | near :: far :: rest => (near, far) :: spans rest
  | _ => []

/-- The ends of a span are crossings of the list. -/
theorem mem_of_mem_spans {hits : List (Hit α σ)} {near far : Hit α σ}
    (h : (near, far) ∈ spans hits) : near ∈ hits ∧ far ∈ hits := by
  fun_induction spans hits with
  | case1 near' far' rest ih =>
    rcases List.mem_cons.mp h with heq | hrest
    · cases heq
      simp
    · have hmem := ih hrest
      exact ⟨by simp [hmem.1], by simp [hmem.2]⟩
  | case2 => cases h

variable [Scalar α]

/-- A span ends where it begins or behind. -/
theorem InOrder.near_le_far {hits : List (Hit α σ)} (hs : InOrder hits) {near far : Hit α σ}
    (h : (near, far) ∈ spans hits) : near.t ≤ far.t := by
  fun_induction spans hits with
  | case1 near' far' rest ih =>
    rcases List.mem_cons.mp h with heq | hrest
    · cases heq
      exact hs.head_le (by simp)
    · exact ih hs.tail.tail hrest
  | case2 => cases h

/-- The spans that a walk has in front of it. Inside a solid, the exit comes first that belongs to
the span in which the walk is. -/
def spansAhead (inside : Bool) (hits : List (Hit α σ)) : List (Hit α σ × Hit α σ) :=
  spans (if inside then hits.tail else hits)

/-- The span lies in what a walk has left of a solid: in front of the exit that ends the span that
the walk is in, or in a span ahead that starts before it. -/
def Within (inside : Bool) (hits : List (Hit α σ)) (near far : Hit α σ) : Prop :=
  (inside = true ∧ ∃ exit ∈ hits.head?, far.t ≤ exit.t) ∨
    ∃ near' far', (near', far') ∈ spansAhead inside hits ∧ near'.t < near.t ∧ far.t ≤ far'.t

/-! ### One step of the walk -/

variable [OrderedScalar α]

/-- Where crossings meet, the first solid goes first if it is entered there or the second is left. So
if it does not go first, although it is entered or the second is left, the two do not meet. -/
theorem lt_of_not_precedes {a b : Hit α σ} (ha : a.t ≤ a.t) (hb : b.t ≤ b.t)
    (h : ¬ a.precedes b) (hfirst : a.crossing = .entry ∨ b.crossing = .exit) : b.t < a.t := by
  have hle : b.t ≤ a.t := le_of_not_precedes ha hb h
  refine OrderedScalar.lt_iff.mpr ⟨hle, fun hge => h ?_⟩
  rw [precedes, if_pos (OrderedScalar.beq_iff.mpr ⟨hge, hle⟩)]
  simpa using hfirst

/-- No span of crossings ahead starts before a parameter that all of them are behind. -/
theorem not_lt_of_mem_spansAhead {inside : Bool} {bs : List (Hit α σ)} {t : α}
    (hle : ∀ b ∈ bs, t ≤ b.t) {near far : Hit α σ} (h : (near, far) ∈ spansAhead inside bs) :
    ¬ near.t < t := by
  have hmem : near ∈ bs := by
    cases inside with
    | true => exact List.mem_of_mem_tail (mem_of_mem_spans h).1
    | false => exact (mem_of_mem_spans h).1
  exact fun hlt => (OrderedScalar.lt_iff.mp hlt).2 (hle near hmem)

/-- The walk has nothing to keep: the second solid is not left before the span of the first ends in
which the walk is, and holds the spans of the first that are ahead. -/
structure Covered (inA inB : Bool) (as bs : List (Hit α σ)) : Prop where
  pending : inA = true → ∃ a ∈ as.head?, ∃ b ∈ bs.head?, a.t ≤ b.t
  ahead : ∀ near far, (near, far) ∈ spansAhead inA as → Within inB bs near far

omit [OrderedScalar α] in
/-- In front of the first solid only the spans ahead count. -/
theorem covered_false_iff {inB : Bool} {as bs : List (Hit α σ)} :
    Covered false inB as bs ↔ ∀ near far, (near, far) ∈ spans as → Within inB bs near far :=
  ⟨Covered.ahead, fun h => ⟨fun hin => absurd hin (by decide), h⟩⟩

omit [Scalar α] [OrderedScalar α] in
/-- What is entered is left again. -/
theorem exists_exit {a : Hit α σ} {as : List (Hit α σ)} (h : Alternates true (a :: as)) :
    ∃ exit rest, as = exit :: rest := by
  cases as with
  | nil => simp [Alternates] at h
  | cons exit rest => exact ⟨exit, rest, rfl⟩

/-- The first solid is entered outside of the second. -/
theorem not_covered_of_entry {a : Hit α σ} {as bs : List (Hit α σ)}
    (has : Alternates true (a :: as)) (hle : ∀ b ∈ bs, a.t ≤ b.t) :
    ¬ Covered false false (a :: as) bs := by
  intro hcovered
  obtain ⟨exit, rest, rfl⟩ := exists_exit has
  have hfirst : Within false bs a exit := hcovered.ahead a exit List.mem_cons_self
  rcases hfirst with ⟨h, -⟩ | ⟨near, far, hmem, hlt, -⟩
  · cases h
  · exact not_lt_of_mem_spansAhead hle hmem hlt

/-- The first solid is entered inside of the second: the walk is now in the span that was ahead. -/
theorem covered_entry_iff {a : Hit α σ} {as bs : List (Hit α σ)} (has : Alternates true (a :: as))
    (hle : ∀ b ∈ bs, a.t ≤ b.t) :
    Covered false true (a :: as) bs ↔ Covered true true as bs := by
  obtain ⟨exit, rest, rfl⟩ := exists_exit has
  rw [covered_false_iff]
  constructor
  · intro h
    refine ⟨fun _ => ?_, fun near far hmem => h near far (List.mem_cons_of_mem _ hmem)⟩
    -- The first span is covered by the one that is open, since none further on starts before it.
    rcases h a exit List.mem_cons_self with ⟨-, b, hb, hfar⟩ | ⟨near, far, hmem, hlt, -⟩
    · exact ⟨exit, rfl, b, hb, hfar⟩
    · exact absurd hlt (not_lt_of_mem_spansAhead hle hmem)
  · intro h near far hmem
    rcases List.mem_cons.mp hmem with heq | hmem
    · cases heq
      obtain ⟨exit', hexit, b, hb, hfar⟩ := h.pending rfl
      cases hexit
      exact Or.inl ⟨rfl, b, hb, hfar⟩
    · exact h.ahead near far hmem

omit [OrderedScalar α] in
/-- The first solid is left inside of the second. -/
theorem covered_exit_iff {a b : Hit α σ} {as bs : List (Hit α σ)} (hle : a.t ≤ b.t) :
    Covered true true (a :: as) (b :: bs) ↔ Covered false true as (b :: bs) := by
  rw [covered_false_iff]
  exact ⟨fun h => h.ahead, fun h => ⟨fun _ => ⟨a, rfl, b, rfl, hle⟩, h⟩⟩

omit [OrderedScalar α] in
/-- The second solid is entered outside of the first: the walk is now in the span that was ahead. -/
theorem covered_entry_right_iff {b : Hit α σ} {as bs : List (Hit α σ)}
    (hbs : Alternates true (b :: bs)) (hlt : ∀ a ∈ as, b.t < a.t) :
    Covered false false as (b :: bs) ↔ Covered false true as bs := by
  obtain ⟨exit, rest, rfl⟩ := exists_exit hbs
  -- A span of the first solid is within the span that begins here just if it is within the open one
  -- afterwards.
  have hwithin : ∀ near far, near ∈ as →
      (Within false (b :: exit :: rest) near far ↔ Within true (exit :: rest) near far) := by
    intro near far hnear
    constructor
    · rintro (⟨h, -⟩ | ⟨near', far', hmem, hnear', hfar'⟩)
      · cases h
      · rcases List.mem_cons.mp hmem with heq | hmem
        · cases heq
          exact Or.inl ⟨rfl, exit, rfl, hfar'⟩
        · exact Or.inr ⟨near', far', hmem, hnear', hfar'⟩
    · rintro (⟨-, exit', hexit, hfar⟩ | ⟨near', far', hmem, hnear', hfar'⟩)
      · cases hexit
        exact Or.inr ⟨b, exit, List.mem_cons_self, hlt near hnear, hfar⟩
      · exact Or.inr ⟨near', far', List.mem_cons_of_mem _ hmem, hnear', hfar'⟩
  rw [covered_false_iff, covered_false_iff]
  refine forall₃_congr fun near far hmem => ?_
  exact hwithin near far (mem_of_mem_spans hmem).1

/-- The second solid is left outside of the first, where its exit ends no span that is ahead. -/
theorem covered_exit_right_iff {b : Hit α σ} {as bs : List (Hit α σ)} (has : InOrder as)
    (hlt : ∀ a ∈ as, b.t < a.t) : Covered false true as (b :: bs) ↔ Covered false false as bs := by
  rw [covered_false_iff, covered_false_iff]
  refine forall₃_congr fun near far hmem => ?_
  constructor
  · -- The open span ends here, before anything of the first solid begins, so it covers nothing.
    rintro (⟨-, exit, hexit, hfar⟩ | hahead)
    · cases hexit
      have hback : far.t < near.t :=
        OrderedScalar.lt_of_le_of_lt hfar (hlt near (mem_of_mem_spans hmem).1)
      exact absurd (has.near_le_far hmem) (OrderedScalar.lt_iff.mp hback).2
    · exact Or.inr hahead
  · rintro (⟨hin, -⟩ | hahead)
    · cases hin
    · exact Or.inr hahead

/-- The second solid is left inside of the first. -/
theorem not_covered_of_exit_right {a b : Hit α σ} {as bs : List (Hit α σ)} (hlt : b.t < a.t) :
    ¬ Covered true true (a :: as) (b :: bs) := by
  intro h
  obtain ⟨a', ha', b', hb', hle⟩ := h.pending rfl
  cases ha'
  cases hb'
  exact (OrderedScalar.lt_iff.mp hlt).2 hle

/-! ### The whole walk -/

omit [OrderedScalar α] in
/-- A crossing is dropped just if it does not change what is solid. -/
theorem keep_eq_nil_iff (h : Hit α σ) (before after : Bool) (rest : List (Hit α σ)) :
    h.keep before after rest = [] ↔ before = after ∧ rest = [] := by
  rw [keep]
  split <;> simp_all

omit [Scalar α] [OrderedScalar α] in
/-- The first crossing of an alternating list is an entry just if the line is outside. -/
theorem Alternates.decide_head {outside : Bool} {h : Hit α σ} {hits : List (Hit α σ)}
    (halt : Alternates outside (h :: hits)) : decide (h.crossing = .entry) = outside := by
  rw [halt.1]
  cases outside <;> rfl

/-- **A step of the first solid.** Its crossing is kept just where it is entered outside of the second
solid, which then does not cover it. At any other the question goes on to what is behind. -/
theorem keep_first_eq_nil_iff {inA inB : Bool} {a b : Hit α σ} {as bs rest : List (Hit α σ)}
    (has : Alternates (!inA) (a :: as)) (hle : ∀ b' ∈ b :: bs, a.t ≤ b'.t)
    (hin : inA = true → inB = true)
    (hrest : ((!inA) = true → inB = true) → (rest = [] ↔ Covered (!inA) inB as (b :: bs))) :
    a.keep (Join.difference.holds inA inB) (Join.difference.holds (!inA) inB) rest = [] ↔
      Covered inA inB (a :: as) (b :: bs) := by
  rw [keep_eq_nil_iff]
  cases inA with
  | true =>
    -- Inside the first solid the line is inside the second, too, so the exit is dropped.
    obtain rfl : inB = true := hin rfl
    rw [hrest (by simp), Bool.not_true, covered_exit_iff (hle b List.mem_cons_self)]
    simp [Join.holds]
  | false =>
    cases inB with
    | true =>
      rw [hrest (by simp), Bool.not_false, covered_entry_iff has hle]
      simp [Join.holds]
    | false => simp [Join.holds, not_covered_of_entry has hle]

/-- **A step of the second solid.** Its crossing is kept just where it is left inside of the first
solid, which it then does not cover. At any other the question goes on to what is behind. -/
theorem keep_second_eq_nil_iff {inA inB : Bool} {a b : Hit α σ} {as bs rest : List (Hit α σ)}
    (has : Alternates (!inA) (a :: as)) (hbs : Alternates (!inB) (b :: bs)) (ha : InOrder (a :: as))
    (hlt : a.crossing = .entry ∨ b.crossing = .exit → ∀ a' ∈ a :: as, b.t < a'.t)
    (hin : inA = true → inB = true)
    (hrest : (inA = true → (!inB) = true) → (rest = [] ↔ Covered inA (!inB) (a :: as) bs)) :
    b.keep (Join.difference.holds inA inB) (Join.difference.holds inA (!inB)) rest = [] ↔
      Covered inA inB (a :: as) (b :: bs) := by
  rw [keep_eq_nil_iff]
  cases inA with
  | true =>
    obtain rfl : inB = true := hin rfl
    -- The second solid is left first, so a piece of the first one sticks out.
    have hba : b.t < a.t := hlt (Or.inr hbs.1) a List.mem_cons_self
    simp [Join.holds, not_covered_of_exit_right hba]
  | false =>
    have hbehind := hlt (Or.inl has.1)
    cases inB with
    | true =>
      rw [hrest (by simp), Bool.not_true, covered_exit_right_iff ha hbehind]
      simp [Join.holds]
    | false =>
      rw [hrest (by simp), Bool.not_false, covered_entry_right_iff hbs hbehind]
      simp [Join.holds]

/-- **A difference keeps nothing just if the second solid covers the first**, from any state of the
walk but in the first solid alone. -/
theorem mergeFrom_difference_eq_nil_iff {inA inB : Bool} {as bs : List (Hit α σ)}
    (has : Alternates (!inA) as) (hbs : Alternates (!inB) bs) (ha : InOrder as) (hb : InOrder bs)
    (hin : inA = true → inB = true) :
    mergeFrom Join.difference.holds inA inB as bs = [] ↔ Covered inA inB as bs := by
  fun_induction mergeFrom Join.difference.holds inA inB as bs with
  | case1 inA inB =>
    obtain rfl : inA = false := by simpa [Alternates] using has
    simp [covered_false_iff, spans]
  | case2 inA inB a as entering ih =>
    -- The second solid has been left, so the walk is outside both.
    obtain rfl : inB = false := by simpa [Alternates] using hbs
    obtain rfl : inA = false := by simpa using hin
    have hentering : entering = true := has.decide_head
    have hnot : ¬ Covered false false (a :: as) [] := not_covered_of_entry has (by simp)
    simp [keep_eq_nil_iff, Join.holds, hentering, hnot]
  | case3 inA inB b bs entering ih =>
    -- Behind the first solid the second makes no difference.
    obtain rfl : inA = false := by simpa [Alternates] using has
    have hentering : entering = !inB := hbs.decide_head
    rw [keep_eq_nil_iff, ih has (hentering ▸ hbs.2) ha hb.tail (by simp)]
    simp [Join.holds, covered_false_iff, spans]
  | case4 inA inB a as b bs h entering ih =>
    have hentering : entering = !inA := has.decide_head
    have hle : ∀ b' ∈ b :: bs, a.t ≤ b'.t :=
      fun b' hb' => OrderedScalar.le_trans (le_of_precedes h) (hb.head_le hb')
    clear_value entering
    subst hentering
    exact keep_first_eq_nil_iff has hle hin (ih has.2 hbs ha.tail hb)
  | case5 inA inB a as b bs h entering ih =>
    have hentering : entering = !inB := hbs.decide_head
    -- An entry of the first solid, or any crossing of it in front of an exit of the second, would go
    -- first where the two meet.
    have hlt : a.crossing = .entry ∨ b.crossing = .exit → ∀ a' ∈ a :: as, b.t < a'.t := by
      intro hfirst a' ha'
      exact OrderedScalar.lt_of_lt_of_le (lt_of_not_precedes (ha.comparable a (by simp))
        (hb.comparable b (by simp)) h hfirst) (ha.head_le ha')
    clear_value entering
    subst hentering
    exact keep_second_eq_nil_iff has hbs ha hlt hin (ih has hbs.2 ha hb.tail)

end Hit

namespace Scene

variable {σ : Type}

/-- **What a difference leaves.** Where every primitive has a span or nothing on the line, the
difference of two scenes has no crossing just if each span of the first starts behind the start of a
span of the second, and ends not behind its end. -/
theorem hits_difference_eq_nil_iff (a b : Scene Float σ) (origin direction : Vec3 Float)
    (ha : ∀ p ∈ a.primitives, Hit.IsSpan (p.hits origin direction))
    (hb : ∀ p ∈ b.primitives, Hit.IsSpan (p.hits origin direction)) :
    (join .difference a b).hits origin direction = [] ↔
      ∀ near far, (near, far) ∈ Hit.spans (a.hits origin direction) →
        ∃ near' far', (near', far') ∈ Hit.spans (b.hits origin direction) ∧
          near'.t < near.t ∧ far.t ≤ far'.t := by
  obtain ⟨hsortedA, haltA⟩ := regular_hits a origin direction ha
  obtain ⟨hsortedB, haltB⟩ := regular_hits b origin direction hb
  have hwalk : Hit.mergeFrom Join.difference.holds false false (a.hits origin direction)
      (b.hits origin direction) = [] ↔ Hit.Covered false false _ _ :=
    Hit.mergeFrom_difference_eq_nil_iff haltA haltB hsortedA hsortedB id
  rw [hits, Hit.merge, hwalk, Hit.covered_false_iff]
  simp [Hit.Within, Hit.spansAhead]

/-- Half a cube, left at the same place as the whole cube, is taken away by it. -/
theorem hits_difference_eq_nil_iff_half_cube :
    let half : Scene Float Unit := .primitive ⟨.cube, (), ⟨.scaling 1 1 0.5, .scaling 1 1 2⟩⟩
    let whole : Scene Float Unit := .atOrigin .cube ()
    let origin : Vec3 Float := ⟨0.5, 0.5, 2⟩
    let direction : Vec3 Float := ⟨0, 0, -1⟩
    (∀ p ∈ half.primitives, Hit.IsSpan (p.hits origin direction)) ∧
    (∀ p ∈ whole.primitives, Hit.IsSpan (p.hits origin direction)) ∧
    half.hits origin direction ≠ [] ∧
    (join .difference half whole).hits origin direction = [] := by
  intro half whole origin direction
  have hhalf : ∀ p ∈ half.primitives, Hit.IsSpan (p.hits origin direction) := by
    simp only [Primitive.isSpan_hits_iff]
    decide +kernel
  have hwhole : ∀ p ∈ whole.primitives, Hit.IsSpan (p.hits origin direction) := by
    simp only [Primitive.isSpan_hits_iff]
    decide +kernel
  -- The half is entered behind the whole cube and left with it at the latest.
  have hwithin : ∀ s ∈ Hit.spans (half.hits origin direction),
      ∃ s' ∈ Hit.spans (whole.hits origin direction), s'.1.t < s.1.t ∧ s.2.t ≤ s'.2.t := by
    decide +kernel
  refine ⟨hhalf, hwhole, by decide +kernel, ?_⟩
  refine (hits_difference_eq_nil_iff half whole origin direction hhalf hwhole).mpr ?_
  intro near far hspan
  obtain ⟨⟨near', far'⟩, hmem, hends⟩ := hwithin (near, far) hspan
  exact ⟨near', far', hmem, hends⟩

/-- A cube is not taken away by itself: a skin of no thickness is left where the line enters it. -/
theorem difference_with_itself_leaves_skin :
    let cube : Scene Float Unit := .atOrigin .cube ()
    let origin : Vec3 Float := ⟨0.5, 0.5, -1⟩
    let direction : Vec3 Float := ⟨0, 0, 1⟩
    (∀ p ∈ cube.primitives, Hit.IsSpan (p.hits origin direction)) ∧
    (∀ near far, (near, far) ∈ Hit.spans (cube.hits origin direction) →
      ∃ near' far', (near', far') ∈ Hit.spans (cube.hits origin direction) ∧
        near'.t ≤ near.t ∧ far.t ≤ far'.t) ∧
    ((join .difference cube cube).hits origin direction).map (·.crossing) = [.entry, .exit] ∧
    ∀ h ∈ (join .difference cube cube).hits origin direction, (h.t == 1) = true := by
  intro cube origin direction
  have hspan : ∀ p ∈ cube.primitives, Hit.IsSpan (p.hits origin direction) := by
    simp only [Primitive.isSpan_hits_iff]
    decide +kernel
  -- A crossing can be compared with itself.
  have hcomparable := (regular_hits cube origin direction hspan).inOrder.comparable
  refine ⟨hspan, fun near far h => ⟨near, far, h, ?_, ?_⟩, by decide +kernel, by decide +kernel⟩
  · exact hcomparable near (Hit.mem_of_mem_spans h).1
  · exact hcomparable far (Hit.mem_of_mem_spans h).2

end Scene

end SceneTracer
