import SceneTracer.Proofs.Scalar.Order
import SceneTracer.Scene.Membership
import Mathlib.Algebra.Group.Nat.Even

namespace SceneTracer

/-!
# The walk along two lists of crossings

Joining two solids is done in two steps: the crossings of both are put in one sequence, in which
those of each stay in their own order, and a walk along the sequence keeps the crossings at which
membership in the joined solid changes.

* `Hit.interleave`, `Hit.walk` — the two steps, and `Hit.mergeFrom_eq_walk` that they are the merge.
* `Hit.insideAfter` — whether a list of crossings leads inside; `Hit.insideAfter_walk` says that the
  walk follows the rule of the join, and `Hit.alternates_walk_iff` that what it keeps alternates.
* `Hit.alternates_merge` — merging keeps crossings alternating, in whatever order they are.
* `Hit.Regular` — crossings in order that alternate; merging keeps this (`Hit.Regular.merge`).
* `Hit.insideAt_merge` — membership in the joined solid, at every parameter.
* `Scene.forall_hits`, `Scene.primitive_mem_of_mem_hits` — what relabelling keeps goes from the
  crossings of primitives to those of a scene, as which primitive a crossing is on.
-/

namespace Hit

variable {α σ : Type} [Scalar α]

/-! ### The two steps of the merge -/

/-- The crossings of two solids in the order in which the merge takes them. Those of the first solid
are on the left. -/
def interleave : List (Hit α σ) → List (Hit α σ) → List (Hit α σ ⊕ Hit α σ)
  | [], bs => bs.map .inr
  | as, [] => as.map .inl
  | a :: as, b :: bs =>
    if a.precedes b then .inl a :: interleave as (b :: bs) else .inr b :: interleave (a :: as) bs
termination_by as bs => as.length + bs.length

/-- Whether a crossing leads inside. -/
def entering (h : Hit α σ) : Bool := decide (h.crossing = .entry)

/-- Keeps the crossings of a sequence at which membership in the solid joined by `rule` changes. -/
def walk (rule : Bool → Bool → Bool) (inA inB : Bool) : List (Hit α σ ⊕ Hit α σ) → List (Hit α σ)
  | [] => []
  | .inl a :: es =>
    a.keep (rule inA inB) (rule a.entering inB) (walk rule a.entering inB es)
  | .inr b :: es =>
    b.keep (rule inA inB) (rule inA b.entering) (walk rule inA b.entering es)

/-- With nothing on one side, what is left is the other side. -/
theorem interleave_nil_left (bs : List (Hit α σ)) : interleave [] bs = bs.map .inr := by
  rw [interleave]

theorem interleave_nil_right (as : List (Hit α σ)) : interleave as [] = as.map .inl := by
  cases as with
  | nil => rw [interleave]; rfl
  | cons a as => rw [interleave]; simp

/-- **The merge is the walk along the interleaved crossings.** -/
theorem mergeFrom_eq_walk (rule : Bool → Bool → Bool) (inA inB : Bool) (as bs : List (Hit α σ)) :
    mergeFrom rule inA inB as bs = walk rule inA inB (interleave as bs) := by
  -- The two recursions take the same crossing first in each case.
  fun_induction mergeFrom rule inA inB as bs with
  | case1 => simp [interleave_nil_left, walk]
  | case2 inA inB a as entering ih =>
    rw [ih, interleave_nil_right, interleave_nil_right]
    rfl
  | case3 inA inB b bs entering ih =>
    rw [ih, interleave_nil_left, interleave_nil_left]
    rfl
  | case4 inA inB a as b bs h entering ih =>
    rw [ih, interleave, if_pos h]
    rfl
  | case5 inA inB a as b bs h entering ih =>
    rw [ih, interleave, if_neg h]
    rfl

/-- Interleaving keeps the crossings of the first solid in their order. -/
theorem lefts_interleave (as bs : List (Hit α σ)) :
    (interleave as bs).filterMap Sum.getLeft? = as := by
  fun_induction interleave as bs with
  | case1 bs => simp [List.filterMap_map, Function.comp_def]
  | case2 as => simp [List.filterMap_map, Function.comp_def]
  | case3 a as b bs h ih => simpa using ih
  | case4 a as b bs h ih => rw [List.filterMap_cons_none rfl, ih]

/-- Interleaving keeps the crossings of the second solid in their order. -/
theorem rights_interleave (as bs : List (Hit α σ)) :
    (interleave as bs).filterMap Sum.getRight? = bs := by
  fun_induction interleave as bs with
  | case1 bs => simp [List.filterMap_map, Function.comp_def]
  | case2 as => simp [List.filterMap_map, Function.comp_def]
  | case3 a as b bs h ih => rw [List.filterMap_cons_none rfl, ih]
  | case4 a as b bs h ih => simpa using ih

/-! ### Membership along a walk -/

/-- Whether crossings lead inside, when the place in front of them is inside if `inside`. -/
def insideAfter (inside : Bool) : List (Hit α σ) → Bool
  | [] => inside
  | h :: hits => insideAfter h.entering hits

omit [Scalar α] in
/-- Where the line is at the end depends on the last crossing alone. -/
theorem insideAfter_eq_getLast? (inside : Bool) (hits : List (Hit α σ)) :
    insideAfter inside hits = hits.getLast?.elim inside entering := by
  induction hits generalizing inside with
  | nil => rfl
  | cons h hits ih =>
    rw [insideAfter, ih, List.getLast?_cons]
    cases hits.getLast? <;> rfl

/-- Membership at a parameter is what the crossings in front of it lead to from outside. -/
theorem insideAt_eq_insideAfter (hits : List (Hit α σ)) (t : α) :
    insideAt hits t = insideAfter false (hits.filter fun h => decide (h.t < t)) := by
  rw [insideAfter_eq_getLast?, insideAt]
  cases (hits.filter fun h => decide (h.t < t)).getLast? <;> rfl

/-- A crossing that is kept or dropped leaves the line where the rule says. -/
theorem insideAfter_keep (h : Hit α σ) (before after : Bool) (rest : List (Hit α σ)) :
    insideAfter before (h.keep before after rest) = insideAfter after rest := by
  rw [keep]
  split
  · rename_i heq
    rw [heq]
  · -- What is kept has the direction that membership changes in.
    rw [insideAfter]
    congr 1
    rw [entering, relabel]
    split
    · rename_i hcrossing
      cases after <;> simp [hcrossing, Crossing.ofInside]
    · cases after <;> simp [Crossing.ofInside]

/-- **The walk follows the rule.** What is kept leads where the rule puts the ends of both
operands. -/
theorem insideAfter_walk (rule : Bool → Bool → Bool) (inA inB : Bool)
    (es : List (Hit α σ ⊕ Hit α σ)) :
    insideAfter (rule inA inB) (walk rule inA inB es)
      = rule (insideAfter inA (es.filterMap Sum.getLeft?))
          (insideAfter inB (es.filterMap Sum.getRight?)) := by
  induction es generalizing inA inB with
  | nil => rfl
  | cons e es ih =>
    cases e with
    | inl a =>
      rw [walk, insideAfter_keep, ih]
      rfl
    | inr b =>
      rw [walk, insideAfter_keep, ih]
      rfl

/-! ### What a walk keeps alternates -/

/-- A crossing is kept just if it changes what is solid, so the list alternates. -/
theorem alternates_keep_iff (h : Hit α σ) (before after : Bool) (rest : List (Hit α σ)) :
    Alternates (!before) (h.keep before after rest) ↔ Alternates (!after) rest := by
  rw [keep]
  split
  · rename_i heq
    rw [heq]
  · rename_i hne
    have hafter : after = !before := by cases before <;> cases after <;> simp_all
    have hrelabel : (h.relabel after).crossing = .ofInside after := by
      rw [relabel]
      split <;> simp_all
    rw [Alternates, hrelabel, hafter]
    simp

/-- **What a walk keeps alternates**, and it ends outside if the rule puts the ends of both operands
outside. -/
theorem alternates_walk_iff (rule : Bool → Bool → Bool) (inA inB : Bool)
    (es : List (Hit α σ ⊕ Hit α σ)) :
    Alternates (!rule inA inB) (walk rule inA inB es) ↔
      rule (insideAfter inA (es.filterMap Sum.getLeft?))
        (insideAfter inB (es.filterMap Sum.getRight?)) = false := by
  induction es generalizing inA inB with
  | nil => simp [walk, Alternates, insideAfter]
  | cons e es ih =>
    cases e with
    | inl a =>
      rw [walk, alternates_keep_iff, ih]
      rfl
    | inr b =>
      rw [walk, alternates_keep_iff, ih]
      rfl

omit [Scalar α] in
/-- Crossings that alternate lead outside. -/
theorem insideAfter_of_alternates {inside : Bool} {hits : List (Hit α σ)}
    (h : Alternates (!inside) hits) : insideAfter inside hits = false := by
  induction hits generalizing inside with
  | nil => simpa [Alternates, insideAfter] using h
  | cons k hits ih =>
    obtain ⟨hk, hrest⟩ := h
    rw [insideAfter]
    refine ih ?_
    rw [entering, hk]
    cases inside <;> simpa [Crossing.ofInside] using hrest

omit [Scalar α] in
/-- Crossings that alternate from outside are even in number. -/
theorem even_length_of_alternates {outside : Bool} {hits : List (Hit α σ)}
    (h : Alternates outside hits) : Even hits.length ↔ outside = true := by
  induction hits generalizing outside with
  | nil => simpa [Alternates] using h
  | cons k hits ih =>
    rw [List.length_cons, Nat.even_add_one, ih h.2]
    simp

/-- **Merging keeps crossings alternating**, from outside to outside. -/
theorem alternates_merge {as bs : List (Hit α σ)} (has : Alternates true as)
    (hbs : Alternates true bs) {rule : Bool → Bool → Bool} (hrule : rule false false = false) :
    Alternates true (merge rule as bs) := by
  -- Both operands end outside, where the rule puts the joined solid outside too.
  have hends : insideAfter false as = false ∧ insideAfter false bs = false :=
    ⟨insideAfter_of_alternates has, insideAfter_of_alternates hbs⟩
  have hwalk := alternates_walk_iff rule false false (interleave as bs)
  rw [lefts_interleave, rights_interleave, hends.1, hends.2, hrule] at hwalk
  rw [Hit.merge, mergeFrom_eq_walk]
  exact hwalk.mpr rfl

/-! ### Order -/

/-- The parameter of a crossing of either solid. -/
def time : Hit α σ ⊕ Hit α σ → α := Sum.elim (·.t) (·.t)

@[simp] theorem t_relabel (h : Hit α σ) (inside : Bool) : (h.relabel inside).t = h.t := by
  rw [relabel]
  split <;> rfl

@[simp] theorem primitive_relabel (h : Hit α σ) (inside : Bool) :
    (h.relabel inside).primitive = h.primitive := by
  rw [relabel]
  split <;> rfl

/-- What is in the list is the crossing as it has been kept, or one of the rest. -/
theorem eq_or_mem_of_mem_keep {h k : Hit α σ} {before after : Bool} {rest : List (Hit α σ)}
    (hk : k ∈ h.keep before after rest) : k = h.relabel after ∨ k ∈ rest := by
  rw [keep] at hk
  split at hk
  · exact Or.inr hk
  · exact List.mem_cons.mp hk

/-- Keeping or dropping a crossing selects parameters. -/
theorem keep_t_sublist (h : Hit α σ) (before after : Bool) (rest : List (Hit α σ)) {ts : List α}
    (hrest : (rest.map (·.t)).Sublist ts) :
    ((h.keep before after rest).map (·.t)).Sublist (h.t :: ts) := by
  rw [keep]
  split
  · exact hrest.cons _
  · rw [List.map_cons, t_relabel]
    exact hrest.cons_cons _

/-- What a walk keeps has parameters of the sequence, in its order. -/
theorem walk_t_sublist (rule : Bool → Bool → Bool) (inA inB : Bool)
    (es : List (Hit α σ ⊕ Hit α σ)) :
    ((walk rule inA inB es).map (·.t)).Sublist (es.map time) := by
  induction es generalizing inA inB with
  | nil => exact List.Sublist.refl _
  | cons e es ih =>
    cases e with
    | inl a => exact keep_t_sublist a _ _ _ (ih _ _)
    | inr b => exact keep_t_sublist b _ _ _ (ih _ _)

/-- What has been interleaved comes from one of the two lists. -/
theorem mem_interleave {as bs : List (Hit α σ)} {e : Hit α σ ⊕ Hit α σ}
    (he : e ∈ interleave as bs) : (∃ a ∈ as, e = .inl a) ∨ (∃ b ∈ bs, e = .inr b) := by
  cases e with
  | inl a =>
    refine Or.inl ⟨a, ?_, rfl⟩
    rw [← lefts_interleave as bs]
    exact List.mem_filterMap.mpr ⟨_, he, rfl⟩
  | inr b =>
    refine Or.inr ⟨b, ?_, rfl⟩
    rw [← rights_interleave as bs]
    exact List.mem_filterMap.mpr ⟨_, he, rfl⟩

/-- **Each crossing that a walk leaves is one that it has come to**, with its label and normal for
the joined solid. -/
theorem mem_walk {rule : Bool → Bool → Bool} {inA inB : Bool} {es : List (Hit α σ ⊕ Hit α σ)}
    {h : Hit α σ} (hh : h ∈ walk rule inA inB es) :
    ∃ k inside, (.inl k ∈ es ∨ .inr k ∈ es) ∧ h = k.relabel inside := by
  induction es generalizing inA inB with
  | nil => simp [walk] at hh
  | cons e es ih =>
    cases e with
    | inl a =>
      -- It is the first one, or one that the rest of the walk leaves.
      rcases eq_or_mem_of_mem_keep hh with rfl | hh
      · exact ⟨a, _, Or.inl List.mem_cons_self, rfl⟩
      · obtain ⟨k, inside, hk, rfl⟩ := ih hh
        exact ⟨k, inside, hk.imp (List.mem_cons_of_mem _) (List.mem_cons_of_mem _), rfl⟩
    | inr b =>
      rcases eq_or_mem_of_mem_keep hh with rfl | hh
      · exact ⟨b, _, Or.inr List.mem_cons_self, rfl⟩
      · obtain ⟨k, inside, hk, rfl⟩ := ih hh
        exact ⟨k, inside, hk.imp (List.mem_cons_of_mem _) (List.mem_cons_of_mem _), rfl⟩

/-- A crossing of joined solids is one of theirs, but for its direction. -/
theorem mem_merge {rule : Bool → Bool → Bool} {as bs : List (Hit α σ)} {h : Hit α σ}
    (hh : h ∈ merge rule as bs) : ∃ k inside, (k ∈ as ∨ k ∈ bs) ∧ h = k.relabel inside := by
  rw [merge, mergeFrom_eq_walk] at hh
  obtain ⟨k, inside, hk, heq⟩ := mem_walk hh
  refine ⟨k, inside, ?_, heq⟩
  rcases hk with hk | hk
  · exact Or.inl (by simpa using mem_interleave hk)
  · exact Or.inr (by simpa using mem_interleave hk)

/-- Crossings in order, with parameters that can be compared. -/
structure InOrder (hits : List (Hit α σ)) : Prop where
  comparable : ∀ h ∈ hits, h.t ≤ h.t
  sorted : (hits.map (·.t)).Pairwise (· ≤ ·)

/-- The first crossing is the nearest. -/
theorem InOrder.head_le {h k : Hit α σ} {hits : List (Hit α σ)} (hs : InOrder (h :: hits))
    (hk : k ∈ h :: hits) : h.t ≤ k.t := by
  rcases List.mem_cons.mp hk with rfl | hk
  · exact hs.comparable _ List.mem_cons_self
  · exact (List.pairwise_cons.mp hs.sorted).1 _ (List.mem_map_of_mem hk)

/-- What follows the first crossing is in order, too. -/
theorem InOrder.tail {h : Hit α σ} {hits : List (Hit α σ)} (hs : InOrder (h :: hits)) :
    InOrder hits :=
  ⟨fun k hk => hs.comparable k (List.mem_cons_of_mem _ hk), (List.pairwise_cons.mp hs.sorted).2⟩

variable [OrderedScalar α]

/-- What is taken first is no further away. -/
theorem le_of_precedes {a b : Hit α σ} (h : a.precedes b) : a.t ≤ b.t := by
  rw [precedes] at h
  split at h
  · rename_i heq
    exact (OrderedScalar.beq_iff.mp heq).1
  · exact OrderedScalar.le_of_lt (of_decide_eq_true h)

/-- Crossings with a parameter are comparable, so that what is not taken first is no nearer. -/
theorem le_of_not_precedes {a b : Hit α σ} (ha : a.t ≤ a.t) (hb : b.t ≤ b.t)
    (h : ¬ a.precedes b) : b.t ≤ a.t := by
  rw [precedes] at h
  split at h
  · rename_i heq
    exact (OrderedScalar.beq_iff.mp heq).2
  · exact OrderedScalar.le_of_not_lt ha hb fun hlt => h (decide_eq_true hlt)

/-- Interleaving two lists of crossings in order gives a sequence in order. -/
theorem interleave_sorted {as bs : List (Hit α σ)} (ha : InOrder as) (hb : InOrder bs) :
    ((interleave as bs).map time).Pairwise (· ≤ ·) := by
  fun_induction interleave as bs with
  | case1 bs => simpa [Function.comp_def, time] using hb.sorted
  | case2 as => simpa [Function.comp_def, time] using ha.sorted
  | case3 a as b bs h ih =>
    -- The first of `as` is in front of the others of `as`, and of the first of `bs`.
    refine List.pairwise_cons.mpr ⟨?_, ih ha.tail hb⟩
    intro t ht
    obtain ⟨e, he, rfl⟩ := List.mem_map.mp ht
    rcases mem_interleave he with ⟨a', ha', rfl⟩ | ⟨b', hb', rfl⟩
    · exact ha.head_le (List.mem_cons_of_mem _ ha')
    · exact OrderedScalar.le_trans (le_of_precedes h) (hb.head_le hb')
  | case4 a as b bs h ih =>
    have hba : b.t ≤ a.t :=
      le_of_not_precedes (ha.head_le List.mem_cons_self) (hb.head_le List.mem_cons_self) h
    refine List.pairwise_cons.mpr ⟨?_, ih ha hb.tail⟩
    intro t ht
    obtain ⟨e, he, rfl⟩ := List.mem_map.mp ht
    rcases mem_interleave he with ⟨a', ha', rfl⟩ | ⟨b', hb', rfl⟩
    · exact OrderedScalar.le_trans hba (ha.head_le ha')
    · exact hb.head_le (List.mem_cons_of_mem _ hb')

/-- Merging keeps crossings in order. -/
theorem InOrder.merge {as bs : List (Hit α σ)} (ha : InOrder as) (hb : InOrder bs)
    (rule : Bool → Bool → Bool) : InOrder (merge rule as bs) := by
  rw [Hit.merge, mergeFrom_eq_walk]
  have hsub := walk_t_sublist rule false false (interleave as bs)
  refine ⟨?_, (interleave_sorted ha hb).sublist hsub⟩
  intro h hh
  obtain ⟨e, he, heq⟩ := List.mem_map.mp (hsub.subset (List.mem_map_of_mem hh))
  rw [← heq]
  rcases mem_interleave he with ⟨a, ha', rfl⟩ | ⟨b, hb', rfl⟩
  · exact ha.comparable a ha'
  · exact hb.comparable b hb'

/-! ### Membership at a parameter -/

omit [OrderedScalar α] in
/-- Whether a crossing is kept is decided before those behind a parameter are dropped. -/
theorem filter_keep (h : Hit α σ) (before after : Bool) (rest : List (Hit α σ)) {t : α}
    (ht : h.t < t) :
    (h.keep before after rest).filter (fun k => decide (k.t < t))
      = h.keep before after (rest.filter fun k => decide (k.t < t)) := by
  rw [keep, keep]
  split
  · rfl
  · simp [ht]

/-- What a walk along a sequence in order keeps in front of a parameter is what the walk along the
part in front of it keeps. -/
theorem filter_walk (rule : Bool → Bool → Bool) (inA inB : Bool)
    {es : List (Hit α σ ⊕ Hit α σ)} (hs : (es.map time).Pairwise (· ≤ ·)) (t : α) :
    (walk rule inA inB es).filter (fun h => decide (h.t < t))
      = walk rule inA inB (es.filter fun e => decide (time e < t)) := by
  induction es generalizing inA inB with
  | nil => rfl
  | cons e es ih =>
    obtain ⟨hhead, htail⟩ := List.pairwise_cons.mp hs
    by_cases he : time e < t
    · simp only [List.filter_cons, he, decide_true, if_true]
      cases e with
      | inl a => rw [walk, filter_keep a _ _ _ he, ih _ _ htail, walk]
      | inr b => rw [walk, filter_keep b _ _ _ he, ih _ _ htail, walk]
    · -- Everything behind `e` is behind `t` too, so nothing is left on either side.
      have hnone : ∀ s ∈ (e :: es).map time, ¬ s < t := by
        intro s hmem
        rw [List.map_cons, List.mem_cons] at hmem
        rcases hmem with rfl | hmem
        · exact he
        · exact fun hst => he (OrderedScalar.lt_of_le_of_lt (hhead s hmem) hst)
      have hleft : (walk rule inA inB (e :: es)).filter (fun h => decide (h.t < t)) = [] := by
        rw [List.filter_eq_nil_iff]
        intro h hh
        have hmem := (walk_t_sublist rule inA inB (e :: es)).subset (List.mem_map_of_mem hh)
        simpa using hnone h.t hmem
      have hright : (e :: es).filter (fun e => decide (time e < t)) = [] := by
        rw [List.filter_eq_nil_iff]
        intro e' he'
        simpa using hnone (time e') (List.mem_map_of_mem he')
      rw [hleft, hright, walk]

omit [OrderedScalar α] in
/-- Picking the crossings of one solid commutes with dropping those behind a parameter. -/
theorem filterMap_filter_time {pick : Hit α σ ⊕ Hit α σ → Option (Hit α σ)}
    (hpick : ∀ e h, pick e = some h → h.t = time e) (es : List (Hit α σ ⊕ Hit α σ)) (t : α) :
    (es.filter fun e => decide (time e < t)).filterMap pick
      = (es.filterMap pick).filter fun h => decide (h.t < t) := by
  induction es with
  | nil => rfl
  | cons e es ih =>
    cases he : pick e with
    | none => by_cases ht : time e < t <;> simp [ht, he, ih]
    | some h => by_cases ht : time e < t <;> simp [ht, he, ih, hpick e h he]

/-- **Membership in a joined solid.** A parameter is inside the merged crossings if the rule says so
of membership in the two operands. -/
theorem insideAt_merge {as bs : List (Hit α σ)} (ha : InOrder as) (hb : InOrder bs)
    {rule : Bool → Bool → Bool} (hrule : rule false false = false) (t : α) :
    insideAt (merge rule as bs) t = rule (insideAt as t) (insideAt bs t) := by
  calc insideAt (merge rule as bs) t
      = insideAfter (rule false false)
          ((walk rule false false (interleave as bs)).filter fun h => decide (h.t < t)) := by
        rw [insideAt_eq_insideAfter, Hit.merge, mergeFrom_eq_walk, hrule]
    _ = insideAfter (rule false false)
          (walk rule false false ((interleave as bs).filter fun e => decide (time e < t))) := by
        rw [filter_walk rule false false (interleave_sorted ha hb) t]
    _ = rule (insideAt as t) (insideAt bs t) := by
        -- Of either operand, the crossings before the parameter are left.
        have hleft : ∀ (e : Hit α σ ⊕ Hit α σ) h, e.getLeft? = some h → h.t = time e := by
          rintro (a | b) h ⟨⟩
          rfl
        have hright : ∀ (e : Hit α σ ⊕ Hit α σ) h, e.getRight? = some h → h.t = time e := by
          rintro (a | b) h ⟨⟩
          rfl
        rw [insideAfter_walk, filterMap_filter_time hleft, filterMap_filter_time hright,
          lefts_interleave, rights_interleave, ← insideAt_eq_insideAfter,
          ← insideAt_eq_insideAfter]

/-! ### Regular lists of crossings -/

/-- Crossings in order that alternate between entries and exits, from outside to outside. -/
structure Regular (hits : List (Hit α σ)) : Prop where
  inOrder : InOrder hits
  alternates : Alternates true hits

/-- **Merging keeps crossings regular**, whatever they are joined by. -/
theorem Regular.merge {as bs : List (Hit α σ)} (ha : Regular as) (hb : Regular bs)
    {rule : Bool → Bool → Bool} (hrule : rule false false = false) :
    Regular (merge rule as bs) :=
  ⟨ha.inOrder.merge hb.inOrder rule, alternates_merge ha.alternates hb.alternates hrule⟩

end Hit

/-! ### Scenes -/

/-- Both ends of a span are on its primitive. -/
theorem Primitive.primitive_of_mem_hits {α σ : Type} [Scalar α] {p : Primitive α σ}
    {origin direction : Vec3 α} {h : Hit α σ} (hh : h ∈ p.hits origin direction) :
    h.primitive = p := by
  rw [Primitive.hits] at hh
  split at hh
  · exact absurd hh (by simp)
  · rcases List.mem_cons.mp hh with rfl | hh
    · rfl
    · rw [List.mem_singleton.mp hh]
      rfl

namespace Scene

variable {α σ : Type} [Scalar α]

/-- What holds of the crossings of every primitive, and goes on holding when a crossing is relabelled,
holds of all crossings of a scene. -/
theorem forall_hits {P : Hit α σ → Prop} (hrelabel : ∀ h inside, P h → P (h.relabel inside))
    {s : Scene α σ} {origin direction : Vec3 α}
    (hs : ∀ p ∈ s.primitives, ∀ h ∈ p.hits origin direction, P h) :
    ∀ h ∈ s.hits origin direction, P h := by
  induction s with
  | primitive p => exact hs p (List.mem_singleton_self p)
  | join how a b iha ihb =>
    intro h hh
    obtain ⟨k, inside, hk, rfl⟩ := Hit.mem_merge hh
    apply hrelabel
    rcases hk with hk | hk
    · exact iha (fun p hp => hs p (List.mem_append_left _ hp)) k hk
    · exact ihb (fun p hp => hs p (List.mem_append_right _ hp)) k hk

/-- Every crossing of a scene is on one of its primitives. -/
theorem primitive_mem_of_mem_hits {s : Scene α σ} {origin direction : Vec3 α} {h : Hit α σ}
    (hh : h ∈ s.hits origin direction) : h.primitive ∈ s.primitives := by
  refine forall_hits (P := fun k => k.primitive ∈ s.primitives) (fun k inside hk => ?_)
    (fun p hp k hk => ?_) h hh
  · rwa [Hit.primitive_relabel]
  · rwa [Primitive.primitive_of_mem_hits hk]

end Scene

end SceneTracer
