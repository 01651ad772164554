import Mathlib.Data.List.Forall2
import SceneTracer.Proofs.Scene.Crossings

namespace SceneTracer

/-!
# What a merge selects

Nothing is assumed here about the crossings of two solids: they may be out of order, lead inside
twice, or have parameters that cannot be compared. The walk along them still takes each of them just
once, and what it keeps is a selection of them. Which way a kept crossing leads is up to the state of
the walk alone, so entries and exits take turns.

* `Hit.site`, `Hit.IsViewOf` — what no walk changes about a crossing, and a crossing seen the one way
  or the other.
* `Hit.exists_kept_walk` — what a walk keeps are views of a selection of what it takes.
* `Hit.isChain_walk` — what a walk keeps takes turns, from the place where the walk starts.
* `Scene.subperm_hits` — the crossings of a scene, from those of its primitives.
* `Scene.hits_select_and_take_turns` — merges and scenes.
-/

variable {α σ : Type}

namespace Hit

/-- Where a crossing is, and on which face of which primitive. -/
structure Site (α σ : Type) where
  t : α
  point : Vec3 α
  objectPoint : Vec3 α
  primitive : Primitive α σ
  face : Face

/-- What stays of a crossing, whichever way it is seen. -/
def site (h : Hit α σ) : Site α σ := ⟨h.t, h.point, h.objectPoint, h.primitive, h.face⟩

/-- The crossing that a walk takes, of either solid. -/
def either : Hit α σ ⊕ Hit α σ → Hit α σ := Sum.elim id id

variable [Scalar α]

/-- The crossing `h` is the crossing `k`, seen as it was or the other way round. -/
structure IsViewOf (h k : Hit α σ) : Prop where
  site : h.site = k.site
  turned : (h.crossing = k.crossing ∧ h.normal = k.normal) ∨
    (h.crossing ≠ k.crossing ∧ h.normal = -k.normal)

/-- A crossing that is seen the other way round is a view of it. -/
theorem isViewOf_relabel (h : Hit α σ) (inside : Bool) : (h.relabel inside).IsViewOf h := by
  unfold relabel
  split
  · exact ⟨rfl, Or.inl ⟨rfl, rfl⟩⟩
  · rename_i hother
    exact ⟨rfl, Or.inr ⟨fun hsame => hother hsame.symm, rfl⟩⟩

/-! ### What is kept is a selection -/

/-- Keeping or dropping a crossing selects from what there was. -/
theorem exists_kept_keep {h : Hit α σ} {e : Hit α σ ⊕ Hit α σ} (he : either e = h)
    (before after : Bool) {rest : List (Hit α σ)} {es : List (Hit α σ ⊕ Hit α σ)}
    (hrest : ∃ kept : List (Hit α σ ⊕ Hit α σ), kept.Sublist es ∧
      List.Forall₂ IsViewOf rest (kept.map either)) :
    ∃ kept : List (Hit α σ ⊕ Hit α σ), kept.Sublist (e :: es) ∧
      List.Forall₂ IsViewOf (h.keep before after rest) (kept.map either) := by
  obtain ⟨kept, hsub, hviews⟩ := hrest
  unfold keep
  split
  · exact ⟨kept, hsub.cons e, hviews⟩
  · refine ⟨e :: kept, hsub.cons_cons e, ?_⟩
    rw [List.map_cons, he]
    exact .cons (h.isViewOf_relabel after) hviews

/-- **A walk keeps views of a selection of what it takes**, in the same order. -/
theorem exists_kept_walk (rule : Bool → Bool → Bool) (inA inB : Bool)
    (es : List (Hit α σ ⊕ Hit α σ)) :
    ∃ kept : List (Hit α σ ⊕ Hit α σ), kept.Sublist es ∧
      List.Forall₂ IsViewOf (walk rule inA inB es) (kept.map either) := by
  -- Each crossing changes the state of the walk, so what is left is walked from any state.
  induction es generalizing inA inB with
  | nil => exact ⟨[], List.Sublist.refl _, .nil⟩
  | cons e es ih =>
    cases e with
    | inl a => exact exists_kept_keep rfl _ _ (ih _ _)
    | inr b => exact exists_kept_keep rfl _ _ (ih _ _)

omit [Scalar α] in
/-- What a walk takes of two solids is, but for the order, what there is of both. -/
theorem map_either_perm (es : List (Hit α σ ⊕ Hit α σ)) :
    (es.map either).Perm (es.filterMap Sum.getLeft? ++ es.filterMap Sum.getRight?) := by
  induction es with
  | nil => exact .refl _
  | cons e es ih =>
    cases e with
    | inl a => exact ih.cons a
    | inr b => exact (ih.cons b).trans List.perm_middle.symm

/-- **No crossing is made up or used twice** by a merge. -/
theorem subperm_merge (rule : Bool → Bool → Bool) (as bs : List (Hit α σ)) :
    ((merge rule as bs).map site).Subperm (as.map site ++ bs.map site) := by
  obtain ⟨kept, hsub, hviews⟩ := exists_kept_walk rule false false (interleave as bs)
  -- Places do not depend on the way in which a crossing is seen.
  have hsites : (merge rule as bs).map site = (kept.map either).map site := by
    rw [merge, mergeFrom_eq_walk]
    refine List.forall₂_eq_eq_eq ▸ List.forall₂_map_left_iff.mpr (List.forall₂_map_right_iff.mpr ?_)
    exact hviews.imp fun h k hview => hview.site
  have hboth : ((interleave as bs).map either).Perm (as ++ bs) := by
    simpa only [lefts_interleave, rights_interleave] using map_either_perm (interleave as bs)
  rw [hsites, ← List.map_append]
  exact ((hsub.map either).map site).subperm.trans (hboth.map site).subperm

/-! ### What is kept takes turns -/

/-- A crossing is kept only if it differs from the one kept before, so that kept ones take turns. -/
theorem isChain_keep (h : Hit α σ) {before after : Bool} {rest : List (Hit α σ)}
    (hrest : (Crossing.ofInside after :: rest.map (·.crossing)).IsChain (· ≠ ·)) :
    (Crossing.ofInside before :: (h.keep before after rest).map (·.crossing)).IsChain (· ≠ ·) := by
  unfold keep
  split
  · rename_i heq
    rw [heq]
    exact hrest
  · rename_i hne
    have hcrossing : (h.relabel after).crossing = .ofInside after := by
      unfold relabel
      split <;> trivial
    -- What is solid has changed, and the crossing says so.
    have hchange : Crossing.ofInside before ≠ .ofInside after := by
      cases before <;> cases after <;> simp_all [Crossing.ofInside]
    rw [List.map_cons, hcrossing]
    exact List.isChain_cons_cons.mpr ⟨hchange, hrest⟩

/-- **What a walk keeps takes turns**: the first crossing leads out of the place where the walk
starts, and each other one back from the place that the one before it leads to. -/
theorem isChain_walk (rule : Bool → Bool → Bool) (inA inB : Bool)
    (es : List (Hit α σ ⊕ Hit α σ)) :
    (Crossing.ofInside (rule inA inB) ::
      (walk rule inA inB es).map (·.crossing)).IsChain (· ≠ ·) := by
  induction es generalizing inA inB with
  | nil => exact List.isChain_singleton _
  | cons e es ih =>
    cases e with
    | inl a => exact isChain_keep a (ih _ _)
    | inr b => exact isChain_keep b (ih _ _)

end Hit

/-! ### Scenes -/

/-- A line crosses a convex solid at most twice. -/
theorem Primitive.length_hits_le [Scalar α] (p : Primitive α σ) (origin direction : Vec3 α) :
    (p.hits origin direction).length ≤ 2 := by
  unfold hits
  dsimp only
  split <;> simp

namespace Scene

variable [Scalar α]

/-- **Each crossing of a scene is a crossing of one of its primitives**, and none of these is used
twice. -/
theorem subperm_hits (s : Scene α σ) (origin direction : Vec3 α) :
    ((s.hits origin direction).map Hit.site).Subperm
      ((s.primitives.flatMap fun p => p.hits origin direction).map Hit.site) := by
  induction s with
  | primitive p => simp [hits, primitives, List.Subperm.refl]
  | join how a b iha ihb =>
    rw [primitives, List.flatMap_append, List.map_append]
    exact (Hit.subperm_merge how.holds _ _).trans (iha.append ihb)

/-- A scene has at most two crossings for each of its primitives. -/
theorem length_hits_le (s : Scene α σ) (origin direction : Vec3 α) :
    (s.hits origin direction).length ≤ 2 * s.primitiveCount := by
  have hsites := (subperm_hits s origin direction).length_le
  rw [List.length_map, List.length_map, List.length_flatMap] at hsites
  have htwo : ∀ n ∈ s.primitives.map fun p => (p.hits origin direction).length, n ≤ 2 := by
    intro n hn
    obtain ⟨p, -, rfl⟩ := List.mem_map.mp hn
    exact p.length_hits_le origin direction
  have hsum := List.sum_le_card_nsmul _ 2 htwo
  rw [List.length_map, length_primitives, smul_eq_mul] at hsum
  omega

/-- **Merging selects, and what it selects takes turns.** Whatever the crossings of two solids are,
and however the two are joined, the merge takes each crossing of either once, those of each in their
own order, and keeps views of some of them in the order in which it takes them; the first that it
keeps is an entry, and no two entries or exits follow each other. So the crossings of a scene are
those of its primitives, of which none is used twice: two for each primitive at most, each on a
primitive of the scene. -/
theorem hits_select_and_take_turns :
    (∀ (how : Join) (as bs : List (Hit α σ)),
      (∃ taken kept : List (Hit α σ ⊕ Hit α σ),
        taken.filterMap Sum.getLeft? = as ∧ taken.filterMap Sum.getRight? = bs ∧
        Hit.merge how.holds as bs = Hit.walk how.holds false false taken ∧
        kept.Sublist taken ∧
        List.Forall₂ Hit.IsViewOf (Hit.merge how.holds as bs) (kept.map Hit.either)) ∧
      (∀ h ∈ (Hit.merge how.holds as bs).head?, h.crossing = .entry) ∧
      ((Hit.merge how.holds as bs).map (·.crossing)).IsChain (· ≠ ·)) ∧
    ∀ (s : Scene α σ) (origin direction : Vec3 α),
      ((s.hits origin direction).map Hit.site).Subperm
        ((s.primitives.flatMap fun p => p.hits origin direction).map Hit.site) ∧
      (s.hits origin direction).length ≤ 2 * s.primitiveCount ∧
      ∀ h ∈ s.hits origin direction, h.primitive ∈ s.primitives := by
  refine ⟨fun how as bs => ?_, fun s origin direction => ?_⟩
  · have hwalk : Hit.merge how.holds as bs
        = Hit.walk how.holds false false (Hit.interleave as bs) :=
      Hit.mergeFrom_eq_walk _ _ _ _ _
    obtain ⟨kept, hsub, hviews⟩ :=
      Hit.exists_kept_walk how.holds false false (Hit.interleave as bs)
    -- The walk starts outside of both solids, where it is outside of the joined one.
    have hturns := Hit.isChain_walk how.holds false false (Hit.interleave as bs)
    rw [← hwalk] at hviews hturns
    rw [join_holds_false] at hturns
    obtain ⟨hfirst, hothers⟩ := List.isChain_cons.mp hturns
    refine ⟨⟨_, kept, Hit.lefts_interleave as bs, Hit.rights_interleave as bs, hwalk, hsub, hviews⟩,
      fun h hh => ?_, hothers⟩
    have hne : Crossing.exit ≠ h.crossing := by
      refine hfirst _ ?_
      rw [List.head?_map]
      exact Option.mem_map_of_mem _ hh
    cases hcrossing : h.crossing with
    | entry => rfl
    | exit => exact absurd hcrossing.symm hne
  · exact ⟨subperm_hits s origin direction, length_hits_le s origin direction,
      fun h hh => primitive_mem_of_mem_hits hh⟩

end Scene

end SceneTracer
