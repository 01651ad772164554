import Mathlib.Data.List.Forall2
import SceneTracer.Proofs.Transform.InversePair
import SceneTracer.Scene

namespace SceneTracer

/-!
# A scene and a ray that move together

Over exact scalars, a line that is moved along with a scene has the crossings that it had before: in
the object space of every primitive nothing has changed, so the merges along the tree go the same
way.

* `Transform.backward_of_change?` — what a change moves is taken back to the same place.
* `Hit.Agrees` — two crossings that differ at most in where the world has them.
* `Hit.agrees_merge` — merging lists of crossings that agree gives such lists.
* `Scene.agrees_hits` — the crossings before and after a change, over the tree of a scene.
* `Scene.hits_move_with_ray` — the crossings as they are reported, with the numbers of primitives.
-/

/-! ### What a change moves -/

section Moves

variable {α : Type} [ExactScalar α]

/-- What a change does to a vector is undone. -/
theorem Change.undoing_apply_matrix {c : Change α} (hc : c.Invertible) (v : Vec3 α) (w : α) :
    c.undoing.apply (c.matrix.apply v w) w = v := by
  rw [← Mat4.apply_mul _ c.affine_matrix, undoing_mul_matrix hc, Mat4.apply_identity]

namespace Transform

/-- A change that is invertible can be made. -/
theorem change?_of_invertible {c : Change α} (hc : c.Invertible) (t : Transform α) :
    t.change? c = some (t.andThen c.matrix c.undoing) :=
  change?_eq_some_iff.mpr ⟨hc, rfl⟩

/-- The change alone, which starts from no change at all. -/
theorem forward_of_identity_change? {c : Change α} {u : Transform α}
    (hu : (identity : Transform α).change? c = some u) : u.forward = c.matrix := by
  obtain ⟨-, rfl⟩ := change?_eq_some_iff.mp hu
  exact Mat4.mul_identity c.matrix

/-- **Back in object space a change is undone first**, so that what it has moved in the world is
taken to where it was taken without it. -/
theorem backward_of_change? {t t' u : Transform α} {c : Change α} (ht : t.change? c = some t')
    (hu : (identity : Transform α).change? c = some u) (v : Vec3 α) (w : α) :
    t'.backward.apply (u.forward.apply v w) w = t.backward.apply v w := by
  obtain ⟨hc, rfl⟩ := change?_eq_some_iff.mp ht
  show (t.backward.mul c.undoing).apply _ w = _
  rw [forward_of_identity_change? hu, Mat4.apply_mul _ c.affine_undoing,
    Change.undoing_apply_matrix hc]

end Transform

end Moves

variable {α σ : Type}

/-! ### Crossings that agree -/

namespace Hit

/-- The two crossings are of the same surface, at the same parameter, and at the same place of its
object space. -/
structure Agrees (h k : Hit α σ) : Prop where
  t : h.t = k.t
  objectPoint : h.objectPoint = k.objectPoint
  crossing : h.crossing = k.crossing
  face : h.face = k.face
  shape : h.primitive.shape = k.primitive.shape
  surface : h.primitive.surface = k.primitive.surface

variable [Scalar α] {h k : Hit α σ}

/-- What is seen of a crossing from the object space of its primitive, with the number of the
primitive. -/
structure Sighting (α : Type) where
  t : α
  objectPoint : Vec3 α
  face : Face
  crossing : Crossing
  surfaceCoordinates : α × α
  number : Nat

/-- What is seen of a crossing in a scene whose primitives are numbered. -/
def sighting (h : Hit α (Nat × σ)) : Sighting α :=
  ⟨h.t, h.objectPoint, h.face, h.crossing, h.surfaceCoordinates, h.primitive.surface.1⟩

/-- Crossings that agree are seen alike. -/
theorem Agrees.sighting_eq {h k : Hit α (Nat × σ)} (hk : h.Agrees k) : h.sighting = k.sighting := by
  unfold sighting surfaceCoordinates
  rw [hk.t, hk.objectPoint, hk.crossing, hk.face, hk.shape, hk.surface]

/-- Crossings that agree do so when they are seen the other way round. -/
theorem Agrees.relabel (hk : h.Agrees k) (inside : Bool) :
    (h.relabel inside).Agrees (k.relabel inside) := by
  unfold Hit.relabel
  rw [hk.crossing]
  split
  · exact hk
  · exact ⟨hk.t, hk.objectPoint, rfl, hk.face, hk.shape, hk.surface⟩

/-- Crossings that agree are taken in the same order. -/
theorem Agrees.precedes_eq {h' k' : Hit α σ} (hk : h.Agrees k) (hk' : h'.Agrees k') :
    h.precedes h' = k.precedes k' := by
  unfold precedes
  rw [hk.t, hk.crossing, hk'.t, hk'.crossing]

/-- Crossings that agree are kept or dropped together. -/
theorem Agrees.keep (hk : h.Agrees k) (before after : Bool) {rest rest' : List (Hit α σ)}
    (hrest : List.Forall₂ Agrees rest rest') :
    List.Forall₂ Agrees (h.keep before after rest) (k.keep before after rest') := by
  unfold Hit.keep
  split
  · exact hrest
  · exact .cons (hk.relabel after) hrest

/-- Crossings that agree are taken in the same order and kept at the same places. -/
theorem agrees_mergeFrom (rule : Bool → Bool → Bool) (inA inB : Bool)
    {as as' bs bs' : List (Hit α σ)} (ha : List.Forall₂ Agrees as as')
    (hb : List.Forall₂ Agrees bs bs') :
    List.Forall₂ Agrees (mergeFrom rule inA inB as bs) (mergeFrom rule inA inB as' bs') := by
  fun_induction mergeFrom rule inA inB as bs generalizing as' bs' with
  | case1 =>
    cases ha
    cases hb
    rw [mergeFrom]
    exact .nil
  | case2 inA inB a as entering =>
    rename_i ih
    obtain _ | ⟨haa', has⟩ := ha
    cases hb
    rw [mergeFrom, ← haa'.crossing]
    exact haa'.keep _ _ (ih has .nil)
  | case3 inA inB b bs entering =>
    rename_i ih
    cases ha
    obtain _ | ⟨hbb', hbs⟩ := hb
    rw [mergeFrom, ← hbb'.crossing]
    exact hbb'.keep _ _ (ih .nil hbs)
  -- Crossings that agree are taken in the same order, so both merges are in the same case.
  | case4 inA inB a as b bs hfirst entering =>
    rename_i ih
    obtain _ | ⟨haa', has⟩ := ha
    obtain _ | ⟨hbb', hbs⟩ := hb
    rw [haa'.precedes_eq hbb'] at hfirst
    rw [mergeFrom, if_pos hfirst, ← haa'.crossing]
    exact haa'.keep _ _ (ih has (.cons hbb' hbs))
  | case5 inA inB a as b bs hfirst entering =>
    rename_i ih
    obtain _ | ⟨haa', has⟩ := ha
    obtain _ | ⟨hbb', hbs⟩ := hb
    rw [haa'.precedes_eq hbb'] at hfirst
    rw [mergeFrom, if_neg hfirst, ← hbb'.crossing]
    exact hbb'.keep _ _ (ih (.cons haa' has) hbs)

/-- **Merging crossings that agree** gives crossings that agree. -/
theorem agrees_merge (rule : Bool → Bool → Bool) {as as' bs bs' : List (Hit α σ)}
    (ha : List.Forall₂ Agrees as as') (hb : List.Forall₂ Agrees bs bs') :
    List.Forall₂ Agrees (merge rule as bs) (merge rule as' bs') :=
  agrees_mergeFrom rule false false ha hb

end Hit

/-! ### Changes of a scene -/

namespace Scene

/-- A scene that is moved has the primitives that it had. -/
theorem primitiveCount_of_mapTransform? {f : Transform α → Option (Transform α)}
    {s s' : Scene α σ} (h : s.mapTransform? f = some s') :
    s'.primitiveCount = s.primitiveCount := by
  induction s generalizing s' with
  | primitive p =>
    obtain ⟨t, -, rfl⟩ := Option.map_eq_some_iff.mp h
    rfl
  | join how a b iha ihb =>
    simp only [mapTransform?, Option.bind_eq_bind, Option.bind_eq_some_iff] at h
    obtain ⟨a', ha, b', hb, hs⟩ := h
    cases hs
    rw [primitiveCount, primitiveCount, iha ha, ihb hb]

/-- A change leaves the numbers of primitives as they are. -/
theorem numberedFrom_mapTransform? {f : Transform α → Option (Transform α)} {s s' : Scene α σ}
    (h : s.mapTransform? f = some s') (first : Nat) :
    (s.numberedFrom first).mapTransform? f = some (s'.numberedFrom first) := by
  induction s generalizing s' first with
  | primitive p =>
    obtain ⟨t, ht, rfl⟩ := Option.map_eq_some_iff.mp h
    exact Option.map_eq_some_iff.mpr ⟨t, ht, rfl⟩
  | join how a b iha ihb =>
    simp only [mapTransform?, Option.bind_eq_bind, Option.bind_eq_some_iff] at h
    obtain ⟨a', ha, b', hb, hs⟩ := h
    cases hs
    simp only [numberedFrom, mapTransform?, primitiveCount_of_mapTransform? ha, iha ha first,
      ihb hb (first + a.primitiveCount)]
    rfl

variable [ExactScalar α]

/-- A change that can be undone has a result for every scene. -/
theorem exists_change? {c : Change α} (hc : c.Invertible) (s : Scene α σ) :
    ∃ moved, s.change? c = some moved := by
  simp only [change?_eq_mapTransform?]
  induction s with
  | primitive p =>
    have ht := Transform.change?_of_invertible hc p.transform
    exact ⟨_, Option.map_eq_some_iff.mpr ⟨_, ht, rfl⟩⟩
  | join how a b iha ihb =>
    obtain ⟨a', ha⟩ := iha
    obtain ⟨b', hb⟩ := ihb
    refine ⟨.join how a' b', ?_⟩
    rw [mapTransform?, ha, hb]
    rfl

/-- In its object space a primitive is met by the line that it was met by before. -/
theorem agrees_primitive_hits {p : Primitive α σ} {t u : Transform α} {c : Change α}
    (ht : p.transform.change? c = some t)
    (hu : (Transform.identity : Transform α).change? c = some u)
    (origin direction : Vec3 α) :
    List.Forall₂ Hit.Agrees
      (({ p with transform := t } : Primitive α σ).hits (u.point origin) (u.vector direction))
      (p.hits origin direction) := by
  have horigin : t.inversePoint (u.point origin) = p.transform.inversePoint origin :=
    Transform.backward_of_change? ht hu origin _
  have hdirection : t.inverseVector (u.vector direction) = p.transform.inverseVector direction :=
    Transform.backward_of_change? ht hu direction _
  unfold Primitive.hits
  dsimp only
  rw [horigin, hdirection]
  split
  · exact .nil
  · -- Both crossings of the line are found from the same span.
    exact .cons ⟨rfl, rfl, rfl, rfl, rfl, rfl⟩ (.cons ⟨rfl, rfl, rfl, rfl, rfl, rfl⟩ .nil)

/-- **A line that moves with a scene has crossings that agree with those that it had.** -/
theorem agrees_hits {s moved : Scene α σ} {u : Transform α} {c : Change α}
    (hs : s.change? c = some moved) (hu : (Transform.identity : Transform α).change? c = some u)
    (origin direction : Vec3 α) :
    List.Forall₂ Hit.Agrees (moved.hits (u.point origin) (u.vector direction))
      (s.hits origin direction) := by
  rw [change?_eq_mapTransform?] at hs
  induction s generalizing moved with
  | primitive p =>
    obtain ⟨t, ht, rfl⟩ := Option.map_eq_some_iff.mp hs
    exact agrees_primitive_hits ht hu origin direction
  | join how a b iha ihb =>
    simp only [mapTransform?, Option.bind_eq_bind, Option.bind_eq_some_iff] at hs
    obtain ⟨a', ha, b', hb, hs⟩ := hs
    cases hs
    exact Hit.agrees_merge how.holds (iha ha) (ihb hb)

/-- **Moving a scene and a ray together changes nothing.** Every change that can be undone has a
result for a scene, and for a line that is moved like it the crossings are those that the scene had
with the line before: at the same parameters, and with the same places in object space, faces,
directions, surface parameters and numbers of primitives. -/
theorem hits_move_with_ray (s : Scene α σ) {c : Change α} (hc : c.Invertible) :
    ∃ u moved, (Transform.identity : Transform α).change? c = some u ∧ s.change? c = some moved ∧
      ∀ origin direction,
        (moved.numbered.hits (u.point origin) (u.vector direction)).map Hit.sighting
          = (s.numbered.hits origin direction).map Hit.sighting := by
  obtain ⟨moved, hs⟩ := s.exists_change? hc
  have hu := Transform.change?_of_invertible hc Transform.identity
  refine ⟨_, moved, hu, hs, fun origin direction => ?_⟩
  have hnumbered : s.numbered.change? c = some moved.numbered := by
    rw [change?_eq_mapTransform?] at hs ⊢
    exact numberedFrom_mapTransform? hs 0
  have hagrees := agrees_hits hnumbered hu origin direction
  have hsame := hagrees.imp fun h k hk => hk.sighting_eq
  exact List.forall₂_eq_eq_eq ▸ List.forall₂_map_left_iff.mpr (List.forall₂_map_right_iff.mpr hsame)

/-- A cube without the part of it that is in a sphere, stretched and mirrored with every line. -/
theorem hits_move_with_ray_mirrored :
    let s : Scene ℝ Unit := .join .difference (.atOrigin .cube ()) (.atOrigin .sphere ())
    ∃ moved, s.change? (.scale 2 (-3) 4) = some moved ∧ ∀ o d : Vec3 ℝ,
      (moved.numbered.hits ⟨2 * o.x, -3 * o.y, 4 * o.z⟩ ⟨2 * d.x, -3 * d.y, 4 * d.z⟩).map
          Hit.sighting
        = (s.numbered.hits o d).map Hit.sighting := by
  intro s
  have hc : (Change.scale (2 : ℝ) (-3) 4).Invertible := by norm_num [Change.Invertible]
  obtain ⟨u, moved, hu, hmoved, hsame⟩ := hits_move_with_ray s hc
  refine ⟨moved, hmoved, fun o d => ?_⟩
  -- The mirrored stretch, written out for places and for directions.
  have hpoint : u.point o = ⟨2 * o.x, -3 * o.y, 4 * o.z⟩ := by
    rw [Transform.point, Transform.forward_of_identity_change? hu]
    simp [Change.matrix, Mat4.scaling, Mat4.apply]
  have hvector : u.vector d = ⟨2 * d.x, -3 * d.y, 4 * d.z⟩ := by
    rw [Transform.vector, Transform.forward_of_identity_change? hu]
    simp [Change.matrix, Mat4.scaling, Mat4.apply]
  rw [← hpoint, ← hvector]
  exact hsame o d

end Scene

end SceneTracer
