import SceneTracer.Proofs.Scene.Exchange
import SceneTracer.Proofs.Scene.Missed

namespace SceneTracer

/-!
# Unions of solids that touch

Spans that do not touch each other have one crossing at most at each parameter. In the union of two
solids of such spans it is so again: where an entry of one meets an entry of the other, or an exit
an exit, one of the two is kept, and where an exit meets an entry, none is.

* `Hit.Apart` — regular crossings at parameters that increase strictly.
* `Hit.increasing_iff_length_crossingsAt` — parameters increase just if there is one crossing at
  most at each.
* `Hit.Apart.insideFrom_eq` — a crossing tells on which side the line is in front of it.
* `Hit.apart_merge_union` — unions.
-/

namespace Hit

variable {α σ : Type} [Scalar α]

/-- Crossings that take turns from outside to outside, at parameters that increase strictly. -/
structure Apart (hits : List (Hit α σ)) : Prop where
  alternates : Alternates true hits
  increasing : (hits.map (·.t)).Pairwise (· < ·)

/-! ### One crossing at each parameter -/

variable [OrderedScalar α]

/-- Parameters that increase can be compared: each crossing is in front of another, or behind. -/
theorem Apart.inOrder {hits : List (Hit α σ)} (h : Apart hits) : InOrder hits := by
  refine ⟨fun k hk => ?_, h.increasing.imp OrderedScalar.le_of_lt⟩
  match hits, h, hk with
  | [], _, hk => cases hk
  | [_], h, _ => exact absurd h.alternates.2 (by simp [Alternates])
  | first :: second :: rest, h, hk =>
    have hfirst := (List.pairwise_cons.mp h.increasing).1
    rcases List.mem_cons.mp hk with rfl | hk
    · exact (OrderedScalar.le_self (OrderedScalar.le_of_lt (hfirst second.t (by simp)))).1
    · have hlt := hfirst k.t (List.mem_map_of_mem hk)
      exact (OrderedScalar.le_self (OrderedScalar.le_of_lt hlt)).2

/-- Crossings that are apart are in order and alternate. -/
theorem Apart.regular {hits : List (Hit α σ)} (h : Apart hits) : Regular hits :=
  ⟨h.inOrder, h.alternates⟩

/-- **Crossings in order are at different parameters** just if there is one at most at each. -/
theorem increasing_iff_length_crossingsAt {hits : List (Hit α σ)} (hs : InOrder hits) :
    (hits.map (·.t)).Pairwise (· < ·) ↔ ∀ t, (crossingsAt t hits).length ≤ 1 := by
  induction hits with
  | nil => simp [crossingsAt]
  | cons h hits ih =>
    have hhead {k : Hit α σ} (hk : k ∈ hits) : h.t ≤ k.t := hs.head_le (List.mem_cons_of_mem _ hk)
    rw [List.map_cons, List.pairwise_cons, ih hs.tail]
    constructor
    · rintro ⟨hlt, hone⟩ t
      rw [length_crossingsAt_cons]
      split
      · rename_i heq
        -- What is behind `h` is not at its parameter.
        have hnil : crossingsAt t hits = [] := by
          refine crossingsAt_eq_nil fun k hk hkt => ?_
          have hkh : k.t ≤ h.t := OrderedScalar.le_trans (OrderedScalar.beq_iff.mp hkt).1
            (OrderedScalar.beq_iff.mp heq).2
          exact OrderedScalar.not_le_of_lt (hlt k.t (List.mem_map_of_mem hk)) hkh
        rw [hnil, List.length_nil]
      · rw [zero_add]
        exact hone t
    · intro hone
      have hself := hs.comparable h List.mem_cons_self
      refine ⟨fun t ht => ?_, fun t => ?_⟩
      · obtain ⟨k, hk, rfl⟩ := List.mem_map.mp ht
        refine OrderedScalar.lt_iff.mpr ⟨hhead hk, fun hkh => ?_⟩
        -- Otherwise both `h` and `k` would be at the parameter of `h`.
        have hat : k ∈ crossingsAt h.t hits :=
          List.mem_filter.mpr ⟨hk, OrderedScalar.beq_iff.mpr ⟨hkh, hhead hk⟩⟩
        have htwo := hone h.t
        rw [length_crossingsAt_cons, if_pos (OrderedScalar.beq_iff.mpr ⟨hself, hself⟩)] at htwo
        have hpos := List.length_pos_of_mem hat
        omega
      · have hle := hone t
        rw [length_crossingsAt_cons] at hle
        omega

variable {hits : List (Hit α σ)}

/-- At each parameter there is at most one of them. -/
theorem Apart.length_crossingsAt_le (h : Apart hits) (t : α) : (crossingsAt t hits).length ≤ 1 :=
  (increasing_iff_length_crossingsAt h.inOrder).mp h.increasing t

/-- The only crossing at its parameter. -/
theorem Apart.crossingsAt_eq (h : Apart hits) {k : Hit α σ} (hk : k ∈ hits) {t : α}
    (ht : (k.t == t) = true) : crossingsAt t hits = [k] := by
  have hmem : k ∈ crossingsAt t hits := List.mem_filter.mpr ⟨hk, ht⟩
  obtain ⟨k', heq⟩ : ∃ k', crossingsAt t hits = [k'] := by
    refine List.length_eq_one_iff.mp (le_antisymm (h.length_crossingsAt_le t) ?_)
    exact List.length_pos_of_mem hmem
  rw [heq, List.mem_singleton] at hmem
  rw [heq, hmem]

/-- **In front of an exit the line is inside**, and in front of an entry outside. -/
theorem Apart.insideFrom_eq (h : Apart hits) {k : Hit α σ} (hk : k ∈ hits) {t : α}
    (ht : (k.t == t) = true) : insideFrom false hits t = decide (k.crossing = .exit) := by
  have halt : Alternates (!false) hits := h.alternates
  have hleaving := length_leavingAt halt h.inOrder t
  rw [leavingAt, h.crossingsAt_eq hk ht] at hleaving
  cases hinside : insideFrom false hits t <;> cases hcrossing : k.crossing <;>
    simp_all [leaves]

/-! ### Unions -/

/-- Of one crossing at most of each solid, a union keeps one at most. -/
theorem meeting_union_le (inA inB : Bool) {m n : ℕ} (hm : m ≤ 1) (hn : n ≤ 1) :
    meeting Join.union.holds inA inB m n ≤ 1 := by
  interval_cases m <;> interval_cases n <;> cases inA <;> cases inB <;>
    simp [meeting, kept, Join.holds]

/-- A union keeps neither of two crossings if one solid is left where the other is entered. -/
theorem meeting_union_of_touch {inA inB : Bool} (h : inA ≠ inB) :
    meeting Join.union.holds inA inB 1 1 = 0 := by
  cases inA <;> cases inB <;> simp_all [meeting, kept, Join.holds]

variable {as bs : List (Hit α σ)}

/-- **The union of solids of spans that do not touch** is of such spans again. -/
theorem apart_merge_union (ha : Apart as) (hb : Apart bs) :
    Apart (merge Join.union.holds as bs) := by
  have hmerged := ha.regular.merge hb.regular (Scene.join_holds_false .union)
  refine ⟨hmerged.alternates, (increasing_iff_length_crossingsAt hmerged.inOrder).mpr fun t => ?_⟩
  rw [length_crossingsAt_merge _ ha.regular hb.regular]
  exact meeting_union_le _ _ (ha.length_crossingsAt_le t) (hb.length_crossingsAt_le t)

/-- **Where one solid is left and the other entered**, their union has no crossing. -/
theorem crossingsAt_merge_union_of_touch (ha : Apart as) (hb : Apart bs) {a b : Hit α σ}
    (hamem : a ∈ as) (hbmem : b ∈ bs) (hmeet : (a.t == b.t) = true)
    (hother : a.crossing ≠ b.crossing) :
    crossingsAt a.t (merge Join.union.holds as bs) = [] := by
  have hself : (a.t == a.t) = true := OrderedScalar.beq_trans hmeet (OrderedScalar.beq_symm hmeet)
  have hmeet' : (b.t == a.t) = true := OrderedScalar.beq_symm hmeet
  rw [← List.length_eq_zero_iff, length_crossingsAt_merge _ ha.regular hb.regular,
    ha.crossingsAt_eq hamem hself, hb.crossingsAt_eq hbmem hmeet', ha.insideFrom_eq hamem hself,
    hb.insideFrom_eq hbmem hmeet']
  apply meeting_union_of_touch
  cases hacrossing : a.crossing <;> cases hbcrossing : b.crossing <;> simp_all

/-- **Unions close the gaps between solids that touch.** If the crossings of two solids take turns
from outside to outside at parameters that increase strictly, those of their union do so too: no
parameter is repeated. Where one solid is left at the parameter at which the other is entered, there
is no crossing of the union at all. -/
theorem touching_solids_merge {as bs : List (Hit Float σ)} (ha : Apart as) (hb : Apart bs) :
    Apart (merge Join.union.holds as bs) ∧
    ∀ a ∈ as, ∀ b ∈ bs, (a.t == b.t) = true → a.crossing ≠ b.crossing →
      ∀ h ∈ merge Join.union.holds as bs, (h.t == a.t) = false := by
  refine ⟨apart_merge_union ha hb, fun a hamem b hbmem hmeet hother h hh => ?_⟩
  have hnone := crossingsAt_merge_union_of_touch ha hb hamem hbmem hmeet hother
  exact Bool.eq_false_iff.mpr (List.filter_eq_nil_iff.mp hnone h hh)

/-- A cube that fills the gap between two others: the line is left with one entry and one exit. -/
theorem touching_solids_merge_stack :
    let cubeAt (y : Float) : Scene Float Unit :=
      .primitive ⟨.cube, (), ⟨.translation 0 y 0, .translation 0 (-y) 0⟩⟩
    let pair : Scene Float Unit := .join .union (cubeAt 0) (cubeAt 2)
    let origin : Vec3 Float := ⟨0.5, -1, 0.5⟩
    let direction : Vec3 Float := ⟨0, 1, 0⟩
    let stack := (Scene.join .union pair (cubeAt 1)).hits origin direction
    Apart (pair.hits origin direction) ∧ Apart ((cubeAt 1).hits origin direction) ∧ Apart stack ∧
    (∃ a ∈ pair.hits origin direction, ∃ b ∈ (cubeAt 1).hits origin direction,
      (a.t == b.t) = true ∧ a.crossing ≠ b.crossing ∧ ∀ h ∈ stack, (h.t == a.t) = false) ∧
    stack.map (·.crossing) = [.entry, .exit] := by
  intro cubeAt pair origin direction stack
  have hpair : Apart (pair.hits origin direction) :=
    ⟨pair.alternates_hits _ _, by decide +kernel⟩
  have hmiddle : Apart ((cubeAt 1).hits origin direction) :=
    ⟨(cubeAt 1).alternates_hits _ _, by decide +kernel⟩
  obtain ⟨hstack, hnone⟩ := touching_solids_merge hpair hmiddle
  -- The middle cube ends where the upper one begins.
  have hmeet : ∃ a ∈ pair.hits origin direction, ∃ b ∈ (cubeAt 1).hits origin direction,
      (a.t == b.t) = true ∧ a.crossing ≠ b.crossing := by
    decide +kernel
  obtain ⟨a, ha, b, hb, hab, hother⟩ := hmeet
  exact ⟨hpair, hmiddle, hstack, ⟨a, ha, b, hb, hab, hother, hnone a ha b hb hab hother⟩,
    by decide +kernel⟩

end Hit

end SceneTracer
