import Mathlib
import SceneTracer.Scalar.Binary64

namespace SceneTracer

/-!
# The order of scalars

Not all scalars can be compared, as floating point numbers show: a comparison with what is not a
number fails. Those that can be compared with themselves are in a linear order, in which different
scalars, such as the two zeros, may be equal.

* `OrderedScalar` — the laws of such an order.
* `floatRank` — the rank of an unpacked floating point number, by sign, exponent and mantissa.
* `compare_eq_cmp_rank` — floating point numbers compare as their ranks do.
-/

/-- The comparisons of a type of scalars are those of a linear order on the scalars that can be
compared with themselves. -/
class OrderedScalar (α : Type) [Scalar α] : Prop where
  le_trans {a b c : α} : a ≤ b → b ≤ c → a ≤ c
  /-- What compares with something compares with itself. -/
  le_self {a b : α} : a ≤ b → a ≤ a ∧ b ≤ b
  le_total {a b : α} : a ≤ a → b ≤ b → a ≤ b ∨ b ≤ a
  lt_iff {a b : α} : a < b ↔ a ≤ b ∧ ¬ b ≤ a
  beq_iff {a b : α} : (a == b) = true ↔ a ≤ b ∧ b ≤ a

namespace OrderedScalar

variable {α : Type} [Scalar α] [OrderedScalar α] {a b c : α}

theorem le_of_lt (h : a < b) : a ≤ b := (lt_iff.mp h).1

theorem not_le_of_lt (h : a < b) : ¬ b ≤ a := (lt_iff.mp h).2

/-- Comparisons chain, since each of them says that both scalars have a rank. -/
theorem lt_of_le_of_lt (hab : a ≤ b) (hbc : b < c) : a < c := by
  rw [lt_iff] at hbc ⊢
  exact ⟨le_trans hab hbc.1, fun hca => hbc.2 (le_trans hca hab)⟩

theorem lt_of_lt_of_le (hab : a < b) (hbc : b ≤ c) : a < c := by
  rw [lt_iff] at hab ⊢
  exact ⟨le_trans hab.1 hbc, fun hca => hab.2 (le_trans hbc hca)⟩

/-- Of two scalars that compare, the second is not above the first only if it is below. -/
theorem le_of_not_lt (ha : a ≤ a) (hb : b ≤ b) (h : ¬ a < b) : b ≤ a := by
  rcases le_total ha hb with hab | hba
  · by_contra hba
    exact h (lt_iff.mpr ⟨hab, hba⟩)
  · exact hba

theorem beq_symm (h : (a == b) = true) : (b == a) = true := beq_iff.mpr (beq_iff.mp h).symm

/-- Equality of scalars is transitive. It is not reflexive, since some scalars have no rank. -/
theorem beq_trans (hab : (a == b) = true) (hbc : (b == c) = true) : (a == c) = true := by
  rw [beq_iff] at hab hbc ⊢
  exact ⟨le_trans hab.1 hbc.1, le_trans hbc.2 hab.2⟩

end OrderedScalar

/-! ### Floating point numbers -/

open Float.Model UnpackedFloat

/-- The rank of a floating point number: negative infinity, negative numbers, zeros, positive
numbers, positive infinity; numbers of one sign by exponent, then by mantissa. What is not a number
has none. -/
def floatRank : UnpackedFloat → Option (ℤ ×ₗ ℤ ×ₗ ℤ)
  | .notANumber => none
  | .infinity .negative => some (toLex (-2, toLex (0, 0)))
  | .finite .negative m e _ => some (toLex (-1, toLex (-e, -(m : ℤ))))
  | .zero _ => some (toLex (0, toLex (0, 0)))
  | .finite .positive m e _ => some (toLex (1, toLex (e, (m : ℤ))))
  | .infinity .positive => some (toLex (2, toLex (0, 0)))

/-- Comparing exponents and then mantissas is the lexicographic comparison. -/
theorem then_compare_eq_ite (e f : ℤ) (m n : ℕ) :
    (compare e f).then (compare m n)
      = if e < f ∨ e = f ∧ m < n then .lt else if f < e ∨ f = e ∧ n < m then .gt else .eq := by
  rcases lt_trichotomy e f with he | rfl | he
  · rw [compare_lt_iff_lt.mpr he]
    simp [he]
  · rcases lt_trichotomy m n with hm | rfl | hm
    · rw [compare_lt_iff_lt.mpr hm]
      simp [hm]
    · simp
    · rw [compare_gt_iff_gt.mpr hm]
      simp [hm, hm.not_gt]
  · rw [compare_gt_iff_gt.mpr he]
    simp [he, he.not_gt, he.ne']

/-- **Floating point numbers compare as their ranks do.** -/
theorem compare_eq_cmp_rank (a b : UnpackedFloat) :
    a.compare b = (floatRank a).bind fun x => (floatRank b).map fun y => cmp x y := by
  rcases a with (_ | _) | _ | _ | ⟨_ | _, m, e, hm⟩ <;>
    rcases b with (_ | _) | _ | _ | ⟨_ | _, n, f, hn⟩ <;>
    simp [floatRank, UnpackedFloat.compare, cmp, cmpUsing, Prod.Lex.toLex_lt_toLex]
  case infinity.negative.infinity.negative => rfl
  case infinity.negative.infinity.positive => rfl
  case infinity.positive.infinity.negative => rfl
  case infinity.positive.infinity.positive => rfl
  case finite.positive.finite.positive => exact then_compare_eq_ite e f m n
  case finite.negative.finite.negative =>
    -- Among negative numbers both exponents and mantissas count backwards.
    have hswap : ((compare e f).then (compare m n)).swap = (compare f e).then (compare n m) := by
      rw [Ordering.swap_then, Int.compare_swap, Nat.compare_swap]
    have hcomm : f = e ↔ e = f := eq_comm
    rw [hswap, then_compare_eq_ite]
    simp only [hcomm]

/-- The rank of a floating point number in its packed form. -/
def rank (x : Float) : Option (ℤ ×ₗ ℤ ×ₗ ℤ) := floatRank x.toModel.unpack

/-- A comparison holds if both have ranks, of which it holds. -/
theorem any_compare_iff (p : Ordering → Bool) (x y : Float) :
    (x.toModel.unpack.compare y.toModel.unpack).any p
      ↔ ∃ r ∈ rank x, ∃ s ∈ rank y, p (cmp r s) := by
  rw [compare_eq_cmp_rank]
  change ((rank x).bind fun r => (rank y).map fun s => cmp r s).any p ↔ _
  cases rank x <;> cases rank y <;> simp

/-- Machine numbers are compared by rank: those that are not a number have none. -/
theorem float_le_iff {x y : Float} : x ≤ y ↔ ∃ r ∈ rank x, ∃ s ∈ rank y, r ≤ s := by
  have h : x ≤ y ↔ (x.toModel.unpack.compare y.toModel.unpack).any (·.isLE) := decide_eq_true_iff
  have hcmp : ∀ r s : ℤ ×ₗ ℤ ×ₗ ℤ, (cmp r s).isLE ↔ r ≤ s := by
    intro r s
    rw [Ordering.isLE_iff_ne_gt, ← not_lt, ← cmp_eq_gt_iff]
  simp only [h, any_compare_iff, hcmp]

/-- The strict comparison of machine numbers, by rank. -/
theorem float_lt_iff {x y : Float} : x < y ↔ ∃ r ∈ rank x, ∃ s ∈ rank y, r < s := by
  have h : x < y ↔ x.toModel.unpack.compare y.toModel.unpack == some .lt := decide_eq_true_iff
  have hany : ∀ o : Option Ordering, (o == some .lt) = o.any (· == .lt) := by
    rintro (_ | _) <;> rfl
  simp only [h, hany, any_compare_iff, beq_iff_eq, cmp_eq_lt_iff]

/-- Equality of machine numbers, by rank: the two zeros have the same one. -/
theorem float_beq_iff {x y : Float} : (x == y) = true ↔ ∃ r ∈ rank x, ∃ s ∈ rank y, r = s := by
  have hany : ∀ o : Option Ordering, (o == some .eq) = o.any (· == .eq) := by
    rintro (_ | _) <;> rfl
  change (x.toModel.unpack.compare y.toModel.unpack == some .eq) = true ↔ _
  simp only [hany, any_compare_iff, beq_iff_eq, cmp_eq_eq_iff]

/-- **Floating point numbers are ordered scalars.** -/
instance : OrderedScalar Float where
  le_trans := by
    intro a b c hab hbc
    obtain ⟨r, hr, s, hs, hrs⟩ := float_le_iff.mp hab
    obtain ⟨s', hs', t, ht, hst⟩ := float_le_iff.mp hbc
    obtain rfl := Option.mem_unique hs hs'
    exact float_le_iff.mpr ⟨r, hr, t, ht, hrs.trans hst⟩
  le_self := by
    intro a b h
    obtain ⟨r, hr, s, hs, -⟩ := float_le_iff.mp h
    exact ⟨float_le_iff.mpr ⟨r, hr, r, hr, le_rfl⟩, float_le_iff.mpr ⟨s, hs, s, hs, le_rfl⟩⟩
  le_total := by
    intro a b ha hb
    obtain ⟨r, hr, -⟩ := float_le_iff.mp ha
    obtain ⟨s, hs, -⟩ := float_le_iff.mp hb
    rcases le_total r s with h | h
    · exact Or.inl (float_le_iff.mpr ⟨r, hr, s, hs, h⟩)
    · exact Or.inr (float_le_iff.mpr ⟨s, hs, r, hr, h⟩)
  lt_iff := by
    intro a b
    rw [float_lt_iff, float_le_iff, float_le_iff]
    cases rank a <;> cases rank b
    case some.some r s => simpa using fun h : r < s => h.le
    all_goals simp
  beq_iff := by
    intro a b
    rw [float_beq_iff, float_le_iff, float_le_iff]
    constructor
    · rintro ⟨r, hr, s, hs, rfl⟩
      exact ⟨⟨r, hr, r, hs, le_rfl⟩, ⟨r, hs, r, hr, le_rfl⟩⟩
    · rintro ⟨⟨r, hr, s, hs, hrs⟩, ⟨s', hs', r', hr', hsr⟩⟩
      obtain rfl := Option.mem_unique hs hs'
      obtain rfl := Option.mem_unique hr hr'
      exact ⟨r, hr, s, hs, le_antisymm hrs hsr⟩

end SceneTracer
