import Mathlib.Analysis.SpecialFunctions.Pow.Real
import SceneTracer.Light
import SceneTracer.Proofs.Vec3.Algebra

namespace SceneTracer

/-!
# How bright lights are

Parallel light is as bright everywhere as its colour. The light of a lamp falls off with the
distance and is never more than its colour, and a lamp with a cone adds a power of the cosine of the
angle to its axis. This is a factor from zero to one in front of the lamp. Behind the lamp, where a
cone of more than a right angle reaches, the cosine is negative, and so is every odd power of it.

* `Vec3.cosine` — the cosine of the angle between two vectors, from minus one to one.
* `Light.intensity_spot` — what a lamp with a cone does, by this cosine.
* `Light.intensity_bounds` — bounds for all lights, and where they are not negative.
* `Light.lamp_darkens_behind` — a lamp that takes light away behind it.
-/

namespace Vec3

/-! ### Colours by channels -/

/-- No channel of the first colour is brighter than that of the second. -/
instance : LE (Vec3 ℝ) := ⟨fun v w => v.x ≤ w.x ∧ v.y ≤ w.y ∧ v.z ≤ w.z⟩

theorem le_def {v w : Vec3 ℝ} : v ≤ w ↔ v.x ≤ w.x ∧ v.y ≤ w.y ∧ v.z ≤ w.z := Iff.rfl

/-- A colour takes nothing away just if no channel does. -/
theorem nonneg_iff {v : Vec3 ℝ} : 0 ≤ v ↔ 0 ≤ v.x ∧ 0 ≤ v.y ∧ 0 ≤ v.z := by
  rw [le_def, zero_x, zero_y, zero_z]

/-- A colour that takes nothing away gets brighter with its factor. -/
theorem scale_le_scale {color : Vec3 ℝ} (hcolor : 0 ≤ color) {s t : ℝ} (h : s ≤ t) :
    color.scale s ≤ color.scale t := by
  obtain ⟨hx, hy, hz⟩ := nonneg_iff.mp hcolor
  exact ⟨mul_le_mul_of_nonneg_left h hx, mul_le_mul_of_nonneg_left h hy,
    mul_le_mul_of_nonneg_left h hz⟩

theorem scale_neg (v : Vec3 ℝ) (s : ℝ) : v.scale (-s) = -v.scale s := by
  ext <;> simp [scale]

theorem scale_zero (v : Vec3 ℝ) : v.scale 0 = 0 := by
  ext <;> simp [scale]

/-- Only black stays a colour when it is multiplied by a negative number. -/
theorem scale_nonneg_iff {color : Vec3 ℝ} (hcolor : 0 ≤ color) (s : ℝ) :
    0 ≤ color.scale s ↔ color = 0 ∨ 0 ≤ s := by
  obtain ⟨hx, hy, hz⟩ := nonneg_iff.mp hcolor
  constructor
  · intro h
    obtain ⟨hsx, hsy, hsz⟩ := nonneg_iff.mp h
    refine or_iff_not_imp_right.mpr fun hs => ?_
    -- With a negative factor every channel has to be zero.
    have hzero {c : ℝ} (hc : 0 ≤ c) (hcs : 0 ≤ c * s) : c = 0 :=
      le_antisymm (nonpos_of_mul_nonneg_left hcs (not_le.mp hs)) hc
    ext
    · exact (hzero hx hsx).trans zero_x.symm
    · exact (hzero hy hsy).trans zero_y.symm
    · exact (hzero hz hsz).trans zero_z.symm
  · rintro (rfl | hs)
    · rw [zero_scale]
      exact ⟨le_rfl, le_rfl, le_rfl⟩
    · rw [← scale_zero color]
      exact scale_le_scale hcolor hs

/-! ### Angles -/

/-- The cosine of the angle between two vectors. -/
noncomputable def cosine (v w : Vec3 ℝ) : ℝ := v.dot w / (v.length * w.length)

/-- A cosine is between minus one and one, by the inequality of Cauchy and Schwarz. -/
theorem abs_cosine_le_one (v w : Vec3 ℝ) : |cosine v w| ≤ 1 := by
  have hlengths : 0 ≤ v.length * w.length := mul_nonneg v.length_nonneg w.length_nonneg
  rw [cosine, abs_div, abs_of_nonneg hlengths]
  exact div_le_one_of_le₀ (abs_dot_le v w) hlengths

/-- The cosine is negative just beyond a right angle. -/
theorem cosine_neg_iff {v w : Vec3 ℝ} (hv : v ≠ 0) (hw : w ≠ 0) :
    cosine v w < 0 ↔ v.dot w < 0 := by
  rw [cosine, div_lt_iff₀ (mul_pos (length_pos hv) (length_pos hw)), zero_mul]

end Vec3

namespace Light

/-! ### Lamps -/

/-- What is left of the light of a lamp at a point. -/
noncomputable def remaining (position p : Vec3 ℝ) : ℝ := 100 / (99 + (p - position).length ^ 2)

/-- Some light is left at any distance. -/
theorem remaining_pos (position p : Vec3 ℝ) : 0 < remaining position p := by
  unfold remaining
  positivity

/-- What a cone lets through in a direction, by the cosine of the angle to the axis of the lamp. -/
noncomputable def beam (cosine cutoff : ℝ) (exponent : ℕ) : ℝ :=
  if cosine < Real.cos (Scalar.radians cutoff) then 0 else cosine ^ exponent

/-- A cone never lets through more than there is. -/
theorem abs_beam_le_one {cosine : ℝ} (h : |cosine| ≤ 1) (cutoff : ℝ) (exponent : ℕ) :
    |beam cosine cutoff exponent| ≤ 1 := by
  unfold beam
  split
  · rw [abs_zero]
    exact zero_le_one
  · rw [abs_pow]
    exact pow_le_one₀ (abs_nonneg cosine) h

/-- **What a cone lets through is negative** just where an odd power is taken of a negative cosine,
which lies within the cone. -/
theorem beam_nonneg_iff (cosine cutoff : ℝ) (exponent : ℕ) : 0 ≤ beam cosine cutoff exponent ↔
    ¬ (Odd exponent ∧ cosine < 0 ∧ Real.cos (Scalar.radians cutoff) ≤ cosine) := by
  unfold beam
  split
  · rename_i houtside
    exact iff_of_true le_rfl fun h => houtside.not_ge h.2.2
  · rename_i hinside
    rcases exponent.even_or_odd with heven | hodd
    · exact iff_of_true (heven.pow_nonneg cosine) fun h => Nat.not_even_iff_odd.mpr h.1 heven
    · rw [hodd.pow_nonneg_iff]
      simp [hodd, not_lt.mp hinside]

section

variable (position target color p : Vec3 ℝ)

/-- The falloff of the program, by the distance. -/
theorem attenuation_eq :
    attenuation ((position - p).dot (position - p)) = remaining position p := by
  rw [remaining, Vec3.length_sub_comm, Vec3.length_sq, attenuation]
  norm_num [ExactScalar.literal_eq]

/-- The distance to a bare lamp. -/
theorem distance_point :
    ((point position color).illuminate p).distance = .finite (p - position).length := by
  rw [Vec3.length_sub_comm]
  rfl

/-- A bare lamp is weakened by the distance alone. -/
theorem intensity_point :
    ((point position color).illuminate p).intensity = color.scale (remaining position p) := by
  rw [← attenuation_eq]
  rfl

/-- The distance to a lamp with a cone. -/
theorem distance_spot (cutoff exponent : ℝ) :
    ((spot position target color cutoff exponent).illuminate p).distance
      = .finite (p - position).length := by
  rw [Vec3.length_sub_comm]
  rfl

/-- The angle at the lamp between its axis and the point. -/
theorem cosine_spot : -(position - p).dot (target - position).normalize / (position - p).length
    = Vec3.cosine (p - position) (target - position) := by
  rw [Vec3.cosine, Vec3.normalize_eq_scale, Vec3.dot_scale, Vec3.length_sub_comm p,
    ← neg_sub position p, Vec3.neg_dot]
  field_simp

/-- **A lamp with a cone** shines with a power of the cosine of the angle to its axis. -/
theorem intensity_spot (cutoff : ℝ) (exponent : ℕ) :
    ((spot position target color cutoff exponent).illuminate p).intensity =
      color.scale (beam (Vec3.cosine (p - position) (target - position)) cutoff exponent
        * remaining position p) := by
  have hpow (x : ℝ) : Scalar.pow x (exponent : ℝ) = x ^ exponent := Real.rpow_natCast x exponent
  rw [← cosine_spot, ← attenuation_eq, beam, ← hpow, ite_mul, zero_mul, apply_ite color.scale,
    Vec3.scale_zero]
  rfl

end

/-- **The light of a lamp with a cone** is never more than what is left of it, and negative just
behind the lamp where an odd power is taken of the cosine. -/
theorem intensity_spot_bounds {color : Vec3 ℝ} (hcolor : 0 ≤ color) (position target p : Vec3 ℝ)
    (cutoff : ℝ) (exponent : ℕ) :
    let full := color.scale (remaining position p)
    let lit := ((spot position target color cutoff exponent).illuminate p).intensity
    let cosine := Vec3.cosine (p - position) (target - position)
    lit ≤ full ∧ -full ≤ lit ∧
      (0 ≤ lit ↔ color = 0 ∨
        ¬ (Odd exponent ∧ cosine < 0 ∧ Real.cos (Scalar.radians cutoff) ≤ cosine)) := by
  intro full lit cosine
  have hpos := remaining_pos position p
  obtain ⟨hlow, hhigh⟩ := abs_le.mp (abs_beam_le_one
    (Vec3.abs_cosine_le_one (p - position) (target - position)) cutoff exponent)
  -- All three parts are about one factor for the colour of the lamp.
  have hlit : lit = color.scale (beam cosine cutoff exponent * remaining position p) :=
    intensity_spot position target color p cutoff exponent
  refine ⟨?_, ?_, ?_⟩
  · rw [hlit]
    refine Vec3.scale_le_scale hcolor ?_
    exact mul_le_of_le_one_left hpos.le hhigh
  · rw [hlit, ← Vec3.scale_neg]
    refine Vec3.scale_le_scale hcolor ?_
    calc -remaining position p = -1 * remaining position p := (neg_one_mul _).symm
      _ ≤ beam cosine cutoff exponent * remaining position p :=
        mul_le_mul_of_nonneg_right hlow hpos.le
  · rw [hlit, Vec3.scale_nonneg_iff hcolor, mul_nonneg_iff_of_pos_right hpos, beam_nonneg_iff]

/-! ### All lights -/

/-- **How bright lights are.** Parallel light has the intensity of its colour. A lamp at the
distance `d` of a point has what is left there of its colour, `100 / (99 + d ^ 2)` of it. A lamp
with a cone, whatever the cutoff is and whatever whole number the exponent, has no more than that,
be it positive or negative. If its colour is not black, its intensity is negative in some channel
just if the point is behind the lamp, yet in the cone, and the exponent is odd. -/
theorem intensity_bounds {color : Vec3 ℝ} (hcolor : 0 ≤ color) (p : Vec3 ℝ) :
    (∀ direction, ((directional direction color).illuminate p).intensity = color) ∧
    ∀ position, p ≠ position →
      let d := (p - position).length
      let full := color.scale (100 / (99 + d ^ 2))
      let bare := (point position color).illuminate p
      bare.distance = .finite d ∧ 0 ≤ bare.intensity ∧ bare.intensity = full ∧
      ∀ target, position ≠ target → ∀ (cutoff : ℝ) (exponent : ℕ),
        let lit := (spot position target color cutoff exponent).illuminate p
        lit.distance = .finite d ∧ lit.intensity ≤ full ∧ -full ≤ lit.intensity ∧
          (0 ≤ lit.intensity ↔ color = 0 ∨
            ¬ (Odd exponent ∧ (p - position).dot (target - position) < 0 ∧
              Real.cos (Scalar.radians cutoff)
                ≤ Vec3.cosine (p - position) (target - position))) := by
  refine ⟨fun direction => rfl, fun position hp => ⟨?_, ?_, ?_, ?_⟩⟩
  · exact distance_point position color p
  · rw [intensity_point, Vec3.scale_nonneg_iff hcolor]
    exact Or.inr (remaining_pos position p).le
  · exact intensity_point position color p
  · intro target htarget cutoff exponent lit
    obtain ⟨hmost, hleast, hsign⟩ :=
      intensity_spot_bounds hcolor position target p cutoff exponent
    -- The cosine has the sign of the product, since neither vector is zero.
    have hbehind := Vec3.cosine_neg_iff (sub_ne_zero.mpr hp) (sub_ne_zero.mpr htarget.symm)
    rw [hbehind] at hsign
    exact ⟨distance_spot position target color p cutoff exponent, hmost, hleast, hsign⟩

/-- A half turn, in radians. -/
theorem radians_half_turn : Scalar.radians (180 : ℝ) = Real.pi := by
  have h : Scalar.radians (180 : ℝ) = 180 * (Real.pi / 180) := by
    norm_num [Scalar.radians, ExactScalar.literal_eq]
    rfl
  rw [h]
  ring

/-- Lamps that shine on all sides, and a point straight behind them: with an even exponent it is
lit, and with an odd one darkened. -/
theorem intensity_bounds_all_round :
    let color : Vec3 ℝ := ⟨1, 1 / 2, 0⟩
    let origin : Vec3 ℝ := ⟨0, 0, 0⟩
    let target : Vec3 ℝ := ⟨0, 0, 1⟩
    let p : Vec3 ℝ := ⟨0, 0, -1⟩
    let lit (exponent : ℕ) := ((spot origin target color 180 exponent).illuminate p).intensity
    0 ≤ color ∧ p ≠ origin ∧ origin ≠ target ∧
    0 ≤ lit 2 ∧ lit 2 ≤ color.scale (100 / (99 + (p - origin).length ^ 2)) ∧ ¬ 0 ≤ lit 3 := by
  intro color origin target p lit
  have hcolor : 0 ≤ color := Vec3.nonneg_iff.mpr ⟨by norm_num, by norm_num, le_rfl⟩
  have hp : p ≠ origin := fun h => by simpa [p, origin] using congrArg Vec3.z h
  have htarget : origin ≠ target := fun h => by simpa [target, origin] using congrArg Vec3.z h
  obtain ⟨-, hlamps⟩ := intensity_bounds hcolor p
  obtain ⟨-, -, -, hcones⟩ := hlamps origin hp
  obtain ⟨-, hmost, -, heven⟩ := hcones target htarget 180 2
  obtain ⟨-, -, -, hodd⟩ := hcones target htarget 180 3
  have hblack : color ≠ 0 := fun h => by simpa [color] using congrArg Vec3.x h
  have hbehind : (p - origin).dot (target - origin) < 0 := by
    norm_num [p, origin, target, Vec3.dot]
  -- The cone is all round, so that every direction is in it.
  have hcone : Real.cos (Scalar.radians 180) ≤ Vec3.cosine (p - origin) (target - origin) := by
    rw [radians_half_turn, Real.cos_pi]
    exact (abs_le.mp (Vec3.abs_cosine_le_one _ _)).1
  refine ⟨hcolor, hp, htarget, heven.mpr (Or.inr fun h => ?_), hmost, fun h => ?_⟩
  · exact Nat.not_odd_iff_even.mpr even_two h.1
  · exact (hodd.mp h).elim hblack fun hnot => hnot ⟨by decide, hbehind, hcone⟩

/-- A white lamp that shines on all sides, with the exponent one: straight behind it the whole of
its colour is taken away. -/
theorem lamp_darkens_behind :
    let white : Vec3 ℝ := ⟨1, 1, 1⟩
    let origin : Vec3 ℝ := ⟨0, 0, 0⟩
    let target : Vec3 ℝ := ⟨0, 0, 1⟩
    let p : Vec3 ℝ := ⟨0, 0, -1⟩
    let lit := ((spot origin target white 180 ((1 : ℕ) : ℝ)).illuminate p).intensity
    0 ≤ white ∧ origin ≠ target ∧ p ≠ origin ∧ lit = ⟨-1, -1, -1⟩ ∧ ¬ 0 ≤ lit := by
  intro white origin target p lit
  have hcosine : Vec3.cosine (p - origin) (target - origin) = -1 := by
    simp [Vec3.cosine, Vec3.length_eq, Vec3.dot, p, origin, target]
  -- Straight behind the lamp the cosine is minus one, and so is the factor.
  have hlit : lit = ⟨-1, -1, -1⟩ := by
    have hbeam : beam (-1) 180 1 = -1 := by
      simp [beam, radians_half_turn]
    have hremaining : remaining origin p = 1 := by
      norm_num [remaining, Vec3.length_sq, Vec3.dot, p, origin]
    have h := intensity_spot origin target white p 180 1
    rw [hcosine, hbeam, hremaining] at h
    exact h.trans (by norm_num [Vec3.scale, white])
  refine ⟨Vec3.nonneg_iff.mpr ⟨zero_le_one, zero_le_one, zero_le_one⟩, fun h => ?_, fun h => ?_,
    hlit, fun h => ?_⟩
  · simpa [origin, target] using congrArg Vec3.z h
  · simpa [p, origin] using congrArg Vec3.z h
  · rw [hlit] at h
    exact absurd (Vec3.nonneg_iff.mp h).1 (by norm_num)

end Light

end SceneTracer
