import Mathlib
import SceneTracer.Proofs.Scalar.Order

namespace SceneTracer

/-!
# The numbers that floating point numbers stand for

A product of floating point numbers is rounded. What is at most a small whole number is so after
rounding, since a whole number of few bits is a multiple of the unit that is rounded to.

* `value?` — the extended real number that a floating point number stands for, if it is a number.
* `float_lt_iff_value` — floating point numbers compare as the numbers they stand for.
* `value?_clampToUnit` — cutting off at zero and at one is exact.
* `isWithin_roundWithAccuracy` — rounding does not leave a range from zero to a small whole number.
* `IsWithin.toNat_toUInt8` — what is in the range of a byte is its whole part as a byte.
-/

open Float.Model UnpackedFloat

/-! ### Mantissas and exponents -/

/-- A mantissa and an exponent of a floating point number of 64 bits: as many bits as there are, and
fewer only at the smallest exponent. -/
structure Canonical (m : ℕ) (e : ℤ) : Prop where
  pos : 0 < m
  lt : m < 2 ^ 53
  le_exponent : -1074 ≤ e
  normal : 2 ^ 52 ≤ m ∨ e = -1074

/-- What is finite has a canonical mantissa and exponent. -/
def IsCanonical : UnpackedFloat → Prop
  | .finite _ m e _ => Canonical m e
  | _ => True

/-- A mantissa is written without its leading bit. -/
theorem toNat_leading_append (v : BitVec 52) : (1#1 ++ v).toNat = 2 ^ 52 + v.toNat := by
  rw [BitVec.toNat_append, ← Nat.shiftLeft_add_eq_or_of_lt v.isLt]
  simp [Nat.shiftLeft_eq]

/-- Whatever the bits, what is unpacked from them is canonical. -/
theorem isCanonical_unpack (b : BitVec Format.binary64.numBits) :
    IsCanonical (UnpackedFloat.unpack .binary64 b) := by
  have hmantissa : (unpackMantissa b).toNat < 2 ^ 52 := (unpackMantissa b).isLt
  have hbias : (Format.binary64.exponentBias : ℤ) = 1023 := rfl
  unfold UnpackedFloat.unpack
  dsimp only
  split
  -- The largest exponent is that of infinities and of what is not a number.
  · split <;> trivial
  · split
    · split
      · trivial
      · rename_i hexponent hzero
        have hpos : 0 < (unpackMantissa b).toNat := by
          rwa [BitVec.toNat_pos, BitVec.pos_iff_ne_zero]
        rw [hexponent, hbias]
        exact ⟨hpos, by omega, by simp, Or.inr (by simp)⟩
    · rename_i hexponent
      have hpos : 0 < (unpackExponent b).toNat := by
        rwa [BitVec.toNat_pos, BitVec.pos_iff_ne_zero]
      rw [hbias]
      refine ⟨?_, ?_, ?_, Or.inl ?_⟩
      · rw [toNat_leading_append]
        omega
      · rw [toNat_leading_append]
        omega
      · show -1074 ≤ _ - ((1023 : ℤ) + 52)
        omega
      · rw [toNat_leading_append]
        omega

/-- The sign is read from where it is written. -/
theorem ofBitVec_unpackSign (s : Sign) (x : BitVec 11) (v : BitVec 52) :
    Sign.ofBitVec (unpackSign (packComponents .binary64 s x v)) = s := by
  have hsign : unpackSign (packComponents .binary64 s x v) = s.toBitVec := by
    change (s.toBitVec ++ x ++ v).extractLsb' 63 1 = s.toBitVec
    rw [BitVec.extractLsb'_append_eq_of_le (by decide),
      BitVec.extractLsb'_append_eq_of_le (by decide)]
    exact BitVec.extractLsb'_eq_self
  rw [hsign]
  cases s <;> rfl

/-- A normal number gets back the leading bit that is not written. -/
theorem unpack_packComponents_of_normal (s : Sign) {x : BitVec 11} (v : BitVec 52) (hx : x ≠ 0#11)
    (hx' : x ≠ -1#11) :
    UnpackedFloat.unpack .binary64 (packComponents .binary64 s x v)
      = .finite s (2 ^ 52 + v.toNat) (x.toNat - 1075) (by omega) := by
  unfold UnpackedFloat.unpack
  simp only [unpackMantissa_packComponents, unpackExponent_packComponents, ofBitVec_unpackSign]
  rw [if_neg hx', if_neg hx]
  congr 1
  exact toNat_leading_append v

/-- A number with the smallest exponent has no such bit. -/
theorem unpack_packComponents_of_subnormal (s : Sign) {v : BitVec 52} (hv : 0 < v.toNat) :
    UnpackedFloat.unpack .binary64 (packComponents .binary64 s 0#11 v)
      = .finite s v.toNat (-1074) hv := by
  have hne : v ≠ 0#52 := by
    rintro rfl
    exact absurd hv (by decide)
  unfold UnpackedFloat.unpack
  simp only [unpackMantissa_packComponents, unpackExponent_packComponents, ofBitVec_unpackSign]
  rw [if_neg (by decide), if_pos trivial, dif_neg hne]
  rfl

/-- A number with all leading bits there is written as a normal one, and otherwise as a subnormal
one. -/
theorem pack_finite (s : Sign) {m : ℕ} {e : ℤ} (hm : 0 < m) (he : e ≤ 971) :
    UnpackedFloat.pack .binary64 (.finite s m e hm)
      = packComponents .binary64 s
          (if m.log2 + 1 = 53 then BitVec.ofNat 11 (e + 1075).toNat else 0#11)
          (BitVec.ofNat 52 m) := by
  have hfits : ¬ 2 ^ 11 ≤ (e + 1023 + 52).toNat + 1 := by omega
  have hbias : e + 1023 + 52 = e + 1075 := by omega
  rw [← hbias, apply_ite fun x => packComponents .binary64 s x (BitVec.ofNat 52 m)]
  exact if_neg hfits

/-- Packing a number that is not too large keeps it. -/
theorem unpack_pack_finite (s : Sign) {m : ℕ} {e : ℤ} (h : Canonical m e) (he : e ≤ 971) :
    UnpackedFloat.unpack .binary64 (UnpackedFloat.pack .binary64 (.finite s m e h.pos))
      = .finite s m e h.pos := by
  obtain ⟨hpos, hlt, hlow, hnormal⟩ := h
  rw [pack_finite s hpos he]
  -- With a leading bit the exponent is neither of the two that have another meaning.
  by_cases hleading : 2 ^ 52 ≤ m
  · have hlog : m.log2 = 52 := (Nat.log2_eq_iff hpos.ne').mpr ⟨hleading, hlt⟩
    have hexponent : (BitVec.ofNat 11 (e + 1075).toNat).toNat = (e + 1075).toNat :=
      Nat.mod_eq_of_lt (by omega)
    have hmantissa : (BitVec.ofNat 52 m).toNat = m - 2 ^ 52 := by
      rw [BitVec.toNat_ofNat]
      omega
    rw [if_pos (by rw [hlog]), unpack_packComponents_of_normal]
    · congr 1 <;> omega
    · intro hzero
      rw [← BitVec.toNat_inj, hexponent] at hzero
      change _ = 0 at hzero
      omega
    · intro hall
      rw [← BitVec.toNat_inj, hexponent] at hall
      change _ = 2047 at hall
      omega
  · have hlog : m.log2 < 52 := (Nat.log2_lt hpos.ne').mpr (by omega)
    have hmantissa : (BitVec.ofNat 52 m).toNat = m := Nat.mod_eq_of_lt (by omega)
    have hexponent : e = -1074 := by omega
    rw [if_neg (by omega), unpack_packComponents_of_subnormal s (by omega)]
    congr 1
    exact hexponent.symm

/-! ### Numbers -/

/-- The extended real number that an unpacked floating point number stands for. -/
noncomputable def unpackedValue? : UnpackedFloat → Option EReal
  | .notANumber => none
  | .infinity .negative => some ⊥
  | .infinity .positive => some ⊤
  | .zero _ => some 0
  | .finite .negative m e _ => some (-(m * 2 ^ e : ℝ) : ℝ)
  | .finite .positive m e _ => some (m * 2 ^ e : ℝ)

/-- The extended real number that a floating point number stands for. What is not a number stands for
none. -/
noncomputable def value? (x : Float) : Option EReal := unpackedValue? x.toModel.unpack

/-- Just what is not a number has no value. -/
theorem value?_eq_none_iff {x : Float} : value? x = none ↔ x.isNaN = true := by
  change _ ↔ x.toModel.unpack.isNaN = true
  unfold value?
  rcases x.toModel.unpack with (_ | _) | _ | _ | ⟨_ | _, m, e, hm⟩ <;>
    simp [unpackedValue?, UnpackedFloat.isNaN]

@[simp] theorem value?_zero : value? 0.0 = some 0 := rfl

@[simp] theorem value?_one : value? 1.0 = some 1 := by
  change some (((2 ^ 52 : ℕ) * 2 ^ (-52 : ℤ) : ℝ) : EReal) = some 1
  norm_num

/-- Among canonical numbers the exponent decides. -/
theorem Canonical.value_lt {m n : ℕ} {e f : ℤ} (hm : Canonical m e) (hn : Canonical n f)
    (h : e < f) : (m * 2 ^ e : ℝ) < n * 2 ^ f := by
  have hlow := hm.le_exponent
  -- The larger exponent is not the smallest there is, so its mantissa is full.
  have hleading : 2 ^ 52 ≤ n := hn.normal.resolve_right (by omega)
  calc (m * 2 ^ e : ℝ) < 2 ^ 53 * 2 ^ e := by
        gcongr
        exact_mod_cast hm.lt
    _ = 2 ^ 52 * 2 ^ (e + 1) := by
        rw [zpow_add₀ two_ne_zero]
        ring
    _ ≤ n * 2 ^ f := by
        gcongr
        · exact_mod_cast hleading
        · exact one_le_two
        · exact h

/-- Of two canonical numbers the one with the larger exponent is larger. -/
theorem Canonical.value_lt_iff {m n : ℕ} {e f : ℤ} (hm : Canonical m e) (hn : Canonical n f) :
    e < f ∨ e = f ∧ m < n ↔ (m * 2 ^ e : ℝ) < n * 2 ^ f := by
  rcases lt_trichotomy e f with hlt | rfl | hgt
  · simp [hlt, hm.value_lt hn hlt]
  · have hunit : (0 : ℝ) < 2 ^ e := by positivity
    simp [mul_lt_mul_iff_left₀ hunit]
  · simp [hgt.not_gt, hgt.ne', (hn.value_lt hm hgt).le]

/-- **Ranks are in the order of values.** -/
theorem rank_lt_iff_value {x y : UnpackedFloat} (hx : IsCanonical x) (hy : IsCanonical y) :
    (∃ r ∈ floatRank x, ∃ s ∈ floatRank y, r < s)
      ↔ ∃ v ∈ unpackedValue? x, ∃ w ∈ unpackedValue? y, v < w := by
  have hpositive : ∀ {m : ℕ} {e : ℤ}, 0 < m → 0 < (m * 2 ^ e : ℝ) := by
    intro m e hm
    positivity
  rcases x with (_ | _) | _ | _ | ⟨_ | _, m, e, hm⟩ <;>
    rcases y with (_ | _) | _ | _ | ⟨_ | _, n, f, hn⟩ <;>
    simp [floatRank, unpackedValue?, Prod.Lex.toLex_lt_toLex, -EReal.coe_mul, -EReal.coe_neg]
  -- Zeros and infinities are where they should be; what is left are signs, and canonical numbers of
  -- one sign.
  case zero.finite.negative => exact (hpositive hn).le
  case zero.finite.positive => exact hpositive hn
  case finite.negative.zero => exact hpositive hm
  case finite.negative.finite.negative =>
    rw [← Canonical.value_lt_iff hy hx]
    simp only [eq_comm]
  case finite.negative.finite.positive => exact (neg_neg_of_pos (hpositive hm)).trans (hpositive hn)
  case finite.positive.zero => exact (hpositive hm).le
  case finite.positive.finite.negative =>
    exact ((neg_neg_of_pos (hpositive hn)).trans (hpositive hm)).le
  case finite.positive.finite.positive => exact Canonical.value_lt_iff hx hy

/-- **Floating point numbers compare as the numbers they stand for.** -/
theorem float_lt_iff_value {x y : Float} :
    x < y ↔ ∃ v ∈ value? x, ∃ w ∈ value? y, v < w := by
  rw [float_lt_iff]
  exact rank_lt_iff_value (isCanonical_unpack _) (isCanonical_unpack _)

/-- **Cutting off at zero and at one gives the nearest number.** -/
theorem value?_clampToUnit (c : Float) :
    value? (Scalar.clampToUnit c) = (value? c).map fun v => max 0 (min 1 v) := by
  have hbelow : c < 0.0 ↔ ∃ v ∈ value? c, v < 0 := by simp [float_lt_iff_value]
  have habove : 1.0 < c ↔ ∃ v ∈ value? c, 1 < v := by simp [float_lt_iff_value]
  unfold Scalar.clampToUnit
  cases hc : value? c with
  | none => simp [hbelow, habove, hc]
  | some v =>
    simp only [hbelow, habove, hc, Option.mem_some_iff, exists_eq_left', Option.map_some]
    split_ifs with hneg hlarge
    · rw [value?_zero, min_eq_right (hneg.le.trans zero_le_one), max_eq_left hneg.le]
    · rw [value?_one, min_eq_left hlarge.le, max_eq_right zero_le_one]
    · rw [hc, min_eq_right (not_lt.mp hlarge), max_eq_right (not_lt.mp hneg)]

/-! ### Rounding -/

/-- Shifting divides the mantissa and drops the remainder. -/
theorem mantissa_shift (em : ExtendedMantissa) (n : ℕ) :
    (em >>> n).mantissa = em.mantissa / 2 ^ n := by
  induction n with
  | zero => exact (Nat.div_one _).symm
  | succ n ih =>
    change (em >>> n).mantissa / 2 = _
    rw [ih, Nat.div_div_eq_div_mul, pow_succ]

/-- Shifting an exact mantissa keeps it exact if nothing is left over. -/
theorem shift_exact (K n : ℕ) :
    ExtendedMantissa.ofMantissaAndAccuracy (K * 2 ^ n) .exact >>> n
      = ExtendedMantissa.ofMantissaAndAccuracy K .exact := by
  induction n generalizing K with
  | zero =>
    rw [pow_zero, mul_one]
    rfl
  | succ n ih =>
    have hsplit : K * 2 ^ (n + 1) = K * 2 * 2 ^ n := by ring
    change ExtendedMantissa.shiftRightOne
      (ExtendedMantissa.ofMantissaAndAccuracy (K * 2 ^ (n + 1)) .exact >>> n) = _
    rw [hsplit, ih]
    simp [ExtendedMantissa.ofMantissaAndAccuracy, ExtendedMantissa.shiftRightOne]

/-- Rounding goes up by at most one. -/
theorem roundedMantissa_bounds (em : ExtendedMantissa) :
    em.mantissa ≤ em.roundedMantissa ∧ em.roundedMantissa ≤ em.mantissa + 1 := by
  obtain ⟨m, _ | _, _ | _⟩ := em <;>
    simp [ExtendedMantissa.roundedMantissa, ExtendedMantissa.accuracy,
      Accuracy.roundToNearestEven]
  omega

/-- The mantissa of a whole number, without its last `n` bits, rounded. -/
def roundedShift (M n : ℕ) : ℕ :=
  (ExtendedMantissa.ofMantissaAndAccuracy M .exact >>> n).roundedMantissa

/-- A shift with rounding is division up to one. -/
theorem roundedShift_bounds (M n : ℕ) :
    M / 2 ^ n ≤ roundedShift M n ∧ roundedShift M n ≤ M / 2 ^ n + 1 := by
  have hmantissa := mantissa_shift (ExtendedMantissa.ofMantissaAndAccuracy M .exact) n
  have hbounds := roundedMantissa_bounds (ExtendedMantissa.ofMantissaAndAccuracy M .exact >>> n)
  rwa [hmantissa] at hbounds

/-- What is at most a multiple of the unit of rounding is so after rounding. -/
theorem roundedShift_le {M K n : ℕ} (h : M ≤ K * 2 ^ n) : roundedShift M n ≤ K := by
  obtain rfl | hlt := h.eq_or_lt
  · rw [roundedShift, shift_exact]
    rfl
  · have hdiv : M / 2 ^ n < K := Nat.div_lt_of_lt_mul (by rwa [mul_comm])
    exact (roundedShift_bounds M n).2.trans hdiv

/-- By how many bits a mantissa is shifted, so that it has no more than there are and its exponent is
not too small. -/
def shiftAmount (M : ℕ) (E : ℤ) : ℕ := (max (M.log2 + E - 52) (-1074) - E).toNat

/-- The two shifts of the definition are one, by the sum of their amounts. -/
theorem shiftToTargetExponent_eq (M : ℕ) (E : ℤ) :
    shiftToTargetExponent .binary64 M E .exact
      = (ExtendedMantissa.ofMantissaAndAccuracy M .exact >>> shiftAmount M E,
          E + shiftAmount M E) := by
  have htarget : Format.binary64.targetExponent (totalExponent M E)
      = max (M.log2 + E - 52) (-1074) := by
    simp only [Format.targetExponent, totalExponent, Format.mantissaBits, Format.minExponent]
    omega
  rw [shiftToTargetExponent, htarget, shiftToExponent, shiftAmount]

section

variable {M n : ℕ} {E : ℤ}

/-- A rounded mantissa has at most one bit too many, and enough bits unless the exponent is the
smallest. -/
theorem roundedShift_normal (hM : 2 ^ 52 ≤ M) (hn : shiftAmount M E = n) :
    roundedShift M n ≤ 2 ^ 53 ∧ (2 ^ 52 ≤ roundedShift M n ∨ E + n = -1074) := by
  have hzero : M ≠ 0 := by omega
  have hlog : 52 ≤ M.log2 := (Nat.le_log2 hzero).mpr hM
  unfold shiftAmount at hn
  constructor
  · refine roundedShift_le ?_
    rw [← pow_add]
    exact Nat.lt_log2_self.le.trans (Nat.pow_le_pow_right two_pos (by omega))
  · -- Either the smallest exponent is reached, or the shift keeps all leading bits.
    by_cases hmin : E + n = -1074
    · exact Or.inr hmin
    · refine Or.inl (le_trans ?_ (roundedShift_bounds M n).1)
      rw [Nat.le_div_iff_mul_le (by positivity), ← pow_add]
      exact (Nat.pow_le_pow_right two_pos (by omega)).trans (Nat.log2_self_le hzero)

/-- A mantissa with one bit too many is a power of two, which is the smallest mantissa of the next
exponent. -/
theorem roundWithAccuracy_eq (s : Sign) {r : ℕ} (hn : shiftAmount M E = n)
    (hr : roundedShift M n = r) (hlow : -1074 ≤ E + n) (hbits : r ≤ 2 ^ 53) :
    roundWithAccuracy .binary64 s M E .exact
      = if h : r = 0 then .zero s
        else if r < 2 ^ 53 then .finite s r (E + n) (by omega)
        else .finite s (2 ^ 52) (E + n + 1) (by decide) := by
  have hfirst := shiftToTargetExponent_eq M E
  have hsecond := shiftToTargetExponent_eq r (E + n)
  rw [hn] at hfirst
  unfold roundedShift at hr
  -- The second shift is by one bit if rounding has made one bit too many, and else by none.
  by_cases hlt : r < 2 ^ 53
  · have hlog : r.log2 ≤ 52 := by
      by_cases hzero : r = 0
      · simp [hzero]
      · exact Nat.le_of_lt_succ ((Nat.log2_lt hzero).mpr hlt)
    have hkeep : shiftAmount r (E + n) = 0 := by
      unfold shiftAmount
      omega
    rw [hkeep, Int.natCast_zero, add_zero] at hsecond
    simp only [roundWithAccuracy, hfirst, hr, hsecond, if_pos hlt]
    rfl
  · obtain rfl : r = 2 ^ 53 := by omega
    have hnext : shiftAmount (2 ^ 53) (E + n) = 1 := by
      rw [shiftAmount, Nat.log2_two_pow]
      omega
    rw [hnext] at hsecond
    simp only [roundWithAccuracy, hfirst, hr, hsecond]
    rfl

end

/-- An unpacked floating point number that stands for a number from zero to `B`. -/
def IsWithin (B : ℕ) : UnpackedFloat → Prop
  | .zero _ => True
  | .finite .positive m e _ => Canonical m e ∧ e ≤ 0 ∧ m ≤ B * 2 ^ (-e).toNat
  | _ => False

/-- **Rounding does not leave the range from zero to a small whole number.** -/
theorem isWithin_roundWithAccuracy {B M : ℕ} {E : ℤ} (hB : B < 2 ^ 52) (hM : 2 ^ 52 ≤ M) (hE : E ≤ 0)
    (h : M ≤ B * 2 ^ (-E).toNat) :
    IsWithin B (roundWithAccuracy .binary64 .positive M E .exact) := by
  obtain ⟨n, hn⟩ : ∃ n, shiftAmount M E = n := ⟨_, rfl⟩
  obtain ⟨r, hr⟩ : ∃ r, roundedShift M n = r := ⟨_, rfl⟩
  obtain ⟨hbits, hnormal⟩ := roundedShift_normal hM hn
  have hlog : M.log2 < 52 + (-E).toNat := by
    rw [Nat.log2_lt (by omega), pow_add]
    exact h.trans_lt (Nat.mul_lt_mul_of_pos_right hB (by positivity))
  have hgrid : -1074 ≤ E + n ∧ E + n ≤ 0 := by
    have hleading : 52 ≤ M.log2 := (Nat.le_log2 (by omega)).mpr hM
    unfold shiftAmount at hn
    omega
  -- Here `B` is a multiple of the unit of rounding.
  have hvalue : r ≤ B * 2 ^ (-(E + n)).toNat := by
    rw [← hr]
    refine roundedShift_le ?_
    have hexponent : (-E).toNat = (-(E + n)).toNat + n := by omega
    rwa [mul_assoc, ← pow_add, ← hexponent]
  rw [hr] at hbits hnormal
  rw [roundWithAccuracy_eq _ hn hr hgrid.1 hbits]
  split_ifs with hzero hlt
  · trivial
  · exact ⟨⟨by omega, hlt, hgrid.1, hnormal⟩, hgrid.2, hvalue⟩
  -- As `B` has few bits, the unit is then so small that the next exponent is not above zero.
  · obtain rfl : r = 2 ^ 53 := by omega
    obtain ⟨j, hj⟩ : ∃ j, (-(E + n)).toNat = j + 1 := by
      refine Nat.exists_eq_add_one.mpr (Nat.pos_of_ne_zero fun hexponent => ?_)
      rw [hexponent] at hvalue
      omega
    have hnext : (-(E + n + 1)).toNat = j := by omega
    refine ⟨⟨by decide, by decide, by omega, Or.inl le_rfl⟩, by omega, ?_⟩
    rw [hj, pow_succ 2 j, ← mul_assoc] at hvalue
    rw [hnext]
    omega

/-! ### Numbers in a range -/

/-- A power with a negative exponent is a division. -/
theorem mul_two_zpow_of_nonpos (m : ℕ) {e : ℤ} (he : e ≤ 0) :
    (m * 2 ^ e : ℝ) = m * ((2 ^ (-e).toNat : ℕ) : ℝ)⁻¹ := by
  obtain ⟨n, rfl⟩ : ∃ n : ℕ, e = -n := ⟨(-e).toNat, by omega⟩
  simp

/-- Rounding to a whole number forgets the bits behind the point. -/
theorem roundToInt_of_nonpos (m : ℕ) {e : ℤ} (he : e ≤ 0) :
    roundToInt .positive m e = (⌊(m * 2 ^ e : ℝ)⌋₊ : ℤ) := by
  rw [mul_two_zpow_of_nonpos m he, ← div_eq_mul_inv, Nat.floor_div_eq_div]
  obtain ⟨n, rfl⟩ : ∃ n : ℕ, e = -n := ⟨(-e).toNat, by omega⟩
  simp [roundToInt, decreaseExponent, shiftToExponent, mantissa_shift,
    ExtendedMantissa.ofMantissaAndAccuracy, Sign.apply]

section

variable {B : ℕ} {x : UnpackedFloat}

/-- A number within bounds is not changed by being written and read. -/
theorem IsWithin.unpack_pack (h : IsWithin B x) :
    UnpackedFloat.unpack .binary64 (UnpackedFloat.pack .binary64 x) = x := by
  match x, h with
  | .zero s, _ => cases s <;> rfl
  | .finite .positive m e _, ⟨hcanonical, he, _⟩ =>
    exact unpack_pack_finite .positive hcanonical (by omega)

/-- The whole part of a number in a range. -/
theorem IsWithin.value (h : IsWithin B x) :
    ∃ q : ℝ, unpackedValue? x = some (q : EReal) ∧ 0 ≤ q ∧ q ≤ B
      ∧ ∀ below above, toInt below above x = ⌊q⌋₊ := by
  match x, h with
  | .zero _, _ => exact ⟨0, rfl, le_rfl, by positivity, fun _ _ => by simp [toInt]⟩
  | .finite .positive m e _, ⟨_, he, hle⟩ =>
    refine ⟨m * 2 ^ e, rfl, by positivity, ?_, fun _ _ => roundToInt_of_nonpos m he⟩
    rw [mul_two_zpow_of_nonpos m he, ← div_eq_mul_inv, div_le_iff₀ (by positivity)]
    exact_mod_cast hle

/-- A machine number whose value is in the unit range is within its bounds. -/
theorem isWithin_one_of_value (hx : IsCanonical x) {v : EReal} (hv : unpackedValue? x = some v)
    (hzero : 0 ≤ v) (hone : v ≤ 1) : IsWithin 1 x := by
  match x, hx with
  | .zero _, _ => trivial
  | .finite .positive m e hm, hcanonical =>
    cases hv
    have hle : (m * 2 ^ e : ℝ) ≤ 1 := by exact_mod_cast hone
    -- With a positive exponent, the value would be more than one.
    have he : e ≤ 0 := by
      by_contra he
      have hunit : (1 : ℝ) < 2 ^ e := one_lt_zpow₀ one_lt_two (by omega)
      have hmantissa : (1 : ℝ) ≤ m := by exact_mod_cast hm
      exact absurd hle (not_le.mpr (one_lt_mul_of_le_of_lt hmantissa hunit))
    refine ⟨hcanonical, he, ?_⟩
    rw [mul_two_zpow_of_nonpos m he, ← div_eq_mul_inv, div_le_iff₀ (by positivity)] at hle
    exact_mod_cast hle
  | .finite .negative m e hm, _ =>
    cases hv
    have hle : (0 : ℝ) ≤ -(m * 2 ^ e) := by exact_mod_cast hzero
    have hpos : (0 : ℝ) < m * 2 ^ e := by positivity
    linarith
  | .infinity .negative, _ =>
    cases hv
    exact absurd hzero EReal.bot_lt_zero.not_ge
  | .infinity .positive, _ =>
    cases hv
    exact absurd hone (EReal.coe_lt_top 1).not_ge

/-- A product with 255 is rounded within the range of the exact products. -/
theorem isWithin_mul {c : Float} (h : IsWithin 1 c.toModel.unpack) :
    IsWithin 255 (255.0 * c).toModel.unpack := by
  have hfactor : (255.0 : Float).toModel.unpack
      = .finite .positive (255 * 2 ^ 45) (-45) (by decide) := rfl
  -- The exact product is within bounds before it is rounded, and rounding keeps bounds.
  have hproduct : IsWithin 255
      (UnpackedFloat.mul .binary64 (255.0 : Float).toModel.unpack c.toModel.unpack) := by
    rw [hfactor]
    match c.toModel.unpack, h with
    | .zero _, _ => trivial
    | .finite .positive m e hm, ⟨_, he, hle⟩ =>
      refine isWithin_roundWithAccuracy (by decide) (by omega) (by omega) ?_
      have hexponent : (-(-45 + e)).toNat = 45 + (-e).toNat := by omega
      rw [hexponent, pow_add, ← mul_assoc]
      exact Nat.mul_le_mul_left _ (by rwa [one_mul] at hle)
  have hunpack : (255.0 * c).toModel.unpack = UnpackedFloat.unpack .binary64
      (UnpackedFloat.pack .binary64
        (UnpackedFloat.mul .binary64 (255.0 : Float).toModel.unpack c.toModel.unpack)) := rfl
  rwa [hunpack, hproduct.unpack_pack]

/-- A number that is not too large as a byte is its whole part. -/
theorem IsWithin.toNat_toUInt8 {c : Float} (h : IsWithin 255 c.toModel.unpack) :
    ∃ q : ℝ, value? c = some (q : EReal) ∧ 0 ≤ q ∧ q ≤ 255 ∧ c.toUInt8.toNat = ⌊q⌋₊ := by
  obtain ⟨q, hvalue, hzero, hle, hwhole⟩ := h.value
  refine ⟨q, hvalue, hzero, by exact_mod_cast hle, ?_⟩
  have hbyte : ⌊q⌋₊ ≤ 255 := Nat.floor_le_of_le hle
  change (UInt8.ofNatClamp (toInt 0 255 c.toModel.unpack).toNat).toNat = _
  rw [hwhole, Int.toNat_natCast, UInt8.toNat_ofNatClamp_of_lt (Nat.lt_succ_of_le hbyte)]

end

end SceneTracer
