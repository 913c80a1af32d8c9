import ScriptEngine.Number.Decimal
import ScriptEngine.Proofs.Rounding

/-!
# Decimals as rational numbers

A decimal is read as the double nearest to it (`Decimal.toFloat_eq`).  So what is read depends on
the number alone, and not on how many zeros stand at its end (`Decimal.toFloat_congr`).
-/

namespace ScriptEngine.Number

open Float.Model (UnpackedFloat Format totalExponent)
open Float.Model.UnpackedFloat

/-! ### Products and quotients of whole numbers -/

section

variable {a b : ℕ}

/-- A product is rounded to the nearest double, provided that the factors have places enough. -/
lemma mul_eq_nearest {e : ℤ} (ha : 0 < a) (hb : 0 < b) (he : e ≤ lastPlace (a * 2 ^ e * b)) :
    mul Format.binary64 (.finite .positive a e ha) (.finite .positive b 0 hb) =
      nearest .positive (a * 2 ^ e * b) := by
  have hmul : mul Format.binary64 (.finite .positive a e ha) (.finite .positive b 0 hb) =
      roundWithAccuracy Format.binary64 .positive (a * b) (e + 0) .exact := rfl
  have hexact : (a * 2 ^ e * b : ℚ) / 2 ^ e = (a * b : ℕ) := by
    rw [div_eq_iff (zpow_pos two_pos _).ne']
    push_cast
    ring
  rw [hmul, add_zero, roundWithAccuracy_eq_nearest (approximates_of_eq hexact) (by positivity) he]

/-- A quotient is rounded to the nearest double. -/
lemma div_eq_nearest (ha : 0 < a) (hb : 0 < b) :
    div Format.binary64 (.finite .positive a 0 ha) (.finite .positive b 0 hb) =
      nearest .positive (a / b) := by
  have ha' : (0 : ℚ) < a := by exact_mod_cast ha
  have hb' : (0 : ℚ) < b := by exact_mod_cast hb
  obtain ⟨t, ht⟩ : ∃ t, t = min ((0 : ℤ) - 0)
      (Format.binary64.targetExponent (totalExponent a 0 - totalExponent b 0)) := ⟨_, rfl⟩
  have hdiv : div Format.binary64 (.finite .positive a 0 ha) (.finite .positive b 0 hb) =
      roundWithAccuracy Format.binary64 .positive (a <<< ((0 : ℤ) - 0 - t).toNat / b) t
        (accuracyOfFraction (a <<< ((0 : ℤ) - 0 - t).toNat % b) b) := by
    rw [ht]
    rfl
  rw [sub_zero, zero_sub] at hdiv
  have happrox : (a / b : ℚ) / 2 ^ t = (a <<< (-t).toNat : ℕ) / b := by
    have hscale : ((2 : ℚ) ^ t)⁻¹ = (2 ^ (-t).toNat : ℕ) := by
      rw [← zpow_neg, Nat.cast_pow, ← zpow_natCast, Int.toNat_of_nonneg (by omega), Nat.cast_two]
    rw [Nat.shiftLeft_eq, Nat.cast_mul, ← hscale]
    ring
  have hlog : (a.log2 : ℤ) - (b.log2 + 1 : ℕ) ≤ Int.log 2 (a / b : ℚ) := by
    refine (Int.zpow_le_iff_le_log (b := 2) one_lt_two (div_pos ha' hb')).1 ?_
    rw [Nat.cast_two, zpow_sub₀ two_ne_zero, zpow_natCast, zpow_natCast]
    have hfirst : (2 : ℚ) ^ a.log2 ≤ a := by exact_mod_cast Nat.log2_self_le ha.ne'
    have hlast : (b : ℚ) ≤ 2 ^ (b.log2 + 1) := by exact_mod_cast Nat.lt_log2_self.le
    exact div_le_div₀ ha'.le hfirst hb' hlast
  have hplace : t ≤ lastPlace (a / b) := by
    rw [targetExponent_eq, totalExponent, totalExponent] at ht
    unfold lastPlace
    omega
  rw [hdiv, roundWithAccuracy_eq_nearest _ (by positivity) hplace]
  rw [happrox]
  exact approximates_div _ hb

end

namespace Decimal

/-- The rational number that a decimal is. -/
def value (d : Decimal) : ℚ :=
  d.digits * 10 ^ d.exponent

variable {d : Decimal}

lemma value_nonneg (d : Decimal) : 0 ≤ d.value :=
  mul_nonneg (Nat.cast_nonneg _) (zpow_pos (by norm_num) _).le

lemma value_pos (h : 0 < d.digits) : 0 < d.value :=
  mul_pos (Nat.cast_pos.2 h) (zpow_pos (by norm_num) _)

/-- A decimal is huge by its value, however it is written. -/
lemma isHuge_iff : d.isHuge ↔ 10 ^ 310 ≤ d.value := by
  have hten : (0 : ℚ) < 10 := by norm_num
  rw [isHuge, decide_eq_true_iff, Nat.pow_eq, value]
  rcases le_or_gt d.exponent 310 with h | h
  · obtain ⟨k, hk⟩ : ∃ k : ℕ, (k : ℤ) = 310 - d.exponent := ⟨_, Int.toNat_of_nonneg (by omega)⟩
    have hscale : (10 : ℚ) ^ 310 = (10 ^ k : ℕ) * 10 ^ d.exponent := by
      calc (10 : ℚ) ^ 310 = 10 ^ ((k : ℤ) + d.exponent) := by rw [hk, sub_add_cancel]; rfl
        _ = (10 ^ k : ℕ) * 10 ^ d.exponent := by
          rw [zpow_add₀ hten.ne', zpow_natCast, Nat.cast_pow, Nat.cast_ofNat]
    rw [← hk, Int.toNat_natCast, hscale, mul_le_mul_iff_of_pos_right (zpow_pos hten _)]
    norm_cast
  · have hscale : (10 : ℚ) ^ 310 ≤ 10 ^ d.exponent := by
      rw [← zpow_natCast]
      exact zpow_le_zpow_right₀ (by norm_num) h.le
    rw [show (310 - d.exponent).toNat = 0 by omega, pow_zero]
    constructor
    · intro hdigits
      have hone : (1 : ℚ) ≤ d.digits := by exact_mod_cast hdigits
      exact hscale.trans (le_mul_of_one_le_left (zpow_pos hten _).le hone)
    · intro hvalue
      refine Nat.one_le_iff_ne_zero.2 fun hzero => ?_
      rw [hzero, Nat.cast_zero, zero_mul] at hvalue
      exact absurd hvalue (by norm_num)

/-- A decimal with a large negative exponent is rounded to zero. -/
lemma value_lt_of_exponent_lt (h : d.exponent < -(2 ^ 11 + d.digits.log2)) :
    d.value < 2 ^ (-1075 : ℤ) := by
  have hdigits : (d.digits : ℚ) ≤ 2 ^ (d.digits.log2 + 1) := by exact_mod_cast Nat.lt_log2_self.le
  have hscale : (10 : ℚ) ^ d.exponent ≤ 2 ^ d.exponent := by
    obtain ⟨k, hk⟩ : ∃ k : ℕ, d.exponent = -(k : ℤ) := ⟨(-d.exponent).toNat, by omega⟩
    rw [hk, zpow_neg, zpow_neg, zpow_natCast, zpow_natCast]
    exact inv_anti₀ (by positivity) (pow_le_pow_left₀ (by norm_num) (by norm_num) k)
  calc d.value ≤ 2 ^ (d.digits.log2 + 1) * 2 ^ d.exponent :=
        mul_le_mul hdigits hscale (zpow_pos (by norm_num) _).le (by positivity)
    _ = 2 ^ ((d.digits.log2 + 1 : ℕ) + d.exponent) := by
        rw [zpow_add₀ two_ne_zero, zpow_natCast]
    _ < 2 ^ (-1075 : ℤ) := zpow_lt_zpow_right₀ one_lt_two (by push_cast; omega)

/-- A decimal that is not huge has an exponent of less than four digits. -/
lemma exponent_lt_of_value_lt (hd : 0 < d.digits) (h : d.value < 10 ^ 310) : d.exponent < 310 := by
  have hone : (1 : ℚ) ≤ d.digits := by exact_mod_cast hd
  refine (zpow_lt_zpow_iff_right₀ (by norm_num : (1 : ℚ) < 10)).1 ?_
  exact (le_mul_of_one_le_left (zpow_pos (by norm_num) _).le hone).trans_lt h

/-- The arithmetic of doubles reads a decimal as the nearest double. -/
lemma ofScientific_eq_nearest (h : ¬d.isHuge) :
    ofScientific Format.binary64 d.digits d.exponent = nearest .positive d.value := by
  rw [isHuge_iff, not_le] at h
  unfold ofScientific
  split_ifs with hzero hlarge hsmall hsign
  · rw [value, hzero, Nat.cast_zero, zero_mul, nearest_zero]
  · have hexponent := exponent_lt_of_value_lt (Nat.pos_of_ne_zero hzero) h
    exact absurd (hlarge.trans hexponent) (by decide)
  · have hpos := value_pos (Nat.pos_of_ne_zero hzero)
    exact (nearest_of_tiny hpos (value_lt_of_exponent_lt hsmall) _).symm
  · -- the digits get 53 binary places of their own, since the product may need as many
    obtain ⟨k, hk⟩ := Int.eq_ofNat_of_zero_le hsign
    have hvalue : ((d.digits <<< 53 : ℕ) * 2 ^ (-53 : ℤ) * (10 ^ k : ℕ) : ℚ) = d.value := by
      have hcancel : ((2 ^ 53 : ℕ) : ℚ) * 2 ^ (-53 : ℤ) = 1 := by norm_num
      rw [value, hk, zpow_natCast, Nat.shiftLeft_eq, Nat.cast_mul, mul_assoc (d.digits : ℚ),
        hcancel, mul_one, Nat.cast_pow, Nat.cast_ofNat]
    have hplaces : -53 ≤ lastPlace d.value := by
      have hone : (1 : ℚ) ≤ d.value := by
        rw [value, hk, zpow_natCast]
        exact_mod_cast Nat.mul_pos (Nat.pos_of_ne_zero hzero) (Nat.pow_pos (by decide : 0 < 10))
      have hlog : 0 ≤ Int.log 2 d.value :=
        (Int.zpow_le_iff_le_log one_lt_two (by linarith)).1 (by simpa using hone)
      unfold lastPlace
      omega
    have hshift : 0 < d.digits <<< 53 :=
      Nat.shiftLeft_eq _ _ ▸ Nat.mul_pos (Nat.pos_of_ne_zero hzero) (by decide)
    have hmul := mul_eq_nearest (e := -53) hshift (Nat.pow_pos (n := k) (by decide : 0 < 10))
      (by rwa [hvalue])
    rw [hvalue] at hmul
    simp only [hk, Int.toNat_natCast]
    exact hmul
  · obtain ⟨k, hk⟩ : ∃ k : ℕ, d.exponent = -(k : ℤ) := ⟨(-d.exponent).toNat, by omega⟩
    have hvalue : (d.digits / (10 ^ k : ℕ) : ℚ) = d.value := by
      rw [value, hk, zpow_neg, zpow_natCast, Nat.cast_pow, Nat.cast_ofNat, div_eq_mul_inv]
    rw [← hvalue, ← div_eq_nearest (Nat.pos_of_ne_zero hzero) (Nat.pow_pos (by decide))]
    simp only [hk, neg_neg, Int.toNat_natCast]

/-- A decimal is read as the nearest double, and as an infinity if it is huge. -/
theorem toFloat_eq (d : Decimal) :
    d.toFloat = if 10 ^ 310 ≤ d.value then infinity else nearestDouble .positive d.value := by
  unfold toFloat
  split_ifs with hhuge hvalue hvalue
  · rfl
  · exact absurd (isHuge_iff.1 hhuge) hvalue
  · exact absurd (isHuge_iff.2 hvalue) hhuge
  · exact congrArg (fun u => Float.ofModel (.pack u)) (ofScientific_eq_nearest hhuge)

/-- Decimals that are the same number are read as the same double. -/
theorem toFloat_congr {d d' : Decimal} (h : d.value = d'.value) : d.toFloat = d'.toFloat := by
  rw [toFloat_eq, toFloat_eq, h]

/-- A decimal is always read as a number. -/
lemma isNaN_toFloat (d : Decimal) : d.toFloat.isNaN = false := by
  rw [toFloat_eq]
  split_ifs
  · exact isNaN_infinity
  · exact isNaN_nearestDouble _ d.value_nonneg

end Decimal

end ScriptEngine.Number
