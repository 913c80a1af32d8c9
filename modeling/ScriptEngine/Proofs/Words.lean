import ScriptEngine.Proofs.Comparisons
import ScriptEngine.Proofs.Rounding

/-!
# The words of doubles

The bitwise operators work on words of 32 bits, with a sign.  The word of a number is the whole part
of the number, up to a multiple of `2 ^ 32`: of the integers that differ from the whole part by such a
multiple, exactly one is a word (`IsWord.unique`).

A machine comes to the word of a double by steps on doubles: the double is truncated, its remainder by
`2 ^ 32` is made nonnegative, and what is left is turned into a word.  No step rounds and none is
clamped, so the result is the same (`toInt32InSteps_eq`).
-/

namespace ScriptEngine.Number

open Float.Model (UnpackedFloat Format)
open Float.Model.UnpackedFloat

/-! ### Words -/

/-- A rational number without what lies behind its point. -/
def towardZero (q : ℚ) : ℤ :=
  if 0 ≤ q then ⌊q⌋ else ⌈q⌉

/-- The first integer is a word, and differs from the second one by a multiple of `2 ^ 32`. -/
structure IsWord (n k : ℤ) : Prop where
  le : -2 ^ 31 ≤ n
  lt : n < 2 ^ 31
  modEq : n ≡ k [ZMOD 2 ^ 32]

variable {n n' k : ℤ}

/-- There is one word for each integer. -/
lemma IsWord.unique (h : IsWord n k) (h' : IsWord n' k) : n = n' := by
  obtain ⟨hle, hlt, hmod⟩ := h
  obtain ⟨hle', hlt', hmod'⟩ := h'
  have hsame := hmod.trans hmod'.symm
  unfold Int.ModEq at hsame
  omega

/-- A word is its own word. -/
lemma isWord_self (hle : -2 ^ 31 ≤ n) (hlt : n < 2 ^ 31) : IsWord n n :=
  ⟨hle, hlt, rfl⟩

/-- The word that an integer is reduced to. -/
lemma isWord_ofInt (k : ℤ) : IsWord (Int32.ofInt k).toInt k := by
  refine ⟨Int32.le_toInt _, Int32.toInt_lt _, ?_⟩
  rw [Int32.toInt_ofInt]
  exact Int.bmod_emod

/-- The whole part of an exact value is that of the rational number. -/
lemma Exact.trunc_eq (v : Exact) : v.trunc = towardZero v.value := by
  have hnonneg := v.magnitude_nonneg
  unfold trunc
  rw [floorAbs_eq, Int.natCast_floor_eq_floor hnonneg]
  split_ifs with hsign
  · rw [value_of_negative hsign, towardZero]
    split_ifs with h
    · have hzero : v.magnitude = 0 := le_antisymm (neg_nonneg.1 h) hnonneg
      rw [hzero]
      simp
    · rw [Int.ceil_neg]
  · rw [value_of_not_negative (Bool.eq_false_of_not_eq_true hsign), towardZero, if_pos hnonneg]

variable {x : Float} {q : ℚ}

/-- The word of a double that is a rational number is that of its whole part. -/
theorem isWord_toInt32 (h : rational? x = some q) :
    IsWord (toInt32 x).toInt (towardZero q) := by
  obtain ⟨v, hv, rfl⟩ := Option.map_eq_some_iff.1 h
  rw [toInt32, hv, ← v.trunc_eq]
  exact isWord_ofInt v.trunc

/-- Infinities and what is not a number have the word zero. -/
lemma toInt32_of_none (h : rational? x = none) : toInt32 x = 0 := by
  rw [toInt32, Option.map_eq_none_iff.1 h]

/-- A double is finite exactly if it is a rational number. -/
lemma isFinite_iff : x.isFinite ↔ (rational? x).isSome := by
  rw [rational?, Option.isSome_map, finite?]
  change x.toModel.unpack.isFinite = true ↔ _
  cases x.toModel.unpack <;> simp [UnpackedFloat.isFinite]

/-- A word that is turned into a double is found again. -/
lemma toInt32_ofInt (hle : -2 ^ 31 ≤ n) (hlt : n < 2 ^ 31) : (toInt32 (ofInt n)).toInt = n := by
  have hn : rational? (ofInt n) = some (n : ℚ) := rational?_ofInt (by omega)
  have hwhole : towardZero (n : ℚ) = n := by simp [towardZero]
  have hword := isWord_toInt32 hn
  rw [hwhole] at hword
  exact hword.unique (isWord_self hle hlt)

/-! ### Words in steps -/

/-- A double without what lies behind its point.  It keeps its sign, also where zero is left. -/
def truncated (x : Float) : Float :=
  match finite? x with
  | some v => ofExact ⟨v.negative, v.floorAbs, 0⟩
  | none => x

/-- The remainder of a division that is not negative: the divisor is put on top of a negative one. -/
def remainderEuclid (x y : Float) : Float :=
  let r := remainder x y
  if r < 0 then r + y.abs else r

/-- The word of a double, in steps on doubles: the whole part, its remainder, and a conversion that
clamps. -/
def toInt32InSteps (x : Float) : Int32 :=
  if x.isFinite then (remainderEuclid (truncated x) 4294967296).toUInt32.toInt32 else 0

variable {y : Float} {v : Exact}

/-! ### Truncation -/

/-- Mantissa and exponent of a finite double are bounded. -/
lemma bounds_of_finite? (h : finite? x = some v) : v.significand < 2 ^ 53 ∧ v.exponent ≤ 971 := by
  have hvalue : rational? x = some v.value := by rw [rational?, h, Option.map_some]
  obtain ⟨s, m, e, rfl, hcanonical, hmax, -⟩ := exists_double_of_rational? hvalue
  rcases m.eq_zero_or_pos with rfl | hm
  · rw [finite?, unpack_double hcanonical, if_pos hmax, ofParts_zero] at h
    obtain rfl := Option.some.inj h
    exact ⟨Nat.two_pow_pos 53, show (0 : ℤ) ≤ 971 by decide⟩
  · rw [finite?_double hcanonical hmax hm] at h
    obtain rfl := Option.some.inj h
    exact ⟨hcanonical.lt, hmax⟩

/-- A natural number with few enough digits, and zeros behind them, is a double with each sign. -/
lemma rational?_ofExact {m : ℕ} {e : ℤ} (hm : m < 2 ^ 53) (he : -1074 ≤ e) (hmax : e ≤ 971)
    (hv : v.magnitude = m * 2 ^ e) : rational? (ofExact v) = some v.value := by
  rw [ofExact_eq_nearestDouble, hv, rational?_nearestDouble hm he hmax, ← hv]
  unfold Exact.sign Exact.value
  split <;> rfl

/-- Truncation does not round. -/
lemma rational?_truncated (h : finite? x = some v) :
    rational? (truncated x) = some (v.trunc : ℚ) := by
  obtain ⟨hm, hmax⟩ := bounds_of_finite? h
  have hwhole : (⟨v.negative, v.floorAbs, 0⟩ : Exact).magnitude = v.floorAbs := by
    simp [Exact.magnitude]
  have hvalue : (⟨v.negative, v.floorAbs, 0⟩ : Exact).value = v.trunc := by
    rw [Exact.value, hwhole, Exact.trunc]
    split_ifs <;> simp
  rw [truncated, h, ← hvalue]
  rcases le_or_gt 0 v.exponent with he | he
  · refine rational?_ofExact hm (by omega) hmax (hwhole.trans ?_)
    rw [Exact.floorAbs_eq, v.magnitude_of_nonneg he, Nat.floor_natCast, ← v.magnitude_of_nonneg he]
    rfl
  · have hle : v.floorAbs ≤ v.significand := by
      rw [Exact.floorAbs, if_neg he.not_ge]
      exact Nat.div_le_self _ _
    refine rational?_ofExact (hle.trans_lt hm) (by decide) (by decide) (e := 0) (hwhole.trans ?_)
    rw [zpow_zero, mul_one]

/-! ### Remainders -/

/-- What is left of a magnitude when another one is taken from it as often as possible. -/
lemma Exact.magnitude_remainder (v w : Exact) :
    (v.remainder w).magnitude = v.magnitude - ⌊v.magnitude / w.magnitude⌋₊ * w.magnitude := by
  obtain ⟨e, he⟩ : ∃ e, e = min v.exponent w.exponent := ⟨_, rfl⟩
  have hscale : ∀ u : Exact, e ≤ u.exponent →
      u.magnitude = (u.significand * 2 ^ (u.exponent - e).toNat : ℕ) * 2 ^ e := by
    intro u hu
    obtain ⟨j, hj⟩ := Int.le.dest hu
    rw [magnitude, ← hj, show (e + j - e).toNat = j by omega, zpow_add₀ two_ne_zero, zpow_natCast]
    push_cast
    ring
  have hv := hscale v (he ▸ min_le_left _ _)
  have hw' := hscale w (he ▸ min_le_right _ _)
  obtain ⟨a, ha⟩ : ∃ a, a = v.significand * 2 ^ (v.exponent - e).toNat := ⟨_, rfl⟩
  obtain ⟨b, hb⟩ : ∃ b, b = w.significand * 2 ^ (w.exponent - e).toNat := ⟨_, rfl⟩
  have hremainder : (v.remainder w).magnitude = (a % b : ℕ) * 2 ^ e := by
    rw [ha, hb, he]
    rfl
  have hunit : (0 : ℚ) < 2 ^ e := zpow_pos two_pos e
  rw [← ha] at hv
  rw [← hb] at hw'
  rw [hremainder, hv, hw', mul_div_mul_right _ _ hunit.ne', Nat.floor_div_eq_div, ← mul_assoc,
    ← sub_mul]
  congr 1
  have hdivision : ((a % b + b * (a / b) : ℕ) : ℚ) = a := by rw [Nat.mod_add_div]
  push_cast at hdivision
  linarith

/-- The magnitude of a whole number. -/
lemma Exact.magnitude_of_value_eq {v : Exact} (h : v.value = k) : v.magnitude = k.natAbs := by
  rw [Nat.cast_natAbs, Int.cast_abs, ← h, value]
  split_ifs
  · rw [abs_neg, abs_of_nonneg v.magnitude_nonneg]
  · rw [abs_of_nonneg v.magnitude_nonneg]

/-- The remainder of whole numbers is a whole number, with the sign of the dividend. -/
lemma Exact.remainder_of_value_eq {v w : Exact} {n : ℕ} (hv : v.value = k) (hw : w.magnitude = n) :
    (v.remainder w).magnitude = (k.natAbs % n : ℕ) ∧
      (v.remainder w).value = (k.tmod n : ℤ) := by
  have habs := magnitude_of_value_eq hv
  have hmagnitude : (v.remainder w).magnitude = (k.natAbs % n : ℕ) := by
    rw [v.magnitude_remainder, hw, habs, Nat.floor_div_eq_div]
    have hdivision : ((k.natAbs % n + n * (k.natAbs / n) : ℕ) : ℚ) = k.natAbs := by
      rw [Nat.mod_add_div]
    push_cast at hdivision ⊢
    linarith
  refine ⟨hmagnitude, ?_⟩
  have hnegative : (v.remainder w).negative = v.negative := rfl
  have hnatural : ((k.natAbs % n : ℕ) : ℤ) = (k.natAbs : ℤ).tmod n := Int.ofNat_tmod _ _
  cases hsign : v.negative with
  | false =>
    have hk : ((k.natAbs : ℤ) : ℚ) = k := by
      rwa [value_of_not_negative hsign, habs] at hv
    have hmod : k.tmod n = (k.natAbs % n : ℕ) := by rw [hnatural, Int.cast_injective hk]
    rw [value_of_not_negative (hnegative.trans hsign), hmagnitude, hmod, Int.cast_natCast]
  | true =>
    have hk : ((-(k.natAbs : ℤ) : ℤ) : ℚ) = k := by
      rwa [value_of_negative hsign, habs, ← Int.cast_natCast, ← Int.cast_neg] at hv
    have hmod : k.tmod n = -((k.natAbs % n : ℕ) : ℤ) := by
      rw [hnatural, ← Int.neg_tmod, Int.cast_injective hk]
    rw [value_of_negative (hnegative.trans hsign), hmagnitude, hmod, Int.cast_neg,
      Int.cast_natCast]

/-- The remainder by the number of words is exact. -/
lemma rational?_remainder (h : rational? x = some (k : ℚ)) :
    rational? (remainder x 4294967296) = some ((k.tmod (2 ^ 32) : ℤ) : ℚ) := by
  obtain ⟨v, hv, hvalue⟩ := Option.map_eq_some_iff.1 h
  have hw : finite? 4294967296 = some ⟨false, 2 ^ 52, -20⟩ := by decide +kernel
  have hmodulus : (⟨false, 2 ^ 52, -20⟩ : Exact).magnitude = (2 ^ 32 : ℕ) := by
    rw [Exact.magnitude]
    norm_num
  have hremainder : remainder x 4294967296 = ofExact (v.remainder ⟨false, 2 ^ 52, -20⟩) := by
    simp only [remainder, hv, hw]
    rfl
  obtain ⟨hmagnitude, hvalue'⟩ := Exact.remainder_of_value_eq hvalue hmodulus
  have hbound : k.natAbs % 2 ^ 32 < 2 ^ 53 := by omega
  rw [hremainder, rational?_ofExact hbound (e := 0) (by decide) (by decide)
    (by rw [hmagnitude, zpow_zero, mul_one]), hvalue']
  rfl

/-- Being less than zero means what it does for rational numbers. -/
lemma lt_zero_iff (h : rational? x = some q) : x < 0 ↔ q < 0 := by
  obtain ⟨s, m, e, rfl, hcanonical, hmax, rfl⟩ := exists_double_of_rational? h
  rw [lt_iff_compare, unpack_double hcanonical, if_pos hmax]
  have hzero : (0 : Float).toModel.unpack = .zero .positive := by rfl
  rw [hzero]
  rcases m.eq_zero_or_pos with rfl | hm
  · rw [ofParts_zero, Nat.cast_zero, zero_mul, signed_zero]
    exact iff_of_false (by simp [UnpackedFloat.compare]) (lt_irrefl 0)
  · have hpos : (0 : ℚ) < m * 2 ^ e := by positivity
    rw [ofParts_of_pos hm]
    cases s with
    | positive => exact iff_of_false (by simp [UnpackedFloat.compare]) hpos.le.not_gt
    | negative => exact iff_of_true (by simp [UnpackedFloat.compare]) (neg_neg_of_pos hpos)

/-- A sum is a difference. -/
lemma add_eq_sub_neg (spec : Format) (a b : UnpackedFloat) : add spec a b = sub spec a b.neg := by
  cases a with
  | notANumber => rfl
  | infinity s =>
    cases b with
    | infinity t => cases s <;> cases t <;> rfl
    | _ => rfl
  | zero s =>
    cases b with
    | zero t => cases s <;> cases t <;> rfl
    | finite t m e h => cases t <;> rfl
    | _ => cases ‹Sign› <;> rfl
  | finite s m e h =>
    cases b with
    | finite t m' e' h' =>
      have hsum : ∀ i : ℤ, ∀ j : ℕ, i + t.apply j = i - (-t).apply j := by
        intro i j
        cases t with
        | positive => exact (sub_neg_eq_add i j).symm
        | negative => rfl
      simp only [add, UnpackedFloat.neg, sub, hsum]
    | infinity t => cases t <;> rfl
    | _ => rfl

/-- A sum of whole numbers with few enough digits is exact. -/
lemma rational?_add {n : ℤ} (hx : rational? x = some (k : ℚ)) (hy : rational? y = some (n : ℚ))
    (hsum : (k + n).natAbs < 2 ^ 53) : rational? (x + y) = some ((k + n : ℤ) : ℚ) := by
  have hneg : x + y = x - -y ∧ rational? (-y) = some (-n : ℚ) := by
    obtain ⟨s, m, e, rfl, hcanonical, hmax, hvalue⟩ := exists_double_of_rational? hy
    rw [neg_double hcanonical hmax, rational?_double hcanonical hmax, signed_neg, hvalue]
    refine ⟨?_, rfl⟩
    change Float.ofModel (.pack (add Format.binary64 x.toModel.unpack
      (double s m e).toModel.unpack)) = .ofModel (.pack (sub Format.binary64 x.toModel.unpack
        (double (-s) m e).toModel.unpack))
    rw [unpack_double hcanonical, unpack_double hcanonical, if_pos hmax, if_pos hmax,
      add_eq_sub_neg, neg_ofParts]
  obtain ⟨s, hdifference, hsigned⟩ := sub_eq_nearestDouble hx hneg.2
  have habs : |(k : ℚ) - -n| = (k + n).natAbs * 2 ^ (0 : ℤ) := by
    rw [zpow_zero, mul_one, Nat.cast_natAbs, sub_neg_eq_add]
    push_cast
    rfl
  rw [hneg.1, hdifference, habs, rational?_nearestDouble hsum (by decide) (by decide), ← habs,
    hsigned]
  push_cast
  rw [sub_neg_eq_add]

/-- The remainder that is not negative, from the one that has the sign of the number. -/
lemma emod_eq_ite (k : ℤ) : k % 2 ^ 32 =
    if k.tmod (2 ^ 32) < 0 then k.tmod (2 ^ 32) + 2 ^ 32 else k.tmod (2 ^ 32) := by
  have hemod : k % 2 ^ 32 = k.tmod (2 ^ 32) + ↑(if 0 ≤ k ∨ 2 ^ 32 ∣ k then 0 else 2 ^ 32 : ℕ) :=
    Int.emod_eq_tmod
  split_ifs at hemod ⊢ <;> omega

/-- The nonnegative remainder by the number of words is exact. -/
lemma rational?_remainderEuclid (h : rational? x = some (k : ℚ)) :
    rational? (remainderEuclid x 4294967296) = some ((k % 2 ^ 32 : ℤ) : ℚ) := by
  have hremainder := rational?_remainder h
  have hmodulus : rational? (Float.abs 4294967296) = some ((2 ^ 32 : ℤ) : ℚ) := by
    have habs : Float.abs 4294967296 = ofInt (2 ^ 32) := by decide +kernel
    rw [habs, rational?_ofInt (by decide)]
  have hlt : remainder x 4294967296 < 0 ↔ k.tmod (2 ^ 32) < 0 := by
    rw [lt_zero_iff hremainder]
    exact Int.cast_lt_zero
  rw [remainderEuclid, emod_eq_ite]
  split_ifs with h₁ h₂ h₂
  · have hnonneg := Int.emod_nonneg k (show (2 : ℤ) ^ 32 ≠ 0 by decide)
    rw [emod_eq_ite, if_pos h₂] at hnonneg
    exact rational?_add hremainder hmodulus (by omega)
  · exact absurd (hlt.1 h₁) h₂
  · exact absurd (hlt.2 h₂) h₁
  · exact hremainder

/-! ### Conversion -/

/-- A double is rounded to an integer by leaving out what lies behind its point. -/
lemma roundToInt_eq (s : Sign) (m : ℕ) (e : ℤ) :
    roundToInt s m e = s.apply ⌊(m * 2 ^ e : ℚ)⌋₊ := by
  obtain ⟨m', hm'⟩ : ∃ m', m' = m <<< (e - 0).toNat := ⟨_, rfl⟩
  obtain ⟨j, hj⟩ : ∃ j, j = (0 - (e - (e - 0).toNat)).toNat := ⟨_, rfl⟩
  have hround : roundToInt s m e =
      s.apply ((ExtendedMantissa.ofMantissaAndAccuracy m' .exact) >>> j).mantissa := by
    rw [hm', hj]
    rfl
  have hvalue : (m * 2 ^ e : ℚ) = m' / 2 ^ j := by
    rw [hm', hj, Nat.shiftLeft_eq, sub_zero]
    rcases le_or_gt 0 e with he | he
    · obtain ⟨i, rfl⟩ := Int.eq_ofNat_of_zero_le he
      simp
    · obtain ⟨i, rfl⟩ := Int.exists_eq_neg_ofNat he.le
      simp [div_eq_mul_inv]
  have hshifted := (approximates_of_eq (q := m') rfl).shiftRight j
  rw [hround, hvalue, hshifted.floor_eq]

/-- A natural number that fits into a word is not clamped. -/
lemma toUInt32_eq {n : ℕ} (h : rational? x = some (n : ℚ)) (hn : n < 2 ^ 32) :
    x.toUInt32 = UInt32.ofNat n := by
  obtain ⟨s, m, e, rfl, hcanonical, hmax, hvalue⟩ := exists_double_of_rational? h
  have hint : (double s m e).toModel.unpack.toInt 0 (UInt32.size - 1) = n := by
    rw [unpack_double hcanonical, if_pos hmax]
    rcases m.eq_zero_or_pos with rfl | hm
    · rw [Nat.cast_zero, zero_mul, signed_zero] at hvalue
      have hzero : n = 0 := by exact_mod_cast hvalue.symm
      rw [hzero, ofParts_zero]
      rfl
    · rw [ofParts_of_pos hm]
      change roundToInt s m e = n
      rw [roundToInt_eq]
      cases s with
      | positive =>
        rw [show (m * 2 ^ e : ℚ) = n from hvalue, Nat.floor_natCast]
        rfl
      | negative =>
        have hpos : (0 : ℚ) < m * 2 ^ e := by positivity
        have hnonneg : (0 : ℚ) ≤ n := Nat.cast_nonneg n
        rw [← hvalue, signed] at hnonneg
        linarith
  change UInt32.ofNatClamp ((double s m e).toModel.unpack.toInt 0 (UInt32.size - 1)).toNat = _
  rw [hint, Int.toNat_natCast, UInt32.ofNatClamp_eq_ofNat n hn]

/-- The steps come to the word of the double. -/
theorem toInt32InSteps_eq (x : Float) : toInt32InSteps x = toInt32 x := by
  rw [toInt32InSteps]
  cases hx : finite? x with
  | none =>
    have hnone : rational? x = none := by rw [rational?, hx, Option.map_none]
    rw [if_neg (by simp [isFinite_iff, hnone]), toInt32_of_none hnone]
  | some v =>
    have hsome : rational? x = some v.value := by rw [rational?, hx, Option.map_some]
    obtain ⟨n, hn⟩ := Int.eq_ofNat_of_zero_le
      (Int.emod_nonneg v.trunc (show (2 : ℤ) ^ 32 ≠ 0 by decide))
    have hlt : n < 2 ^ 32 := by omega
    have hremainder := rational?_remainderEuclid (rational?_truncated hx)
    rw [hn] at hremainder
    rw [if_pos (by simp [isFinite_iff, hsome]), toUInt32_eq hremainder hlt, toInt32, hx]
    have hbits : BitVec.ofNat 32 n = BitVec.ofInt 32 v.trunc := by
      apply BitVec.eq_of_toNat_eq
      rw [BitVec.toNat_ofNat, BitVec.toNat_ofInt]
      omega
    exact congrArg (fun b => Int32.ofUInt32 ⟨b⟩) hbits

end ScriptEngine.Number
