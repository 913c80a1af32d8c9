import ScriptEngine.Proofs.Doubles

/-!
# The nearest double

Rounding gives the double nearest to a rational number, and of two equally near ones the even one.
The arithmetic of doubles finds it with a mantissa and two residual bits (`Approximates`), whatever
mantissa it starts from (`roundWithAccuracy_eq_nearest`).  A double is the nearest one to its own
number (`nearestDouble_of_canonical`).

Whole numbers become the nearest doubles (`ofInt_eq_nearestDouble`), and a difference is the double
nearest to the exact difference (`sub_eq_nearestDouble`).
-/

namespace ScriptEngine.Number

open Float.Model (UnpackedFloat Format totalExponent)
open Float.Model.UnpackedFloat

/-! ### Rounding to whole numbers -/

/-- The whole number nearest to a rational number that is not negative; halfway between two of them,
the even one. -/
def roundEven (q : ℚ) : ℕ :=
  if q - ⌊q⌋₊ < 1 / 2 then ⌊q⌋₊
  else if q - ⌊q⌋₊ = 1 / 2 then ⌊q⌋₊ + ⌊q⌋₊ % 2
  else ⌊q⌋₊ + 1

variable {q : ℚ}

@[simp] lemma roundEven_natCast (n : ℕ) : roundEven n = n := by
  simp [roundEven]

lemma roundEven_of_lt_half (hlt : q < 1 / 2) : roundEven q = 0 := by
  have hfloor : ⌊q⌋₊ = 0 := Nat.floor_eq_zero.2 (hlt.trans (by norm_num))
  rw [roundEven, hfloor, if_pos (by simpa using hlt)]

lemma floor_le_roundEven (q : ℚ) : ⌊q⌋₊ ≤ roundEven q := by
  unfold roundEven
  split_ifs <;> omega

lemma roundEven_le_floor_add_one (q : ℚ) : roundEven q ≤ ⌊q⌋₊ + 1 := by
  unfold roundEven
  split_ifs <;> omega

/-- A mantissa with its two residual bits says where a number lies. -/
def Approximates (em : ExtendedMantissa) (q : ℚ) : Prop :=
  match em.roundBit, em.stickyBit with
  | false, false => q = em.mantissa
  | false, true => em.mantissa < q ∧ q < em.mantissa + 1 / 2
  | true, false => q = em.mantissa + 1 / 2
  | true, true => em.mantissa + 1 / 2 < q ∧ q < em.mantissa + 1

variable {em : ExtendedMantissa}

lemma Approximates.bounds (h : Approximates em q) : em.mantissa ≤ q ∧ q < em.mantissa + 1 := by
  obtain ⟨m, round, sticky⟩ := em
  cases round <;> cases sticky <;> simp only [Approximates] at h ⊢ <;> constructor <;> linarith

lemma Approximates.floor_eq (h : Approximates em q) : ⌊q⌋₊ = em.mantissa :=
  (Nat.floor_eq_iff ((Nat.cast_nonneg _).trans h.bounds.1)).2 h.bounds

/-- The residual bits are all that rounding needs. -/
lemma Approximates.roundedMantissa_eq (h : Approximates em q) :
    em.roundedMantissa = roundEven q := by
  have hfloor := h.floor_eq
  obtain ⟨m, round, sticky⟩ := em
  rw [roundEven, hfloor]
  cases round <;> cases sticky <;> simp only [Approximates] at h
  · rw [if_pos (by rw [h]; norm_num)]
    rfl
  · rw [if_pos (by linarith)]
    rfl
  · rw [if_neg (by rw [h]; norm_num), if_pos (by rw [h]; ring)]
    rfl
  · rw [if_neg (by linarith), if_neg (by linarith)]
    rfl

/-- Shifting by a place moves the last bit into the residual ones. -/
lemma Approximates.shiftRightOne (h : Approximates em q) :
    Approximates em.shiftRightOne (q / 2) := by
  obtain ⟨m, round, sticky⟩ := em
  have hm : (m : ℚ) = 2 * (m / 2 : ℕ) + (m % 2 : ℕ) := by exact_mod_cast (Nat.div_add_mod m 2).symm
  rcases Nat.mod_two_eq_zero_or_one m with hbit | hbit <;> cases round <;> cases sticky <;>
    simp [Approximates, ExtendedMantissa.shiftRightOne, hbit] at h hm ⊢ <;> grind

lemma Approximates.shiftRight (h : Approximates em q) (k : ℕ) :
    Approximates (em >>> k) (q / 2 ^ k) := by
  change Approximates (k.repeat ExtendedMantissa.shiftRightOne em) _
  induction k with
  | zero => simpa [Nat.repeat] using h
  | succ k ih =>
    rw [pow_succ, ← div_div]
    exact ih.shiftRightOne

lemma approximates_of_eq {n : ℕ} (h : q = n) : Approximates (.ofMantissaAndAccuracy n .exact) q := h

/-- A quotient of whole numbers, and where it lies between its neighbours. -/
lemma approximates_div (a : ℕ) {b : ℕ} (hb : 0 < b) :
    Approximates (.ofMantissaAndAccuracy (a / b) (accuracyOfFraction (a % b) b)) (a / b : ℚ) := by
  have hb' : (0 : ℚ) < b := by exact_mod_cast hb
  have hlt : ((a % b : ℕ) : ℚ) < b := by exact_mod_cast Nat.mod_lt a hb
  have hquot : (a / b : ℚ) = (a / b : ℕ) + (a % b : ℕ) / b := by
    have ha : (a : ℚ) = b * (a / b : ℕ) + (a % b : ℕ) := by
      exact_mod_cast (Nat.div_add_mod a b).symm
    rw [div_eq_iff hb'.ne', add_mul, div_mul_cancel₀ _ hb'.ne', ha, mul_comm]
  rw [hquot]
  unfold accuracyOfFraction
  split_ifs with hzero
  · rw [hzero]
    simp [ExtendedMantissa.ofMantissaAndAccuracy, Approximates]
  have hpos : (0 : ℚ) < (a % b : ℕ) := by exact_mod_cast Nat.pos_of_ne_zero hzero
  cases hcompare : compare (2 * (a % b)) b with
  | lt =>
    have hhalf : 2 * ((a % b : ℕ) : ℚ) < b := by exact_mod_cast Nat.compare_eq_lt.1 hcompare
    refine ⟨lt_add_of_pos_right _ (div_pos hpos hb'), add_lt_add_right ?_ _⟩
    rw [div_lt_div_iff₀ hb' two_pos]
    linarith
  | eq =>
    have hhalf : 2 * ((a % b : ℕ) : ℚ) = b := by exact_mod_cast Nat.compare_eq_eq.1 hcompare
    refine congrArg _ ?_
    rw [div_eq_div_iff hb'.ne' two_ne_zero]
    linarith
  | gt =>
    have hhalf : (b : ℚ) < 2 * (a % b : ℕ) := by exact_mod_cast Nat.compare_eq_gt.1 hcompare
    refine ⟨add_lt_add_right ?_ _, add_lt_add_right ((div_lt_one hb').2 hlt) _⟩
    rw [div_lt_div_iff₀ two_pos hb']
    linarith

/-! ### The nearest double -/

/-- The exponent of the last place of the doubles next to a positive number. -/
def lastPlace (q : ℚ) : ℤ :=
  max (Int.log 2 q - 52) (-1074)

/-- The double nearest to a positive number, with a sign: the multiple of the last place that
rounding gives, or the power of two above, which has a last place of its own. -/
def nearest (s : Sign) (q : ℚ) : UnpackedFloat :=
  if roundEven (q / 2 ^ lastPlace q) < 2 ^ 53 then
    ofParts s (roundEven (q / 2 ^ lastPlace q)) (lastPlace q)
  else ofParts s (2 ^ 52) (lastPlace q + 1)

variable {k : ℤ}

lemma log_eq_of_bounds (hle : (2 : ℚ) ^ k ≤ q) (hlt : q < 2 ^ (k + 1)) : Int.log 2 q = k := by
  have hq : 0 < q := (zpow_pos two_pos k).trans_le hle
  have h₁ := (Int.zpow_le_iff_le_log (b := 2) one_lt_two hq).1 (by exact_mod_cast hle)
  have h₂ := (Int.lt_zpow_iff_log_lt (b := 2) one_lt_two hq).1 (by exact_mod_cast hlt)
  omega

/-- At its last place a number has at most 53 digits. -/
lemma div_lastPlace_lt (q : ℚ) : q / 2 ^ lastPlace q < 2 ^ 53 := by
  have hlog : q < (2 : ℚ) ^ (Int.log 2 q + 1) := by
    exact_mod_cast Int.lt_zpow_succ_log_self (b := 2) one_lt_two q
  rw [div_lt_iff₀ (zpow_pos two_pos _), ← zpow_natCast, ← zpow_add₀ two_ne_zero]
  refine hlog.trans_le (zpow_le_zpow_right₀ one_le_two ?_)
  unfold lastPlace
  push_cast
  omega

lemma targetExponent_eq (t : ℤ) : Format.binary64.targetExponent t = max (t - 53) (-1074) :=
  rfl

variable {m : ℕ} {e : ℤ} {a : Accuracy}

/-- A mantissa that is not zero knows the first place of the number. -/
lemma log_eq_of_mantissa (hm : 0 < m) (hle : m * 2 ^ e ≤ q) (hlt : q < (m + 1) * 2 ^ e) :
    Int.log 2 q = m.log2 + e := by
  have hscale : (0 : ℚ) ≤ 2 ^ e := (zpow_pos two_pos _).le
  refine log_eq_of_bounds ?_ ?_
  · refine le_trans ?_ hle
    rw [zpow_add₀ two_ne_zero, zpow_natCast]
    refine mul_le_mul_of_nonneg_right ?_ hscale
    exact_mod_cast Nat.log2_self_le hm.ne'
  · refine hlt.trans_le ?_
    rw [show (m.log2 : ℤ) + e + 1 = (m.log2 + 1 : ℕ) + e by push_cast; ring,
      zpow_add₀ two_ne_zero, zpow_natCast]
    refine mul_le_mul_of_nonneg_right ?_ hscale
    exact_mod_cast Nat.lt_log2_self (n := m)

lemma targetExponent_eq_lastPlace (hm : 0 < m) (hle : m * 2 ^ e ≤ q) (hlt : q < (m + 1) * 2 ^ e) :
    Format.binary64.targetExponent (totalExponent m e) = lastPlace q := by
  rw [targetExponent_eq, totalExponent, lastPlace, log_eq_of_mantissa hm hle hlt]
  congr 1
  ring

/-- The mantissa leads to the last place of the number; a mantissa of zero does where there is no
further place. -/
lemma Approximates.targetExponent_eq (h : Approximates (.ofMantissaAndAccuracy m a) (q / 2 ^ e))
    (hq : 0 < q) (he : e ≤ lastPlace q) :
    Format.binary64.targetExponent (totalExponent m e) = lastPlace q := by
  obtain ⟨hle, hlt⟩ := h.bounds
  have hmantissa : (ExtendedMantissa.ofMantissaAndAccuracy m a).mantissa = m := by
    cases a with
    | exact => rfl
    | inexact o => cases o <;> rfl
  rw [hmantissa, le_div_iff₀ (zpow_pos two_pos _)] at hle
  rw [hmantissa, div_lt_iff₀ (zpow_pos two_pos _)] at hlt
  rcases m.eq_zero_or_pos with rfl | hm
  · have hlog : Int.log 2 q < e := by
      refine (Int.lt_zpow_iff_log_lt (b := 2) one_lt_two hq).1 ?_
      simpa using hlt
    rw [Number.targetExponent_eq, totalExponent, Nat.log2_zero]
    unfold lastPlace at he ⊢
    push_cast
    omega
  · exact targetExponent_eq_lastPlace hm hle hlt

/-- Shifting to the last place keeps what rounding needs. -/
lemma exists_shiftToTargetExponent (h : Approximates (.ofMantissaAndAccuracy m a) (q / 2 ^ e))
    (hq : 0 < q) (he : e ≤ lastPlace q) :
    ∃ em : ExtendedMantissa, shiftToTargetExponent Format.binary64 m e a = (em, lastPlace q) ∧
      em.roundedMantissa = roundEven (q / 2 ^ lastPlace q) := by
  obtain ⟨k, hk⟩ := Int.le.dest he
  refine ⟨ExtendedMantissa.ofMantissaAndAccuracy m a >>> k, ?_, ?_⟩
  · rw [shiftToTargetExponent, h.targetExponent_eq hq he, shiftToExponent,
      show (lastPlace q - e).toNat = k by omega, hk]
  · rw [(h.shiftRight k).roundedMantissa_eq, div_div, ← zpow_natCast, ← zpow_add₀ two_ne_zero, hk]

/-- A mantissa with at most 53 digits stays at its place. -/
lemma shiftToTargetExponent_of_lt (hm : m < 2 ^ 53) (he : -1074 ≤ e) :
    shiftToTargetExponent Format.binary64 m e .exact = (⟨m, false, false⟩, e) := by
  have hlog : m.log2 < 53 := by
    rcases m.eq_zero_or_pos with rfl | hpos
    · decide
    · exact (Nat.log2_lt hpos.ne').2 hm
  have hshift : (Format.binary64.targetExponent (totalExponent m e) - e).toNat = 0 := by
    rw [targetExponent_eq, totalExponent]
    omega
  rw [shiftToTargetExponent, shiftToExponent, hshift]
  exact congrArg _ (add_zero e)

/-- The first mantissa with 54 digits moves by a place. -/
lemma shiftToTargetExponent_two_pow (he : -1074 ≤ e) :
    shiftToTargetExponent Format.binary64 (2 ^ 53) e .exact = (⟨2 ^ 52, false, false⟩, e + 1) := by
  have hshift : (Format.binary64.targetExponent (totalExponent (2 ^ 53) e) - e).toNat = 1 := by
    rw [targetExponent_eq, totalExponent, Nat.log2_two_pow]
    omega
  rw [shiftToTargetExponent, shiftToExponent, hshift]
  rfl

lemma neg_le_lastPlace (q : ℚ) : -1074 ≤ lastPlace q :=
  le_max_right _ _

lemma roundEven_div_lastPlace_le (q : ℚ) : roundEven (q / 2 ^ lastPlace q) ≤ 2 ^ 53 := by
  have hfloor : ⌊q / 2 ^ lastPlace q⌋₊ < 2 ^ 53 :=
    (Nat.floor_lt' (by decide)).2 (by exact_mod_cast div_lastPlace_lt q)
  have := roundEven_le_floor_add_one (q / 2 ^ lastPlace q)
  omega

/-- Rounding gives the nearest double, provided that the mantissa has enough places. -/
theorem roundWithAccuracy_eq_nearest
    (h : Approximates (.ofMantissaAndAccuracy m a) (q / 2 ^ e)) (hq : 0 < q) (he : e ≤ lastPlace q)
    (s : Sign) : roundWithAccuracy Format.binary64 s m e a = nearest s q := by
  obtain ⟨em, hem, hrounded⟩ := exists_shiftToTargetExponent h hq he
  have hround : roundWithAccuracy Format.binary64 s m e a =
      let shifted := shiftToTargetExponent Format.binary64 em.roundedMantissa (lastPlace q) .exact
      ofParts s shifted.1.mantissa shifted.2 := by
    unfold roundWithAccuracy
    rw [hem]
    rfl
  rw [hround, nearest, hrounded]
  rcases (roundEven_div_lastPlace_le q).lt_or_eq with hlt | heq
  · rw [if_pos hlt, shiftToTargetExponent_of_lt hlt (neg_le_lastPlace q)]
  · rw [if_neg heq.not_lt, heq, shiftToTargetExponent_two_pow (neg_le_lastPlace q)]

/-- What rounding gives has the mantissa and the exponent of a double. -/
lemma nearest_canonical (s : Sign) (hq : 0 < q) :
    ∃ m e, Canonical m e ∧ lastPlace q ≤ e ∧ nearest s q = ofParts s m e := by
  have hle := neg_le_lastPlace q
  unfold nearest
  split_ifs with hlt
  · refine ⟨_, _, ⟨hlt, hle, ?_⟩, le_rfl, rfl⟩
    rcases le_or_gt (Int.log 2 q - 52) (-1074) with hsmall | hlarge
    · exact .inr (max_eq_right hsmall)
    · left
      have hplace : lastPlace q = Int.log 2 q - 52 := max_eq_left hlarge.le
      have hlog : ((2 : ℕ) : ℚ) ^ Int.log 2 q ≤ q := Int.zpow_log_le_self one_lt_two hq
      refine le_trans (Nat.le_floor ?_) (floor_le_roundEven _)
      rw [le_div_iff₀ (zpow_pos two_pos _)]
      refine le_trans (le_of_eq ?_) hlog
      rw [Nat.cast_pow, ← zpow_natCast, Nat.cast_two, ← zpow_add₀ two_ne_zero, hplace]
      congr 1
      push_cast
      ring
  · exact ⟨_, _, ⟨by decide, by omega, .inl le_rfl⟩, by omega, rfl⟩

/-- The mantissa and the exponent of a double are found again. -/
lemma nearest_of_canonical (h : Canonical m e) (s : Sign) :
    nearest s (m * 2 ^ e) = ofParts s m e := by
  obtain ⟨hlt, hle, hfull⟩ := h
  rcases m.eq_zero_or_pos with rfl | hm
  · simp [nearest, ofParts_zero, roundEven]
  have hplace : lastPlace (m * 2 ^ e) = e := by
    have hlog := log_eq_of_mantissa (q := m * 2 ^ e) hm le_rfl
      (mul_lt_mul_of_pos_right (lt_add_one _) (zpow_pos two_pos _))
    have hdigits := (Nat.log2_lt hm.ne').2 hlt
    have hfirst := hfull.imp_left (Nat.le_log2 hm.ne').2
    rw [lastPlace, hlog]
    omega
  rw [nearest, hplace, mul_div_cancel_right₀ _ (zpow_pos two_pos _).ne', roundEven_natCast,
    if_pos hlt]

/-! ### The nearest double -/

/-- The double nearest to a number that is not negative, with a sign. -/
def nearestDouble (s : Sign) (q : ℚ) : Float :=
  .ofModel (.pack (nearest s q))

lemma nearestDouble_of_canonical (h : Canonical m e) (s : Sign) :
    nearestDouble s (m * 2 ^ e) = double s m e :=
  congrArg (fun u => Float.ofModel (.pack u)) (nearest_of_canonical h s)

/-- What is nearest is a double, or beyond the largest one. -/
lemma exists_nearestDouble (s : Sign) (hq : 0 ≤ q) :
    ∃ m e, Canonical m e ∧ nearestDouble s q = double s m e := by
  rcases hq.eq_or_lt with rfl | hq
  · refine ⟨0, -1074, canonical_zero, ?_⟩
    rw [← nearestDouble_of_canonical canonical_zero]
    simp
  · obtain ⟨m, e, h, -, hnearest⟩ := nearest_canonical s hq
    exact ⟨m, e, h, congrArg (fun u => Float.ofModel (.pack u)) hnearest⟩

lemma isNaN_nearestDouble (s : Sign) (hq : 0 ≤ q) : (nearestDouble s q).isNaN = false := by
  obtain ⟨m, e, h, hnearest⟩ := exists_nearestDouble s hq
  rw [hnearest, isNaN_double h]

/-- A number with few enough digits needs no rounding. -/
lemma rational?_nearestDouble {n : ℕ} (hn : n < 2 ^ 53) (he : -1074 ≤ e) (hmax : e ≤ 971)
    (s : Sign) : rational? (nearestDouble s (n * 2 ^ e)) = some (signed s (n * 2 ^ e)) := by
  obtain ⟨m, e', h, hle, hvalue⟩ := exists_canonical hn he
  rw [← hvalue, nearestDouble_of_canonical h, rational?_double h (hle.trans hmax)]

/-! ### What conversions give -/

/-- A mantissa with an exponent is rounded to the nearest double. -/
lemma round_eq_nearest (s : Sign) (hm : 0 < m) (e : ℤ) :
    UnpackedFloat.round Format.binary64 s m e = nearest s (m * 2 ^ e) := by
  have htarget : Format.binary64.targetExponent (totalExponent m e) = lastPlace (m * 2 ^ e) :=
    targetExponent_eq_lastPlace hm le_rfl
      (mul_lt_mul_of_pos_right (lt_add_one _) (zpow_pos two_pos _))
  obtain ⟨k, hk⟩ : ∃ k, k = (e - lastPlace (m * 2 ^ e)).toNat := ⟨_, rfl⟩
  have hround : UnpackedFloat.round Format.binary64 s m e =
      roundWithAccuracy Format.binary64 s (m <<< k) (e - k) .exact := by
    unfold UnpackedFloat.round
    rw [htarget, hk]
    rfl
  have hmantissa : (m * 2 ^ e : ℚ) / 2 ^ (e - k) = (m <<< k : ℕ) := by
    rw [div_eq_iff (zpow_pos two_pos _).ne', Nat.shiftLeft_eq, Nat.cast_mul, Nat.cast_pow,
      Nat.cast_two, mul_assoc, ← zpow_natCast, ← zpow_add₀ two_ne_zero, add_sub_cancel]
  rw [hround,
    roundWithAccuracy_eq_nearest (approximates_of_eq hmantissa) (by positivity) (by omega)]

/-- A number of less than half the last place is rounded to zero. -/
lemma nearest_of_tiny (hq : 0 < q) (hlt : q < 2 ^ (-1075 : ℤ)) (s : Sign) :
    nearest s q = .zero s := by
  have hlog : Int.log 2 q < -1075 :=
    (Int.lt_zpow_iff_log_lt (b := 2) one_lt_two hq).1 (by exact_mod_cast hlt)
  have hplace : lastPlace q = -1074 := by
    unfold lastPlace
    omega
  have hround : roundEven (q / 2 ^ lastPlace q) = 0 := by
    refine roundEven_of_lt_half ?_
    rw [hplace, div_lt_iff₀ (zpow_pos two_pos _)]
    refine hlt.trans_eq ?_
    rw [show (-1075 : ℤ) = -1 + -1074 by norm_num, zpow_add₀ two_ne_zero, zpow_neg_one, one_div]
  rw [nearest, hround, if_pos (by decide), ofParts_zero]

lemma nearest_zero (s : Sign) : nearest s 0 = .zero s := by
  have hzero : roundEven (0 / 2 ^ lastPlace 0) = 0 := by
    rw [zero_div, ← Nat.cast_zero, roundEven_natCast]
  rw [nearest, hzero, if_pos (by decide), ofParts_zero]

/-- The sign of a whole number, where zero has a sign of its own. -/
def signOf (n : ℤ) (zeroSign : Sign) : Sign :=
  if n < 0 then .negative else if n = 0 then zeroSign else .positive

/-- A whole number of places is rounded to the nearest double. -/
lemma normalize_eq_nearest (n e : ℤ) (zeroSign : Sign) :
    UnpackedFloat.normalize Format.binary64 n e zeroSign =
      nearest (signOf n zeroSign) (n.natAbs * 2 ^ e) := by
  unfold UnpackedFloat.normalize
  rcases lt_trichotomy n 0 with hn | rfl | hn
  · rw [Int.compare_eq_lt.2 hn, signOf, if_pos hn, ← round_eq_nearest _ (by omega),
      show n.natAbs = (-n).toNat by omega]
  · simp [signOf, nearest_zero]
  · rw [Int.compare_eq_gt.2 hn, signOf, if_neg hn.not_gt, if_neg hn.ne',
      ← round_eq_nearest _ (by omega), show n.natAbs = n.toNat by omega]

lemma signOf_natCast (n : ℕ) : signOf n .positive = .positive := by
  rw [signOf, if_neg (by omega), ite_self]

lemma signOf_neg_natCast (n : ℕ) : signOf (-n) .negative = .negative := by
  rcases n.eq_zero_or_pos with rfl | hn
  · rfl
  · exact if_pos (by omega)

lemma signed_signOf (n : ℤ) (zeroSign : Sign) : signed (signOf n zeroSign) n.natAbs = n := by
  rcases lt_trichotomy n 0 with hn | rfl | hn
  · rw [signOf, if_pos hn, signed, Nat.cast_natAbs, abs_of_neg hn, Int.cast_neg, neg_neg]
  · cases zeroSign <;> simp [signOf, signed]
  · rw [signOf, if_neg hn.not_gt, if_neg hn.ne', signed, Nat.cast_natAbs, abs_of_pos hn]

/-- The sign of an exact value. -/
def Exact.sign (v : Exact) : Sign :=
  if v.negative then .negative else .positive

/-- An exact value is rounded to the nearest double. -/
theorem ofExact_eq_nearestDouble (v : Exact) : ofExact v = nearestDouble v.sign v.magnitude := by
  obtain ⟨negative, m, e⟩ := v
  have hround : ofExact ⟨negative, m, e⟩ =
      .ofModel (.pack (UnpackedFloat.normalize Format.binary64 (if negative then -(m : ℤ) else m) e
        (if negative then .negative else .positive))) := rfl
  rw [hround, normalize_eq_nearest]
  cases negative with
  | false =>
    rw [if_neg Bool.false_ne_true, if_neg Bool.false_ne_true, signOf_natCast, Int.natAbs_natCast]
    rfl
  | true =>
    rw [if_pos rfl, if_pos rfl, signOf_neg_natCast, Int.natAbs_neg, Int.natAbs_natCast]
    rfl

/-- An integer is rounded to the nearest double. -/
theorem ofInt_eq_nearestDouble (n : ℤ) :
    ofInt n = nearestDouble (signOf n .positive) n.natAbs := by
  have hround := normalize_eq_nearest n 0 .positive
  rw [zpow_zero, mul_one] at hround
  exact congrArg (fun u => Float.ofModel (.pack u)) hround

/-- Integers with few enough digits are doubles. -/
theorem rational?_ofInt {n : ℤ} (hn : n.natAbs < 2 ^ 53) : rational? (ofInt n) = some (n : ℚ) := by
  rw [ofInt_eq_nearestDouble, ← mul_one (n.natAbs : ℚ), ← zpow_zero 2,
    rational?_nearestDouble hn (by decide) (by decide), zpow_zero, mul_one, signed_signOf]

/-! ### Differences -/

variable {m' : ℕ} {e' : ℤ} {x y : Float} {p : ℚ}

lemma signed_zero (s : Sign) : signed s 0 = 0 := by
  cases s <;> simp [signed]

lemma signed_neg (s : Sign) (q : ℚ) : signed (-s) q = -signed s q := by
  cases s
  · exact (neg_neg q).symm
  · rfl

lemma signed_mul (s : Sign) (p q : ℚ) : signed s (p * q) = signed s p * q := by
  cases s
  · exact (neg_mul p q).symm
  · rfl

lemma abs_signed (hq : 0 ≤ q) (s : Sign) : |signed s q| = q := by
  cases s
  · rw [signed, abs_neg, abs_of_nonneg hq]
  · exact abs_of_nonneg hq

/-- A mantissa that is moved to a finer scale. -/
lemma apply_shiftLeft (s : Sign) (m : ℕ) (h : k ≤ e) :
    ((s.apply (m <<< (e - k).toNat : ℕ) : ℤ) : ℚ) * 2 ^ k = signed s (m * 2 ^ e) := by
  obtain ⟨j, rfl⟩ := Int.le.dest h
  have hshift : ((m <<< (k + j - k).toNat : ℕ) : ℚ) * 2 ^ k = m * 2 ^ (k + j) := by
    rw [show (k + j - k).toNat = j by omega, Nat.shiftLeft_eq, zpow_add₀ two_ne_zero, zpow_natCast]
    push_cast
    ring
  cases s with
  | positive => exact hshift
  | negative =>
    rw [Sign.apply, Int.cast_neg, neg_mul, signed, ← hshift]
    rfl

/-- The difference of the parts of two doubles is rounded to the nearest double. -/
lemma sub_ofParts (h : Canonical m e) (h' : Canonical m' e') (s s' : Sign) :
    ∃ t, sub Format.binary64 (ofParts s m e) (ofParts s' m' e') =
        nearest t |signed s (m * 2 ^ e) - signed s' (m' * 2 ^ e')| ∧
      signed t |signed s (m * 2 ^ e) - signed s' (m' * 2 ^ e')| =
        signed s (m * 2 ^ e) - signed s' (m' * 2 ^ e') := by
  rcases m.eq_zero_or_pos with rfl | hm
  · rw [Nat.cast_zero, zero_mul, signed_zero, zero_sub, abs_neg, abs_signed (by positivity),
      ← signed_neg, ofParts_zero]
    rcases m'.eq_zero_or_pos with rfl | hm'
    · rw [Nat.cast_zero, zero_mul, signed_zero, ofParts_zero]
      refine ⟨if s == -s' then s else .positive, ?_, signed_zero _⟩
      rw [nearest_zero]
      cases s <;> cases s' <;> rfl
    · refine ⟨-s', ?_, rfl⟩
      rw [nearest_of_canonical h', ofParts_of_pos hm', ofParts_of_pos hm']
      rfl
  · rcases m'.eq_zero_or_pos with rfl | hm'
    · rw [Nat.cast_zero, zero_mul, signed_zero, sub_zero, abs_signed (by positivity)]
      refine ⟨s, ?_, rfl⟩
      rw [nearest_of_canonical h, ofParts_of_pos hm, ofParts_zero]
      rfl
    · obtain ⟨n, hn⟩ : ∃ n : ℤ, n = s.apply (m <<< (e - min e e').toNat : ℕ) -
          s'.apply (m' <<< (e' - min e e').toNat : ℕ) := ⟨_, rfl⟩
      have hvalue : signed s (m * 2 ^ e) - signed s' (m' * 2 ^ e') = n * 2 ^ min e e' := by
        rw [hn, ← apply_shiftLeft s m (min_le_left e e'),
          ← apply_shiftLeft s' m' (min_le_right e e')]
        push_cast
        ring
      have habs : |(n * 2 ^ min e e' : ℚ)| = n.natAbs * 2 ^ min e e' := by
        rw [abs_mul, abs_of_pos (zpow_pos two_pos (min e e') : (0 : ℚ) < _), Nat.cast_natAbs,
          Int.cast_abs]
      refine ⟨signOf n .positive, ?_, ?_⟩
      · rw [hvalue, habs, ← normalize_eq_nearest, ofParts_of_pos hm, ofParts_of_pos hm', hn]
        rfl
      · rw [hvalue, habs, signed_mul, signed_signOf]

/-- A difference is rounded to the nearest double. -/
theorem sub_eq_nearestDouble (hx : rational? x = some p) (hy : rational? y = some q) :
    ∃ s, x - y = nearestDouble s |p - q| ∧ signed s |p - q| = p - q := by
  obtain ⟨s, m, e, rfl, h, hmax, rfl⟩ := exists_double_of_rational? hx
  obtain ⟨s', m', e', rfl, h', hmax', rfl⟩ := exists_double_of_rational? hy
  obtain ⟨t, ht, hsigned⟩ := sub_ofParts h h' s s'
  refine ⟨t, ?_, hsigned⟩
  change Float.ofModel (.pack (sub Format.binary64 (double s m e).toModel.unpack
    (double s' m' e').toModel.unpack)) = _
  rw [unpack_double h, if_pos hmax, unpack_double h', if_pos hmax', ht]
  rfl

/-- Beyond the largest double there is only an infinity. -/
lemma rational?_double_of_large (h : Canonical m e) (hmax : ¬e ≤ 971) (s : Sign) :
    rational? (double s m e) = none := by
  unfold rational? finite?
  rw [unpack_double h, if_neg hmax]
  rfl

/-- Nothing is lost when a natural number is taken from a number that is at least as large, unless
the difference has too many digits. -/
lemma rational?_sub_natCast {n : ℕ} (hx : rational? x = some p) (hy : rational? y = some (n : ℚ))
    (hle : n ≤ p) (hlt : p - n < 2 ^ 53) : rational? (x - y) = some (p - n) := by
  obtain ⟨s, hsub, hsigned⟩ := sub_eq_nearestDouble hx hy
  have hdifference : |p - n| = p - n := abs_of_nonneg (sub_nonneg.2 hle)
  rw [hdifference] at hsub hsigned
  obtain ⟨j, k, hj, hk, hk', hvalue⟩ : ∃ (j : ℕ) (k : ℤ), j < 2 ^ 53 ∧ -1074 ≤ k ∧ k ≤ 971 ∧
      (j * 2 ^ k : ℚ) = p - n := by
    obtain ⟨s', m, e, -, h, hmax, rfl⟩ := exists_double_of_rational? hx
    have hmagnitude : (0 : ℚ) ≤ m * 2 ^ e := by positivity
    have hn : (0 : ℚ) ≤ n := n.cast_nonneg
    have hp : signed s' (m * 2 ^ e) = m * 2 ^ e := by
      cases s' with
      | positive => rfl
      | negative =>
        have hle' : (n : ℚ) ≤ -(m * 2 ^ e) := hle
        change -(m * 2 ^ e : ℚ) = m * 2 ^ e
        linarith
    rw [hp] at hle hlt ⊢
    -- A mantissa that is moved to the ones has no more digits than the difference; and one with
    -- places behind the point has no more than before.
    rcases le_or_gt 0 e with he | he
    · obtain ⟨i, rfl⟩ := Int.eq_ofNat_of_zero_le he
      have hvalue : (m * 2 ^ i - n : ℕ) = (m * 2 ^ (i : ℤ) - n : ℚ) := by
        rw [zpow_natCast] at hle ⊢
        rw [Nat.cast_sub (by exact_mod_cast hle)]
        push_cast
        rfl
      refine ⟨m * 2 ^ i - n, 0, ?_, by decide, by decide, ?_⟩
      · rw [← hvalue] at hlt
        exact_mod_cast hlt
      · rw [zpow_zero, mul_one, hvalue]
    · obtain ⟨i, hi⟩ : ∃ i : ℕ, e = -(i : ℤ) := ⟨(-e).toNat, by omega⟩
      have hscale : (n * 2 ^ i : ℕ) * (2 : ℚ) ^ e = n := by
        rw [hi, zpow_neg, zpow_natCast, Nat.cast_mul, Nat.cast_pow, Nat.cast_two, mul_assoc,
          mul_inv_cancel₀ (by positivity), mul_one]
      have hle' : n * 2 ^ i ≤ m := by
        rw [← hscale] at hle
        exact_mod_cast le_of_mul_le_mul_right hle (zpow_pos two_pos e)
      refine ⟨m - n * 2 ^ i, e, by have := h.lt; omega, h.le, hmax, ?_⟩
      rw [Nat.cast_sub hle', sub_mul, hscale]
  rw [hsub, ← hvalue, rational?_nearestDouble hj hk hk', hvalue, hsigned]

/-- What is too large stays too large. -/
lemma le_of_rational?_sub {n : ℕ} (hx : rational? x = some p) (hy : rational? y = some (n : ℚ))
    (hle : 2 ^ 53 ≤ p - n) (hd : rational? (x - y) = some q) : 2 ^ 53 ≤ q := by
  obtain ⟨s, hsub, hsigned⟩ := sub_eq_nearestDouble hx hy
  have hpos : (0 : ℚ) < p - n := (by norm_num : (0 : ℚ) < 2 ^ 53).trans_le hle
  rw [abs_of_pos hpos] at hsub hsigned
  have hs : s = .positive := by
    cases s with
    | positive => rfl
    | negative =>
      have hopposite : -(p - n) = p - n := hsigned
      exact absurd hopposite (by linarith)
  obtain ⟨m, e, h, hplace, hnearest⟩ := nearest_canonical s hpos
  have hlog : 53 ≤ Int.log 2 (p - n) :=
    (Int.zpow_le_iff_le_log one_lt_two hpos).1 (by exact_mod_cast hle)
  have he : 1 ≤ e := by
    unfold lastPlace at hplace
    omega
  have hm : (2 ^ 52 : ℚ) ≤ m := by exact_mod_cast h.full.resolve_right (by omega)
  have hdouble : x - y = double s m e := by
    rw [hsub, nearestDouble, hnearest]
    rfl
  rw [hdouble] at hd
  have hmax : e ≤ 971 := by
    by_contra hmax
    rw [rational?_double_of_large h hmax s] at hd
    exact nomatch hd
  rw [rational?_double h hmax, hs] at hd
  rw [← Option.some.inj hd]
  calc (2 ^ 53 : ℚ) = 2 ^ 52 * 2 ^ (1 : ℤ) := by norm_num
    _ ≤ m * 2 ^ e :=
      mul_le_mul hm (zpow_le_zpow_right₀ one_le_two he) (by positivity) (by positivity)

lemma sub_infinity_ofParts (s s' : Sign) (m : ℕ) (e : ℤ) :
    sub Format.binary64 (.infinity s) (ofParts s' m e) = .infinity s := by
  unfold ofParts
  split_ifs <;> rfl

/-- What is not a rational number does not become one. -/
lemma rational?_sub_of_none (hx : rational? x = none) (hy : rational? y = some q) :
    rational? (x - y) = none := by
  obtain ⟨s', m', e', rfl, h', hmax', -⟩ := exists_double_of_rational? hy
  have hsub : x - double s' m' e' =
      .ofModel (.pack (sub Format.binary64 x.toModel.unpack (ofParts s' m' e'))) := by
    change Float.ofModel (.pack (sub Format.binary64 x.toModel.unpack
      (double s' m' e').toModel.unpack)) = _
    rw [unpack_double h', if_pos hmax']
  rw [hsub]
  rcases eq_double x with rfl | rfl | rfl | ⟨s, m, e, rfl, h, hmax⟩
  · rw [show nan.toModel.unpack = .notANumber from rfl]
    exact rational?_nan
  · rw [show infinity.toModel.unpack = .infinity .positive from rfl, sub_infinity_ofParts]
    exact rational?_infinity
  · rw [show (-infinity).toModel.unpack = .infinity .negative from rfl, sub_infinity_ofParts]
    exact rational?_neg_infinity
  · exact nomatch hx.symm.trans (rational?_double h hmax s)

end ScriptEngine.Number
