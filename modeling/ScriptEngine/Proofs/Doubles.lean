import Mathlib
import ScriptEngine.Number.Exact

/-!
# Doubles as rational numbers

A double is an infinity, or not a number, or a rational number: a mantissa of at most 53 binary
digits times a power of two.  The exponent is as small as the mantissa allows, and so a number has
one mantissa and one exponent (`Canonical`).  Packing and unpacking lose nothing
(`unpack_pack_ofParts`), and so these are all the doubles (`eq_double`).

Whole parts and positions are what they are for rational numbers: `Exact.floorAbs` is the floor, and
`toNat?` finds the doubles that are exactly natural numbers (`toNat?_eq_some_iff`).
-/

namespace ScriptEngine.Number

open Float.Model (UnpackedFloat Format)
open Float.Model.UnpackedFloat

/-! ### The value of a double -/

namespace Exact

/-- The value without its sign. -/
def magnitude (v : Exact) : ℚ :=
  v.significand * 2 ^ v.exponent

/-- The rational number that an exact value is. -/
def value (v : Exact) : ℚ :=
  if v.negative then -v.magnitude else v.magnitude

variable (v : Exact)

lemma magnitude_nonneg : 0 ≤ v.magnitude :=
  mul_nonneg (Nat.cast_nonneg _) (zpow_pos two_pos _).le

lemma magnitude_eq_zero_iff : v.magnitude = 0 ↔ v.significand = 0 := by
  rw [magnitude, mul_eq_zero, Nat.cast_eq_zero]
  exact or_iff_left (zpow_pos two_pos _).ne'

lemma magnitude_of_nonneg (h : 0 ≤ v.exponent) :
    v.magnitude = (v.significand * 2 ^ v.exponent.toNat : ℕ) := by
  conv_lhs => rw [magnitude, ← Int.toNat_of_nonneg h, zpow_natCast]
  push_cast
  rfl

lemma magnitude_of_neg (h : v.exponent < 0) :
    v.magnitude = v.significand / (2 ^ (-v.exponent).toNat : ℕ) := by
  have hexponent : v.exponent = -((-v.exponent).toNat : ℤ) := by omega
  conv_lhs => rw [magnitude, hexponent, zpow_neg, zpow_natCast]
  rw [div_eq_mul_inv, Nat.cast_pow, Nat.cast_two]

/-- The whole part of the magnitude is its floor. -/
lemma floorAbs_eq : v.floorAbs = ⌊v.magnitude⌋₊ := by
  unfold floorAbs
  split_ifs with h
  · rw [v.magnitude_of_nonneg h, Nat.floor_natCast, Nat.pow_eq]
  · rw [v.magnitude_of_neg (not_le.1 h), Nat.floor_div_eq_div, Nat.pow_eq]

/-- A value is whole when nothing lies behind its whole part. -/
lemma isWhole_iff : v.isWhole ↔ v.magnitude = v.floorAbs := by
  rcases le_or_gt 0 v.exponent with h | h
  · have hwhole : v.isWhole := by
      rw [isWhole, Bool.or_eq_true]
      exact .inl (decide_eq_true h)
    refine iff_of_true hwhole ?_
    rw [floorAbs_eq, v.magnitude_of_nonneg h, Nat.floor_natCast]
  · have hpos : 0 < 2 ^ (-v.exponent).toNat := Nat.two_pow_pos _
    have hpos' : (0 : ℚ) < (2 ^ (-v.exponent).toNat : ℕ) := by exact_mod_cast hpos
    rw [isWhole, decide_eq_false h.not_ge, Bool.false_or, beq_iff_eq, floorAbs_eq,
      v.magnitude_of_neg h, Nat.floor_div_eq_div, div_eq_iff hpos'.ne', Nat.pow_eq,
      ← Nat.dvd_iff_mod_eq_zero, Nat.dvd_iff_div_mul_eq]
    norm_cast
    exact eq_comm

variable {v}

lemma magnitude_eq_natCast_iff {k : ℕ} : v.magnitude = k ↔ v.isWhole ∧ v.floorAbs = k := by
  rw [isWhole_iff]
  constructor
  · intro h
    have hfloor : v.floorAbs = k := by rw [floorAbs_eq, h, Nat.floor_natCast]
    exact ⟨h.trans (congrArg _ hfloor.symm), hfloor⟩
  · rintro ⟨h, rfl⟩
    exact h

lemma value_of_not_negative (h : v.negative = false) : v.value = v.magnitude := by
  rw [value, h, if_neg Bool.false_ne_true]

lemma value_of_negative (h : v.negative = true) : v.value = -v.magnitude := by
  rw [value, h, if_pos rfl]

/-- A value that is a natural number is whole and has no sign, unless it is zero. -/
lemma value_eq_natCast_iff {k : ℕ} :
    v.value = k ↔ v.isWhole ∧ (v.negative = false ∨ v.significand = 0) ∧ v.floorAbs = k := by
  cases hsign : v.negative with
  | false => simp [value_of_not_negative hsign, magnitude_eq_natCast_iff]
  | true =>
    have hzero : -v.magnitude = k ↔ v.magnitude = 0 ∧ v.magnitude = k := by
      have hnonneg := v.magnitude_nonneg
      have hk : (0 : ℚ) ≤ k := Nat.cast_nonneg k
      constructor
      · exact fun h => ⟨by linarith, by linarith⟩
      · rintro ⟨h, hk⟩
        rw [← hk, h, neg_zero]
    rw [value_of_negative hsign, hzero, magnitude_eq_zero_iff, magnitude_eq_natCast_iff]
    simp [and_left_comm]

end Exact

/-- The rational number that a double is, unless it is infinite or not a number. -/
def rational? (x : Float) : Option ℚ :=
  (finite? x).map Exact.value

/-- The position that a double stands for is the natural number that it is. -/
theorem toNat?_eq_some_iff {x : Float} {k : ℕ} :
    toNat? x = some k ↔ rational? x = some (k : ℚ) := by
  unfold toNat? rational?
  cases finite? x with
  | none => simp
  | some v =>
    simp [Exact.value_eq_natCast_iff, and_assoc]

/-! ### Packing -/

/-- A number with a sign, a mantissa and an exponent. -/
def ofParts (s : Sign) (m : ℕ) (e : ℤ) : UnpackedFloat :=
  if h : m = 0 then .zero s else .finite s m e (Nat.pos_of_ne_zero h)

/-- Mantissa and exponent of a double: at most 53 digits, and fewer only at the last place that
there is. -/
structure Canonical (m : ℕ) (e : ℤ) : Prop where
  lt : m < 2 ^ 53
  le : -1074 ≤ e
  full : 2 ^ 52 ≤ m ∨ e = -1074

lemma canonical_zero : Canonical 0 (-1074) :=
  ⟨by decide, le_rfl, .inr rfl⟩

/-- A number with few enough digits, at a place that there is, has mantissa and exponent of a
double. -/
lemma exists_canonical {n : ℕ} {e : ℤ} (hn : n < 2 ^ 53) (he : -1074 ≤ e) :
    ∃ m e', Canonical m e' ∧ e' ≤ e ∧ (m : ℚ) * 2 ^ e' = n * 2 ^ e := by
  rcases n.eq_zero_or_pos with rfl | hpos
  · exact ⟨0, -1074, canonical_zero, he, by simp⟩
  -- The mantissa is shifted until it is full or there is no further place.
  have hlog := (Nat.log2_lt hpos.ne').2 hn
  obtain ⟨k, hk⟩ : ∃ k : ℕ, (k : ℤ) = min (52 - n.log2 : ℤ) (e + 1074) :=
    ⟨_, Int.toNat_of_nonneg (by omega)⟩
  refine ⟨n * 2 ^ k, e - k, ⟨?_, by omega, ?_⟩, by omega, ?_⟩
  · calc n * 2 ^ k < 2 ^ (n.log2 + 1) * 2 ^ k :=
          Nat.mul_lt_mul_of_pos_right Nat.lt_log2_self (Nat.two_pow_pos k)
      _ = 2 ^ (n.log2 + 1 + k) := (pow_add 2 _ k).symm
      _ ≤ 2 ^ 53 := Nat.pow_le_pow_right two_pos (by omega)
  · rcases le_or_gt (e + 1074) (52 - n.log2 : ℤ) with h | h
    · right
      omega
    · left
      calc 2 ^ 52 = 2 ^ (n.log2 + k) := by congr 1; omega
        _ = 2 ^ n.log2 * 2 ^ k := pow_add 2 _ k
        _ ≤ n * 2 ^ k := Nat.mul_le_mul_right _ (Nat.log2_self_le hpos.ne')
  · rw [Nat.cast_mul, Nat.cast_pow, Nat.cast_two, mul_assoc, ← zpow_natCast,
      ← zpow_add₀ two_ne_zero, add_sub_cancel]

variable {m : ℕ} {e : ℤ} {s : Sign}

lemma unpack_packedInfinity (s : Sign) :
    unpack Format.binary64 (packedInfinity Format.binary64 s) = .infinity s := by
  simp [unpack, packedInfinity]

lemma ofParts_zero (s : Sign) (e : ℤ) : ofParts s 0 e = .zero s := rfl

lemma ofParts_of_pos (hm : 0 < m) : ofParts s m e = .finite s m e hm := dif_neg hm.ne'

/-- What the bits of a finite double stand for. -/
lemma unpack_packComponents {b : BitVec 11} (hb : b ≠ -1#11) (s : Sign) (f : BitVec 52) :
    unpack Format.binary64 (packComponents Format.binary64 s b f) =
      if b = 0#11 then ofParts s f.toNat (-1074)
      else ofParts s (2 ^ 52 + f.toNat) (b.toNat - 1075) := by
  have hfull : (1#1 ++ f).toNat = 2 ^ 52 + f.toNat := by
    rw [BitVec.toNat_append, ← Nat.shiftLeft_add_eq_or_of_lt f.isLt]
    rfl
  unfold unpack
  simp only [unpackMantissa_packComponents, unpackExponent_packComponents,
    unpackSign_packComponents, Sign.ofBitVec_toBitVec, if_neg hb]
  split_ifs with hzero hf
  · rw [hf, BitVec.toNat_zero, ofParts_zero]
  · rw [ofParts_of_pos (Nat.pos_of_ne_zero fun h => hf (BitVec.eq_of_toNat_eq h))]
    rw [hzero]
    rfl
  · rw [ofParts_of_pos (by positivity)]
    simp only [hfull]
    rfl

/-- A double is what its parts say, and an infinity beyond the largest one. -/
theorem unpack_pack_ofParts (h : Canonical m e) (s : Sign) :
    unpack Format.binary64 (pack Format.binary64 (ofParts s m e)) =
      if e ≤ 971 then ofParts s m e else .infinity s := by
  obtain ⟨hlt, hle, hfull⟩ := h
  rcases m.eq_zero_or_pos with rfl | hpos
  · have he : e = -1074 := hfull.resolve_left (by decide)
    rw [if_pos (by omega), ofParts_zero]
    exact unpack_packedZero
  have hlog : m.log2 + 1 = 53 ↔ 2 ^ 52 ≤ m := by
    rw [← Nat.le_log2 hpos.ne']
    have := (Nat.log2_lt hpos.ne').2 hlt
    omega
  have hpack : pack Format.binary64 (ofParts s m e) =
      if 2 ^ 11 ≤ (e + 1075).toNat + 1 then packedInfinity Format.binary64 s
      else if m.log2 + 1 = 53 then
        packComponents Format.binary64 s (.ofNat 11 (e + 1075).toNat) (.ofNat 52 m)
      else packComponents Format.binary64 s 0#11 (.ofNat 52 m) := by
    rw [ofParts_of_pos hpos, show e + 1075 = e + 1023 + 52 by ring]
    rfl
  rw [hpack]
  by_cases hmax : e ≤ 971
  · rw [if_pos hmax, if_neg (by omega)]
    by_cases hnormal : 2 ^ 52 ≤ m
    · have hexponent : (BitVec.ofNat 11 (e + 1075).toNat).toNat = (e + 1075).toNat :=
        Nat.mod_eq_of_lt (by omega)
      have hmantissa : 2 ^ 52 + (BitVec.ofNat 52 m).toNat = m := by
        rw [BitVec.toNat_ofNat]
        omega
      have hfinite : BitVec.ofNat 11 (e + 1075).toNat ≠ -1#11 := fun h => by
        have := congrArg BitVec.toNat h
        rw [hexponent, show (-1#11).toNat = 2047 from rfl] at this
        omega
      have hnonzero : BitVec.ofNat 11 (e + 1075).toNat ≠ 0#11 := fun h => by
        have := congrArg BitVec.toNat h
        rw [hexponent, BitVec.toNat_zero] at this
        omega
      rw [if_pos (hlog.2 hnormal), unpack_packComponents hfinite, if_neg hnonzero, hmantissa,
        hexponent]
      congr 1
      omega
    · have he : e = -1074 := hfull.resolve_left hnormal
      have hmantissa : (BitVec.ofNat 52 m).toNat = m := Nat.mod_eq_of_lt (by omega)
      rw [if_neg (hlog.not.2 hnormal), unpack_packComponents (by decide), if_pos rfl, hmantissa, he]
  · rw [if_neg hmax, if_pos (by omega), unpack_packedInfinity]

/-- Bits stand for what is not a number, for an infinity, or for the parts of a double. -/
lemma exists_parts_of_bits (bits : BitVec Format.binary64.numBits) :
    unpack Format.binary64 bits = .notANumber ∨ (∃ s, unpack Format.binary64 bits = .infinity s) ∨
      ∃ s m e, unpack Format.binary64 bits = ofParts s m e ∧ Canonical m e ∧ e ≤ 971 := by
  rw [← packComponents_unpackSign_unpackExponent_unpackMantissa bits]
  generalize Sign.ofBitVec (unpackSign bits) = s
  generalize unpackExponent bits = b
  generalize unpackMantissa bits = f
  change BitVec 11 at b
  change BitVec 52 at f
  by_cases hb : b = -1#11
  · by_cases hf : f = 0#52
    · rw [hb, hf]
      exact .inr (.inl ⟨s, unpack_packedInfinity s⟩)
    · left
      rw [hb]
      simp [unpack, hf]
  · refine .inr (.inr ?_)
    rw [unpack_packComponents hb]
    have hf := f.isLt
    have hmax : b.toNat < 2047 := by
      have hlt := b.isLt
      have hne : b.toNat ≠ (-1#11).toNat := fun h => hb (BitVec.eq_of_toNat_eq h)
      rw [show (-1#11).toNat = 2047 from rfl] at hne
      omega
    split_ifs with hzero
    · exact ⟨s, f.toNat, -1074, rfl, ⟨by omega, le_rfl, .inr rfl⟩, by decide⟩
    · have hpos : b.toNat ≠ 0 := fun h => hzero (BitVec.eq_of_toNat_eq h)
      exact ⟨s, _, _, rfl, ⟨by omega, by omega, .inl (by omega)⟩, by omega⟩

/-! ### The doubles -/

/-- The double with a sign, a mantissa and an exponent. -/
def double (s : Sign) (m : ℕ) (e : ℤ) : Float :=
  .ofModel (.pack (ofParts s m e))

/-- A rational number with a sign. -/
def signed (s : Sign) (q : ℚ) : ℚ :=
  match s with
  | .negative => -q
  | .positive => q

lemma unpack_double (h : Canonical m e) (s : Sign) :
    (double s m e).toModel.unpack = if e ≤ 971 then ofParts s m e else .infinity s :=
  unpack_pack_ofParts h s

/-- Nothing is lost when a double is taken apart. -/
lemma ofModel_pack_unpack (x : Float) : .ofModel (.pack x.toModel.unpack) = x :=
  Float.ofBits_toBits x

/-- The doubles: what is not a number, the infinities, and those with mantissa and exponent. -/
theorem eq_double (x : Float) :
    x = nan ∨ x = infinity ∨ x = -infinity ∨
      ∃ s m e, x = double s m e ∧ Canonical m e ∧ e ≤ 971 := by
  rw [← ofModel_pack_unpack x]
  rcases exists_parts_of_bits x.toModel.toBits.toBitVec with
    h | ⟨s, h⟩ | ⟨s, m, e, h, hcanonical⟩ <;>
    rw [Float.Model.unpack, h]
  · exact .inl rfl
  · cases s with
    | negative => exact .inr (.inr (.inl rfl))
    | positive => exact .inr (.inl rfl)
  · exact .inr (.inr (.inr ⟨s, m, e, rfl, hcanonical⟩))

/-- The parts of a double that is not zero. -/
lemma finite?_double (h : Canonical m e) (hmax : e ≤ 971) (hm : 0 < m) (s : Sign) :
    finite? (double s m e) = some ⟨s == .negative, m, e⟩ := by
  unfold finite?
  rw [unpack_double h, if_pos hmax, ofParts_of_pos hm]

/-- The number that a double with mantissa and exponent is. -/
lemma rational?_double (h : Canonical m e) (hmax : e ≤ 971) (s : Sign) :
    rational? (double s m e) = some (signed s (m * 2 ^ e)) := by
  unfold rational? finite?
  rw [unpack_double h, if_pos hmax]
  rcases m.eq_zero_or_pos with rfl | hm
  · cases s <;> simp [ofParts_zero, Exact.value, Exact.magnitude, signed]
  · rw [ofParts_of_pos hm]
    cases s <;> simp [Exact.value, Exact.magnitude, signed]

lemma rational?_nan : rational? nan = none := rfl

lemma rational?_infinity : rational? infinity = none := rfl

lemma rational?_neg_infinity : rational? (-infinity) = none := rfl

lemma rational?_zero : rational? 0 = some 0 := by
  change rational? (double .positive 0 (-1074)) = _
  simp [rational?_double canonical_zero, signed]

lemma rational?_neg_zero : rational? (-0) = some 0 := by
  change rational? (double .negative 0 (-1074)) = _
  simp [rational?_double canonical_zero, signed]

/-- A double that is a rational number has mantissa and exponent. -/
lemma exists_double_of_rational? {x : Float} {q : ℚ} (h : rational? x = some q) :
    ∃ s m e, x = double s m e ∧ Canonical m e ∧ e ≤ 971 ∧ signed s (m * 2 ^ e) = q := by
  rcases eq_double x with rfl | rfl | rfl | ⟨s, m, e, rfl, hcanonical, hmax⟩
  · exact nomatch rational?_nan.symm.trans h
  · exact nomatch rational?_infinity.symm.trans h
  · exact nomatch rational?_neg_infinity.symm.trans h
  · rw [rational?_double hcanonical hmax] at h
    exact ⟨s, m, e, rfl, hcanonical, hmax, Option.some.inj h⟩

lemma neg_ofParts (s : Sign) (m : ℕ) (e : ℤ) : (ofParts s m e).neg = ofParts (-s) m e := by
  unfold ofParts
  split_ifs <;> rfl

/-- The opposite of a double has the other sign. -/
lemma neg_double (h : Canonical m e) (hmax : e ≤ 971) (s : Sign) :
    -double s m e = double (-s) m e := by
  change Float.ofModel (.pack (double s m e).toModel.unpack.neg) = _
  rw [unpack_double h, if_pos hmax, neg_ofParts]
  rfl

lemma isNaN_double (h : Canonical m e) (s : Sign) : (double s m e).isNaN = false := by
  change (double s m e).toModel.unpack.isNaN = false
  rw [unpack_double h, ofParts]
  split_ifs <;> rfl

lemma isNaN_infinity : infinity.isNaN = false := rfl

/-- The opposite of a number is a number. -/
lemma isNaN_neg (x : Float) : (-x).isNaN = x.isNaN := by
  rcases eq_double x with rfl | rfl | rfl | ⟨s, m, e, rfl, h, hmax⟩
  · rfl
  · rfl
  · rfl
  · rw [neg_double h hmax, isNaN_double h, isNaN_double h]

end ScriptEngine.Number
