import ScriptEngine.Number.Text
import ScriptEngine.Proofs.CompoundAssignment
import ScriptEngine.Proofs.Numerals

/-!
# The text of a number

A number is printed in positional notation, with the fewest digits that read back as it.
Positional notation loses nothing (`Decimal.value_positional`), and the search for the digits ends
with a decimal that is read as the number (`toFloat_shortest`).  For whole numbers below `10 ^ 15`
it ends on a grid of whole numbers, where there is only one such decimal (`positional_shortest`).

Main statement: `Value.number_text_reads_back`.
-/

namespace ScriptEngine

namespace Text

variable {t : List Char}

lemma trim_of_forall (h : ∀ c ∈ t, ¬isBlank c) : trim t = t :=
  trim_of_ends (fun c hc => h c (List.mem_of_mem_head? hc)) fun c hc =>
    h c (List.mem_of_mem_getLast? hc)

lemma not_isBlank_of_isDigit {c : Char} (h : c.isDigit) : ¬isBlank c := by
  have hrange : 48 ≤ c.toNat ∧ c.toNat ≤ 57 := Char.isDigit_iff_toNat.1 h
  simp [isBlank]
  omega

end Text

namespace Number

/-- A numeral that begins with a digit may have a minus in front. -/
lemma Numeral.signed?_of_digit {cs : List Char} {d : Decimal} (hhead : ∃ c ∈ cs.head?, c.isDigit)
    (h : decimal? cs = some d) :
    signed? cs = some d.toFloat ∧ signed? ('-' :: cs) = some (-d.toFloat) := by
  obtain ⟨c, hc, hdigit⟩ := hhead
  have hword : cs ≠ "Infinity".toList := by
    rintro rfl
    obtain rfl : 'I' = c := Option.some.inj hc
    exact absurd hdigit (by decide)
  have hsplit : splitSign cs = (false, cs) := by
    have hsign := ne_sign_of_isDigit hdigit
    rcases splitSign_cases cs with ⟨rest, rfl, -⟩ | ⟨rest, rfl, -⟩ | ⟨-, -, hsplit⟩
    · exact absurd (Option.some.inj hc).symm hsign.1
    · exact absurd (Option.some.inj hc).symm hsign.2
    · exact hsplit
  have hminus : splitSign ('-' :: cs) = (true, cs) := rfl
  unfold signed?
  simp only [hsplit, hminus, if_neg hword, h, Option.map_some, Bool.false_eq_true, if_false,
    if_true, and_self]

open Float.Model.UnpackedFloat (Sign)

/-! ### Positional notation -/

namespace Decimal

variable {d : Decimal}

lemma digitsValue_toDigits (n : ℕ) : digitsValue (Nat.toDigits 10 n) = n :=
  Nat.ofDigitChars_ten_toDigits

/-- Zeros at the end multiply by ten each. -/
lemma digitsValue_append_zeros (ds : List Char) (k : ℕ) :
    digitsValue (ds ++ List.replicate k '0') = digitsValue ds * 10 ^ k := by
  induction k with
  | zero => simp
  | succ k ih =>
    rw [List.replicate_succ', ← List.append_assoc, digitsValue_append_singleton, ih, pow_succ']
    exact mul_left_comm _ _ _

/-- Zeros at the front do not count. -/
lemma digitsValue_zeros_append (k : ℕ) (ds : List Char) :
    digitsValue (List.replicate k '0' ++ ds) = digitsValue ds := by
  rw [digitsValue_append, ← List.nil_append (List.replicate k '0'), digitsValue_append_zeros,
    digitsValue_nil, zero_mul, zero_mul, zero_add]

lemma isDigit_of_mem_zeros {k : ℕ} {c : Char} (h : c ∈ List.replicate k '0') : c.isDigit := by
  rw [List.eq_of_mem_replicate h]
  decide

lemma isDigit_of_mem_toDigits {n : ℕ} {c : Char} (h : c ∈ Nat.toDigits 10 n) : c.isDigit :=
  Nat.isDigit_of_mem_toDigits (by decide) (by decide) h

/-- A whole number in positional notation. -/
lemma positional_of_nonneg (he : 0 ≤ d.exponent) :
    d.positional =
      .ofList (Nat.toDigits 10 d.digits ++ List.replicate d.exponent.toNat '0') :=
  if_pos he

/-- A number with digits behind the point in positional notation. -/
lemma positional_of_neg (he : d.exponent < 0) :
    ∃ w f : List Char, (∀ c ∈ w, c.isDigit) ∧ (∀ c ∈ f, c.isDigit) ∧ w ≠ [] ∧
      d.positional = .ofList (w ++ '.' :: f) ∧ digitsValue (w ++ f) = d.digits ∧
      -(f.length : ℤ) = d.exponent := by
  obtain ⟨ds, hds⟩ : ∃ ds, ds = Nat.toDigits 10 d.digits := ⟨_, rfl⟩
  have hdigits : ∀ c ∈ ds, c.isDigit := fun c hc => isDigit_of_mem_toDigits (hds ▸ hc)
  have hvalue : digitsValue ds = d.digits := hds ▸ digitsValue_toDigits d.digits
  obtain ⟨k, hk⟩ : ∃ k, k = (-d.exponent).toNat := ⟨_, rfl⟩
  have hpositional : d.positional =
      if ds.length ≤ k then .ofList ("0.".toList ++ List.replicate (k - ds.length) '0' ++ ds)
      else .ofList (ds.take (ds.length - k) ++ '.' :: ds.drop (ds.length - k)) := by
    rw [hds, hk]
    exact if_neg (not_le.2 he)
  rcases le_or_gt ds.length k with hlength | hlength
  · refine ⟨['0'], List.replicate (k - ds.length) '0' ++ ds, by simp,
      List.forall_mem_append.2 ⟨fun _ => isDigit_of_mem_zeros, hdigits⟩, by decide, ?_, ?_, ?_⟩
    · rw [hpositional, if_pos hlength]
      simp
    · rw [← List.append_assoc, List.singleton_append, ← List.replicate_succ,
        digitsValue_zeros_append, hvalue]
    · rw [List.length_append, List.length_replicate]
      omega
  · refine ⟨ds.take (ds.length - k), ds.drop (ds.length - k),
      fun c hc => hdigits c (List.mem_of_mem_take hc),
      fun c hc => hdigits c (List.mem_of_mem_drop hc), ?_, ?_, ?_, ?_⟩
    · rw [← List.length_pos_iff, List.length_take]
      omega
    · rw [hpositional, if_neg (not_le.2 hlength)]
    · rw [List.take_append_drop, hvalue]
    · rw [List.length_drop]
      omega

/-- A numeral in positional notation is the number that was written. -/
lemma decimal?_positional (d : Decimal) :
    ∃ d', Numeral.decimal? d.positional.toList = some d' ∧ d'.value = d.value := by
  rcases le_or_gt 0 d.exponent with he | he
  · obtain ⟨k, hk⟩ := Int.eq_ofNat_of_zero_le he
    rw [positional_of_nonneg he, String.toList_ofList, hk, Int.toNat_natCast]
    have hdigits : ∀ c ∈ Nat.toDigits 10 d.digits ++ List.replicate k '0', c.isDigit :=
      List.forall_mem_append.2 ⟨fun _ => isDigit_of_mem_toDigits, fun _ => isDigit_of_mem_zeros⟩
    have hread : Numeral.decimal? (Nat.toDigits 10 d.digits ++ List.replicate k '0' ++ []) =
        some ⟨digitsValue (Nat.toDigits 10 d.digits ++ List.replicate k '0'), 0⟩ :=
      Numeral.decimal?_digits hdigits (by simp [Nat.toDigits_ne_nil]) (.inl rfl)
    rw [List.append_nil] at hread
    refine ⟨_, hread, ?_⟩
    rw [value, value, digitsValue_append_zeros, digitsValue_toDigits, hk, zpow_zero, mul_one,
      zpow_natCast]
    push_cast
    rfl
  · obtain ⟨w, f, hw, hf, hne, hpositional, hvalue, hlength⟩ := positional_of_neg he
    have hread : Numeral.decimal? (w ++ '.' :: (f ++ [])) =
        some ⟨digitsValue (w ++ f), 0 - (f.length : ℤ)⟩ :=
      Numeral.decimal?_point hw hf (.inl hne) (by simp)
    rw [List.append_nil] at hread
    rw [hpositional, String.toList_ofList]
    refine ⟨_, hread, ?_⟩
    rw [value, value, hvalue, zero_sub, hlength]

/-- Positional notation begins with a digit, and has no other characters than digits and a point. -/
lemma positional_chars (d : Decimal) :
    (∃ c ∈ d.positional.toList.head?, c.isDigit) ∧
      ∀ c ∈ d.positional.toList, c.isDigit ∨ c = '.' := by
  have hhead : ∀ {w : List Char} (t), (∀ c ∈ w, c.isDigit) → w ≠ [] →
      ∃ c ∈ (w ++ t).head?, c.isDigit := by
    intro w t hw hne
    obtain ⟨c, cs, rfl⟩ := List.exists_cons_of_ne_nil hne
    exact ⟨c, rfl, hw c List.mem_cons_self⟩
  rcases le_or_gt 0 d.exponent with he | he
  · rw [positional_of_nonneg he, String.toList_ofList]
    refine ⟨hhead _ (fun _ => isDigit_of_mem_toDigits) Nat.toDigits_ne_nil, fun c hc => .inl ?_⟩
    exact (List.mem_append.1 hc).elim isDigit_of_mem_toDigits isDigit_of_mem_zeros
  · obtain ⟨w, f, hw, hf, hne, hpositional, -⟩ := positional_of_neg he
    rw [hpositional, String.toList_ofList]
    refine ⟨hhead _ hw hne, fun c hc => ?_⟩
    rcases List.mem_append.1 hc with hc | hc
    · exact .inl (hw c hc)
    · exact (List.mem_cons.1 hc).symm.imp_left (hf c)

/-- What is written in positional notation reads back as the decimal. -/
theorem value_positional (d : Decimal) :
    Numeral.value d.positional = d.toFloat ∧ Numeral.value ("-" ++ d.positional) = -d.toFloat := by
  obtain ⟨hhead, hchars⟩ := d.positional_chars
  obtain ⟨d', hread, hvalue⟩ := d.decimal?_positional
  obtain ⟨hplus, hminus⟩ := Numeral.signed?_of_digit hhead hread
  rw [toFloat_congr hvalue] at hplus hminus
  have hne : d.positional.toList ≠ [] := by
    rintro hnil
    rw [hnil] at hhead
    obtain ⟨c, hc, -⟩ := hhead
    exact nomatch hc
  have hblank : ∀ c ∈ '-' :: d.positional.toList, ¬Text.isBlank c := by
    refine List.forall_mem_cons.2 ⟨by decide, fun c hc => ?_⟩
    rcases hchars c hc with hdigit | rfl
    · exact Text.not_isBlank_of_isDigit hdigit
    · decide
  constructor
  · have htrim : Text.trim d.positional.toList = d.positional.toList :=
      Text.trim_of_forall fun c hc => hblank c (List.mem_cons_of_mem _ hc)
    rw [Numeral.value_of_not_blank (by rwa [htrim]), htrim, hplus]
    rfl
  · have hminusList : ("-" ++ d.positional).toList = '-' :: d.positional.toList := by
      rw [String.toList_append]
      rfl
    have htrim : Text.trim ("-" ++ d.positional).toList = '-' :: d.positional.toList := by
      rw [hminusList, Text.trim_of_forall hblank]
    rw [Numeral.value_of_not_blank (by rw [htrim]; exact List.cons_ne_nil _ _), htrim, hminus]
    rfl

/-- Without the zeros at its end a decimal is the same number. -/
lemma value_strip (d : Decimal) : d.strip.value = d.value := by
  fun_induction strip d with
  | case1 d h ih =>
    have hdigits : (d.digits : ℚ) = (d.digits / 10 : ℕ) * 10 := by
      exact_mod_cast (Nat.div_mul_cancel (Nat.dvd_of_mod_eq_zero h.2)).symm
    rw [ih, value, value, hdigits, zpow_add_one₀ (by norm_num)]
    ring
  | case2 d h => rfl

/-- The largest doubles are below the bound from which decimals are read as infinite. -/
lemma largest_lt_overflow : 2 ^ 53 * 2 ^ 971 < 10 ^ 310 := by
  decide +kernel

/-- A decimal that is the number of a double is read as that double. -/
lemma toFloat_of_value_eq {m : ℕ} {e : ℤ} (h : Canonical m e) (hmax : e ≤ 971)
    (hd : d.value = m * 2 ^ e) : d.toFloat = double .positive m e := by
  have hm : (m : ℚ) ≤ 2 ^ 53 := by exact_mod_cast h.lt.le
  have hbound : (m * 2 ^ e : ℚ) < 10 ^ 310 :=
    calc (m * 2 ^ e : ℚ) ≤ 2 ^ 53 * 2 ^ (971 : ℤ) :=
          mul_le_mul hm (zpow_le_zpow_right₀ one_le_two hmax) (zpow_pos two_pos _).le
            (by positivity)
      _ < 10 ^ 310 := by exact_mod_cast largest_lt_overflow
  rw [toFloat_eq, hd, if_neg (not_le.2 hbound), nearestDouble_of_canonical h]

/-- A decimal without its sign, and a sign, read back as the double with that sign. -/
lemma value_sign_positional {m : ℕ} {e : ℤ} (h : Canonical m e) (hmax : e ≤ 971)
    (hd : d.toFloat = double .positive m e) (s : Sign) :
    Numeral.value ((if s == .negative then "-" else "") ++ d.positional) = double s m e := by
  obtain ⟨hplus, hminus⟩ := d.value_positional
  cases s with
  | positive =>
    rw [if_neg (by decide), String.empty_append, hplus, hd]
  | negative =>
    rw [if_pos (by decide), hminus, hd, neg_double h hmax]
    rfl

end Decimal

/-! ### The shortest digits -/

/-- Equal doubles are the same, unless they are zero. -/
lemma eq_of_beq_of_ne_zero {x y : Float} (h : x == y) (hy : ¬y == 0) : x = y := by
  obtain ⟨-, -, heq | ⟨-, rfl⟩ | ⟨-, rfl⟩⟩ := Float.beq_iff_ne_nan_and_eq.1 h
  · exact heq
  · exact absurd rfl hy
  · exact absurd rfl hy

lemma double_ne_zero {m : ℕ} {e : ℤ} (h : Canonical m e) (hmax : e ≤ 971) (hm : 0 < m) (s : Sign) :
    ¬double s m e == 0 := by
  have hvalue : signed s (m * 2 ^ e) ≠ 0 := by
    have hpos : (0 : ℚ) < m * 2 ^ e := by positivity
    cases s with
    | positive => exact hpos.ne'
    | negative => exact neg_ne_zero.2 hpos.ne'
  have hne : rational? (double s m e) ≠ some 0 := by
    rw [rational?_double h hmax]
    exact fun h => hvalue (Option.some.inj h)
  intro hbeq
  obtain ⟨-, -, heq | ⟨heq, -⟩ | ⟨heq, -⟩⟩ := Float.beq_iff_ne_nan_and_eq.1 hbeq
  · exact hne (heq ▸ rational?_zero)
  · exact hne (heq ▸ rational?_zero)
  · exact hne (heq ▸ rational?_neg_zero)

/-- Written out in full, a value is the same number. -/
lemma Exact.value_toDecimal (v : Exact) : v.toDecimal.value = v.magnitude := by
  unfold toDecimal
  split_ifs with he
  · rw [v.magnitude_of_nonneg he, Decimal.value, zpow_zero, mul_one, Nat.pow_eq]
  · obtain ⟨k, hk⟩ : ∃ k : ℕ, v.exponent = -(k : ℤ) := ⟨(-v.exponent).toNat, by omega⟩
    have hten : (5 : ℚ) ^ k * (10 ^ k)⁻¹ = (2 ^ k)⁻¹ := by
      rw [show (10 : ℚ) = 5 * 2 by norm_num, mul_pow]
      field_simp
    rw [Decimal.value, magnitude, hk, neg_neg, Int.toNat_natCast, zpow_neg, zpow_neg, zpow_natCast,
      zpow_natCast, Nat.pow_eq, Nat.cast_mul, mul_assoc, Nat.cast_pow, Nat.cast_ofNat, hten]

/-- The shortest digits of a double read back as that double. -/
theorem toFloat_shortest {m : ℕ} {e : ℤ} (h : Canonical m e) (hmax : e ≤ 971) (hm : 0 < m)
    (negative : Bool) :
    (shortest (double .positive m e) ⟨negative, m, e⟩).toFloat = double .positive m e := by
  unfold shortest
  rw [Decimal.toFloat_congr (Decimal.value_strip _)]
  cases hfound : (((List.range maxDigits).map fun n =>
      (⟨negative, m, e⟩ : Exact).leadingPlace - (n + 1 : Nat)).findSome? fun g =>
      ((⟨negative, m, e⟩ : Exact).neighbours g).find? fun d =>
        d.toFloat == double .positive m e) with
  | some d =>
    obtain ⟨g, -, hg⟩ := List.exists_of_findSome?_eq_some hfound
    have hbeq : d.toFloat == double .positive m e := by simpa using List.find?_some hg
    exact eq_of_beq_of_ne_zero hbeq (double_ne_zero h hmax hm _)
  | none => exact Decimal.toFloat_of_value_eq h hmax (Exact.value_toDecimal _)

/-! ### What is printed -/

lemma toString_natCast (n : ℕ) : toString (n : ℤ) = (⟨n, 0⟩ : Decimal).positional := by
  rw [Decimal.positional_of_nonneg le_rfl, Int.toNat_zero, List.replicate_zero, List.append_nil]
  exact Nat.repr_eq_ofList_toDigits

lemma toString_neg_natCast {n : ℕ} (hn : 0 < n) :
    toString (-(n : ℤ)) = "-" ++ (⟨n, 0⟩ : Decimal).positional := by
  obtain ⟨n, rfl⟩ := Nat.exists_eq_succ_of_ne_zero hn.ne'
  rw [← toString_natCast]
  rfl

/-- A whole number is printed as its sign and its digits. -/
lemma toString_trunc {v : Exact} (hn : 0 < v.floorAbs) :
    toString v.trunc =
      (if v.negative then "-" else "") ++ (⟨v.floorAbs, 0⟩ : Decimal).positional := by
  unfold Exact.trunc
  split_ifs
  · exact toString_neg_natCast hn
  · rw [toString_natCast, String.empty_append]

/-- The general way to print a double: its sign, and the shortest digits. -/
lemma exactText_double {m : ℕ} {e : ℤ} (h : Canonical m e) (hm : 0 < m) (s : Sign) :
    (⟨s == .negative, m, e⟩ : Exact).text = (if s == .negative then "-" else "") ++
      (shortest (double .positive m e) ⟨s == .negative, m, e⟩).positional := by
  have habs : ofExact ⟨false, m, e⟩ = double .positive m e := by
    rw [ofExact_eq_nearestDouble]
    exact nearestDouble_of_canonical h .positive
  rw [← habs]
  exact if_neg hm.ne'

/-- The text of a double that is not zero is a sign and a decimal that reads back. -/
lemma exists_text_double {m : ℕ} {e : ℤ} (h : Canonical m e) (hmax : e ≤ 971) (hm : 0 < m)
    (s : Sign) : ∃ d : Decimal, d.toFloat = double .positive m e ∧
      text (double s m e) = (if s == .negative then "-" else "") ++ d.positional := by
  unfold text
  rw [finite?_double h hmax hm]
  dsimp only
  by_cases hwhole :
      ((⟨s == .negative, m, e⟩ : Exact).isWhole &&
        (⟨s == .negative, m, e⟩ : Exact).floorAbs < integerBound) = true
  · rw [if_pos hwhole]
    rw [Bool.and_eq_true, Exact.isWhole_iff] at hwhole
    have hpos : 0 < (⟨s == .negative, m, e⟩ : Exact).floorAbs := by
      have hmagnitude : (0 : ℚ) < (⟨s == .negative, m, e⟩ : Exact).magnitude := by
        change (0 : ℚ) < m * 2 ^ e
        positivity
      rw [hwhole.1] at hmagnitude
      exact_mod_cast hmagnitude
    refine ⟨⟨_, 0⟩, Decimal.toFloat_of_value_eq h hmax ?_, toString_trunc hpos⟩
    rw [Decimal.value, zpow_zero, mul_one, ← hwhole.1]
    rfl
  · rw [if_neg hwhole]
    exact ⟨_, toFloat_shortest h hmax hm _, exactText_double h hm s⟩

/-- What is printed is read as the same number; a zero loses its sign. -/
theorem value_text (x : Float) :
    Numeral.value (text x) = if x.isNaN then nan else if x == 0 then 0 else x := by
  rcases eq_double x with rfl | rfl | rfl | ⟨s, m, e, rfl, h, hmax⟩
  · rfl
  · rfl
  · rfl
  · rw [isNaN_double h, if_neg Bool.false_ne_true]
    rcases m.eq_zero_or_pos with rfl | hm
    · have he : e = -1074 := h.full.resolve_left (by decide)
      rw [he]
      cases s <;> decide +kernel
    · obtain ⟨d, hd, htext⟩ := exists_text_double h hmax hm s
      rw [if_neg (double_ne_zero h hmax hm s), htext, Decimal.value_sign_positional h hmax hd]

/-! ### Whole numbers -/

lemma Decimal.digitCount_pos (n : ℕ) : 0 < digitCount n := by
  unfold digitCount
  split_ifs <;> omega

lemma Decimal.pow_le_of_lt_digitCount {n k : ℕ} (hn : 0 < n) (hk : k < digitCount n) :
    10 ^ k ≤ n := by
  fun_induction digitCount n generalizing k with
  | case1 n h =>
    obtain rfl : k = 0 := by omega
    exact hn
  | case2 n h ih =>
    cases k with
    | zero => exact hn
    | succ k =>
      have := ih (k := k) (by omega) (by omega)
      rw [pow_succ]; omega

lemma Decimal.exponent_le_strip (d : Decimal) : d.exponent ≤ d.strip.exponent := by
  fun_induction strip d with
  | case1 d h ih =>
    dsimp only at ih
    omega
  | case2 d h => rfl

lemma toDigits_mul_pow {n : ℕ} (hn : 0 < n) (k : ℕ) :
    Nat.toDigits 10 (n * 10 ^ k) = Nat.toDigits 10 n ++ List.replicate k '0' := by
  induction k with
  | zero => simp
  | succ k ih =>
    have hpos : 0 < n * 10 ^ k := by positivity
    have hzero : Nat.toDigits 10 0 = ['0'] := by decide
    rw [List.replicate_succ', ← List.append_assoc, ← ih, ← hzero,
      Nat.toDigits_append_toDigits (by decide) hpos (by decide), add_zero, pow_succ']
    congr 1
    exact mul_left_comm _ _ _

/-- A decimal without places behind the point is written like the whole number that it is. -/
lemma Decimal.positional_eq {d : Decimal} {n : ℕ} (hn : 0 < n) (he : 0 ≤ d.exponent)
    (hd : d.value = n) : d.positional = (⟨n, 0⟩ : Decimal).positional := by
  obtain ⟨k, hk⟩ := Int.eq_ofNat_of_zero_le he
  have hdigits : n = d.digits * 10 ^ k := by
    rw [value, hk, zpow_natCast] at hd
    exact_mod_cast hd.symm
  have hpos : 0 < d.digits := Nat.pos_of_mul_pos_right (hdigits ▸ hn)
  rw [positional_of_nonneg he, positional_of_nonneg le_rfl, hk, Int.toNat_natCast, hdigits,
    toDigits_mul_pow hpos]
  simp

/-- A whole number with few enough digits is read exactly. -/
lemma Decimal.rational?_toFloat {d : Decimal} {n : ℕ} (hd : d.value = n) (hn : n < 2 ^ 53) :
    rational? d.toFloat = some (n : ℚ) := by
  have hbound : (n : ℚ) < 10 ^ 310 :=
    calc (n : ℚ) < 2 ^ 53 := by exact_mod_cast hn
      _ ≤ 10 ^ 53 := by gcongr; norm_num
      _ ≤ 10 ^ 310 := pow_le_pow_right₀ (by norm_num) (by norm_num)
  have hread := rational?_nearestDouble (e := 0) hn (by decide) (by decide) .positive
  rw [zpow_zero, mul_one] at hread
  rw [toFloat_eq, hd, if_neg (not_le.2 hbound), hread]
  rfl

/-- A whole number as a quotient. -/
lemma Exact.exists_ratio_eq {v : Exact} {n : ℕ} (hv : v.magnitude = n) :
    ∃ b, 0 < b ∧ v.ratio = (n * b, b) := by
  refine ⟨2 ^ (-v.exponent).toNat, by positivity, Prod.ext ?_ rfl⟩
  rcases le_or_gt 0 v.exponent with he | he
  · have hn : n = v.significand * 2 ^ v.exponent.toNat := by
      exact_mod_cast hv.symm.trans (v.magnitude_of_nonneg he)
    rw [show (-v.exponent).toNat = 0 by omega, pow_zero, mul_one, hn]
    rfl
  · have hn : v.significand = n * 2 ^ (-v.exponent).toNat := by
      rw [v.magnitude_of_neg he, div_eq_iff (by positivity)] at hv
      exact_mod_cast hv
    rw [← hn]
    change v.significand * 2 ^ v.exponent.toNat = _
    rw [show v.exponent.toNat = 0 by omega, pow_zero, mul_one]

lemma Exact.leadingPlace_eq {v : Exact} {n : ℕ} (hv : v.magnitude = n) (hn : 0 < n) :
    v.leadingPlace = Decimal.digitCount n := by
  obtain ⟨b, hb, hratio⟩ := exists_ratio_eq hv
  unfold leadingPlace
  rw [hratio]
  simp only [if_pos (Nat.le_mul_of_pos_left b hn), Nat.mul_div_cancel _ hb]

/-- The neighbours of a whole number on a grid of whole numbers. -/
lemma Exact.neighbours_of_whole {v : Exact} {n : ℕ} (hv : v.magnitude = n) (k : ℕ) :
    v.neighbours k =
      if 2 * (n % 10 ^ k) < 10 ^ k then [⟨n / 10 ^ k, k⟩, ⟨n / 10 ^ k + 1, k⟩]
      else [⟨n / 10 ^ k + 1, k⟩, ⟨n / 10 ^ k, k⟩] := by
  obtain ⟨b, hb, hratio⟩ := exists_ratio_eq hv
  have hdiv : n * b * 1 / (b * 10 ^ k) = n / 10 ^ k := by
    rw [mul_one, mul_comm b, Nat.mul_div_mul_right _ _ hb]
  have hmod : n * b * 1 % (b * 10 ^ k) = b * (n % 10 ^ k) := by
    rw [mul_one, mul_comm n, Nat.mul_mod_mul_left]
  have hlt : 2 * (b * (n % 10 ^ k)) < b * 10 ^ k ↔ 2 * (n % 10 ^ k) < 10 ^ k := by
    rw [mul_left_comm, Nat.mul_lt_mul_left hb]
  unfold neighbours
  rw [hratio]
  simp only [Nat.pow_eq, Int.toNat_natCast, show (-(k : ℤ)).toNat = 0 by omega, pow_zero, hdiv,
    hmod, hlt]

/-- A search through a range ends at a place where something is found, or before. -/
lemma exists_findSome?_range {α : Type} {f : ℕ → Option α} {i n : ℕ} (hi : i < n)
    (h : (f i).isSome) : ∃ j ≤ i, ∃ a, f j = some a ∧ (List.range n).findSome? f = some a := by
  have hfirst : ((List.range (i + 1)).findSome? f).isSome :=
    List.findSome?_isSome_iff.2 ⟨i, List.mem_range.2 (by omega), h⟩
  obtain ⟨a, ha⟩ := Option.isSome_iff_exists.1 hfirst
  obtain ⟨j, hj, hfound⟩ := List.exists_of_findSome?_eq_some ha
  have hrange : List.range n =
      List.range (i + 1) ++ (List.range (n - (i + 1))).map (i + 1 + ·) := by
    rw [← List.range_add]
    congr 1
    omega
  refine ⟨j, by have := List.mem_range.1 hj; omega, a, hfound, ?_⟩
  rw [hrange, List.findSome?_append, ha]
  rfl

/-- If a neighbour at a place reads back, the search for the shortest digits is over there or
before. -/
lemma exists_shortest {x : Float} {v : Exact} {i : ℕ} {d : Decimal} (hi : i < maxDigits)
    (hd : d ∈ v.neighbours (v.leadingPlace - (i + 1 : ℕ))) (hread : d.toFloat == x) :
    ∃ j ≤ i, ∃ d' ∈ v.neighbours (v.leadingPlace - (j + 1 : ℕ)),
      d'.toFloat == x ∧ shortest x v = d'.strip := by
  obtain ⟨f, hf⟩ : ∃ f : ℕ → Option Decimal, f = fun i =>
      (v.neighbours (v.leadingPlace - (i + 1 : ℕ))).find? fun d => d.toFloat == x := ⟨_, rfl⟩
  have hsome : (f i).isSome := by
    rw [hf]
    exact List.find?_isSome.2 ⟨d, hd, hread⟩
  obtain ⟨j, hj, d', hfound, hsearch⟩ := exists_findSome?_range hi hsome
  rw [hf] at hfound hsearch
  refine ⟨j, hj, d', List.mem_of_find?_eq_some hfound, by simpa using List.find?_some hfound, ?_⟩
  unfold shortest
  simp only [List.findSome?_map]
  exact congrArg (fun found => (found.getD v.toDecimal).strip) hsearch

/-- A neighbour that reads back as the whole number is that number. -/
lemma value_of_mem_neighbours {v : Exact} {n k : ℕ} {d : Decimal} {x : Float}
    (hv : v.magnitude = n) (hx : rational? x = some (n : ℚ)) (hn : 10 ^ k ≤ n)
    (hlt : 2 * n < 2 ^ 53) (hd : d ∈ v.neighbours k) (hread : d.toFloat = x) :
    d.exponent = k ∧ d.value = n := by
  have hform : d.exponent = k ∧ d.digits ≤ n / 10 ^ k + 1 := by
    rw [Exact.neighbours_of_whole hv] at hd
    split_ifs at hd <;> simp only [List.mem_cons, List.not_mem_nil, or_false] at hd <;>
      rcases hd with rfl | rfl <;> simp
  obtain ⟨hexponent, hdigits⟩ := hform
  have hvalue : d.value = (d.digits * 10 ^ k : ℕ) := by
    rw [Decimal.value, hexponent, zpow_natCast]
    push_cast
    rfl
  have hbound : d.digits * 10 ^ k < 2 ^ 53 :=
    calc d.digits * 10 ^ k ≤ (n / 10 ^ k + 1) * 10 ^ k := Nat.mul_le_mul_right _ hdigits
      _ = n / 10 ^ k * 10 ^ k + 10 ^ k := by ring
      _ ≤ n + n := Nat.add_le_add (Nat.div_mul_le_self _ _) hn
      _ < 2 ^ 53 := by omega
  have hsame := Decimal.rational?_toFloat hvalue hbound
  rw [hread, hx] at hsame
  exact ⟨hexponent, hvalue.trans (Option.some.inj hsame).symm⟩

/-- The shortest digits of a whole number that is not too large are its digits, without the zeros at
the end. -/
lemma positional_shortest {m n : ℕ} {e : ℤ} (h : Canonical m e) (hmax : e ≤ 971) (hn : 0 < n)
    (hlt : n < integerBound) (hvalue : (m * 2 ^ e : ℚ) = n) (negative : Bool) :
    (shortest (double .positive m e) ⟨negative, m, e⟩).positional =
      (⟨n, 0⟩ : Decimal).positional := by
  obtain ⟨v, hv⟩ : ∃ v : Exact, v = ⟨negative, m, e⟩ := ⟨_, rfl⟩
  obtain ⟨x, hx⟩ : ∃ x, x = double .positive m e := ⟨_, rfl⟩
  have hmagnitude : v.magnitude = n := hv ▸ hvalue
  have hrational : rational? x = some (n : ℚ) := by
    rw [hx, rational?_double h hmax, hvalue]
    rfl
  have hpos : 0 < m := by
    refine Nat.pos_of_ne_zero ?_
    rintro rfl
    rw [Nat.cast_zero, zero_mul] at hvalue
    exact hn.ne (by exact_mod_cast hvalue)
  have hplace := Exact.leadingPlace_eq hmagnitude hn
  have hcountPos := Decimal.digitCount_pos n
  have hcount : Decimal.digitCount n ≤ 15 := by
    by_contra hcount
    exact absurd (Decimal.pow_le_of_lt_digitCount hn (not_le.1 hcount)) (not_le.2 hlt)
  -- On the grid of the ones the number itself is a neighbour, so the search ends there or before.
  have hgrid : v.leadingPlace - (Decimal.digitCount n - 1 + 1 : ℕ) = (0 : ℕ) := by omega
  have hneighbour : (⟨n, (0 : ℕ)⟩ : Decimal) ∈
      v.neighbours (v.leadingPlace - (Decimal.digitCount n - 1 + 1 : ℕ)) := by
    rw [hgrid, Exact.neighbours_of_whole hmagnitude]
    simp [Nat.mod_one]
  have hself : (⟨n, (0 : ℕ)⟩ : Decimal).toFloat == x := by
    have hsame : (⟨n, (0 : ℕ)⟩ : Decimal).toFloat = x := by
      rw [hx]
      refine Decimal.toFloat_of_value_eq h hmax ?_
      rw [hvalue, Decimal.value, Nat.cast_zero, zpow_zero, mul_one]
    rw [hsame, Float.beq_self_iff]
    rintro rfl
    exact Option.some_ne_none _ (hrational.symm.trans rational?_nan)
  obtain ⟨j, hj, d, hd, hread, hshortest⟩ :=
    exists_shortest (by unfold maxDigits; omega) hneighbour hself
  -- There all neighbours are whole numbers below `2 ^ 53`, which are read exactly.
  obtain ⟨k, hk⟩ : ∃ k : ℕ, v.leadingPlace - (j + 1 : ℕ) = k :=
    Int.eq_ofNat_of_zero_le (by omega)
  rw [hk] at hd
  obtain ⟨hexponent, hdValue⟩ := value_of_mem_neighbours hmagnitude hrational
    (Decimal.pow_le_of_lt_digitCount hn (by omega)) (by unfold integerBound at hlt; omega) hd
    (eq_of_beq_of_ne_zero hread (hx ▸ double_ne_zero h hmax hpos _))
  rw [← hx, ← hv, hshortest]
  refine Decimal.positional_eq hn ?_ ((Decimal.value_strip d).trans hdValue)
  have := d.exponent_le_strip
  omega

/-- A number that is whole with its sign is so without. -/
lemma exists_natCast_of_signed_eq {s : Sign} {q : ℚ} {n : ℤ} (hq : 0 < q) (h : signed s q = n) :
    ∃ k : ℕ, q = k ∧ n = if s == .negative then -(k : ℤ) else k := by
  cases s with
  | positive =>
    have hsame : q = n := h
    have hpos : 0 < n := by exact_mod_cast hsame ▸ hq
    obtain ⟨k, rfl⟩ := Int.eq_ofNat_of_zero_le hpos.le
    exact ⟨k, h, rfl⟩
  | negative =>
    have hopposite : q = (-n : ℤ) := by rw [Int.cast_neg, ← h, signed, neg_neg]
    have hpos : 0 < -n := by exact_mod_cast hopposite ▸ hq
    obtain ⟨k, hk⟩ := Int.eq_ofNat_of_zero_le hpos.le
    rw [hk] at hopposite
    exact ⟨k, hopposite, neg_eq_iff_eq_neg.1 hk⟩

/-- Whole numbers below the bound have the text of an integer in both ways, except for the zero with
a minus. -/
theorem exactText_eq_toString {x : Float} {n : ℤ} (hx : rational? x = some (n : ℚ))
    (hn : n.natAbs < integerBound) (hzero : x ≠ -0) :
    ∃ v, finite? x = some v ∧ v.text = toString n := by
  obtain ⟨s, m, e, rfl, h, hmax, hvalue⟩ := exists_double_of_rational? hx
  rcases m.eq_zero_or_pos with rfl | hm
  · have he : e = -1074 := h.full.resolve_left (by decide)
    have hn : n = 0 := by
      have : (n : ℚ) = 0 := by rw [← hvalue]; cases s <;> simp [signed]
      exact_mod_cast this
    subst he hn
    cases s with
    | positive => exact ⟨⟨false, 0, 0⟩, rfl, rfl⟩
    | negative => exact absurd rfl hzero
  · have hmagnitude : (0 : ℚ) < m * 2 ^ e := by positivity
    obtain ⟨k, hk, hsign⟩ := exists_natCast_of_signed_eq hmagnitude hvalue
    have hpos : 0 < k := by exact_mod_cast hk ▸ hmagnitude
    refine ⟨_, finite?_double h hmax hm s, ?_⟩
    rw [exactText_double h hm, hsign]
    cases s with
    | positive =>
      rw [positional_shortest h hmax hpos (by simpa [hsign] using hn) hk]
      exact (toString_natCast k).symm ▸ String.empty_append
    | negative =>
      rw [positional_shortest h hmax hpos (by simpa [hsign] using hn) hk]
      exact (toString_neg_natCast hpos).symm

/-- A value that is a whole number is its own whole part. -/
lemma Exact.trunc_of_value_eq {v : Exact} {n : ℤ} (h : v.value = n) :
    v.isWhole ∧ v.floorAbs = n.natAbs ∧ v.trunc = n := by
  have hmagnitude : v.magnitude = n.natAbs := by
    rw [Nat.cast_natAbs, Int.cast_abs, ← h, value]
    split_ifs
    · rw [abs_neg, abs_of_nonneg v.magnitude_nonneg]
    · rw [abs_of_nonneg v.magnitude_nonneg]
  obtain ⟨hwhole, hfloor⟩ := magnitude_eq_natCast_iff.1 hmagnitude
  refine ⟨hwhole, hfloor, ?_⟩
  rw [trunc, hfloor]
  cases hsign : v.negative with
  | false =>
    rw [value_of_not_negative hsign, hmagnitude] at h
    rw [if_neg Bool.false_ne_true]
    exact Int.cast_injective (α := ℚ) (by rwa [Int.cast_natCast])
  | true =>
    rw [value_of_negative hsign, hmagnitude] at h
    rw [if_pos rfl]
    exact Int.cast_injective (α := ℚ) (by rwa [Int.cast_neg, Int.cast_natCast])

/-- Whole numbers below the bound are printed as integers. -/
theorem text_eq_toString {x : Float} {n : ℤ} (hx : rational? x = some (n : ℚ))
    (hn : n.natAbs < integerBound) : text x = toString n := by
  obtain ⟨v, hv, hvalue⟩ := Option.map_eq_some_iff.1 hx
  obtain ⟨hwhole, hfloor, htrunc⟩ := Exact.trunc_of_value_eq hvalue
  unfold text
  rw [hv]
  dsimp only
  rw [if_pos (by rw [hwhole, hfloor, Bool.true_and, decide_eq_true hn]), htrunc]

end Number

/-! ### Numbers in scripts -/

lemma Memory.display?_number (m : Memory) (x : Float) :
    m.display? (.number x) = some (Number.text x) := by
  rw [display?_eq]
  rfl

lemma Memory.display?_string (m : Memory) (s : String) : m.display? (.string s) = some s := by
  rw [display?_eq]
  rfl

namespace Value

open Number Process

/-- A number equals its text, unless it is not a number. -/
lemma looselyEquals_text {x : Float} (hx : x.isNaN = false) :
    looselyEquals (number x) (string (Number.text x)) := by
  change (x == Numeral.value (Number.text x)) = true
  rw [value_text, hx, if_neg Bool.false_ne_true]
  have hself : x == x := by
    rw [Float.beq_self_iff]
    rintro rfl
    exact nomatch hx
  split_ifs with hzero
  · exact hzero
  · exact hself

lemma isNaN_value_text (x : Float) : (Numeral.value (Number.text x)).isNaN = x.isNaN := by
  rw [value_text]
  split_ifs with hnan hzero
  · rw [hnan]
    rfl
  · rw [Bool.eq_false_iff.2 hnan]
    rfl
  · rfl

/-- The text of a number reads back as an equal number; only the sign of a zero is lost.  So a
script finds that a number equals its text, and numbers with the same text are equal.  Whole numbers
below `10 ^ 15` are printed as integers, and the general way to print them gives the same text. -/
theorem number_text_reads_back (x : Float) (m : Memory) :
    ∃ t, m.display? (number x) = some t ∧
      (string t).toNumber = (if x.isNaN then nan else if x == 0 then 0 else x) ∧
      (x.isNaN = false → x == (string t).toNumber) ∧
      (∀ y, m.display? (number y) = some t → x == y ∨ x.isNaN ∧ y.isNaN) ∧
      (∀ n : ℤ, rational? x = some (n : ℚ) → n.natAbs < 10 ^ 15 →
        t = toString n ∧ (x ≠ -0 → ∃ v, finite? x = some v ∧ v.text = t)) ∧
      ∀ scope e w w₁ w₂ l l' l'', x.isNaN = false →
        (Process.evaluate scope e).Gives w (.done (number x) w₁) →
        (Process.evaluate scope e).Gives w₁ (.done (number x) w₂) →
        (Process.evaluate scope (.mk (.binary .eq e
          (.mk (.binary .add (.mk (.literal (string "")) l) e) l')) l'')).Gives w
            (.done (bool true) w₂) := by
  refine ⟨Number.text x, m.display?_number x, value_text x, looselyEquals_text, ?_, ?_, ?_⟩
  · intro y hy
    rw [m.display?_number, Option.some.injEq] at hy
    cases hx : x.isNaN with
    | true =>
      right
      rw [← isNaN_value_text, hy, isNaN_value_text, hx]
      exact ⟨rfl, rfl⟩
    | false =>
      left
      have hyNumber : y.isNaN = false := by rw [← isNaN_value_text, hy, isNaN_value_text, hx]
      have hyEqual := looselyEquals_text hyNumber
      rw [hy] at hyEqual
      exact BEq.trans (looselyEquals_text hx) (BEq.symm hyEqual)
  · exact fun n hx hn => ⟨text_eq_toString hx hn, fun hzero => by
      rw [text_eq_toString hx hn]; exact exactText_eq_toString hx hn hzero⟩
  · intro scope e w w₁ w₂ l l' l'' hx hfirst hsecond
    have hadd : BinaryOp.add.compute? w₂.memory (string "") (number x) =
        some (string (Number.text x)) := by
      change w₂.memory.add? (string "") (number x) = _
      simp [Memory.add?, Memory.display?_number, Memory.display?_string]
    refine gives_binary hfirst (gives_binary (gives_literal _ l) hsecond hadd l') ?_ l''
    exact congrArg (fun t => some (bool t)) (looselyEquals_text hx)

theorem number_text_reads_back_three :
    ∃ t, Memory.empty.display? (number 3) = some t ∧ 3 == (string t).toNumber ∧
      ((3 : Float) == 3 ∨ (3 : Float).isNaN ∧ (3 : Float).isNaN) ∧ t = toString 3 ∧
      (∃ v, finite? 3 = some v ∧ v.text = t) ∧
      (Process.evaluate (.top ⟨0⟩) (.unlocated (.binary .eq (.unlocated (.literal (number 3)))
        (.unlocated (.binary .add (.unlocated (.literal (string "")))
          (.unlocated (.literal (number 3)))))))).Gives World.empty
            (.done (bool true) World.empty) := by
  obtain ⟨t, ht, -, hequal, hsame, hwhole, hscript⟩ := number_text_reads_back 3 Memory.empty
  have hnumber : (3 : Float).isNaN = false := rfl
  have hthree : rational? 3 = some ((3 : ℤ) : ℚ) :=
    toNat?_eq_some_iff.1 rfl
  obtain ⟨hinteger, hgeneral⟩ := hwhole 3 hthree (by decide)
  refine ⟨t, ht, hequal hnumber, hsame 3 ht, hinteger, hgeneral nofun, ?_⟩
  exact hscript _ _ _ _ _ _ _ _ hnumber (gives_literal _ _) (gives_literal _ _)

end Value

end ScriptEngine
