import ScriptEngine.Proofs.Decimals
import ScriptEngine.Value.Conversion

/-!
# The grammar of numerals

The texts that count as numbers, as regular expressions (`Grammar.numeral`,
`Grammar.infinityWord`), and the reader that finds them (`isSome_signed?_iff`).  Blanks around a
text do not count (`Text.isTrimmed_iff`), and a text of blanks alone is zero.

Main statement: `Value.toNumber_string`.
-/

namespace ScriptEngine

/-! ### Blanks around a text -/

namespace Text

/-- A text without the blanks around it. -/
structure IsTrimmed (cs t : List Char) : Prop where
  around : ∃ p q, cs = p ++ t ++ q ∧ (∀ c ∈ p, isBlank c) ∧ ∀ c ∈ q, isBlank c
  head : ∀ c ∈ t.head?, ¬isBlank c
  last : ∀ c ∈ t.getLast?, ¬isBlank c

variable {cs p q t : List Char}

lemma trimStart_append (hp : ∀ c ∈ p, isBlank c) : trimStart (p ++ t) = trimStart t :=
  List.dropWhile_append_of_pos hp

lemma trimEnd_append (hq : ∀ c ∈ q, isBlank c) : trimEnd (t ++ q) = trimEnd t := by
  rw [trimEnd, List.reverse_append,
    List.dropWhile_append_of_pos fun c hc => hq c (List.mem_reverse.1 hc), trimEnd]

lemma trimStart_of_head (h : ∀ c ∈ t.head?, ¬isBlank c) : trimStart t = t := by
  cases t with
  | nil => rfl
  | cons c cs => exact List.dropWhile_cons_of_neg (h c rfl)

lemma trimEnd_of_last (h : ∀ c ∈ t.getLast?, ¬isBlank c) : trimEnd t = t := by
  rw [← List.head?_reverse] at h
  exact (congrArg List.reverse (trimStart_of_head h)).trans t.reverse_reverse

lemma trim_of_ends (hhead : ∀ c ∈ t.head?, ¬isBlank c) (hlast : ∀ c ∈ t.getLast?, ¬isBlank c) :
    trim t = t := by
  rw [trim, trimStart_of_head hhead, trimEnd_of_last hlast]

lemma not_isBlank_head_trimStart (cs : List Char) : ∀ c ∈ (trimStart cs).head?, ¬isBlank c := by
  intro c hc
  have hhead := List.head?_dropWhile_not isBlank cs
  rw [trimStart, Option.mem_def] at hc
  rw [hc] at hhead
  exact Bool.eq_false_iff.1 hhead

lemma not_isBlank_last_trimEnd (cs : List Char) : ∀ c ∈ (trimEnd cs).getLast?, ¬isBlank c := by
  rw [trimEnd, List.getLast?_reverse]
  exact not_isBlank_head_trimStart cs.reverse

lemma exists_trimStart (cs : List Char) : ∃ p, cs = p ++ trimStart cs ∧ ∀ c ∈ p, isBlank c :=
  ⟨cs.takeWhile isBlank, List.takeWhile_append_dropWhile.symm, fun _ => List.mem_takeWhile_imp⟩

lemma exists_trimEnd (cs : List Char) : ∃ q, cs = trimEnd cs ++ q ∧ ∀ c ∈ q, isBlank c := by
  obtain ⟨q, hq, hblank⟩ := exists_trimStart cs.reverse
  refine ⟨q.reverse, ?_, fun c hc => hblank c (List.mem_reverse.1 hc)⟩
  rw [trimEnd, ← trimStart, ← List.reverse_append, ← hq, List.reverse_reverse]

/-- Trimming finds the one text that is left. -/
theorem isTrimmed_iff : IsTrimmed cs t ↔ t = trim cs := by
  constructor
  · rintro ⟨⟨p, q, rfl, hp, hq⟩, hhead, hlast⟩
    rw [List.append_assoc, trim, trimStart_append hp]
    cases t with
    | nil =>
      have hnil : trimStart q = [] := List.dropWhile_eq_nil_iff.2 hq
      rw [List.nil_append, hnil]
      rfl
    | cons c cs =>
      have hhead' : ∀ d ∈ (c :: cs ++ q).head?, ¬isBlank d := hhead
      rw [trimStart_of_head hhead', trimEnd_append hq, trimEnd_of_last hlast]
  · rintro rfl
    obtain ⟨p, hp, hblank⟩ := exists_trimStart cs
    obtain ⟨q, hq, hblank'⟩ := exists_trimEnd (trimStart cs)
    refine ⟨⟨p, q, ?_, hblank, hblank'⟩, fun c hc => ?_, not_isBlank_last_trimEnd _⟩
    · rw [List.append_assoc, trim, ← hq, ← hp]
    · refine not_isBlank_head_trimStart cs c ?_
      rw [hq]
      exact List.mem_head?_append_of_mem_head? hc

end Text

/-! ### The grammar -/

namespace Number.Numeral.Grammar

open RegularExpression

/-- One of the characters of a text. -/
def oneOf (s : String) : RegularExpression Char :=
  (s.toList.map char).sum

/-- The characters of a text, one after the other. -/
def word (s : String) : RegularExpression Char :=
  (s.toList.map char).prod

/-- Nothing, or what `r` matches. -/
def optional (r : RegularExpression Char) : RegularExpression Char :=
  1 + r

/-- What `r` matches, once or more. -/
def oneOrMore (r : RegularExpression Char) : RegularExpression Char :=
  r * r.star

/-- A sign. -/
def sign : RegularExpression Char :=
  oneOf "+-"

/-- An ASCII digit. -/
def digit : RegularExpression Char :=
  oneOf "0123456789"

/-- The digits of a numeral, of which at least one is there, with or without a point. -/
def mantissa : RegularExpression Char :=
  oneOrMore digit + oneOrMore digit * char '.' * digit.star +
    digit.star * char '.' * oneOrMore digit

/-- The exponent of a numeral. -/
def exponent : RegularExpression Char :=
  oneOf "eE" * (optional sign * oneOrMore digit)

/-- A numeral without a sign. -/
def unsigned : RegularExpression Char :=
  mantissa * optional exponent

/-- A decimal numeral. -/
def numeral : RegularExpression Char :=
  optional sign * unsigned

/-- An infinity, spelled out. -/
def infinityWord : RegularExpression Char :=
  optional sign * word "Infinity"

variable {t : List Char} {r : RegularExpression Char} {s : String}

lemma mem_sum_map_char (cs : List Char) : t ∈ (cs.map char).sum.matches' ↔ ∃ c ∈ cs, t = [c] := by
  induction cs with
  | nil => simp [Language.notMem_zero]
  | cons c cs ih =>
    rw [List.map_cons, List.sum_cons, matches'_add, Language.mem_add, ih, List.exists_mem_cons_iff]
    rfl

lemma mem_oneOf : t ∈ (oneOf s).matches' ↔ ∃ c ∈ s.toList, t = [c] :=
  mem_sum_map_char _

lemma mem_optional : t ∈ (optional r).matches' ↔ t = [] ∨ t ∈ r.matches' :=
  Iff.rfl

lemma mem_star_oneOf : t ∈ (oneOf s).star.matches' ↔ ∀ c ∈ t, c ∈ s.toList := by
  rw [matches'_star, Language.mem_kstar]
  constructor
  · rintro ⟨ts, rfl, hts⟩ c hc
    obtain ⟨u, hu, hc⟩ := List.mem_flatten.1 hc
    obtain ⟨d, hd, rfl⟩ := mem_oneOf.1 (hts u hu)
    rwa [List.mem_singleton.1 hc]
  · intro h
    refine ⟨t.map fun c => [c], ?_, ?_⟩
    · rw [← List.flatMap_def, List.flatMap_singleton']
    · intro u hu
      obtain ⟨c, hc, rfl⟩ := List.mem_map.1 hu
      exact mem_oneOf.2 ⟨c, h c hc, rfl⟩

lemma mem_oneOrMore_oneOf :
    t ∈ (oneOrMore (oneOf s)).matches' ↔ t ≠ [] ∧ ∀ c ∈ t, c ∈ s.toList := by
  rw [oneOrMore, matches'_mul, Language.mem_mul]
  constructor
  · rintro ⟨u, hu, v, hv, rfl⟩
    obtain ⟨c, hc, rfl⟩ := mem_oneOf.1 hu
    refine ⟨List.cons_ne_nil _ _, ?_⟩
    exact List.forall_mem_cons.2 ⟨hc, mem_star_oneOf.1 hv⟩
  · rintro ⟨hne, h⟩
    obtain ⟨c, cs, rfl⟩ := List.exists_cons_of_ne_nil hne
    obtain ⟨hc, hcs⟩ := List.forall_mem_cons.1 h
    exact ⟨[c], mem_oneOf.2 ⟨c, hc, rfl⟩, cs, mem_star_oneOf.2 hcs, rfl⟩

lemma mem_prod_map_char (cs : List Char) : t ∈ (cs.map char).prod.matches' ↔ t = cs := by
  induction cs generalizing t with
  | nil => rfl
  | cons c cs ih =>
    rw [List.map_cons, List.prod_cons, matches'_mul, Language.mem_mul]
    constructor
    · rintro ⟨u, rfl, v, hv, rfl⟩
      rw [ih.1 hv]
      rfl
    · rintro rfl
      exact ⟨[c], rfl, cs, ih.2 rfl, rfl⟩

lemma mem_word : t ∈ (word s).matches' ↔ t = s.toList :=
  mem_prod_map_char _

lemma mem_digits_iff {c : Char} : c ∈ "0123456789".toList ↔ c.isDigit := by
  constructor
  · intro h
    have hall : "0123456789".toList.all Char.isDigit := by decide
    exact List.all_eq_true.1 hall c h
  · intro h
    have hrange := Char.isDigit_iff_toNat.1 h
    have hall : ∀ k, 48 ≤ k → k ≤ 57 → Char.ofNat k ∈ "0123456789".toList := by decide
    rw [← Char.ofNat_toNat c]
    exact hall _ hrange.1 hrange.2

lemma mem_star_digit : t ∈ digit.star.matches' ↔ ∀ c ∈ t, c.isDigit := by
  rw [digit, mem_star_oneOf]
  exact forall₂_congr fun _ _ => mem_digits_iff

lemma mem_oneOrMore_digit : t ∈ (oneOrMore digit).matches' ↔ t ≠ [] ∧ ∀ c ∈ t, c.isDigit := by
  rw [digit, mem_oneOrMore_oneOf]
  exact and_congr_right' (forall₂_congr fun _ _ => mem_digits_iff)

lemma mem_sign : t ∈ sign.matches' ↔ t = ['+'] ∨ t = ['-'] := by
  simp [sign, mem_oneOf]

lemma mem_mul {r r' : RegularExpression Char} :
    t ∈ (r * r').matches' ↔ ∃ u ∈ r.matches', ∃ v ∈ r'.matches', u ++ v = t := by
  rw [matches'_mul, Language.mem_mul]

/-- The digits of a numeral, before and behind the point. -/
lemma mem_mantissa :
    t ∈ mantissa.matches' ↔ ∃ w f, (∀ c ∈ w, c.isDigit) ∧ (∀ c ∈ f, c.isDigit) ∧
      ((w ≠ [] ∧ t = w) ∨ ((w ≠ [] ∨ f ≠ []) ∧ t = w ++ '.' :: f)) := by
  simp only [mantissa, matches'_add, Language.mem_add, mem_mul, mem_oneOrMore_digit, mem_star_digit]
  constructor
  · rintro ((⟨hne, hw⟩ | ⟨_, ⟨w, ⟨hne, hw⟩, _, rfl, rfl⟩, f, hf, rfl⟩) |
      ⟨_, ⟨w, hw, _, rfl, rfl⟩, f, ⟨hne, hf⟩, rfl⟩)
    · exact ⟨t, [], hw, by simp, .inl ⟨hne, rfl⟩⟩
    · exact ⟨w, f, hw, hf, .inr ⟨.inl hne, by simp⟩⟩
    · exact ⟨w, f, hw, hf, .inr ⟨.inr hne, by simp⟩⟩
  · rintro ⟨w, f, hw, hf, ⟨hne, rfl⟩ | ⟨hne | hne, rfl⟩⟩
    · exact .inl (.inl ⟨hne, hw⟩)
    · exact .inl (.inr ⟨_, ⟨w, ⟨hne, hw⟩, ['.'], rfl, rfl⟩, f, hf, by simp⟩)
    · exact .inr ⟨_, ⟨w, hw, ['.'], rfl, rfl⟩, f, ⟨hne, hf⟩, by simp⟩

/-- An exponent begins with its letter. -/
lemma head_optional_exponent (h : t ∈ (optional exponent).matches') :
    ∀ c ∈ t.head?, c = 'e' ∨ c = 'E' := by
  rw [mem_optional, exponent, mem_mul] at h
  rcases h with rfl | ⟨u, hu, v, -, rfl⟩
  · exact fun c hc => nomatch hc
  · obtain ⟨d, hd, rfl⟩ := mem_oneOf.1 hu
    intro c hc
    obtain rfl : d = c := Option.some.inj hc
    simpa using hd

/-- A numeral without a sign begins with a digit or with a point. -/
lemma head_unsigned (h : t ∈ unsigned.matches') : ∃ c ∈ t.head?, c.isDigit ∨ c = '.' := by
  obtain ⟨u, hu, v, -, rfl⟩ := mem_mul.1 h
  obtain ⟨w, f, hw, -, ⟨hne, rfl⟩ | ⟨-, rfl⟩⟩ := mem_mantissa.1 hu
  · obtain ⟨c, cs, rfl⟩ := List.exists_cons_of_ne_nil hne
    exact ⟨c, rfl, .inl (hw c List.mem_cons_self)⟩
  · cases w with
    | nil => exact ⟨'.', rfl, .inr rfl⟩
    | cons c cs => exact ⟨c, rfl, .inl (hw c List.mem_cons_self)⟩

end Number.Numeral.Grammar

/-! ### The reader -/

namespace Number.Numeral

open RegularExpression Grammar

variable {cs w f x : List Char}

/-- A text that begins with a sign has it split off, and any other text stays as it is. -/
lemma splitSign_cases (cs : List Char) :
    (∃ rest, cs = '+' :: rest ∧ splitSign cs = (false, rest)) ∨
      (∃ rest, cs = '-' :: rest ∧ splitSign cs = (true, rest)) ∨
      (∀ rest, cs ≠ '+' :: rest) ∧ (∀ rest, cs ≠ '-' :: rest) ∧ splitSign cs = (false, cs) := by
  unfold splitSign
  split <;> simp_all

/-- What is left behind the sign tells which texts have an optional sign in front. -/
lemma mem_optional_sign_mul {r : RegularExpression Char}
    (hr : ∀ t ∈ r.matches', ∀ c ∈ t.head?, c ≠ '+' ∧ c ≠ '-') :
    cs ∈ (optional sign * r).matches' ↔ (splitSign cs).2 ∈ r.matches' := by
  rw [mem_mul]
  constructor
  · rintro ⟨u, hu, v, hv, rfl⟩
    rcases (mem_optional.1 hu).imp_right mem_sign.1 with rfl | rfl | rfl
    · rcases splitSign_cases v with ⟨rest, rfl, -⟩ | ⟨rest, rfl, -⟩ | ⟨-, -, hsplit⟩
      · exact absurd rfl (hr _ hv '+' rfl).1
      · exact absurd rfl (hr _ hv '-' rfl).2
      · rwa [List.nil_append, hsplit]
    · exact hv
    · exact hv
  · intro h
    rcases splitSign_cases cs with ⟨rest, rfl, hsplit⟩ | ⟨rest, rfl, hsplit⟩ | ⟨-, -, hsplit⟩ <;>
      rw [hsplit] at h
    · exact ⟨['+'], .inr (mem_sign.2 (.inl rfl)), rest, h, rfl⟩
    · exact ⟨['-'], .inr (mem_sign.2 (.inr rfl)), rest, h, rfl⟩
    · exact ⟨[], .inl rfl, cs, h, rfl⟩

lemma ne_sign_of_isDigit {c : Char} (h : c.isDigit) : c ≠ '+' ∧ c ≠ '-' :=
  ⟨by rintro rfl; exact absurd h (by decide), by rintro rfl; exact absurd h (by decide)⟩

lemma isSome_exponent?_iff : (exponent? cs).isSome ↔ cs ∈ (optional exponent).matches' := by
  cases cs with
  | nil => exact iff_of_true rfl (.inl rfl)
  | cons c cs =>
    have hdigits : ∀ t ∈ (oneOrMore digit).matches', ∀ c ∈ t.head?, c ≠ '+' ∧ c ≠ '-' :=
      fun t ht c hc =>
        ne_sign_of_isDigit ((mem_oneOrMore_digit.1 ht).2 c (List.mem_of_mem_head? hc))
    have hmem : c :: cs ∈ (optional exponent).matches' ↔
        (c = 'e' ∨ c = 'E') ∧ cs ∈ (optional sign * oneOrMore digit).matches' := by
      rw [mem_optional, exponent, mem_mul]
      constructor
      · rintro (h | ⟨u, hu, v, hv, huv⟩)
        · exact nomatch h
        · obtain ⟨d, hd, rfl⟩ := mem_oneOf.1 hu
          obtain ⟨rfl, rfl⟩ := List.cons.inj huv
          exact ⟨by simpa using hd, hv⟩
      · rintro ⟨hc, hcs⟩
        exact .inr ⟨[c], mem_oneOf.2 ⟨c, by simpa using hc, rfl⟩, cs, hcs, rfl⟩
    rw [hmem, mem_optional_sign_mul hdigits, mem_oneOrMore_digit, ← List.all_eq_true]
    rw [exponent?]
    split_ifs with hc <;> simp_all

/-- Digits are split off where they end. -/
lemma span_digits (hw : ∀ c ∈ w, c.isDigit) (hx : ∀ c ∈ x.head?, ¬c.isDigit) :
    (w ++ x).takeWhile Char.isDigit = w ∧ (w ++ x).dropWhile Char.isDigit = x := by
  rw [List.takeWhile_append_of_pos hw, List.dropWhile_append_of_pos hw]
  cases x with
  | nil => exact ⟨List.append_nil w, rfl⟩
  | cons c cs =>
    have hc := hx c rfl
    rw [List.takeWhile_cons_of_neg hc, List.dropWhile_cons_of_neg hc]
    exact ⟨List.append_nil w, rfl⟩

lemma not_isDigit_of_exponent (hx : x ∈ (optional exponent).matches') :
    ∀ c ∈ x.head?, ¬c.isDigit := by
  intro c hc
  rcases head_optional_exponent hx c hc with rfl | rfl <;> decide

/-- Digits without a point, with what is behind them. -/
lemma decimal?_digits (hw : ∀ c ∈ w, c.isDigit) (hne : w ≠ [])
    (hx : x ∈ (optional exponent).matches') :
    decimal? (w ++ x) = (exponent? x).map fun e => ⟨digitsValue w, e⟩ := by
  have hspan := span_digits hw (not_isDigit_of_exponent hx)
  have hfraction : splitFraction x = ([], x) := by
    unfold splitFraction
    split
    · exact absurd (head_optional_exponent hx '.' rfl) (by decide)
    · rfl
  unfold decimal?
  rw [hspan.1, hspan.2, hfraction]
  simp [hne]

/-- Digits with a point, with what is behind them. -/
lemma decimal?_point (hw : ∀ c ∈ w, c.isDigit) (hf : ∀ c ∈ f, c.isDigit) (hne : w ≠ [] ∨ f ≠ [])
    (hx : ∀ c ∈ x.head?, ¬c.isDigit) :
    decimal? (w ++ '.' :: (f ++ x)) =
      (exponent? x).map fun e => ⟨digitsValue (w ++ f), e - f.length⟩ := by
  have hpoint : ∀ c ∈ ('.' :: (f ++ x)).head?, ¬c.isDigit := by
    rintro c ⟨⟩
    decide
  have hspan := span_digits hw hpoint
  have hspan' := span_digits hf hx
  have hsome : ¬(w = [] ∧ f = []) := not_and_or.2 hne
  unfold decimal?
  rw [hspan.1, hspan.2, splitFraction, hspan'.1, hspan'.2]
  simp only [if_neg hsome, readDigits_eq]

/-- A point is split off together with the digits behind it. -/
lemma splitFraction_cases (x : List Char) :
    (∃ f y, x = '.' :: (f ++ y) ∧ (∀ c ∈ f, c.isDigit) ∧ splitFraction x = (f, y)) ∨
      splitFraction x = ([], x) := by
  unfold splitFraction
  split
  · next cs =>
      refine .inl ⟨cs.takeWhile Char.isDigit, cs.dropWhile Char.isDigit, ?_,
        fun c => List.mem_takeWhile_imp, rfl⟩
      rw [List.takeWhile_append_dropWhile]
  · exact .inr rfl

lemma isSome_decimal?_iff : (decimal? cs).isSome ↔ cs ∈ unsigned.matches' := by
  rw [unsigned, mem_mul]
  constructor
  · intro h
    have hw : ∀ c ∈ cs.takeWhile Char.isDigit, c.isDigit := fun _ => List.mem_takeWhile_imp
    have hcs := cs.takeWhile_append_dropWhile (p := Char.isDigit)
    unfold decimal? at h
    rcases splitFraction_cases (cs.dropWhile Char.isDigit) with ⟨f, x, hx, hf, hsplit⟩ | hsplit
    · rw [hx] at hcs
      simp only [hsplit] at h
      split_ifs at h with hnone
      · exact nomatch h
      · rw [Option.isSome_map] at h
        refine ⟨_, mem_mantissa.2 ⟨_, f, hw, hf, .inr ⟨not_and_or.1 hnone, rfl⟩⟩, x,
          isSome_exponent?_iff.1 h, ?_⟩
        rw [List.append_assoc, List.cons_append, hcs]
    · simp only [hsplit] at h
      split_ifs at h with hnone
      · exact nomatch h
      · rw [Option.isSome_map] at h
        have hne : cs.takeWhile Char.isDigit ≠ [] := fun hnil => hnone ⟨hnil, trivial⟩
        exact ⟨_, mem_mantissa.2 ⟨_, [], hw, by simp, .inl ⟨hne, rfl⟩⟩, _,
          isSome_exponent?_iff.1 h, hcs⟩
  · rintro ⟨t, ht, x, hx, rfl⟩
    obtain ⟨w, f, hw, hf, ⟨hne, rfl⟩ | ⟨hne, rfl⟩⟩ := mem_mantissa.1 ht
    · rw [decimal?_digits hw hne hx, Option.isSome_map]
      exact isSome_exponent?_iff.2 hx
    · rw [List.append_assoc, List.cons_append,
        decimal?_point hw hf hne (not_isDigit_of_exponent hx), Option.isSome_map]
      exact isSome_exponent?_iff.2 hx

lemma mem_infinityWord : cs ∈ infinityWord.matches' ↔ (splitSign cs).2 = "Infinity".toList := by
  rw [infinityWord, mem_optional_sign_mul, mem_word]
  rintro t ht c hc
  rw [mem_word.1 ht] at hc
  obtain rfl : 'I' = c := Option.some.inj hc
  decide

lemma mem_numeral : cs ∈ numeral.matches' ↔ (splitSign cs).2 ∈ unsigned.matches' := by
  refine mem_optional_sign_mul fun t ht c hc => ?_
  obtain ⟨d, hd, hfirst⟩ := head_unsigned ht
  obtain rfl := Option.mem_unique hc hd
  rcases hfirst with hdigit | rfl
  · exact ne_sign_of_isDigit hdigit
  · decide

/-- The reader takes the texts of the grammar, and no other ones. -/
theorem isSome_signed?_iff :
    (signed? cs).isSome ↔ cs ∈ infinityWord.matches' ∨ cs ∈ numeral.matches' := by
  rw [mem_infinityWord, mem_numeral, ← isSome_decimal?_iff]
  unfold signed?
  simp only [Option.isSome_map]
  split_ifs with h
  · exact iff_of_true rfl (.inl h)
  · rw [Option.isSome_map, or_iff_right h]

/-- What the reader takes is a number. -/
lemma isNaN_of_signed? {y : Float} (h : signed? cs = some y) : y.isNaN = false := by
  obtain ⟨x, hx, rfl⟩ := Option.map_eq_some_iff.1 h
  have hnumber : x.isNaN = false := by
    split_ifs at hx
    · rw [← Option.some.inj hx, isNaN_infinity]
    · obtain ⟨d, -, rfl⟩ := Option.map_eq_some_iff.1 hx
      exact d.isNaN_toFloat
  split_ifs
  · rw [isNaN_neg, hnumber]
  · exact hnumber

variable {s : String}

lemma value_of_blank (h : Text.trim s.toList = []) : value s = 0 := by
  rw [value, h]

lemma value_of_not_blank (h : Text.trim s.toList ≠ []) :
    value s = (signed? (Text.trim s.toList)).getD nan := by
  unfold value
  split
  · contradiction
  · rfl

/-- What is read is a number exactly if the text is blank, spells an infinity, or is a numeral. -/
lemma isNaN_value_iff :
    (value s).isNaN = false ↔ Text.trim s.toList = [] ∨
      Text.trim s.toList ∈ infinityWord.matches' ∨ Text.trim s.toList ∈ numeral.matches' := by
  by_cases h : Text.trim s.toList = []
  · rw [value_of_blank h]
    exact iff_of_true rfl (.inl h)
  · rw [value_of_not_blank h, or_iff_right h, ← isSome_signed?_iff]
    cases hread : signed? (Text.trim s.toList) with
    | none => exact iff_of_false nofun Bool.false_ne_true
    | some y => exact iff_of_true (isNaN_of_signed? hread) rfl

/-! ### What a numeral looks like -/

/-- The characters that occur in numerals. -/
def marks : RegularExpression Char :=
  oneOf "0123456789+-.eE"

/-- How a numeral begins: with a digit, or with a point and a digit, and perhaps a sign in front. -/
def opening : RegularExpression Char :=
  optional sign * (digit + char '.' * digit)

lemma marks_of_isDigit {c : Char} (h : c.isDigit) : c ∈ "0123456789+-.eE".toList := by
  have hsub : "0123456789".toList ⊆ "0123456789+-.eE".toList := by decide
  exact hsub (mem_digits_iff.2 h)

lemma mem_digit {t : List Char} : t ∈ digit.matches' ↔ ∃ c, c.isDigit ∧ t = [c] := by
  rw [digit, mem_oneOf]
  exact exists_congr fun _ => and_congr_left' mem_digits_iff

lemma mem_marks_of_exponent {t : List Char} (ht : t ∈ (optional exponent).matches') :
    t ∈ marks.star.matches' := by
  refine mem_star_oneOf.2 ?_
  rcases mem_optional.1 ht with rfl | ht
  · exact fun c hc => nomatch hc
  · obtain ⟨_, hletter, _, hrest, rfl⟩ := mem_mul.1 ht
    obtain ⟨c, hc, rfl⟩ := mem_oneOf.1 hletter
    obtain ⟨u, hu, v, hv, rfl⟩ := mem_mul.1 hrest
    have hletters : "eE".toList ⊆ "0123456789+-.eE".toList := by decide
    have hsign : ∀ c ∈ u, c ∈ "0123456789+-.eE".toList := by
      rcases (mem_optional.1 hu).imp_right mem_sign.1 with rfl | rfl | rfl <;> simp
    rw [List.singleton_append, List.forall_mem_cons, List.forall_mem_append]
    exact ⟨hletters hc, hsign, fun c hc => marks_of_isDigit ((mem_oneOrMore_digit.1 hv).2 c hc)⟩

lemma mem_opening_of_unsigned {t : List Char} (ht : t ∈ unsigned.matches') :
    t ∈ ((digit + char '.' * digit) * marks.star).matches' := by
  obtain ⟨u, hu, x, hx, rfl⟩ := mem_mul.1 ht
  have hmarks : ∀ {v : List Char}, (∀ c ∈ v, c.isDigit ∨ c = '.') →
      v ++ x ∈ marks.star.matches' := by
    intro v hv
    refine mem_star_oneOf.2 (List.forall_mem_append.2 ⟨fun c hc => ?_, ?_⟩)
    · rcases hv c hc with hdigit | rfl
      · exact marks_of_isDigit hdigit
      · decide
    · exact mem_star_oneOf.1 (mem_marks_of_exponent hx)
  rw [mem_mul]
  obtain ⟨w, f, hw, hf, hform⟩ := mem_mantissa.1 hu
  cases w with
  | cons c w =>
    obtain ⟨hc, hw⟩ := List.forall_mem_cons.1 hw
    refine ⟨[c], .inl (mem_digit.2 ⟨c, hc, rfl⟩), ?_⟩
    rcases hform with ⟨-, rfl⟩ | ⟨-, rfl⟩
    · exact ⟨w ++ x, hmarks fun c hc => .inl (hw c hc), rfl⟩
    · refine ⟨w ++ '.' :: f ++ x, hmarks ?_, rfl⟩
      simpa [or_imp, forall_and] using ⟨fun c hc => .inl (hw c hc), fun c hc => .inl (hf c hc)⟩
  | nil =>
    obtain ⟨hne, -⟩ | ⟨hne, rfl⟩ := hform
    · exact absurd rfl hne
    · obtain ⟨c, f, rfl⟩ := List.exists_cons_of_ne_nil (hne.resolve_left (not_not_intro rfl))
      obtain ⟨hc, hf⟩ := List.forall_mem_cons.1 hf
      refine ⟨['.', c], .inr (mem_mul.2 ⟨['.'], rfl, [c], mem_digit.2 ⟨c, hc, rfl⟩, rfl⟩), ?_⟩
      exact ⟨f ++ x, hmarks fun c hc => .inl (hf c hc), rfl⟩

/-- How a numeral begins, and that it has no other characters. -/
lemma mem_opening_of_numeral {t : List Char} (ht : t ∈ numeral.matches') :
    t ∈ (opening * marks.star).matches' := by
  obtain ⟨u, hu, v, hv, rfl⟩ := mem_mul.1 ht
  rw [opening, matches'_mul, matches'_mul, mul_assoc, ← matches'_mul]
  exact Language.append_mem_mul hu (mem_opening_of_unsigned hv)

end Number.Numeral

namespace Value

open Number.Numeral Grammar

/-- A string is a number exactly if, without the blanks around it, it is empty or spells an
infinity or is a numeral of the grammar.  It is zero in the first case and that infinity in the
second; and a numeral has no other characters than digits, signs, points and the letter of the
exponent, and begins with a digit, in front of which there may be a point and a sign. -/
theorem toNumber_string (s : String) :
    (∃! t, Text.IsTrimmed s.toList t) ∧ ∀ t, Text.IsTrimmed s.toList t →
      ((string s).toNumber.isNaN = false ↔
        t = [] ∨ t ∈ infinityWord.matches' ∨ t ∈ numeral.matches') ∧
      (t = [] → (string s).toNumber = 0) ∧
      (t = "Infinity".toList ∨ t = "+Infinity".toList → (string s).toNumber = Number.infinity) ∧
      (t = "-Infinity".toList → (string s).toNumber = -Number.infinity) ∧
      ((string s).toNumber.isNaN = false →
        t = [] ∨ t ∈ infinityWord.matches' ∨ t ∈ (opening * marks.star).matches') := by
  refine ⟨⟨Text.trim s.toList, Text.isTrimmed_iff.2 rfl, fun _ => Text.isTrimmed_iff.1⟩, ?_⟩
  intro t ht
  obtain rfl := Text.isTrimmed_iff.1 ht
  have hspelled : ∀ {t y}, Text.trim s.toList = t → t ≠ [] → signed? t = some y → value s = y := by
    rintro t y rfl hne hread
    rw [value_of_not_blank hne, hread]
    rfl
  refine ⟨isNaN_value_iff, value_of_blank, ?_, ?_, ?_⟩
  · rintro (h | h)
    · exact hspelled h (by decide) rfl
    · exact hspelled h (by decide) rfl
  · exact fun h => hspelled h (by decide) rfl
  · exact fun h => (isNaN_value_iff.1 h).imp_right (Or.imp_right fun h => mem_opening_of_numeral h)

theorem toNumber_string_spellings :
    (string " \t").toNumber = 0 ∧ (string " +Infinity").toNumber = Number.infinity ∧
      (string "-Infinity\n").toNumber = -Number.infinity ∧
      (string " 12.e5").toNumber.isNaN = false ∧ (string "inf").toNumber.isNaN = true ∧
      "12.e5".toList ∈ (opening * marks.star).matches' := by
  have htrim : ∀ s t, Text.trim (String.toList s) = t → Text.IsTrimmed s.toList t :=
    fun s t h => Text.isTrimmed_iff.2 h.symm
  have hblank := (toNumber_string " \t").2 [] (htrim _ _ rfl)
  have hplus := (toNumber_string " +Infinity").2 "+Infinity".toList (htrim _ _ rfl)
  have hminus :=
    (toNumber_string "-Infinity\n").2 "-Infinity".toList (htrim _ _ rfl)
  have hnumeral := (toNumber_string " 12.e5").2 "12.e5".toList (htrim _ _ rfl)
  have hword := (toNumber_string "inf").2 "inf".toList (htrim _ _ rfl)
  have hnumber := hnumeral.1.2 (by decide)
  refine ⟨hblank.2.1 rfl, hplus.2.2.1 (.inr rfl), hminus.2.2.2.1 rfl, hnumber, ?_, ?_⟩
  · exact Bool.eq_true_of_not_eq_false (mt hword.1.1 (by decide))
  · exact ((hnumeral.2.2.2.2 hnumber).resolve_left (by decide)).resolve_left (by decide)

example : "0x1F".toList ∉ numeral.matches' := by decide
example : "1_0".toList ∉ numeral.matches' := by decide
example : ".e5".toList ∉ numeral.matches' := by decide
example : "-.5E+3".toList ∈ numeral.matches' := by decide

end Value

end ScriptEngine
