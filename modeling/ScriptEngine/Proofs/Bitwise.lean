import ScriptEngine.Proofs.Words
import ScriptEngine.Value.Operation

/-!
# Bitwise operators

The bitwise operators turn their operands into words of 32 bits and give a word as a number.  An
integer has bits without end, of which all but finitely many are its sign; the bits of a word are
those of the integer, and so the operators are those of integers, bit by bit (`toInt_and` and the
like).  A shift to the left is a product with a power of two, up to a multiple of `2 ^ 32`, and a shift
to the right is the whole part of a quotient.

Main statement: `Value.bitwise_exact`.
-/

namespace ScriptEngine

open Float.Model (UnpackedFloat)

/-! ### Bits of integers -/

/-- Integers with the same bits are the same. -/
lemma int_eq_of_testBit {k n : ℤ} (h : ∀ i, k.testBit i = n.testBit i) : k = n := by
  -- far enough up, the bits of a natural number are not set, and those of a negative one are
  have hsigns : ∀ a b : ℕ, ∃ i, (a : ℤ).testBit i = false ∧ (Int.negSucc b).testBit i = true := by
    intro a b
    have hlt : ∀ c ≤ a + b, c.testBit (a + b) = false := fun c hc =>
      Nat.testBit_lt_two_pow (Nat.lt_two_pow_self.trans_le (Nat.pow_le_pow_right two_pos hc))
    refine ⟨a + b, hlt a (Nat.le_add_right a b), ?_⟩
    rw [Int.testBit, hlt b (Nat.le_add_left b a)]
    rfl
  cases k with
  | ofNat a =>
    cases n with
    | ofNat b => exact congrArg Int.ofNat (Nat.eq_of_testBit_eq h)
    | negSucc b =>
      obtain ⟨i, ha, hb⟩ := hsigns a b
      exact absurd ((h i).symm.trans ha) (by simp [hb])
  | negSucc a =>
    cases n with
    | ofNat b =>
      obtain ⟨i, hb, ha⟩ := hsigns b a
      exact absurd ((h i).trans hb) (by simp [ha])
    | negSucc b =>
      refine congrArg Int.negSucc (Nat.eq_of_testBit_eq fun i => ?_)
      exact Bool.not_inj (h i)

/-- The bits of a word, and then its sign. -/
lemma testBit_toInt {w : ℕ} (b : BitVec w) (i : ℕ) :
    b.toInt.testBit i = if i < w then b.getLsbD i else b.msb := by
  cases hsign : b.msb with
  | false =>
    rw [BitVec.toInt_eq_toNat_of_msb hsign]
    split_ifs with hi
    · rfl
    · exact BitVec.getLsbD_of_ge b i (not_lt.1 hi)
  | true =>
    have hint : b.toInt = Int.negSucc (~~~b).toNat := by
      have hnot : (~~~b).toNat + 1 + b.toNat = 2 ^ w := by
        have hlt := b.isLt
        rw [BitVec.toNat_not]
        omega
      rw [BitVec.toInt_eq_msb_cond, if_pos hsign, Int.negSucc_eq, ← hnot]
      push_cast
      ring
    rw [hint]
    change (!(~~~b).getLsbD i) = _
    split_ifs with hi
    · simp [hi]
    · simp [BitVec.getLsbD_of_ge _ i (not_lt.1 hi)]

/-- An operation on each bit, the sign included, is that operation on each bit of the integer. -/
lemma toInt_of_bits {w : ℕ} {f : Bool → Bool → Bool} {g : ℤ → ℤ → ℤ} {x y z : BitVec w}
    (hbits : ∀ i, z.getLsbD i = f (x.getLsbD i) (y.getLsbD i)) (hsign : z.msb = f x.msb y.msb)
    (hint : ∀ k n i, (g k n).testBit i = f (k.testBit i) (n.testBit i)) :
    z.toInt = g x.toInt y.toInt := by
  refine int_eq_of_testBit fun i => ?_
  rw [hint, testBit_toInt, testBit_toInt, testBit_toInt, hbits, hsign]
  split_ifs <;> rfl

/-! ### Words bit by bit -/

section Words

variable (a b : Int32)

lemma toInt_and : (a &&& b).toInt = Int.land a.toInt b.toInt :=
  toInt_of_bits (fun _ => BitVec.getLsbD_and) BitVec.msb_and Int.testBit_land

lemma toInt_or : (a ||| b).toInt = Int.lor a.toInt b.toInt :=
  toInt_of_bits (fun _ => BitVec.getLsbD_or) BitVec.msb_or Int.testBit_lor

lemma toInt_xor : (a ^^^ b).toInt = Int.xor a.toInt b.toInt :=
  toInt_of_bits (fun _ => BitVec.getLsbD_xor) BitVec.msb_xor Int.testBit_lxor

lemma toInt_complement : (~~~a).toInt = Int.lnot a.toInt := by
  refine int_eq_of_testBit fun i => ?_
  change (~~~a.toBitVec).toInt.testBit i = _
  rw [Int.testBit_lnot, Int32.toInt, testBit_toInt, testBit_toInt]
  split_ifs with hi
  · simp [hi]
  · simp [BitVec.msb_not]

/-- The number of places is what is left of the count, without the multiples of 32. -/
lemma toNat_places : ((a &&& 31).toBitVec.smod 32).toNat = (a.toInt % 32).toNat := by
  have hmask : ((a &&& 31).toBitVec).toNat = a.toBitVec.toNat % 32 := by
    change (a.toBitVec &&& 31#32).toNat = _
    rw [BitVec.toNat_and]
    exact Nat.and_two_pow_sub_one_eq_mod _ 5
  have hsign : (a &&& 31).toBitVec.msb = false := by
    rw [BitVec.msb_eq_false_iff_two_mul_lt, hmask]
    omega
  have hsmod : (a &&& 31).toBitVec.smod 32 = (a &&& 31).toBitVec.umod 32 := by
    rw [BitVec.smod_eq, hsign]
    rfl
  have hint : a.toInt % 32 = a.toBitVec.toNat % 32 := by
    rw [Int32.toInt, BitVec.toInt_eq_msb_cond]
    split_ifs <;> omega
  rw [hsmod, hint]
  change ((a &&& 31).toBitVec % 32#32).toNat = _
  rw [BitVec.toNat_umod, hmask, show (32#32).toNat = 32 from rfl, Nat.mod_mod]
  omega

/-- A shift to the left is a product. -/
lemma isWord_shiftLeft :
    Number.IsWord (a <<< (b &&& 31)).toInt (a.toInt * 2 ^ (b.toInt % 32).toNat) := by
  refine ⟨Int32.le_toInt _, Int32.toInt_lt _, ?_⟩
  change (a.toBitVec <<< ((b &&& 31).toBitVec.smod 32)).toInt ≡ _ [ZMOD 2 ^ 32]
  rw [BitVec.shiftLeft_eq', toNat_places, BitVec.toInt_shiftLeft, Nat.shiftLeft_eq]
  have hword : (a.toBitVec.toNat : ℤ) ≡ a.toInt [ZMOD 2 ^ 32] := by
    rw [Int32.toInt, BitVec.toInt_eq_toNat_bmod]
    exact (Int.bmod_emod).symm
  push_cast
  exact Int.ModEq.trans Int.bmod_emod (hword.mul_right _)

/-- A shift to the right is the whole part of a quotient. -/
lemma toInt_shiftRight :
    (a >>> (b &&& 31)).toInt = ⌊(a.toInt / 2 ^ (b.toInt % 32).toNat : ℚ)⌋ := by
  change (a.toBitVec.sshiftRight' ((b &&& 31).toBitVec.smod 32)).toInt = _
  have hquotient := Rat.floor_intCast_div_natCast a.toInt (2 ^ (b.toInt % 32).toNat)
  rw [BitVec.sshiftRight_eq', toNat_places, BitVec.toInt_sshiftRight, Int.shiftRight_eq_div_pow]
  push_cast at hquotient ⊢
  exact hquotient.symm

end Words

/-! ### Operators -/

/-- The operators that work on words. -/
def BinaryOp.isBitwise : BinaryOp → Bool
  | bitAnd | bitOr | bitXor | shl | shr => true
  | _ => false

/-- Exactly one of the three kinds of double is finite. -/
lemma Number.isFinite_iff_not (x : Float) : x.isFinite ↔ ¬(x.isNaN ∨ x.isInf) := by
  change x.toModel.unpack.isFinite = true ↔
    ¬(x.toModel.unpack.isNaN = true ∨ x.toModel.unpack.isInf = true)
  cases x.toModel.unpack <;>
    simp [UnpackedFloat.isFinite, UnpackedFloat.isNaN, UnpackedFloat.isInf]

namespace Value

variable (a b : Value) (m : Memory)

/-- An integer as a number. -/
def ofWord (n : ℤ) : Value :=
  .number (Number.ofInt n)

lemma ofInt32_eq (n : Int32) : Value.ofInt32 n = ofWord n.toInt := rfl

/-- A word that comes out of an operator goes into the next one unchanged. -/
lemma toInt32_ofInt32 (n : Int32) : (Value.ofInt32 n).toInt32 = n :=
  Int32.toInt.inj (Number.toInt32_ofInt n.le_toInt n.toInt_lt)

/-- A bitwise operator gives a word. -/
lemma exists_word_of_isBitwise {op : BinaryOp} (hop : op.isBitwise) :
    ∃ n : Int32, op.compute? m a b = some (.ofInt32 n) := by
  cases op <;> first | exact ⟨_, rfl⟩ | cases hop

/-- What a bitwise operator gives is a whole number, and its own word. -/
lemma rational?_ofInt32 (n : Int32) :
    Number.rational? (Value.ofInt32 n).toNumber = some (n.toInt : ℚ) := by
  have hle := n.le_toInt
  have hlt := n.toInt_lt
  exact Number.rational?_ofInt (by omega)

lemma toInt32_zero : (number 0).toInt32 = 0 := by decide +kernel

/-- A word that is joined with zero stays what it is. -/
lemma bitOr_zero : BinaryOp.bitOr.compute? m a (number 0) = some (.ofInt32 a.toInt32) := by
  rw [BinaryOp.compute?, toInt32_zero, Int32.or_zero]

/-- For all values, with `x` and `y` for their words and `k` for the places to shift by:

* the word of a value is the one word that differs from the whole part of its number by a multiple of
  `2 ^ 32`, if the number is finite, and zero otherwise; the steps on doubles come to the same word;
* the operators on bits are those of integers, a shift to the left gives the word of `x * 2 ^ k`, and
  a shift to the right the whole part of `x / 2 ^ k`, where `k` is the count without the multiples of
  32, whatever its sign and size;
* every result is a whole number that is its own word;
* so joining a word with zero, complementing it twice, and telling it twice apart from another one
  give the word itself. -/
theorem bitwise_exact :
    let x := a.toInt32.toInt
    let y := b.toInt32.toInt
    let k := (y % 32).toNat
    (a.toNumber.isFinite ↔ ∃ q, Number.rational? a.toNumber = some q) ∧
    (∀ q, Number.rational? a.toNumber = some q →
      ∀ n, n = x ↔ Number.IsWord n (Number.towardZero q)) ∧
    (a.toNumber.isNaN ∨ a.toNumber.isInf → x = 0) ∧
    Number.toInt32InSteps a.toNumber = a.toInt32 ∧
    BinaryOp.bitAnd.compute? m a b = some (ofWord (Int.land x y)) ∧
    BinaryOp.bitOr.compute? m a b = some (ofWord (Int.lor x y)) ∧
    BinaryOp.bitXor.compute? m a b = some (ofWord (Int.xor x y)) ∧
    UnaryOp.bitNot.apply a = ofWord (Int.lnot x) ∧
    (∃ n, Number.IsWord n (x * 2 ^ k) ∧ BinaryOp.shl.compute? m a b = some (ofWord n)) ∧
    BinaryOp.shr.compute? m a b = some (ofWord ⌊(x / 2 ^ k : ℚ)⌋) ∧ k < 32 ∧
    (∀ v, (∃ op : BinaryOp, op.isBitwise ∧ op.compute? m a b = some v) ∨
        v = UnaryOp.bitNot.apply a →
      ∃ n : ℤ, v = ofWord n ∧ Number.rational? v.toNumber = some (n : ℚ) ∧ v.toInt32.toInt = n) ∧
    ((BinaryOp.bitOr.compute? m a (number 0)).bind (BinaryOp.bitOr.compute? m · (number 0)) =
      BinaryOp.bitOr.compute? m a (number 0)) ∧
    (some (UnaryOp.bitNot.apply (UnaryOp.bitNot.apply a)) =
      BinaryOp.bitOr.compute? m a (number 0)) ∧
    ((BinaryOp.bitXor.compute? m a b).bind (BinaryOp.bitXor.compute? m · b) =
      BinaryOp.bitOr.compute? m a (number 0)) := by
  intro x y k
  have hresult : ∀ n : Int32, ∃ k : ℤ, Value.ofInt32 n = ofWord k ∧
      Number.rational? (Value.ofInt32 n).toNumber = some (k : ℚ) ∧
      (Value.ofInt32 n).toInt32.toInt = k := fun n =>
    ⟨n.toInt, rfl, rational?_ofInt32 n, congrArg Int32.toInt (toInt32_ofInt32 n)⟩
  refine ⟨?_, fun q hq n => ?_, fun hx => ?_, Number.toInt32InSteps_eq _, ?_, ?_, ?_, ?_,
    ⟨_, isWord_shiftLeft a.toInt32 b.toInt32, rfl⟩, ?_, ?_, ?_, ?_, ?_, ?_⟩
  · rw [Number.isFinite_iff, Option.isSome_iff_exists]
  · have hword : Number.IsWord x (Number.towardZero q) := Number.isWord_toInt32 hq
    constructor
    · rintro rfl
      exact hword
    · exact fun hn => hn.unique hword
  · have hnone : Number.rational? a.toNumber = none := by
      rw [← Option.not_isSome_iff_eq_none, ← Number.isFinite_iff, Number.isFinite_iff_not]
      exact not_not.2 hx
    exact congrArg Int32.toInt (Number.toInt32_of_none hnone)
  · rw [BinaryOp.compute?, ofInt32_eq, toInt_and]
  · rw [BinaryOp.compute?, ofInt32_eq, toInt_or]
  · rw [BinaryOp.compute?, ofInt32_eq, toInt_xor]
  · rw [UnaryOp.apply, ofInt32_eq, toInt_complement]
  · rw [BinaryOp.compute?, ofInt32_eq, shiftAmount, toInt_shiftRight]
  · omega
  · rintro v (⟨op, hop, hv⟩ | rfl)
    · obtain ⟨n, hn⟩ := exists_word_of_isBitwise a b m hop
      obtain rfl := Option.some.inj (hn.symm.trans hv)
      exact hresult n
    · exact hresult _
  · rw [bitOr_zero, Option.bind_some, bitOr_zero, toInt32_ofInt32]
  · rw [bitOr_zero, UnaryOp.apply, UnaryOp.apply, toInt32_ofInt32, Int32.not_not]
  · rw [bitOr_zero, BinaryOp.compute?, Option.bind_some, BinaryOp.compute?, toInt32_ofInt32,
      Int32.xor_assoc, Int32.xor_self, Int32.xor_zero]

/-- A number below all words, shifted by a count that is negative: the word of `-2 ^ 32 - 3 / 2` is
`-1`, and a count of `-1` is one of 31 places. -/
theorem bitwise_exact_below_words :
    let a : Value := .number (-4294967297.5)
    let b : Value := .number (-1)
    (Number.rational? a.toNumber = some (-8589934595 / 2) ∧
      (-1 = a.toInt32.toInt ↔ Number.IsWord (-1) (Number.towardZero (-8589934595 / 2)))) ∧
    ((undefined.toNumber.isNaN ∨ undefined.toNumber.isInf) ∧ undefined.toInt32.toInt = 0) ∧
    (BinaryOp.shl.isBitwise ∧ BinaryOp.shl.compute? .empty a b = some (ofWord (-2 ^ 31)) ∧
      ∃ n : ℤ, ofWord (-2 ^ 31) = ofWord n ∧
        Number.rational? (ofWord (-2 ^ 31)).toNumber = some (n : ℚ) ∧
        (ofWord (-2 ^ 31)).toInt32.toInt = n) := by
  intro a b
  have hfinite : Number.finite? (-4294967297.5) = some ⟨true, 4503599628943360, -20⟩ := by
    decide +kernel
  have hq : Number.rational? a.toNumber = some (-8589934595 / 2) := by
    rw [Number.rational?]
    change (Number.finite? (-4294967297.5)).map Number.Exact.value = _
    rw [hfinite, Option.map_some, Number.Exact.value, Number.Exact.magnitude]
    norm_num
  have hshift : BinaryOp.shl.compute? .empty a b = some (ofWord (-2 ^ 31)) := by decide +kernel
  have hnan : undefined.toNumber.isNaN ∨ undefined.toNumber.isInf := .inl rfl
  obtain ⟨-, hword, -, -, -, -, -, -, -, -, -, hresult, -⟩ := bitwise_exact a b .empty
  obtain ⟨-, -, hzero, -⟩ := bitwise_exact undefined b .empty
  exact ⟨⟨hq, hword _ hq (-1)⟩, ⟨hnan, hzero hnan⟩, rfl, hshift,
    hresult _ (.inl ⟨.shl, rfl, hshift⟩)⟩

end Value

end ScriptEngine
