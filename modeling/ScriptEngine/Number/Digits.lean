/-!
# Lists of digits

The whole number that a list of decimal digits denotes.  `digitsValue` reads the digits one by one
and is the meaning; `readDigits` multiplies the values of long parts instead, since a script may
build numerals of a million digits, and returns the same number (`readDigits_eq`).
-/

namespace ScriptEngine.Number

/-- The value of a digit. -/
def digitValue (c : Char) : Nat :=
  c.toNat - '0'.toNat

/-- The value of a list of digits. -/
def digitsValue (cs : List Char) : Nat :=
  cs.foldl (fun n c => 10 * n + digitValue c) 0

/-- The value of a list of digits that is cut in halves `k` times over. -/
def digitsValueInHalves : Nat → List Char → Nat
  | 0, cs => digitsValue cs
  | k + 1, cs =>
    let half := cs.length / 2
    let low := cs.drop half
    digitsValueInHalves k (cs.take half) * Nat.pow 10 low.length + digitsValueInHalves k low

/-- The value of a list of digits; a list of at least `128` is cut into pieces of at least `64`. -/
def readDigits (cs : List Char) : Nat :=
  digitsValueInHalves (Nat.log2 cs.length - 6) cs

@[simp] theorem digitsValue_nil : digitsValue [] = 0 := rfl

theorem digitsValue_append_singleton (cs : List Char) (c : Char) :
    digitsValue (cs ++ [c]) = 10 * digitsValue cs + digitValue c := by
  simp [digitsValue]

/-- The digits in front count ten times as much for every digit behind them. -/
theorem foldl_digitValue (n : Nat) (cs : List Char) :
    cs.foldl (fun n c => 10 * n + digitValue c) n = n * Nat.pow 10 cs.length + digitsValue cs := by
  unfold digitsValue
  induction cs generalizing n with
  | nil => simp
  | cons c cs ih =>
    rw [List.foldl_cons, List.foldl_cons, ih, ih (10 * 0 + digitValue c), List.length_cons,
      Nat.pow_eq, Nat.pow_eq, Nat.pow_succ, Nat.add_mul, Nat.mul_zero, Nat.zero_add,
      Nat.mul_comm 10 n, Nat.mul_assoc, Nat.mul_comm 10, Nat.add_assoc]

theorem digitsValue_append (xs ys : List Char) :
    digitsValue (xs ++ ys) = digitsValue xs * Nat.pow 10 ys.length + digitsValue ys := by
  rw [digitsValue, List.foldl_append, foldl_digitValue]
  rfl

theorem digitsValueInHalves_eq (k : Nat) (cs : List Char) :
    digitsValueInHalves k cs = digitsValue cs := by
  induction k generalizing cs with
  | zero => rfl
  | succ k ih =>
    rw [digitsValueInHalves, ih, ih, ← digitsValue_append, List.take_append_drop]

@[simp] theorem readDigits_eq (cs : List Char) : readDigits cs = digitsValue cs :=
  digitsValueInHalves_eq _ cs

example : digitsValue "0120".toList = 120 := by decide +kernel
example : readDigits (List.replicate 300 '9') + 1 = Nat.pow 10 300 := by decide +kernel

end ScriptEngine.Number
