/-!
# The exact value of a double

Every finite double is a whole number times a power of two.  Truncation, the test for whole numbers,
the reduction to 32 bits and the remainder of a division are computed on that exact value, so they
are statements about integers and no rounding enters them.
-/

namespace ScriptEngine.Number

open Float.Model (UnpackedFloat Format)

/-- Not a number. -/
def nan : Float := Float.ofBits 0x7FF8000000000000

/-- Positive infinity. -/
def infinity : Float := Float.ofBits 0x7FF0000000000000

/-- The exact value of a finite double: the sign, and `significand * 2 ^ exponent`.  Zero has a sign
too. -/
structure Exact where
  negative : Bool
  significand : Nat
  exponent : Int
deriving DecidableEq, Repr

/-- The exact value of `x`, unless `x` is infinite or not a number. -/
def finite? (x : Float) : Option Exact :=
  match x.toModel.unpack with
  | .zero s => some ⟨s == .negative, 0, 0⟩
  | .finite s m e _ => some ⟨s == .negative, m, e⟩
  | .infinity _ => none
  | .notANumber => none

namespace Exact

/-- The whole part of the magnitude. -/
def floorAbs (v : Exact) : Nat :=
  if 0 ≤ v.exponent then v.significand * Nat.pow 2 v.exponent.toNat
  else v.significand / Nat.pow 2 (-v.exponent).toNat

/-- The value, truncated toward zero. -/
def trunc (v : Exact) : Int :=
  if v.negative then -(v.floorAbs : Int) else v.floorAbs

/-- The value is a whole number. -/
def isWhole (v : Exact) : Bool :=
  0 ≤ v.exponent || v.significand % Nat.pow 2 (-v.exponent).toNat == 0

end Exact

/-- The double nearest to `± significand * 2 ^ exponent`; a zero keeps the sign. -/
def ofExact (v : Exact) : Float :=
  let sign := if v.negative then .negative else .positive
  let signed : Int := if v.negative then -(v.significand : Int) else v.significand
  .ofModel (.pack (UnpackedFloat.normalize Format.binary64 signed v.exponent sign))

/-- The double nearest to an integer. -/
def ofInt (n : Int) : Float :=
  .ofModel (.ofInt n)

/-- The 32-bit integer that the bitwise operators work on: the number truncated toward zero, modulo
`2 ^ 32`; infinities and what is not a number count as zero. -/
def toInt32 (x : Float) : Int32 :=
  match finite? x with
  | some v => Int32.ofInt v.trunc
  | none => 0

/-- The whole number that `x` is, if it is one that is not negative. -/
def toNat? (x : Float) : Option Nat :=
  match finite? x with
  | some v => if v.isWhole && (!v.negative || v.significand == 0) then some v.floorAbs else none
  | none => none

/-- The magnitude of the remainder of two exact values, on the finer of the two scales. -/
def Exact.remainder (v w : Exact) : Exact :=
  let e := min v.exponent w.exponent
  let scaled (u : Exact) : Nat := u.significand * Nat.pow 2 (u.exponent - e).toNat
  ⟨v.negative, scaled v % scaled w, e⟩

/-- The remainder of a division whose quotient is truncated toward zero.  It has the sign of the
dividend, and it is exact. -/
def remainder (x y : Float) : Float :=
  match finite? x with
  | none => nan
  | some v =>
    match finite? y with
    | some w => if w.significand = 0 then nan else ofExact (v.remainder w)
    | none => if y.isNaN then nan else x

example : remainder 5.5 2.0 = 1.5 := by decide +kernel
example : remainder (-7.0) 7.0 = -0.0 := by decide +kernel
example : remainder (-1.0) infinity = -1.0 := by decide +kernel
example : toInt32 4294967297.5 = 1 := by decide +kernel
example : toInt32 (-2147483649.0) = 2147483647 := by decide +kernel

end ScriptEngine.Number
