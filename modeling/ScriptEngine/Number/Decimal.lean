import ScriptEngine.Number.Exact

/-!
# Decimals and the fewest digits that read back

A `Decimal` is a whole number times a power of ten.  `Decimal.toFloat` reads one as the nearest
double.  In the other direction `shortest` chooses, for a positive double, a decimal with the fewest
digits among those that read back as that double.  It tries the grids of one, two, … digits in turn;
a grid that holds a decimal of the required kind holds one next to the double, so two candidates per
grid are enough.
-/

namespace ScriptEngine.Number

/-- The number `digits * 10 ^ exponent`. -/
structure Decimal where
  digits : Nat
  exponent : Int
deriving DecidableEq, Repr

namespace Decimal

/-- The decimal is at least `10 ^ 310`, and so beyond all doubles. -/
def isHuge (d : Decimal) : Bool :=
  Nat.pow 10 (310 - d.exponent).toNat ≤ d.digits

/-- The double nearest to a decimal; of two equally near ones the even one, and an infinity beyond
the largest.  Huge decimals are set aside first, for rounding one takes time that grows with the
square of its length. -/
def toFloat (d : Decimal) : Float :=
  if d.isHuge then infinity else .ofModel (.ofScientific d.digits d.exponent)

/-- The number of decimal digits of `n`; zero has one. -/
def digitCount (n : Nat) : Nat :=
  if n < 10 then 1 else digitCount (n / 10) + 1

/-- Move the zeros at the end of the digits into the exponent. -/
def strip (d : Decimal) : Decimal :=
  if h : d.digits ≠ 0 ∧ d.digits % 10 = 0 then strip ⟨d.digits / 10, d.exponent + 1⟩ else d
termination_by d.digits
decreasing_by omega

/-- Positional notation: all digits, with a point where it is due, and never an exponent. -/
def positional (d : Decimal) : String :=
  let ds := Nat.toDigits 10 d.digits
  if 0 ≤ d.exponent then String.ofList (ds ++ List.replicate d.exponent.toNat '0')
  else
    let places := (-d.exponent).toNat
    if ds.length ≤ places then
      String.ofList ("0.".toList ++ List.replicate (places - ds.length) '0' ++ ds)
    else
      String.ofList (ds.take (ds.length - places) ++ '.' :: ds.drop (ds.length - places))

end Decimal

namespace Exact

/-- The magnitude as a quotient of whole numbers. -/
def ratio (v : Exact) : Nat × Nat :=
  (v.significand * Nat.pow 2 v.exponent.toNat, Nat.pow 2 (-v.exponent).toNat)

/-- The place of the leading digit: the `k` with `10 ^ (k - 1) ≤ v < 10 ^ k`, for a magnitude that
is not zero. -/
def leadingPlace (v : Exact) : Int :=
  let (a, b) := v.ratio
  if b ≤ a then Decimal.digitCount (a / b) else 1 - (Decimal.digitCount ((b - 1) / a) : Int)

/-- The magnitude, written out in full. -/
def toDecimal (v : Exact) : Decimal :=
  if 0 ≤ v.exponent then ⟨v.significand * Nat.pow 2 v.exponent.toNat, 0⟩
  else ⟨v.significand * Nat.pow 5 (-v.exponent).toNat, v.exponent⟩

/-- The decimals next to the magnitude on the grid of the multiples of `10 ^ g`, below (or at) and
above it, the nearer one first; halfway between the two, the upper one. -/
def neighbours (v : Exact) (g : Int) : List Decimal :=
  let (a, b) := v.ratio
  let num := a * Nat.pow 10 (-g).toNat
  let den := b * Nat.pow 10 g.toNat
  let low := num / den
  if 2 * (num % den) < den then [⟨low, g⟩, ⟨low + 1, g⟩] else [⟨low + 1, g⟩, ⟨low, g⟩]

end Exact

/-- Seventeen significant digits tell all doubles apart. -/
def maxDigits : Nat := 17

/-- A decimal with the fewest digits that reads back as the positive double `x`, whose exact value is
`v`.  Should no grid have one, the value is written out in full. -/
def shortest (x : Float) (v : Exact) : Decimal :=
  let grids := (List.range maxDigits).map fun n => v.leadingPlace - (n + 1 : Nat)
  let found := grids.findSome? fun g => (v.neighbours g).find? fun d => d.toFloat == x
  (found.getD v.toDecimal).strip

example : shortest 0.1 ⟨false, 3602879701896397, -55⟩ = ⟨1, -1⟩ := by decide +kernel
example : Decimal.positional ⟨15, -1⟩ = "1.5" := by decide +kernel
example : Decimal.positional ⟨5, -4⟩ = "0.0005" := by decide +kernel

end ScriptEngine.Number
