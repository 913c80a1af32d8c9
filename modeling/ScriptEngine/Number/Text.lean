import ScriptEngine.Number.Decimal

/-!
# The text of a number

Numbers are written with the fewest digits that read back, always in positional notation.  Whole
numbers below `10 ^ 15` are written as integers, so zero has no sign there.
-/

namespace ScriptEngine.Number

/-- Sign, then the shortest digits in positional notation; a zero keeps its sign. -/
def Exact.text (v : Exact) : String :=
  let sign := if v.negative then "-" else ""
  if v.significand = 0 then sign ++ "0"
  else sign ++ (shortest (ofExact { v with negative := false }) v).positional

/-- Whole numbers below this bound are written as integers. -/
def integerBound : Nat := 1000000000000000

/-- The text that scripts see. -/
def text (x : Float) : String :=
  match finite? x with
  | some v => if v.isWhole && v.floorAbs < integerBound then toString v.trunc else v.text
  | none => if x.isNaN then "NaN" else if 0 < x then "Infinity" else "-Infinity"

/-- The text for developers, which shows the sign of a zero and short names of the infinities. -/
def debugText (x : Float) : String :=
  match finite? x with
  | some v => v.text
  | none => if x.isNaN then "NaN" else if 0 < x then "inf" else "-inf"

example : text 0.1 = "0.1" := by decide +kernel
example : text (-0.0) = "0" := by decide +kernel
example : debugText (-0.0) = "-0" := by decide +kernel
example : text 1e21 = "1000000000000000000000" := by decide +kernel
example : text 1e-7 = "0.0000001" := by decide +kernel

end ScriptEngine.Number
