import ScriptEngine.Number.Decimal
import ScriptEngine.Number.Digits
import ScriptEngine.Text.Blank

/-!
# Numerals

The texts that scripts accept as numbers.  White space around a text does not count.  What remains
is nothing at all, the word `Infinity` with an optional sign, or a decimal numeral: an optional
sign, digits with an optional point of which at least one digit is there, and an optional exponent.
All digits are ASCII digits.  A numeral may be as long as it likes, except that an exponent stops
growing once it has reached `exponentLimit`.
-/

namespace ScriptEngine.Number.Numeral

/-- Split an optional sign off a text; the first part is true for a minus. -/
def splitSign : List Char → Bool × List Char
  | '-' :: cs => (true, cs)
  | '+' :: cs => (false, cs)
  | cs => (false, cs)

/-- An exponent that has reached this size takes no further digits. -/
def exponentLimit : Nat := 65536

/-- The size of an exponent.  It is read digit by digit until it reaches the limit; the digits after
that do not count. -/
def exponentSize (ds : List Char) : Nat :=
  ds.foldl (fun n c => if n < exponentLimit then 10 * n + digitValue c else n) 0

/-- The value of an exponent part, which may be missing. -/
def exponent? : List Char → Option Int
  | [] => some 0
  | c :: cs =>
    if c = 'e' ∨ c = 'E' then
      let (negative, ds) := splitSign cs
      if ds ≠ [] ∧ ds.all Char.isDigit then
        some (if negative then -(exponentSize ds : Int) else exponentSize ds)
      else none
    else none

/-- Split an optional point and the digits behind it off a text. -/
def splitFraction : List Char → List Char × List Char
  | '.' :: cs => (cs.takeWhile Char.isDigit, cs.dropWhile Char.isDigit)
  | cs => ([], cs)

/-- The decimal that an unsigned numeral denotes. -/
def decimal? (cs : List Char) : Option Decimal :=
  let whole := cs.takeWhile Char.isDigit
  let (fraction, rest) := splitFraction (cs.dropWhile Char.isDigit)
  if whole = [] ∧ fraction = [] then none
  else (exponent? rest).map fun e => ⟨readDigits (whole ++ fraction), e - fraction.length⟩

/-- The number that a text without white space around it denotes. -/
def signed? (cs : List Char) : Option Float :=
  let (negative, rest) := splitSign cs
  let magnitude? :=
    if rest = "Infinity".toList then some infinity else (decimal? rest).map Decimal.toFloat
  magnitude?.map fun x => if negative then -x else x

/-- The number that a text denotes: zero for a blank one, and not a number where no numeral is
written. -/
def value (s : String) : Float :=
  match Text.trim s.toList with
  | [] => 0
  | cs => (signed? cs).getD nan

example : value " -12.5e1\t" = -125.0 := by decide +kernel
example : (value "1_0").isNaN = true := by decide +kernel
example : (value "+-1").isNaN = true := by decide +kernel
example : value "-Infinity" = -infinity := by decide +kernel
example : exponentSize "065535".toList = 65535 := by decide +kernel
example : exponentSize "99999".toList = 99999 := by decide +kernel
example : exponentSize "655361".toList = 65536 := by decide +kernel

end ScriptEngine.Number.Numeral
