import ScriptEngine.Number.Numeral
import ScriptEngine.Value.Basic

/-!
# Conversions and comparisons of values

The language is loosely typed: numbers, truth values and strings turn into each other as operators
need them.  References never turn into anything: they are not numbers, they count as true, and they
are equal to themselves alone.
-/

namespace ScriptEngine.Value

/-- The value as a number.  What is no number, truth value or numeral is not a number. -/
def toNumber : Value → Float
  | number x => x
  | bool b => if b then 1 else 0
  | string s => Number.Numeral.value s
  | undefined | array _ | object _ | native _ => Number.nan

/-- The value as the 32-bit integer that the bitwise operators work on. -/
def toInt32 (v : Value) : Int32 :=
  Number.toInt32 v.toNumber

/-- The value counts as true in conditions. -/
def isTruthy : Value → Bool
  | undefined => false
  | bool b => b
  | number x => x != 0 && !x.isNaN
  | string s => s != ""
  | array _ | object _ | native _ => true

/-- Equality after conversion.  `undefined` equals itself alone, strings are equal when their texts
are, references when they refer to the same thing, and all else when the numbers are. -/
def looselyEquals : Value → Value → Bool
  | undefined, undefined => true
  | undefined, _ | _, undefined => false
  | string s, string t => s == t
  | array a, array b => a == b
  | object a, object b => a == b
  | native a, native b => a.id == b.id
  | array _, _ | object _, _ | native _, _ | _, array _ | _, object _ | _, native _ => false
  | v, w => v.toNumber == w.toNumber

/-- Equality without conversion: values of two types are never equal. -/
def strictlyEquals : Value → Value → Bool
  | undefined, undefined => true
  | number x, number y => x == y
  | bool a, bool b => a == b
  | string s, string t => s == t
  | array a, array b => a == b
  | object a, object b => a == b
  | native a, native b => a.id == b.id
  | _, _ => false

/-- The order of two numbers; there is none where one of them is not a number. -/
def orderNumbers (x y : Float) : Option Ordering :=
  if x < y then some .lt
  else if x == y then some .eq
  else if y < x then some .gt
  else none

/-- The order of two values: two strings are ordered by their characters, all else by number. -/
def order : Value → Value → Option Ordering
  | string s, string t => some (compare s t)
  | v, w => orderNumbers v.toNumber w.toNumber

end ScriptEngine.Value
