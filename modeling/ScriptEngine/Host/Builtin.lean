import ScriptEngine.Host.ApiClass
import ScriptEngine.Value.Conversion

/-!
# The classes of every engine

`Console` prints a line, and `Math` holds the numeric functions and constants.  A class is built
against an interner: its functions, then its constants, are interned in the order in which they are
listed, except that `Math` lists its constants first.
-/

namespace ScriptEngine.Host

/-- A function for a class: its name, how many arguments it takes, and what it does. -/
structure FunctionEntry where
  name : String
  numArgs : Nat
  body : Function

/-- Intern a function and add it to a class. -/
def ApiClass.withFunction (i : Id .interner) (acc : ApiClass × Memory) (f : FunctionEntry) :
    ApiClass × Memory :=
  let (name, m) := acc.2.intern i f.name
  (acc.1.addFunction name f.numArgs f.body, m)

/-- Intern a constant and add it to a class. -/
def ApiClass.withConstant (i : Id .interner) (acc : ApiClass × Memory) (c : String × Value) :
    ApiClass × Memory :=
  let (name, m) := acc.2.intern i c.1
  (acc.1.addConstant name c.2, m)

/-- `Console.print(value)` prints the text of a value as one line. -/
def print (p : Id .printer) : Function
  | [] => .succeed .undefined
  | v :: _ => .display v fun line => .write (·.println p line) (.succeed .undefined)

/-- The class `Console`, which prints through `p`. -/
def consoleClass (m : Memory) (i : Id .interner) (p : Id .printer) : ApiClass × Memory :=
  ApiClass.withFunction i (.named "Console", m) ⟨"print", 1, print p⟩

namespace Math

/-- Argument `k` as a number; a missing one is not a number. -/
def argument (args : List Value) (k : Nat) : Float :=
  match args[k]? with
  | some v => v.toNumber
  | none => Number.nan

/-- A function of one number. -/
def unary (f : Float → Float) : Function := fun args =>
  .succeed (.number (f (argument args 0)))

/-- A function of two numbers. -/
def binary (f : Float → Float → Float) : Function := fun args =>
  .succeed (.number (f (argument args 0) (argument args 1)))

/-- The smaller of two numbers, the second one if they are equal, as the two zeros are; one that is
not a number does not count. -/
def min (x y : Float) : Float :=
  if y.isNaN || x < y then x else y

/-- The larger of two numbers, the second one if they are equal, as the two zeros are; one that is
not a number does not count. -/
def max (x y : Float) : Float :=
  if y.isNaN || y < x then x else y

/-- The number nearest to the first argument between the other two, in either order. -/
def range : Function := fun args =>
  let low := min (argument args 1) (argument args 2)
  let high := max (argument args 1) (argument args 2)
  .succeed (.number (min (max (argument args 0) low) high))

/-- The ratio of a circle's circumference to its diameter. -/
def pi : Float := 3.141592653589793

/-- The base of the natural logarithm. -/
def e : Float := 2.718281828459045

/-- The square root of two. -/
def sqrt2 : Float := 1.4142135623730951

/-- The constants of the class `Math`. -/
def constants : List (String × Value) :=
  [("PI", .number pi), ("E", .number e), ("SQRT2", .number sqrt2)]

/-- The functions of the class `Math`. -/
def functions : List FunctionEntry :=
  [⟨"abs", 1, unary Float.abs⟩, ⟨"sqrt", 1, unary Float.sqrt⟩, ⟨"sin", 1, unary Float.sin⟩,
    ⟨"cos", 1, unary Float.cos⟩, ⟨"tan", 1, unary Float.tan⟩, ⟨"exp", 1, unary Float.exp⟩,
    ⟨"log", 1, unary Float.log⟩, ⟨"floor", 1, unary Float.floor⟩, ⟨"ceil", 1, unary Float.ceil⟩,
    ⟨"round", 1, unary Float.round⟩, ⟨"pow", 2, binary Float.pow⟩, ⟨"min", 2, binary min⟩,
    ⟨"max", 2, binary max⟩, ⟨"range", 3, range⟩]

end Math

/-- The class `Math`. -/
def mathClass (m : Memory) (i : Id .interner) : ApiClass × Memory :=
  let acc := Math.constants.foldl (ApiClass.withConstant i) (.named "Math", m)
  Math.functions.foldl (ApiClass.withFunction i) acc

end ScriptEngine.Host
