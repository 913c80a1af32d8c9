import ScriptEngine.NameMap
import ScriptEngine.Pool

/-!
# Values

The values of the scripting language.  Strings are immutable and stand for themselves.  Arrays,
objects and native objects are shared: a value only refers to them, so that all copies of the value
see every change, and two of them are equal when they refer to the same thing.
-/

namespace ScriptEngine

/-- A reference to a native object, together with its class name, which never changes. -/
structure NativeRef where
  id : Id .native
  className : String
deriving DecidableEq, Repr, Inhabited

/-- A value of the scripting language. -/
inductive Value where
  /-- What reading an absent property gives. -/
  | undefined
  /-- All numbers are doubles. -/
  | number (x : Float)
  | bool (b : Bool)
  | string (s : String)
  | array (id : Id .array)
  | object (id : Id .object)
  | native (object : NativeRef)
deriving DecidableEq, Inhabited

/-- The properties of an object, the globals of an engine, the locals of a function. -/
abbrev PropertyBag := NameMap Value

/-- Read a property; an absent one is `undefined`. -/
def PropertyBag.read (bag : PropertyBag) (n : Name) : Value :=
  (bag.get? n).getD .undefined

/-- Position and argument count of one function of a native object. -/
structure FunctionSlot where
  index : Nat
  numArgs : Nat
deriving DecidableEq, Repr, Inhabited

namespace Value

/-- The value is `undefined`. -/
def isUndefined : Value → Bool
  | undefined => true
  | _ => false

/-- The number that the value is, without conversion. -/
def number? : Value → Option Float
  | number x => some x
  | _ => none

/-- The string that the value is, without conversion. -/
def string? : Value → Option String
  | string s => some s
  | _ => none

/-- The native object that the value refers to. -/
def native? : Value → Option NativeRef
  | native o => some o
  | _ => none

/-- The label of the type that diagnostics and the debugger show. -/
def typeName : Value → String
  | undefined => "undefined"
  | number _ => "number"
  | bool _ => "bool"
  | string _ => "string"
  | array _ => "Array"
  | object _ => "Object"
  | native o => o.className

end Value

end ScriptEngine
