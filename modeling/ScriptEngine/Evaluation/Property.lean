import ScriptEngine.World
import ScriptEngine.Value.Conversion

/-!
# Properties and items

`object.property` and `object[index]`.  What is absent reads as `undefined`; only `undefined` itself
has nothing to read from.
-/

namespace ScriptEngine

/-- A number of items as a value. -/
def Value.ofLength (n : Nat) : Value :=
  .number (Number.ofInt n)

/-- The position that an index stands for: it has to be a whole number that is not negative. -/
def Value.position? (index : Value) : Option Nat :=
  Number.toNat? index.toNumber

namespace World

/-- Read `object.property` on an engine. -/
def readMember (w : World) (e : Id .engine) (object : Value) (property : Name) :
    Except EvalError Value :=
  match object with
  | .undefined => .error (.of (.propertyOfUndefined (w.lookup e property)))
  | .object o => .ok ((w.memory.properties o).read property)
  | .array a =>
    .ok (if property = (w.engine e).lengthName then .ofLength (w.memory.items a).size
      else .undefined)
  | .string s =>
    .ok (if property = (w.engine e).lengthName then .ofLength s.length else .undefined)
  | .native o => .ok (((w.apiClass o).constant? property).getD .undefined)
  | .number _ | .bool _ => .ok .undefined

/-- Read `object[key]` of an object: a key that was never interned names no property. -/
def readKey (w : World) (e : Id .engine) (o : Id .object) (key : String) : Value :=
  match (w.interner e).get? key with
  | some n => (w.memory.properties o).read n
  | none => .undefined

/-- Read `object[index]` on an engine.  There is no result when the index has to become a text and
has none. -/
def readIndex? (w : World) (e : Id .engine) (object index : Value) :
    Option (Except EvalError Value) :=
  match object with
  | .undefined =>
    (w.memory.display? index).map fun key => .error (.of (.propertyOfUndefined key))
  | .object o => (w.memory.display? index).map fun key => .ok (w.readKey e o key)
  | .array a => some (.ok ((index.position?.bind fun i => (w.memory.items a)[i]?).getD .undefined))
  | .string s =>
    some (.ok (((index.position?.bind fun i => s.toList[i]?).map fun c =>
      .string (String.singleton c)).getD .undefined))
  | .number _ | .bool _ | .native _ => some (.ok .undefined)

end World

end ScriptEngine
