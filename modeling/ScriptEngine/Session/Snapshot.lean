import ScriptEngine.Memory

/-!
# Snapshots

A snapshot shows a value with all that it refers to at one moment: the items of arrays, and the
properties of objects in the order of their names.  A value that holds itself has no snapshot.
-/

namespace ScriptEngine.Session

/-- A value with its contents. -/
inductive Snapshot where
  | undefined
  | bool (b : Bool)
  | number (x : Float)
  | string (s : String)
  | array (items : List Snapshot)
  | object (properties : List (String × Snapshot))
  | native (className : String)
deriving Inhabited

/-- Named things in the order of their names; those of one name keep their order. -/
def sortedByName {α : Type} (entries : List (String × α)) : List (String × α) :=
  entries.mergeSort fun a b => a.1 ≤ b.1

/-- The snapshot of a value whose arrays and objects nest at most `depth` deep. -/
def Snapshot.ofValueWithin? (m : Memory) (i : Id .interner) : Nat → Value → Option Snapshot
  | _, .undefined => some .undefined
  | _, .bool b => some (.bool b)
  | _, .number x => some (.number x)
  | _, .string s => some (.string s)
  | 0, .array _ | 0, .object _ => none
  | depth + 1, .array a =>
    ((m.items a).toList.mapM (Snapshot.ofValueWithin? m i depth)).map .array
  | depth + 1, .object o => do
    let properties ← (m.properties o).entries.mapM fun entry => do
      return (m.lookup i entry.1, ← Snapshot.ofValueWithin? m i depth entry.2)
    return .object (sortedByName properties)
  | _, .native o => some (.native o.className)

/-- The snapshot of a value, unless it holds itself; names are read by an interner. -/
def Snapshot.ofValue? (m : Memory) (i : Id .interner) (v : Value) : Option Snapshot :=
  Snapshot.ofValueWithin? m i (m.arrays.size + m.objects.size + 1) v

end ScriptEngine.Session
