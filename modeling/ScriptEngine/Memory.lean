import ScriptEngine.Number.Text
import ScriptEngine.Printer
import ScriptEngine.Value.Basic

/-!
# The memory that scripts and host share

Arrays and objects, the interners of the engines, the printers, and the counters of host functions.
Host functions see this memory and nothing else of an engine.

The text of a value goes through its arrays.  An array that holds itself, directly or through other
arrays, has no text: `display?` is then `none`.  Any other array nests at most as deeply as there are
arrays, which bounds the search.

Main statement: the text that `display?` writes from left to right is the one that `displayWithin?`
puts together from the texts of the items (`display?_eq`).
-/

namespace ScriptEngine

/-- The memory that scripts and host functions share. -/
structure Memory where
  arrays : Pool .array (Array Value)
  objects : Pool .object PropertyBag
  interners : Pool .interner Interner
  printers : Pool .printer Printer
  counters : Pool .counter Nat
deriving Inhabited

namespace Memory

/-- The memory without contents. -/
def empty : Memory := ⟨.empty, .empty, .empty, .empty, .empty⟩

/-! ### Arrays and objects -/

/-- The items of an array. -/
def items (m : Memory) (a : Id .array) : Array Value :=
  (m.arrays.get? a).getD #[]

/-- Change the items of an array. -/
def modifyItems (m : Memory) (a : Id .array) (f : Array Value → Array Value) : Memory :=
  { m with arrays := m.arrays.update a f }

/-- A new array. -/
def newArray (m : Memory) (items : Array Value) : Value × Memory :=
  let (a, arrays) := m.arrays.add items
  (.array a, { m with arrays })

/-- The properties of an object. -/
def properties (m : Memory) (o : Id .object) : PropertyBag :=
  (m.objects.get? o).getD ∅

/-- Change the properties of an object. -/
def modifyProperties (m : Memory) (o : Id .object) (f : PropertyBag → PropertyBag) : Memory :=
  { m with objects := m.objects.update o f }

/-- A new object. -/
def newObject (m : Memory) (properties : PropertyBag) : Value × Memory :=
  let (o, objects) := m.objects.add properties
  (.object o, { m with objects })

/-! ### Names -/

/-- The interner that `i` refers to. -/
def interner (m : Memory) (i : Id .interner) : Interner :=
  (m.interners.get? i).getD .new

/-- A new interner. -/
def newInterner (m : Memory) : Id .interner × Memory :=
  let (i, interners) := m.interners.add .new
  (i, { m with interners })

/-- Intern a text. -/
def intern (m : Memory) (i : Id .interner) (s : String) : Name × Memory :=
  let (n, t) := (m.interner i).intern s
  (n, { m with interners := m.interners.set i t })

/-- The text of a name. -/
def lookup (m : Memory) (i : Id .interner) (n : Name) : String :=
  (m.interner i).lookup n

/-! ### Printers and counters -/

/-- The printer that `p` refers to. -/
def printer (m : Memory) (p : Id .printer) : Printer :=
  (m.printers.get? p).getD .silent

/-- A new printer. -/
def newPrinter (m : Memory) (p : Printer) : Id .printer × Memory :=
  let (i, printers) := m.printers.add p
  (i, { m with printers })

/-- Print a line. -/
def println (m : Memory) (p : Id .printer) (line : String) : Memory :=
  { m with printers := m.printers.update p (·.println line) }

/-- The state of a counter. -/
def counter (m : Memory) (c : Id .counter) : Nat :=
  (m.counters.get? c).getD 0

/-- A new counter, which starts at zero. -/
def newCounter (m : Memory) : Id .counter × Memory :=
  let (c, counters) := m.counters.add 0
  (c, { m with counters })

/-- Count one up. -/
def count (m : Memory) (c : Id .counter) : Memory :=
  { m with counters := m.counters.update c (· + 1) }

/-! ### The text of a value -/

/-- The text of a value whose arrays nest at most `depth` deep. -/
def displayWithin? (m : Memory) : Nat → Value → Option String
  | _, .undefined => some "undefined"
  | _, .number x => some (Number.text x)
  | _, .bool b => some (if b then "true" else "false")
  | _, .string s => some s
  | 0, .array _ => none
  | depth + 1, .array a =>
    ((m.items a).toList.mapM (m.displayWithin? depth)).map fun texts =>
      "[" ++ ", ".intercalate texts ++ "]"
  | _, .object o => some s!"Object({(m.properties o).size})"
  | _, .native o => some o.className

/-- Write the text of a value behind `out`.  This is how texts are made: from left to right, so that
however deep arrays nest, no part is copied again. -/
def writeWithin? (m : Memory) : Nat → Value → String → Option String
  | _, .undefined, out => some (out ++ "undefined")
  | _, .number x, out => some (out ++ Number.text x)
  | _, .bool b, out => some (out ++ if b then "true" else "false")
  | _, .string s, out => some (out ++ s)
  | 0, .array _, _ => none
  | depth + 1, .array a, out =>
    match (m.items a).toList with
    | [] => some (out ++ "[]")
    | v :: rest => do
      let out ← m.writeWithin? depth v (out ++ "[")
      let out ← rest.foldlM (fun out w => m.writeWithin? depth w (out ++ ", ")) out
      return out ++ "]"
  | _, .object o, out => some (out ++ s!"Object({(m.properties o).size})")
  | _, .native o, out => some (out ++ o.className)

/-- Texts that are written one after another, each behind a comma, are those texts with commas
between them. -/
theorem foldlM_write_eq (f : Value → Option String) (vs : List Value) (s out : String) :
    vs.foldlM (fun out v => (f v).map (out ++ ", " ++ ·)) (out ++ s) =
      (vs.mapM f).map fun texts => out ++ ", ".intercalate (s :: texts) := by
  induction vs generalizing s out with
  | nil => simp
  | cons v rest ih =>
    rw [List.foldlM_cons, List.mapM_cons]
    cases f v with
    | none => rfl
    | some t =>
      simp only [Option.map_some, Option.bind_eq_bind, Option.bind_some, ih]
      cases rest.mapM f with
      | none => rfl
      | some texts => simp [String.append_assoc]

/-- Writing a text puts it behind what is there. -/
theorem writeWithin?_eq (m : Memory) (depth : Nat) (v : Value) (out : String) :
    m.writeWithin? depth v out = (m.displayWithin? depth v).map (out ++ ·) := by
  induction depth generalizing v out with
  | zero => cases v <;> simp [writeWithin?, displayWithin?]
  | succ depth ih =>
    cases v with
    | array a =>
      simp only [writeWithin?, displayWithin?]
      cases (m.items a).toList with
      | nil => simp
      | cons w rest =>
        simp only [ih, List.mapM_cons]
        cases m.displayWithin? depth w with
        | none => rfl
        | some s =>
          simp only [Option.map_some, Option.bind_eq_bind, Option.bind_some, foldlM_write_eq]
          cases rest.mapM (m.displayWithin? depth) with
          | none => rfl
          | some texts => simp [String.append_assoc]
    | _ => simp [writeWithin?, displayWithin?]

/-- The text of a value, unless one of its arrays holds itself. -/
def display? (m : Memory) (v : Value) : Option String :=
  m.writeWithin? (m.arrays.size + 1) v ""

theorem display?_eq (m : Memory) (v : Value) :
    m.display? v = m.displayWithin? (m.arrays.size + 1) v := by
  rw [display?, writeWithin?_eq]
  cases m.displayWithin? (m.arrays.size + 1) v <;> simp

end Memory

end ScriptEngine
