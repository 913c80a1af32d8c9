import ScriptEngine.Host.Program

/-!
# API classes

A native object is a fixed table of host functions, and of constants.  A call resolves the name of a
function to its slot once and calls it by its position from then on, so positions never change.  A
name that is registered again refers to the later function; the earlier one keeps its position.
-/

namespace ScriptEngine.Host

/-- One function of a table. -/
structure ApiFunction where
  name : Name
  numArgs : Nat
  body : Function

/-- A table of host functions and constants. -/
structure ApiClass where
  name : String
  functions : Array ApiFunction
  slots : NameMap Nat
  constants : NameMap Value

namespace ApiClass

/-- A table without entries. -/
def named (name : String) : ApiClass :=
  ⟨name, #[], ∅, ∅⟩

instance : Inhabited ApiClass := ⟨named ""⟩

/-- Add a function behind all others. -/
def addFunction (c : ApiClass) (name : Name) (numArgs : Nat) (body : Function) : ApiClass :=
  { c with
    functions := c.functions.push ⟨name, numArgs, body⟩
    slots := c.slots.insert name c.functions.size }

/-- Add a constant, or give it another value. -/
def addConstant (c : ApiClass) (name : Name) (value : Value) : ApiClass :=
  { c with constants := c.constants.insert name value }

/-- The number of registered functions. -/
def functionCount (c : ApiClass) : Nat :=
  c.functions.size

/-- Where the function of a name is. -/
def slot? (c : ApiClass) (name : Name) : Option FunctionSlot := do
  let index ← c.slots.get? name
  let function ← c.functions[index]?
  return ⟨index, function.numArgs⟩

/-- Call the function at a position. -/
def call (c : ApiClass) (index : Nat) (args : List Value) : Program :=
  match c.functions[index]? with
  | some function => function.body args
  | none => .fail (.of (.native s!"{c.name} has no function at index {index}"))

/-- All scripts that the functions of the class may execute satisfy `P`. -/
def Executes (P : Stmt → Prop) (c : ApiClass) : Prop :=
  ∀ index args, (c.call index args).Executes P

/-- The constant of a name. -/
def constant? (c : ApiClass) (name : Name) : Option Value :=
  c.constants.get? name

end ApiClass

end ScriptEngine.Host
