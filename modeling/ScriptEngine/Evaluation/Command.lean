import ScriptEngine.Evaluation.Property
import ScriptEngine.Host.Program
import ScriptEngine.Storage
import ScriptEngine.Value.Operation

/-!
# Commands

All that an evaluation does to the world, apart from the frames of calls, it does by commands.  A
command reads or changes the world in one go, and evaluates nothing.
-/

namespace ScriptEngine

namespace World

/-! ### What the commands do -/

/-- The function that an engine has under a name, with its signature, if it takes `count`
arguments. -/
def findFunction (e : Id .engine) (name : String) (count : Nat) :
    Action World (Id .function × String) := do
  let w ← Action.state
  match w.functionNamed? e name with
  | none => Action.fail (.of (.undefinedFunction name))
  | some f =>
    let function := (w.function? f).getD default
    if function.parameterCount ≠ count then
      Action.fail (.of (.arityMismatch name function.parameterCount count))
    else
      return (f, function.signature)

/-- The callback that an engine has under a name, if it takes `count` arguments. -/
def findCallback (e : Id .engine) (name : String) (count : Nat) : Action World (Id .callback) := do
  let w ← Action.state
  match w.callbackNamed? e name with
  | none => Action.fail (.of (.undefinedCallback name))
  | some c =>
    let callback := (w.callback? c).getD default
    if callback.parameterCount ≠ count then
      Action.fail (.of (.arityMismatch name callback.parameterCount count))
    else
      return c

/-- Refuse a call of an API class that passes another number of arguments than its slot takes. -/
def checkApiCall (e : Id .engine) (object : NativeRef) (function : Name) (slot : FunctionSlot)
    (count : Nat) : Action World Unit := do
  if count ≠ slot.numArgs then
    let label := object.className ++ "." ++ (← Action.state).lookup e function
    Action.fail (.of (.arityMismatch label slot.numArgs count))

/-- The object and the function that a call on an object means, where the variable that it names
holds `v`. -/
def findMethod (e : Id .engine) (target : VarRef) (v : Value) (function : Name) (count : Nat) :
    Action World Resolution := do
  let w ← Action.state
  match v with
  | .native object =>
    match (w.apiClass object).slot? function with
    | none => Action.fail (.of (.undefinedApiFunction object.className (w.lookup e function)))
    | some slot =>
      if slot.numArgs ≠ count then
        Action.fail (.of (.arityMismatch (w.lookup e function) slot.numArgs count))
      else
        return (object, slot)
  | .undefined => Action.fail (.of (.objectMissing (target.nameText w e)))
  | other => Action.fail (.of (.notANativeObject other.typeName))

end World

/-! ### Commands -/

/-- What an evaluation does to the world in one go. -/
inductive Command : Type → Type where
  /-- Read a variable. -/
  | get (scope : Scope) (target : VarRef) : Command Value
  /-- See to it that the function of a parameter is there. -/
  | requireFunction (scope : Scope) (target : VarRef) (f : Id .function) : Command Unit
  /-- Hand over the argument of a parameter, or fail where there is none. -/
  | deliver (scope : Scope) (n : Name) (argument : Option Value) : Command Value
  /-- Write a variable. -/
  | set (scope : Scope) (target : VarRef) (v : Value) : Command Unit
  /-- Go one call deeper. -/
  | deeper (scope : Scope) : Command Scope
  /-- The body of a function. -/
  | functionBody (f : Id .function) : Command (Option Stmt)
  /-- The body of a callback. -/
  | callbackBody (c : Id .callback) : Command (Option Stmt)
  /-- Remember the result of an invocation. -/
  | keepResult (f : Id .function) (v : Value) : Command Unit
  /-- Find a function by its name. -/
  | findFunction (e : Id .engine) (name : String) (count : Nat) : Command (Id .function × String)
  /-- Find a callback by its name. -/
  | findCallback (e : Id .engine) (name : String) (count : Nat) : Command (Id .callback)
  /-- Report an error. -/
  | report (e : Id .engine) (error : EvalError) : Command Unit
  /-- The class of a native object. -/
  | apiClass (object : NativeRef) : Command Host.ApiClass
  /-- Check the number of arguments of a call of an API class. -/
  | checkApiCall (e : Id .engine) (object : NativeRef) (function : Name) (slot : FunctionSlot)
      (count : Nat) : Command Unit
  /-- What an object call was resolved to. -/
  | resolution (site : Id .callSite) : Command (Option Resolution)
  /-- Find what an object call means. -/
  | findMethod (e : Id .engine) (target : VarRef) (v : Value) (function : Name) (count : Nat) :
      Command Resolution
  /-- Keep what an object call was resolved to. -/
  | keepResolution (site : Id .callSite) (r : Resolution) : Command Unit
  /-- Apply a binary operator. -/
  | compute (op : BinaryOp) (left right : Value) : Command Value
  /-- Make an array. -/
  | newArray (items : List Value) : Command Value
  /-- Make an object. -/
  | newObject (properties : PropertyBag) : Command Value
  /-- Read `object.property`. -/
  | readMember (e : Id .engine) (object : Value) (property : Name) : Command Value
  /-- Read `object[index]`. -/
  | readIndex (e : Id .engine) (object index : Value) : Command Value
  /-- Run machine code on slots, which are lost afterwards. -/
  | runCode (code : MachineCode) (slots : List Value) : Command Unit
  /-- The memory, for a host function. -/
  | memory : Command Memory
  /-- Change the memory, for a host function. -/
  | modifyMemory (change : Memory → Memory) : Command Unit
  /-- Make an array or an object, for a host function. -/
  | allocate (make : Memory → Value × Memory) : Command Value
  /-- The text of a value, for a host function. -/
  | display (v : Value) : Command String
  /-- The frame of the function that an engine has under a name, for a host function. -/
  | inspectFrame (e : Id .engine) (name : String) : Command Host.FrameView

namespace Command

/-- Carry out a command. -/
def run : {α : Type} → Command α → Action World α
  | _, get scope target => target.get scope
  | _, requireFunction scope target f => do
    let _ ← target.functionOf scope f
  | _, deliver scope n argument => VarRef.deliver scope n argument
  | _, set scope target v => target.set scope v
  | _, deeper scope => scope.deeper
  | _, functionBody f => do return ((← Action.state).function? f).bind (·.body)
  | _, callbackBody c => do return ((← Action.state).callback? c).bind (·.body)
  | _, keepResult f v => Action.change (·.setLastResult f v)
  | _, findFunction e name count => World.findFunction e name count
  | _, findCallback e name count => World.findCallback e name count
  | _, report e error => Action.change (·.report e error)
  | _, apiClass object => do return (← Action.state).apiClass object
  | _, checkApiCall e object function slot count =>
    World.checkApiCall e object function slot count
  | _, resolution site => do return (← Action.state).resolution? site
  | _, findMethod e target v function count => World.findMethod e target v function count
  | _, keepResolution site r => Action.change (·.setResolution site r)
  | _, compute op left right => do
    Action.ofOption (op.compute? (← Action.state).memory left right)
  | _, newArray items => Action.update (·.allocate (·.newArray items.toArray))
  | _, newObject properties => Action.update (·.allocate (·.newObject properties))
  | _, readMember e object property => do
    Action.ofResult ((← Action.state).readMember e object property)
  | _, readIndex e object index => do
    Action.ofResult (← Action.ofOption ((← Action.state).readIndex? e object index))
  | _, runCode code slots => Action.change (·.modifyMemory fun m => (code slots m).2)
  | _, memory => do return (← Action.state).memory
  | _, modifyMemory change => Action.change (·.modifyMemory change)
  | _, allocate make => Action.update (·.allocate make)
  | _, display v => do Action.ofOption ((← Action.state).memory.display? v)
  | _, inspectFrame e name => do
    let w ← Action.state
    return ((w.functionNamed? e name).bind w.function?).map (·.frame)

end Command

end ScriptEngine
