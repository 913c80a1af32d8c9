import ScriptEngine.Tree

/-!
# Function and callback instances

A definition in a script makes an instance, which outlives all of its invocations.  An inline
function has one call frame, and locals that persist; a callback keeps the arguments of its latest
invocation, and locals that each invocation starts without.  The body is attached after the instance
exists, so that it can refer to the instance.
-/

namespace ScriptEngine

/-- An inline function. -/
structure FunctionInstance where
  name : Name
  parameters : List Name
  /-- The parameters as they are written. -/
  parameterNames : List String
  /-- The function and its parameters as they are written, as in `add(a, b)`. -/
  signature : String
  comment : String
  body : Option Stmt
  frame : CallFrame
  /-- The identity of the next call expression that targets the function. -/
  nextCallSite : CallSiteId
  locals : PropertyBag
  /-- The result of the latest invocation that ended without an error. -/
  lastResult : Value
deriving Inhabited

namespace FunctionInstance

/-- A function without a body. -/
def define (name : Name) (nameText : String) (parameters : List Name)
    (parameterNames : List String) : FunctionInstance where
  name
  parameters
  parameterNames
  signature := nameText ++ "(" ++ ", ".intercalate parameterNames ++ ")"
  comment := ""
  body := none
  frame := .idle parameters.length
  nextCallSite := .first
  locals := ∅
  lastResult := .undefined

/-- The number of arguments that a call has to pass. -/
def parameterCount (f : FunctionInstance) : Nat :=
  f.parameters.length

end FunctionInstance

/-- A callback, which the host invokes by name. -/
structure CallbackInstance where
  name : Name
  /-- The name as it is written. -/
  displayName : String
  parameters : List Name
  /-- The arguments of the latest invocation. -/
  arguments : List Value
  locals : PropertyBag
  body : Option Stmt
deriving Inhabited

namespace CallbackInstance

/-- A callback without a body. -/
def define (name : Name) (nameText : String) (parameters : List Name) : CallbackInstance where
  name
  displayName := nameText
  parameters
  arguments := List.replicate parameters.length .undefined
  locals := ∅
  body := none

/-- The number of arguments that the host has to pass. -/
def parameterCount (c : CallbackInstance) : Nat :=
  c.parameters.length

/-- Start an invocation: without locals, and with one argument for each parameter. -/
def enter (c : CallbackInstance) (args : List Value) : CallbackInstance :=
  { c with
    locals := ∅
    arguments := (args.take c.arguments.length) ++
      List.replicate (c.arguments.length - args.length) .undefined }

end CallbackInstance

end ScriptEngine
