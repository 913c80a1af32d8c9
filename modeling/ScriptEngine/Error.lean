import ScriptEngine.Location

/-!
# Evaluation errors

An error has a `Cause`, and it picks up a location and a context on its way out: the innermost node
with a location stamps it, and the host entry that it leaves names itself as the context.  Neither is
ever replaced.  All wording is in `Cause.message` and `EvalError.text`.
-/

namespace ScriptEngine

/-- Why an evaluation, or the building of a tree, fails. -/
inductive Cause where
  /-- A native object has no function of this name. -/
  | undefinedApiFunction (className function : String)
  /-- A call passes another number of arguments than the callee takes. -/
  | arityMismatch (function : String) (expected got : Nat)
  /-- A call passes more arguments than its kind of call supports. -/
  | tooManyArguments (max got : Nat)
  /-- The object that a call names is not there. -/
  | objectMissing (name : String)
  /-- The value that a call names is no native object. -/
  | notANativeObject (typeName : String)
  /-- The host asks for a callback that was never defined. -/
  | undefinedCallback (name : String)
  /-- The host asks for an inline function that was never defined. -/
  | undefinedFunction (name : String)
  /-- A parameter is read while its function does not run. -/
  | parameterOutsideCall (name : String)
  /-- A reference outlived the function or callback that it belongs to. -/
  | danglingFunction (name : String)
  /-- A native snippet was never compiled. -/
  | uncompiledFunction (name : String)
  /-- A native snippet declares a return value, which cannot be passed on. -/
  | unsupportedNativeReturn (name : String)
  /-- A parameter is assigned to. -/
  | readOnlyReference (name : String)
  /-- Calls are nested too deeply. -/
  | recursionLimit (depth : Nat)
  /-- A property of `undefined` is read. -/
  | propertyOfUndefined (property : String)
  /-- A host function fails. -/
  | native (message : String)
  /-- Any other failure that the host words itself. -/
  | custom (message : String)
deriving DecidableEq, Repr, Inhabited

/-- The wording of a cause. -/
def Cause.message : Cause → String
  | undefinedApiFunction className function => s!"function {function} not found in {className}"
  | arityMismatch function expected got =>
    let noun := if expected = 1 then "argument" else "arguments"
    s!"{function} expects {expected} {noun}, got {got}"
  | tooManyArguments max got => s!"too many arguments: at most {max} supported, got {got}"
  | objectMissing name => s!"object {name} does not exist"
  | notANativeObject typeName => s!"{typeName} is not an API object"
  | undefinedCallback name => s!"callback {name} is not defined"
  | undefinedFunction name => s!"function {name} is not defined"
  | parameterOutsideCall name => s!"accessing parameter reference {name} outside the function call"
  | danglingFunction name => s!"{name} belongs to a function that no longer exists"
  | uncompiledFunction name => s!"trying to call uncompiled function {name}"
  | unsupportedNativeReturn name =>
    s!"native function {name} declares a return value, which is not supported"
  | readOnlyReference name => s!"cannot assign to {name}"
  | recursionLimit depth => s!"maximum call depth exceeded (limit: {depth})"
  | propertyOfUndefined property => s!"cannot read property {property} of undefined"
  | native message => message
  | custom message => message

/-- A failed evaluation: its cause, the location of the node that claimed it, and the callback or
function that the host had entered. -/
structure EvalError where
  cause : Cause
  location : Option Location
  context : Option String
deriving DecidableEq, Repr, Inhabited

namespace EvalError

/-- An error that no node has claimed yet. -/
def of (cause : Cause) : EvalError :=
  ⟨cause, none, none⟩

/-- The wording of the cause. -/
def message (e : EvalError) : String :=
  e.cause.message

/-- Claim the error for a location, unless one is there already. -/
def withLocation (e : EvalError) (l : Location) : EvalError :=
  { e with location := e.location.or (some l) }

/-- Name the context, unless one is there already. -/
def withContext (e : EvalError) (context : String) : EvalError :=
  { e with context := e.context.or (some context) }

/-- Claim the error for the node at `l`; a node without a place in the script claims nothing. -/
def locate (e : EvalError) (l : Location) : EvalError :=
  if l.isKnown then e.withLocation l else e

/-- A node has claimed the error. -/
def isLocated (e : EvalError) : Bool :=
  e.location.isSome

/-- The text that the host shows: the context, a location that points into the script, and the
message. -/
def text (e : EvalError) : String :=
  let context := match e.context with
    | some c => c ++ ": "
    | none => ""
  let place := match e.location with
    | some l => if l.isKnown then l.text ++ ": " else ""
    | none => ""
  context ++ place ++ e.message

end EvalError

end ScriptEngine
