import ScriptEngine.Host.Builtin
import ScriptEngine.Instance
import ScriptEngine.Register
import ScriptEngine.Reporter

/-!
# The world

All state in one value: the shared memory, the API classes, the instances of functions and callbacks,
the engines, and the resolutions of object calls.  An engine owns its register and its globals, and
it finds by name what scripts have defined on it.
-/

namespace ScriptEngine

/-- The nesting of calls that an engine allows unless it is told otherwise. -/
def defaultMaxCallDepth : Nat := 512

/-- One script engine. -/
structure Engine where
  interner : Id .interner
  /-- How deeply calls of functions and callbacks may nest. -/
  maxCallDepth : Nat
  reporter : Reporter
  printer : Id .printer
  compiler : SnippetCompiler
  register : Register
  globals : PropertyBag
  functions : NameMap (Id .function)
  callbacks : NameMap (Id .callback)
  snippets : NameMap Snippet
  apiClasses : NameMap NativeRef
  /-- The name `length`. -/
  lengthName : Name
deriving Inhabited

/-- What an object call found on its first successful evaluation. -/
abbrev Resolution := NativeRef × FunctionSlot

/-- All state. -/
structure World where
  memory : Memory
  natives : Pool .native Host.ApiClass
  functions : Pool .function FunctionInstance
  callbacks : Pool .callback CallbackInstance
  engines : Pool .engine Engine
  objectCalls : Pool .callSite (Option Resolution)
deriving Inhabited

namespace World

/-- The world without anything in it. -/
def empty : World := ⟨.empty, .empty, .empty, .empty, .empty, .empty⟩

/-! ### Looking things up -/

/-- The engine that `e` refers to. -/
def engine (w : World) (e : Id .engine) : Engine :=
  (w.engines.get? e).getD default

/-- The class of a native object. -/
def apiClass (w : World) (o : NativeRef) : Host.ApiClass :=
  (w.natives.get? o.id).getD (.named o.className)

/-- The function that `f` refers to, while it exists. -/
def function? (w : World) (f : Id .function) : Option FunctionInstance :=
  w.functions.get? f

/-- The callback that `c` refers to, while it exists. -/
def callback? (w : World) (c : Id .callback) : Option CallbackInstance :=
  w.callbacks.get? c

/-- The interner of an engine. -/
def interner (w : World) (e : Id .engine) : Interner :=
  w.memory.interner (w.engine e).interner

/-- The text of a name, as an engine reads it. -/
def lookup (w : World) (e : Id .engine) (n : Name) : String :=
  (w.interner e).lookup n

/-- The function that an engine currently has under a name. -/
def functionNamed? (w : World) (e : Id .engine) (name : String) : Option (Id .function) := do
  (w.engine e).functions.get? (← (w.interner e).get? name)

/-- The callback that an engine currently has under a name. -/
def callbackNamed? (w : World) (e : Id .engine) (name : String) : Option (Id .callback) := do
  (w.engine e).callbacks.get? (← (w.interner e).get? name)

/-- The snippet that an engine currently has under a name. -/
def snippetNamed? (w : World) (e : Id .engine) (name : String) : Option Snippet := do
  (w.engine e).snippets.get? (← (w.interner e).get? name)

/-- The API class that an engine currently has under a name. -/
def apiClassNamed? (w : World) (e : Id .engine) (name : String) : Option NativeRef := do
  (w.engine e).apiClasses.get? (← (w.interner e).get? name)

/-- What an object call was resolved to, if it was. -/
def resolution? (w : World) (site : Id .callSite) : Option Resolution :=
  (w.objectCalls.get? site).join

/-! ### Changing things -/

/-- Change the memory. -/
def modifyMemory (w : World) (f : Memory → Memory) : World :=
  { w with memory := f w.memory }

/-- Put a new array or object into the memory. -/
def allocate (w : World) (f : Memory → Value × Memory) : Value × World :=
  let (v, memory) := f w.memory
  (v, { w with memory })

/-- Change an engine. -/
def modifyEngine (w : World) (e : Id .engine) (f : Engine → Engine) : World :=
  { w with engines := w.engines.update e f }

/-- Change a function. -/
def modifyFunction (w : World) (i : Id .function) (f : FunctionInstance → FunctionInstance) :
    World :=
  { w with functions := w.functions.update i f }

/-- Change a callback. -/
def modifyCallback (w : World) (i : Id .callback) (f : CallbackInstance → CallbackInstance) :
    World :=
  { w with callbacks := w.callbacks.update i f }

/-- Intern a text in the interner of an engine. -/
def intern (w : World) (e : Id .engine) (s : String) : Name × World :=
  let (n, memory) := w.memory.intern (w.engine e).interner s
  (n, { w with memory })

/-- Intern several texts, in order. -/
def internAll (w : World) (e : Id .engine) : List String → List Name × World
  | [] => ([], w)
  | s :: rest =>
    let (n, w) := w.intern e s
    let (ns, w) := w.internAll e rest
    (n :: ns, w)

/-- Hand an error to the reporter of an engine. -/
def report (w : World) (e : Id .engine) (error : EvalError) : World :=
  w.modifyEngine e fun engine => { engine with reporter := engine.reporter.report error }

/-- Put a value into a slot of the register. -/
def setRegister (w : World) (e : Id .engine) (i : Nat) (v : Value) : World :=
  w.modifyEngine e fun engine => { engine with register := engine.register.set i v }

/-- Put a value into a global. -/
def setGlobal (w : World) (e : Id .engine) (n : Name) (v : Value) : World :=
  w.modifyEngine e fun engine => { engine with globals := engine.globals.insert n v }

/-- Put a value into a local of a function. -/
def setLocal (w : World) (f : Id .function) (n : Name) (v : Value) : World :=
  w.modifyFunction f fun function => { function with locals := function.locals.insert n v }

/-- Put a value into a local of a callback. -/
def setCallbackLocal (w : World) (c : Id .callback) (n : Name) (v : Value) : World :=
  w.modifyCallback c fun callback => { callback with locals := callback.locals.insert n v }

/-- Remember the result of an invocation. -/
def setLastResult (w : World) (f : Id .function) (v : Value) : World :=
  w.modifyFunction f fun function => { function with lastResult := v }

/-- Keep the resolution of an object call. -/
def setResolution (w : World) (site : Id .callSite) (r : Resolution) : World :=
  { w with objectCalls := w.objectCalls.set site (some r) }

/-- Add an API class, which nothing refers to by name yet. -/
def addNative (w : World) (c : Host.ApiClass) : NativeRef × World :=
  let (id, natives) := w.natives.add c
  (⟨id, c.name⟩, { w with natives })

end World

end ScriptEngine
