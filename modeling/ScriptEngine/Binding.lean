import ScriptEngine.World

/-!
# Binding

What a front end asks of an engine while it builds trees: names are bound to storage, and calls to
what they call.  A call that cannot be bound is refused with an error at the location of the call.
The counts that a node relies on are checked here where the target is known already, and on
evaluation where it is not.
-/

namespace ScriptEngine

/-- The largest number of arguments of a call of an API class. -/
def maxApiArgs : Nat := 5

/-- The largest number of arguments of a call on an object. -/
def maxObjectArgs : Nat := 4

/-- The settings of a new engine. -/
structure EngineConfig where
  maxCallDepth : Nat := defaultMaxCallDepth
  reporter : Reporter := .log
  printer : Printer := .console
  compiler : SnippetCompiler := .unavailable "cc"
deriving Inhabited

namespace World

variable (w : World) (e : Id .engine)

/-! ### Definitions -/

/-- The slot of a register variable, which is new if the name has none. -/
def declareRegister (name : String) : Nat × World :=
  let (n, w) := w.intern e name
  let (i, register) := (w.engine e).register.declare n
  (i, w.modifyEngine e fun engine => { engine with register })

/-- Make an API class callable under its name, in the place of an older one. -/
def registerApiClass (c : Host.ApiClass) : NativeRef × World :=
  let (n, w) := w.intern e c.name
  let (object, w) := w.addNative c
  (object, w.modifyEngine e fun engine =>
    { engine with apiClasses := engine.apiClasses.insert n object })

/-- Define a function without a body, in the place of an older one of its name. -/
def defineFunction (name : String) (parameters : List String) : Id .function × World :=
  let (n, w) := w.intern e name
  let (ps, w) := w.internAll e parameters
  let (f, functions) := w.functions.add (.define n name ps parameters)
  (f, { w with functions }.modifyEngine e fun engine =>
    { engine with functions := engine.functions.insert n f })

/-- Define a callback without a body, in the place of an older one of its name. -/
def defineCallback (name : String) (parameters : List String) : Id .callback × World :=
  let (n, w) := w.intern e name
  let (ps, w) := w.internAll e parameters
  let (c, callbacks) := w.callbacks.add (.define n name ps)
  (c, { w with callbacks }.modifyEngine e fun engine =>
    { engine with callbacks := engine.callbacks.insert n c })

/-- Declare a native snippet, in the place of an older one of its name, and compile it. -/
def declareSnippet (d : SnippetDeclaration) : Snippet × World :=
  let (n, w) := w.intern e d.name
  let snippet := Snippet.compile (w.engine e).compiler d
  (snippet, w.modifyEngine e fun engine =>
    { engine with snippets := engine.snippets.insert n snippet })

/-- A new engine with the classes of every engine.  It has an interner of its own unless it shares
one. -/
def newEngine (config : EngineConfig) (shared : Option (Id .interner)) : Id .engine × World :=
  let (interner, memory) := match shared with
    | some i => (i, w.memory)
    | none => w.memory.newInterner
  let (printer, memory) := memory.newPrinter config.printer
  let (lengthName, memory) := memory.intern interner "length"
  let (e, engines) := w.engines.add
    { interner, printer, lengthName
      maxCallDepth := config.maxCallDepth
      reporter := config.reporter
      compiler := config.compiler
      register := .empty
      globals := ∅
      functions := ∅
      callbacks := ∅
      snippets := ∅
      apiClasses := ∅ }
  let (console, memory) := Host.consoleClass memory interner printer
  let (_, w) := { w with memory, engines }.registerApiClass e console
  let (math, memory) := Host.mathClass w.memory interner
  let (_, w) := { w with memory }.registerApiClass e math
  (e, w)

/-! ### References -/

/-- A reference to a register variable, which is declared if need be. -/
def registerRef (name : String) : VarRef × World :=
  let (i, w) := w.declareRegister e name
  (.register i, w)

/-- A reference to a global. -/
def globalRef (name : String) : VarRef × World :=
  let (n, w) := w.intern e name
  (.global n, w)

/-- A reference to a parameter of a function, if it has so many. -/
def parameterRef? (f : Id .function) (index : Nat) : Option VarRef := do
  let function ← w.function? f
  let n ← function.parameters[index]?
  return .parameter f index n

/-- A reference to a parameter of a callback, if it has so many. -/
def callbackParameterRef? (c : Id .callback) (index : Nat) : Option VarRef := do
  let callback ← w.callback? c
  let n ← callback.parameters[index]?
  return .callbackParameter c index n

/-! ### Calls -/

/-- Refuse to bind the construct at `l`. -/
def refuse (l : Location) (cause : Cause) : Except EvalError Expr × World :=
  (.error ((EvalError.of cause).withLocation l), w)

/-- Bind a call of a function: it has to pass one argument for each parameter. -/
def bindCall (f : Id .function) (args : List Expr) (l : Location) :
    Except EvalError Expr × World :=
  let function := (w.function? f).getD default
  if args.length ≠ function.parameterCount then
    w.refuse l
      (.arityMismatch (w.lookup e function.name) function.parameterCount args.length)
  else
    (.ok (.mk (.call f function.nextCallSite args) l),
      w.modifyFunction f fun function =>
        { function with nextCallSite := function.nextCallSite.next })

/-- Bind a call of an API class.  Whether the number of arguments is right is found on
evaluation. -/
def bindApiCall (className function : String) (args : List Expr) (l : Location) :
    Except EvalError Expr × World :=
  if maxApiArgs < args.length then
    w.refuse l (.tooManyArguments maxApiArgs args.length)
  else
    match w.apiClassNamed? e className with
    | none => w.refuse l (.objectMissing className)
    | some object =>
      let (n, w) := w.intern e function
      match (w.apiClass object).slot? n with
      | none => w.refuse l (.undefinedApiFunction className function)
      | some slot => (.ok (.mk (.apiCall object n slot args) l), w)

/-- Bind a constant of an API class. -/
def bindConstant (className constant : String) (l : Location) : Except EvalError Expr × World :=
  match w.apiClassNamed? e className with
  | none => w.refuse l (.objectMissing className)
  | some object =>
    let (n, w) := w.intern e constant
    match (w.apiClass object).constant? n with
    | none => w.refuse l (.custom s!"constant {constant} not found in {className}")
    | some v => (.ok (.mk (.apiConstant v) l), w)

/-- Bind a call on the object that a variable will hold. -/
def bindObjectCall (target : VarRef) (function : String) (args : List Expr) (l : Location) :
    Except EvalError Expr × World :=
  if maxObjectArgs < args.length then
    w.refuse l (.tooManyArguments maxObjectArgs args.length)
  else
    let (n, w) := w.intern e function
    let (site, objectCalls) := w.objectCalls.add none
    (.ok (.mk (.objectCall site target n args) l), { w with objectCalls })

/-- Bind a call of a native snippet: it has to pass the declared number of arguments. -/
def bindSnippetCall (snippet : Snippet) (args : List Expr) (l : Location) :
    Except EvalError Expr × World :=
  if maxSnippetArgs < args.length then
    w.refuse l (.tooManyArguments maxSnippetArgs args.length)
  else if args.length ≠ snippet.argumentNames.length then
    w.refuse l (.arityMismatch snippet.name snippet.argumentNames.length args.length)
  else
    (.ok (.mk (.snippetCall snippet args) l), w)

end World

end ScriptEngine
