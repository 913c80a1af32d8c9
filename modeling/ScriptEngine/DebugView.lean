import ScriptEngine.Text.Quoted
import ScriptEngine.World

/-!
# What developers see

The rows of a debugger panel, and the texts that stand for values, functions and engines in logs.

The panel lists the registers in the order of their slots, then the globals, the functions and the
snippets, each in the order of the shown name.  A row shows the text of a value, so there is no panel
while one of the values has none.

The last three come out of hash tables.  In which order such a table is walked depends on the numbers
of the names and on the history of the table, and it shows wherever rows share a name.  So the panel
is that of a `TableOrder`.
-/

namespace ScriptEngine

/-- What a row of the debugger panel is about. -/
inductive DebugKind where
  | register | global | function | snippet
deriving DecidableEq, Repr

/-- What the debugger shows of one thing. -/
structure DebugInfo where
  name : String
  value : String
  dataType : String
  description : String
deriving DecidableEq, Repr, Inhabited

/-- A row of the debugger panel. -/
structure DebugEntry where
  kind : DebugKind
  info : DebugInfo
deriving DecidableEq, Repr

/-- The documentation of a function: its comment, without blanks around it, and its parameters. -/
def describeFunction (comment : String) (parameters : List String) : String :=
  let comment := String.ofList (Text.trim comment.toList)
  let list := "Parameters: " ++ ", ".intercalate parameters
  if parameters.isEmpty then comment
  else if comment.isEmpty then list
  else comment ++ "\n" ++ list

namespace DebugInfo

/-- A variable, with its name and its value. -/
def ofVariable? (m : Memory) (name : String) (v : Value) : Option DebugInfo := do
  return ⟨name, ← m.display? v, v.typeName, ""⟩

/-- A function, with the result of its latest invocation. -/
def ofFunction? (m : Memory) (f : FunctionInstance) : Option DebugInfo := do
  return ⟨f.signature, ← m.display? f.lastResult, f.lastResult.typeName,
    describeFunction f.comment f.parameterNames⟩

/-- A native snippet. -/
def ofSnippet (s : Snippet) : DebugInfo :=
  ⟨s.signature, if s.isCompiled then "compiled" else "uncompiled", "C function",
    describeFunction s.declaration.comment s.argumentNames⟩

end DebugInfo

/-- Rows in the order of their names; rows of one name keep their order. -/
def sortByName (rows : List DebugInfo) : List DebugInfo :=
  rows.mergeSort fun a b => a.name ≤ b.name

/-- The orders in which the hash tables of an engine are walked: names of a lower rank come first. -/
structure TableOrder where
  globals : Name → Nat := fun _ => 0
  functions : Name → Nat := fun _ => 0
  snippets : Name → Nat := fun _ => 0
deriving Inhabited

/-- The engine with its tables in the order in which they are walked. -/
def Engine.inOrder (engine : Engine) (order : TableOrder) : Engine :=
  { engine with
    globals := engine.globals.inOrder order.globals
    functions := engine.functions.inOrder order.functions
    snippets := engine.snippets.inOrder order.snippets }

/-- The rows of the debugger panel of an engine, whose tables are walked in the given order. -/
def World.debugEntries? (w : World) (order : TableOrder) (e : Id .engine) :
    Option (List DebugEntry) := do
  let engine := (w.engine e).inOrder order
  let variableRow (entry : Name × Value) : Option DebugInfo :=
    DebugInfo.ofVariable? w.memory (w.lookup e entry.1) entry.2
  let registers ← engine.register.entries.mapM variableRow
  let globals ← engine.globals.entries.mapM variableRow
  let functions ← (engine.functions.values.filterMap w.function?).mapM
    (DebugInfo.ofFunction? w.memory)
  let snippets := engine.snippets.values.map DebugInfo.ofSnippet
  return registers.map (⟨.register, ·⟩) ++ (sortByName globals).map (⟨.global, ·⟩) ++
    (sortByName functions).map (⟨.function, ·⟩) ++ (sortByName snippets).map (⟨.snippet, ·⟩)

/-! ### Texts for logs -/

/-- The text of a function. -/
def FunctionInstance.debugText (f : FunctionInstance) : String :=
  s!"FunctionInstance \x7b signature: {Text.quote f.signature}, depth: {f.frame.depth}, .. \x7d"

/-- The text of a callback. -/
def CallbackInstance.debugText (c : CallbackInstance) : String :=
  s!"CallbackInstance \x7b name: {Text.quote c.displayName}, " ++
    s!"parameters: {c.parameterCount}, .. \x7d"

/-- The text of a native snippet. -/
def Snippet.debugText (s : Snippet) : String :=
  s!"NativeFunction \x7b signature: {Text.quote s.signature}, compiled: {s.isCompiled}, .. \x7d"

/-- The text of an API class. -/
def Host.ApiClass.debugText (c : Host.ApiClass) : String :=
  let names := ", ".intercalate (c.functions.toList.map fun f => f.name.debugText)
  s!"ApiClass \x7b name: {Text.quote c.name}, functions: [{names}], " ++
    s!"constants: {c.constants.size} \x7d"

/-- The text of the tables of an engine. -/
def Engine.debugText (engine : Engine) : String :=
  s!"Root \x7b registers: {engine.register.size}, globals: {engine.globals.size}, " ++
    s!"functions: {engine.functions.size}, callbacks: {engine.callbacks.size}, " ++
    s!"natives: {engine.snippets.size}, .. \x7d"

/-- The text of the settings of an engine. -/
def Engine.configText (engine : Engine) : String :=
  s!"EngineConfig \x7b max_call_depth: {engine.maxCallDepth}, .. \x7d"

namespace Memory

/-- The debug text of a value whose arrays and objects nest at most `depth` deep. -/
def debugTextWithin? (m : Memory) : Nat → Value → Option String
  | _, .undefined => some "Undefined"
  | _, .number x => some s!"Number({Number.debugText x})"
  | _, .bool b => some s!"Bool({b})"
  | _, .string s => some s!"Str({Text.quote s})"
  | 0, .array _ | 0, .object _ => none
  | depth + 1, .array a => do
    let items ← (m.items a).toList.mapM (m.debugTextWithin? depth)
    return "Array([" ++ ", ".intercalate items ++ "])"
  | depth + 1, .object o => do
    let properties ← (m.properties o).entries.mapM fun entry => do
      return entry.1.debugText ++ ": " ++ (← m.debugTextWithin? depth entry.2)
    return "Object(PropertyBag \x7b properties: \x7b" ++ ", ".intercalate properties ++ "\x7d \x7d)"
  | _, .native o => some s!"Native({o.className})"

/-- The debug text of a value, unless it holds itself. -/
def debugText? (m : Memory) (v : Value) : Option String :=
  m.debugTextWithin? (m.arrays.size + m.objects.size + 1) v

end Memory

end ScriptEngine
