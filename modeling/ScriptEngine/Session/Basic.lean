import ScriptEngine.Evaluation.Basic
import ScriptEngine.Ownership
import ScriptEngine.Session.Operation
import ScriptEngine.Session.Symbols

/-!
# Sessions

A session is a host at work: the world, and the handles that the host holds.  Each operation gives an
answer and the session after it.  What the host lets go of is released at the end of the operation,
together with all that only it kept alive.
-/

namespace ScriptEngine

/-- A host at work. -/
structure Session where
  world : World
  handles : Session.Handles
  /-- The counter of the symbol `tick`. -/
  ticks : Id .counter
  /-- The orders in which the hash tables of an engine are walked, as it is at that moment. -/
  order : Engine → TableOrder := fun _ => {}
deriving Inhabited

namespace Session

/-- A session without engines. -/
def new : Session :=
  let (ticks, counters) := Pool.empty.add 0
  { world := { World.empty with memory := { Memory.empty with counters } }
    handles := {}
    ticks }

/-- What the host holds.  What functions of API classes have captured is held as long as their
engine. -/
def holdings (s : Session) : Holdings where
  functions := s.handles.functions.values
  callbacks := s.handles.callbacks.values
  trees := s.handles.statements.values ++ s.handles.captured.values.flatten

/-- Release what nothing holds any more. -/
def settle (s : Session) : Session :=
  { s with world := s.world.settle s.holdings }

/-! ### Answers -/

variable (s : Session) (e : Id .engine)

/-- The snapshot of a value, as an engine names its properties. -/
def snapshot? (v : Value) : Option Snapshot :=
  Snapshot.ofValue? s.world.memory (s.world.engine e).interner v

/-- Answer with a value. -/
def answerValue (v : Value) : Answer × Session :=
  match s.snapshot? e v with
  | some snapshot => (.value snapshot, s)
  | none => (.diverged, s)

/-- Answer with what is there, unless it cannot be shown. -/
def answerOption {α : Type} (form : α → Answer) (a : Option α) : Answer × Session :=
  match a with
  | some a => (form a, s)
  | none => (.diverged, s)

/-- Build something from a form, and go on with it. -/
def build {α : Type} (b : Build α) (next : α → Session → Answer × Session) : Answer × Session :=
  match b s.world with
  | (.ok a, world) => next a { s with world }
  | (.error error, world) => (.unbuilt error, { s with world })

/-- Evaluate something and answer with its result. -/
def answerResult (x : Action World Value) : Answer × Session :=
  match x s.world with
  | .done v world => { s with world }.answerValue e v
  | .failed error world => (.failed error, { s with world })
  | .diverged => (.diverged, s)

/-- Make a value from a form. -/
def make (form : ValueForm) : Value × Session :=
  let (v, world) := s.handles.make e form s.world
  (v, { s with world })

/-- Make several values from forms. -/
def makeAll (forms : List ValueForm) : List Value × Session :=
  let (vs, world) := s.handles.makeAll e forms s.world
  (vs, { s with world })

/-- Change the world. -/
def modify (f : World → World) : Session :=
  { s with world := f s.world }

/-- Change the world and get something from it. -/
def bindWorld {α : Type} (f : World → α × World) : α × Session :=
  let (a, world) := f s.world
  (a, { s with world })

/-- The function of a handle. -/
def functionOf (handle : String) : Id .function :=
  (s.handles.functions.get? handle).getD default

/-- The callback of a handle. -/
def callbackOf (handle : String) : Id .callback :=
  (s.handles.callbacks.get? handle).getD default

/-! ### Operations -/

/-- Start an engine under a name, in the place of an older one. -/
def startEngine (name : String) (share : Option String) (config : EngineConfig) : Session :=
  let shared := do
    return (s.world.engine (← s.handles.engines.get? (← share))).interner
  let (e, world) := s.world.newEngine config shared
  let world := match s.handles.engines.get? name with
    | some old => world.dropEngine old
    | none => world
  { s with
    world
    handles := { s.handles with
      engines := s.handles.engines.insert name e
      captured := s.handles.captured.erase name } }

/-- Drop the engine of a name. -/
def dropEngine (name : String) : Session :=
  match s.handles.engines.get? name with
  | some e =>
    { s with
      world := s.world.dropEngine e
      handles := { s.handles with
        engines := s.handles.engines.erase name
        captured := s.handles.captured.erase name } }
  | none => s

/-- Define a function and give it a handle. -/
def defineFunction (handle name : String) (parameters : List String) : Answer × Session :=
  let (f, s) := s.bindWorld (·.defineFunction e name parameters)
  let signature := ((s.world.function? f).map (·.signature)).getD ""
  (.text signature,
    { s with handles := { s.handles with functions := s.handles.functions.insert handle f } })

/-- Define a callback and give it a handle. -/
def defineCallback (handle name : String) (parameters : List String) : Session :=
  let (c, s) := s.bindWorld (·.defineCallback e name parameters)
  { s with handles := { s.handles with callbacks := s.handles.callbacks.insert handle c } }

/-- Declare a native snippet and give it a handle. -/
def declareSnippet (handle : String) (d : SnippetDeclaration) : Answer × Session :=
  let (snippet, s) := s.bindWorld (·.declareSnippet e d)
  (.snippet (some snippet),
    { s with handles := { s.handles with snippets := s.handles.snippets.insert handle snippet } })

/-- Keep scripts as long as the engine of a name. -/
def capture (engineName : String) (scripts : List Stmt) : Session :=
  let captured := (s.handles.captured.get? engineName).getD []
  { s with
    handles := { s.handles with
      captured := s.handles.captured.insert engineName (captured ++ scripts) } }

/-- Register an API class. -/
def registerClass (engineName : String) (form : ClassForm) : Answer × Session :=
  let statements := s.handles.statements
  let (c, s) := s.bindWorld (form.make (s.handles.valueScope s.world e) · statements)
  let s := s.capture engineName (form.captured statements)
  let (object, s) := s.bindWorld (·.registerApiClass e c)
  s.answerValue e (.native object)

/-- Whether the object call in a statement is resolved, if the statement is the call or returns
it. -/
def resolutionState (script : Stmt) : Option Bool :=
  let call : Option Expr := match script.node with
    | .expr a => some a
    | .returnValue a => a
    | _ => none
  match call.map Expr.node with
  | some (.objectCall site _ _ _) => some (s.world.resolution? site).isSome
  | _ => none

/-- Perform a statement outside of all calls. -/
def performStatement (bound : Nat) (script : Stmt) : Answer × Session :=
  let finish (result : Except EvalError Signal) (a : Activation World) : Answer × Session :=
    let s := { s with world := a.state }
    s.answerOption (.performed result) (s.snapshot? e a.returned)
  match ScriptEngine.perform .shared bound (.top e) script ⟨s.world, .undefined⟩ with
  | .done signal a => finish (.ok signal) a
  | .failed error a => finish (.error error) a
  | .diverged => (.diverged, s)

/-- Read a register variable. -/
def readRegister (name : String) : Answer × Session :=
  let (n, s) := s.bindWorld (·.intern e name)
  let register := (s.world.engine e).register
  match register.index? n with
  | some i => s.answerOption (fun v => .register (some (i, v))) (s.snapshot? e (register.get i))
  | none => (.register none, s)

/-- Write a register variable, which is declared if need be.  The value is made first. -/
def writeRegister (name : String) (form : ValueForm) : Session :=
  let (v, s) := s.make e form
  let (i, s) := s.bindWorld (·.declareRegister e name)
  s.modify (·.setRegister e i v)

/-- Read a global. -/
def readGlobal (name : String) : Answer × Session :=
  let (n, s) := s.bindWorld (·.intern e name)
  s.answerValue e ((s.world.engine e).globals.read n)

/-- Write a global.  The value is made before the name is interned. -/
def writeGlobal (name : String) (form : ValueForm) : Session :=
  let (v, s) := s.make e form
  let (n, s) := s.bindWorld (·.intern e name)
  s.modify (·.setGlobal e n v)

/-- Read a variable outside of all calls. -/
def readReference (target : VarRef) : Option (Except EvalError Snapshot) :=
  match (target.get (.top e)).attempt s.world with
  | .done (.ok v) _ => (s.snapshot? e v).map .ok
  | .done (.error error) _ | .failed error _ => some (.error error)
  | .diverged => none

/-- Write a variable outside of all calls. -/
def writeReference (target : VarRef) (form : ValueForm) : Except EvalError Unit × Session :=
  let (v, s) := s.make e form
  match target.set (.top e) v s.world with
  | .done _ world => (.ok (), { s with world })
  | .failed error world => (.error error, { s with world })
  | .diverged => (.ok (), s)

/-- Write a variable, if a value is given, and read it. -/
def useReference (target : VarRef) (value : Option ValueForm) : Answer × Session :=
  let (written, s) := match value with
    | some form =>
      let (result, s) := s.writeReference e target form
      (some result, s)
    | none => (none, s)
  s.answerOption
    (fun read => .reference ⟨target.nameText s.world e, target.isWritable, written, read⟩)
    (s.readReference e target)

/-- The locals of the given names, each interned before its value is shown. -/
def readLocals (s : Session) (e : Id .engine) (locals : PropertyBag) :
    List String → Option (List Snapshot) × Session
  | [] => (some [], s)
  | name :: rest =>
    let (n, s) := s.bindWorld (·.intern e name)
    let first := s.snapshot? e (locals.read n)
    let (others, s) := readLocals s e locals rest
    (do return (← first) :: (← others), s)

/-- Tell about a function.  Asking for locals interns their names, before all else is looked up. -/
def functionInfo (handle : String) (names : List String) : Answer × Session :=
  let id := s.functionOf handle
  let f := (s.world.function? id).getD default
  let (locals, s) := s.readLocals e f.locals names
  let name := s.world.lookup e f.name
  let info : Option FunctionInfo := do
    return {
      name
      parameters := f.parameterNames
      signature := f.signature
      comment := f.comment
      hasBody := f.body.isSome
      active := f.frame.isActive
      activeCall := f.frame.activeCallText
      lastResult := ← s.snapshot? e f.lastResult
      debug := ← DebugInfo.ofFunction? s.world.memory f
      locals := ← locals
      current := s.world.functionNamed? e name == some id
      text := f.debugText }
  s.answerOption .function info

/-- Tell about a callback.  Asking for locals interns their names, after the parameters were looked
up. -/
def callbackInfo (handle : String) (names : List String) : Answer × Session :=
  let c := (s.world.callback? (s.callbackOf handle)).getD default
  let parameters := c.parameters.map (s.world.lookup e)
  let (locals, s) := s.readLocals e c.locals names
  let info : Option CallbackInfo := do
    return {
      name := c.displayName
      parameters
      locals := ← locals
      text := c.debugText }
  s.answerOption .callback info

/-- Carry out an operation on the engine of a name, before anything is released. -/
def carryOut (bound : Nat) (engineName : String) (op : Operation) : Answer × Session :=
  let e := (s.handles.engines.get? engineName).getD default
  let r := Evaluator.shared bound
  match op with
  | .newEngine share maxCallDepth reporter printer compiler =>
    (.done, s.startEngine engineName share
      ⟨maxCallDepth, reporter, printer, compiler.getD (.table (allLinked s.ticks))⟩)
  | .dropEngine => (.done, s.dropEngine engineName)
  | .registerClass form => s.registerClass e engineName form
  | .keep id form =>
    let (v, s) := s.make e form
    (.done, { s with handles := { s.handles with values := s.handles.values.insert id v } })
  | .defineFunction handle name parameters => s.defineFunction e handle name parameters
  | .setFunctionBody handle form =>
    s.build (form.bind s.handles e) fun body s =>
      (.done, s.modify (·.modifyFunction (s.functionOf handle) fun f =>
        { f with body := some body }))
  | .setComment handle text =>
    (.done, s.modify (·.modifyFunction (s.functionOf handle) fun f => { f with comment := text }))
  | .dropFunction handle =>
    (.done, { s with
      handles := { s.handles with functions := s.handles.functions.erase handle } })
  | .defineCallback handle name parameters => (.done, s.defineCallback e handle name parameters)
  | .setCallbackBody handle form =>
    s.build (form.bind s.handles e) fun body s =>
      (.done, s.modify (·.modifyCallback (s.callbackOf handle) fun c =>
        { c with body := some body }))
  | .dropCallback handle =>
    (.done, { s with
      handles := { s.handles with callbacks := s.handles.callbacks.erase handle } })
  | .declareSnippet handle d => s.declareSnippet e handle d
  | .execute form =>
    s.build (form.bind s.handles e) fun script s => s.answerResult e (r.execute e script)
  | .store id form =>
    s.build (form.bind s.handles e) fun script s =>
      (.done, { s with
        handles := { s.handles with statements := s.handles.statements.insert id script } })
  | .run id =>
    let script := (s.handles.statements.get? id).getD default
    s.answerResult e (r.execute e script)
  | .dropStatement id =>
    (.done, { s with
      handles := { s.handles with statements := s.handles.statements.erase id } })
  | .isResolved id =>
    (.resolved ((s.handles.statements.get? id).bind s.resolutionState), s)
  | .evaluate form =>
    s.build (form.bind s.handles e .unknown) fun a s =>
      s.answerResult e (r.evaluate (.top e) a)
  | .perform form =>
    s.build (form.bind s.handles e) fun script s => s.performStatement e bound script
  | .call name forms =>
    let (args, s) := s.makeAll e forms
    s.answerResult e (r.callNamed e name args)
  | .invoke name forms =>
    let (args, s) := s.makeAll e forms
    s.answerResult e (r.invokeNamed e name args)
  | .declareRegister name =>
    let (i, s) := s.bindWorld (·.declareRegister e name)
    (.number i, s)
  | .readRegister name => s.readRegister e name
  | .writeRegister name form => (.done, s.writeRegister e name form)
  | .readGlobal name => s.readGlobal e name
  | .writeGlobal name form => (.done, s.writeGlobal e name form)
  | .useReference form value =>
    s.build (form.bind s.handles e) fun target s => s.useReference e target value
  | .output => (.text (s.world.memory.printer (s.world.engine e).printer).output, s)
  | .clearOutput =>
    (.done, s.modify (·.modifyMemory fun m =>
      { m with printers := m.printers.update (s.world.engine e).printer (·.clear) }))
  | .reports => (.texts (s.world.engine e).reporter.reports, s)
  | .drainReports =>
    (.texts (s.world.engine e).reporter.reports,
      s.modify (·.modifyEngine e fun engine => { engine with reporter := engine.reporter.clear }))
  | .ticks => (.number (s.world.memory.counter s.ticks), s)
  | .debug => s.answerOption .debug (s.world.debugEntries? (s.order (s.world.engine e)) e)
  | .engineInfo =>
    let engine := s.world.engine e
    (.engine engine.debugText engine.configText engine.maxCallDepth, s)
  | .functionInfo handle names => s.functionInfo e handle names
  | .callbackInfo handle names => s.callbackInfo e handle names
  | .snippetInfo name => (.snippet (s.world.snippetNamed? e name), s)

/-- Carry out an operation on the engine of a name, and release what is let go of. -/
def step (bound : Nat) (engineName : String) (op : Operation) : Answer × Session :=
  let (answer, s) := s.carryOut bound engineName op
  (answer, s.settle)

end Session

end ScriptEngine
