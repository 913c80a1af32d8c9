import ScriptEngine.DebugView
import ScriptEngine.Session.Build
import ScriptEngine.Session.Snapshot

/-!
# What a host asks, and what it is told

The operations of a session and the answers to them.  Each operation is asked of one engine; handles
are names that the host gives to functions, callbacks, snippets, statements and values.
-/

namespace ScriptEngine.Session

/-- What a host asks. -/
inductive Operation where
  /-- Start the engine, which may share the interner of another one.  Its snippets are compiled by
  the given compiler, or else to the symbols of the session. -/
  | newEngine (share : Option String) (maxCallDepth : Nat) (reporter : Reporter) (printer : Printer)
    (compiler : Option SnippetCompiler := none)
  | dropEngine
  | registerClass (form : ClassForm)
  /-- Keep a value under a name. -/
  | keep (id : String) (value : ValueForm)
  | defineFunction (handle name : String) (parameters : List String)
  | setFunctionBody (handle : String) (body : StmtForm)
  | setComment (handle text : String)
  | dropFunction (handle : String)
  | defineCallback (handle name : String) (parameters : List String)
  | setCallbackBody (handle : String) (body : StmtForm)
  | dropCallback (handle : String)
  | declareSnippet (handle : String) (declaration : SnippetDeclaration)
  | execute (script : StmtForm)
  /-- Keep a statement without executing it. -/
  | store (id : String) (script : StmtForm)
  /-- Execute a statement that was kept. -/
  | run (id : String)
  | dropStatement (id : String)
  /-- Ask whether the object call in a kept statement is resolved. -/
  | isResolved (id : String)
  /-- Evaluate an expression outside of all calls. -/
  | evaluate (e : ExprForm)
  /-- Perform a statement outside of all calls. -/
  | perform (s : StmtForm)
  | call (name : String) (args : List ValueForm)
  | invoke (name : String) (args : List ValueForm)
  | declareRegister (name : String)
  | readRegister (name : String)
  | writeRegister (name : String) (value : ValueForm)
  | readGlobal (name : String)
  | writeGlobal (name : String) (value : ValueForm)
  /-- Write a variable, if a value is given, and read it. -/
  | useReference (target : RefForm) (value : Option ValueForm)
  | output
  | clearOutput
  | reports
  /-- Take the reports. -/
  | drainReports
  | ticks
  | debug
  | engineInfo
  | functionInfo (handle : String) (locals : List String)
  | callbackInfo (handle : String) (locals : List String)
  | snippetInfo (name : String)
deriving Inhabited

/-- What a host is told about a variable. -/
structure ReferenceInfo where
  name : String
  writable : Bool
  /-- The outcome of the write, if there was one. -/
  written : Option (Except EvalError Unit)
  read : Except EvalError Snapshot

/-- What a host is told about a function. -/
structure FunctionInfo where
  name : String
  parameters : List String
  signature : String
  comment : String
  hasBody : Bool
  active : Bool
  activeCall : String
  lastResult : Snapshot
  debug : DebugInfo
  locals : List Snapshot
  /-- The engine has this very function under its name. -/
  current : Bool
  text : String

/-- What a host is told about a callback. -/
structure CallbackInfo where
  name : String
  parameters : List String
  locals : List Snapshot
  text : String

/-- What a host is told. -/
inductive Answer where
  /-- It was done. -/
  | done
  | value (v : Snapshot)
  | failed (error : EvalError)
  /-- A tree could not be built. -/
  | unbuilt (error : BuildError)
  /-- How a statement ended, and the value to return. -/
  | performed (result : Except EvalError Signal) (returned : Snapshot)
  | number (n : Nat)
  | text (s : String)
  | texts (ss : List String)
  | resolved (state : Option Bool)
  /-- The slot and the value of a register variable, if it was declared. -/
  | register (slot : Option (Nat × Snapshot))
  | reference (info : ReferenceInfo)
  | debug (entries : List DebugEntry)
  | engine (text configText : String) (maxCallDepth : Nat)
  | function (info : FunctionInfo)
  | callback (info : CallbackInfo)
  | snippet (declared : Option Snippet)
  /-- The evaluation did not end within its bound, or a value that holds itself had to be shown. -/
  | diverged
deriving Inhabited

end ScriptEngine.Session
