import ScriptEngine.Evaluation.Evaluator

/-!
# Entries of the host

The host enters an engine by a script, by a function or by a callback.  An error that leaves an entry
is reported once.  The entry by a function or a callback names itself as the context of an error,
unless the error is about the name or the number of arguments.

A host function that a tree calls may enter the engine again.  Such an entry is like any other: it
starts at depth zero and reports its own failure.
-/

namespace ScriptEngine.Evaluator

variable {σ : Type} (r : Evaluator σ)

/-- End an entry of the host: an error is reported. -/
def reported (e : Id .engine) (x : Action σ Value) : Action σ Value := do
  match ← x.attempt with
  | .ok v => return v
  | .error error =>
    r.machine.exec (.report e error)
    Action.fail error

/-- Execute a statement as a script. -/
def execute (e : Id .engine) (script : Stmt) : Action σ Value :=
  r.reported e (r.machine.during .script (r.run (.top e) script))

/-- Call a function of an engine by its name. -/
def callNamed (e : Id .engine) (name : String) (args : List Value) : Action σ Value :=
  r.reported e do
    let (f, signature) ← r.machine.exec (.findFunction e name args.length)
    (r.invokeFunction (.top e) f .host args).mapError (·.withContext signature)

/-- Invoke a callback of an engine by its name. -/
def invokeNamed (e : Id .engine) (name : String) (args : List Value) : Action σ Value :=
  r.reported e do
    let c ← r.machine.exec (.findCallback e name args.length)
    (r.invokeCallback (.top e) c args).mapError (·.withContext name)

/-- Run a host function that a tree of an engine calls. -/
def runHost (e : Id .engine) : Host.Program → Action σ Value
  | .finish result => .ofResult result
  | .read next => do
    let memory ← r.machine.exec .memory
    runHost e (next memory)
  | .write change next => do
    r.machine.exec (.modifyMemory change)
    runHost e next
  | .allocate make next => do
    let v ← r.machine.exec (.allocate make)
    runHost e (next v)
  | .display v next => do
    let text ← r.machine.exec (.display v)
    runHost e (next text)
  | .execute script next => do
    let result ← (r.execute e script).attempt
    runHost e (next result)
  | .callFunction name args next => do
    let result ← (r.callNamed e name args).attempt
    runHost e (next result)
  | .invokeCallback name args next => do
    let result ← (r.invokeNamed e name args).attempt
    runHost e (next result)
  | .inspectFrame name next => do
    let view ← r.machine.exec (.inspectFrame e name)
    runHost e (next view)

end ScriptEngine.Evaluator
