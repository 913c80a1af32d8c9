import ScriptEngine.Action
import ScriptEngine.World

/-!
# Variables

Reading and writing a variable goes straight to the storage tier that the reference is bound to.  A
reference does not keep its function or callback alive, and fails once that is gone.  Parameters can
be read only; the parameter of a function can be read only while the function runs.

The invocations of one function share one call frame, so that a parameter is the argument of the
invocation that was started last.
-/

namespace ScriptEngine

/-- Where evaluation takes place: the engine, and how many calls are open. -/
structure Scope where
  engine : Id .engine
  depth : Nat
deriving DecidableEq, Repr, Inhabited

namespace Scope

/-- Outside of all calls. -/
def top (e : Id .engine) : Scope := ⟨e, 0⟩

/-- The scope of a body that is called from this one, unless calls are nested too deeply. -/
def deeper (scope : Scope) : Action World Scope := do
  let limit := ((← Action.state).engine scope.engine).maxCallDepth
  if limit ≤ scope.depth then
    Action.fail (.of (.recursionLimit limit))
  else
    return { scope with depth := scope.depth + 1 }

end Scope

namespace VarRef

/-- The identifier that a reference was bound from.  A slot beyond the register of the engine has no
name, and reads as the empty one. -/
def name (target : VarRef) (w : World) (e : Id .engine) : Name :=
  match target with
  | register i => ((w.engine e).register.name? i).getD .empty
  | global n | functionLocal _ n | callbackLocal _ n | parameter _ _ n | callbackParameter _ _ n => n

/-- The identifier of a reference as a text. -/
def nameText (target : VarRef) (w : World) (e : Id .engine) : String :=
  w.lookup e (target.name w e)

/-- The failure to use a reference whose function or callback is gone. -/
def danglingError (target : VarRef) (w : World) (e : Id .engine) : EvalError :=
  .of (.danglingFunction (target.nameText w e))

/-- The function that a parameter belongs to. -/
def functionOf (target : VarRef) (scope : Scope) (f : Id .function) :
    Action World FunctionInstance := do
  let w ← Action.state
  match w.function? f with
  | some function => return function
  | none => Action.fail (target.danglingError w scope.engine)

/-- Hand over the argument of a parameter; outside of all invocations there is none. -/
def deliver (scope : Scope) (n : Name) : Option Value → Action World Value
  | some v => pure v
  | none => do
    let w ← Action.state
    Action.fail (.of (.parameterOutsideCall (w.lookup scope.engine n)))

/-- Read a variable. -/
def get (scope : Scope) (target : VarRef) : Action World Value := do
  let w ← Action.state
  match target with
  | register i => return (w.engine scope.engine).register.get i
  | global n => return (w.engine scope.engine).globals.read n
  | functionLocal f n =>
    match w.function? f with
    | some function => return function.locals.read n
    | none => Action.fail (target.danglingError w scope.engine)
  | callbackLocal c n =>
    match w.callback? c with
    | some callback => return callback.locals.read n
    | none => Action.fail (target.danglingError w scope.engine)
  | parameter f i n =>
    let function ← target.functionOf scope f
    deliver scope n (function.frame.argument? i)
  | callbackParameter c i _ =>
    match w.callback? c with
    | some callback => return callback.arguments[i]?.getD .undefined
    | none => Action.fail (target.danglingError w scope.engine)

/-- Write a variable. -/
def set (scope : Scope) (target : VarRef) (v : Value) : Action World Unit := do
  let w ← Action.state
  match target with
  | register i => Action.change (·.setRegister scope.engine i v)
  | global n => Action.change (·.setGlobal scope.engine n v)
  | functionLocal f n =>
    match w.function? f with
    | some _ => Action.change (·.setLocal f n v)
    | none => Action.fail (target.danglingError w scope.engine)
  | callbackLocal c n =>
    match w.callback? c with
    | some _ => Action.change (·.setCallbackLocal c n v)
    | none => Action.fail (target.danglingError w scope.engine)
  | parameter _ _ n | callbackParameter _ _ n =>
    Action.fail (.of (.readOnlyReference (w.lookup scope.engine n)))

end VarRef

end ScriptEngine
