import ScriptEngine.World

/-!
# Who keeps functions and callbacks alive

A function lives as long as something holds it: the table of an engine, a handle of the host, or a
call in a tree that lives itself.  A callback is held by tables and handles alone.  Variables hold
nothing.  What nothing holds any more is released together with its body, which may set free what the
body held.  Functions that hold each other, and are held by nothing else, are never released; an
engine that is dropped therefore takes the bodies of all that is in its tables with it.
-/

namespace ScriptEngine

/-! ### The functions that a tree calls -/

mutual

/-- The functions that an expression calls. -/
def Expr.callees : Expr → List (Id .function)
  | .mk node _ => node.callees

/-- The functions that a form of expression calls. -/
def ExprNode.callees : ExprNode → List (Id .function)
  | .literal _ | .apiConstant _ | .var _ => []
  | .assign _ _ e | .unary _ e | .member e _ => e.callees
  | .binary _ a b | .logical _ a b | .index a b => a.callees ++ b.callees
  | .conditional a b c => a.callees ++ b.callees ++ c.callees
  | .array es | .apiCall _ _ _ es | .objectCall _ _ _ es | .snippetCall _ es => calleesOfAll es
  | .object ps => calleesOfProperties ps
  | .call f _ es => f :: calleesOfAll es

/-- The functions that several expressions call. -/
def calleesOfAll : List Expr → List (Id .function)
  | [] => []
  | e :: es => e.callees ++ calleesOfAll es

/-- The functions that the expressions in an object call. -/
def calleesOfProperties : List (Name × Expr) → List (Id .function)
  | [] => []
  | (_, e) :: ps => e.callees ++ calleesOfProperties ps

end

/-- The functions that an expression calls, if there is one. -/
def calleesOfOption : Option Expr → List (Id .function)
  | some e => e.callees
  | none => []

mutual

/-- The functions that a statement calls. -/
def Stmt.callees : Stmt → List (Id .function)
  | .mk node _ => node.callees

/-- The functions that a form of statement calls. -/
def StmtNode.callees : StmtNode → List (Id .function)
  | .expr e => e.callees
  | .declare _ e | .returnValue e => calleesOfOption e
  | .block ss => calleesOfStatements ss
  | .branch e s none => e.callees ++ s.callees
  | .branch e s (some t) => e.callees ++ s.callees ++ t.callees
  | .whileLoop e s => e.callees ++ s.callees
  | .forLoop none c d s => calleesOfOption c ++ calleesOfOption d ++ s.callees
  | .forLoop (some t) c d s => t.callees ++ calleesOfOption c ++ calleesOfOption d ++ s.callees
  | .breakLoop | .continueLoop => []

/-- The functions that several statements call. -/
def calleesOfStatements : List Stmt → List (Id .function)
  | [] => []
  | s :: ss => s.callees ++ calleesOfStatements ss

end

/-! ### Holders -/

/-- What the host holds: handles of functions and callbacks, and trees. -/
structure Holdings where
  functions : List (Id .function)
  callbacks : List (Id .callback)
  trees : List Stmt

namespace World

variable (w : World)

/-- The bodies of the functions that have not been released. -/
def functionBodies : List Stmt :=
  (w.functions.ids.filterMap w.functions.get?).filterMap (·.body)

/-- The bodies of the callbacks that have not been released. -/
def callbackBodies : List Stmt :=
  (w.callbacks.ids.filterMap w.callbacks.get?).filterMap (·.body)

/-- The engines that have not been dropped. -/
def liveEngines : List Engine :=
  w.engines.ids.filterMap w.engines.get?

/-- The functions that something holds, each as often as it is held. -/
def heldFunctions (h : Holdings) : List (Id .function) :=
  h.functions ++ w.liveEngines.flatMap (·.functions.values) ++
    calleesOfStatements (h.trees ++ w.functionBodies ++ w.callbackBodies)

/-- The callbacks that something holds, each as often as it is held. -/
def heldCallbacks (h : Holdings) : List (Id .callback) :=
  h.callbacks ++ w.liveEngines.flatMap (·.callbacks.values)

/-- The functions that nothing holds. -/
def freeFunctions (h : Holdings) : List (Id .function) :=
  let held := w.heldFunctions h
  w.functions.ids.filter fun f => !held.contains f

/-- Release functions. -/
def releaseFunctions (free : List (Id .function)) : World :=
  { w with functions := free.foldl Pool.release w.functions }

/-- Release each callback that nothing holds. -/
def releaseCallbacks (h : Holdings) : World :=
  let held := w.heldCallbacks h
  let free := w.callbacks.ids.filter fun c => !held.contains c
  { w with callbacks := free.foldl Pool.release w.callbacks }

/-- Release functions up to `rounds` times, each time those that the last time has set free, until
there are none. -/
def releaseFunctionsUpTo (h : Holdings) : (rounds : Nat) → World → World
  | 0, w => w
  | rounds + 1, w =>
    match w.freeFunctions h with
    | [] => w
    | free => releaseFunctionsUpTo h rounds (w.releaseFunctions free)

/-- Release everything that nothing holds.  Each round releases a function, so that there are enough
of them. -/
def settle (h : Holdings) : World :=
  let w := w.releaseCallbacks h
  releaseFunctionsUpTo h w.functions.ids.length w

/-- Drop an engine: the bodies of all that is in its tables go with it. -/
def dropEngine (e : Id .engine) : World :=
  let engine := w.engine e
  let w := engine.functions.values.foldl
    (fun w f => w.modifyFunction f fun function => { function with body := none }) w
  let w := engine.callbacks.values.foldl
    (fun w c => w.modifyCallback c fun callback => { callback with body := none }) w
  { w with engines := w.engines.release e }

end World

end ScriptEngine
