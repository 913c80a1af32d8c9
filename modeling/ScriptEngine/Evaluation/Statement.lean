import ScriptEngine.Evaluation.Expression

/-!
# Statements

What each form of statement does.  Control leaves a statement by a signal; the value of a `return` is
kept apart from it, in the activation of the body.
-/

namespace ScriptEngine.Evaluator

variable {σ : Type} (r : Evaluator σ)

/-- Evaluate an expression in a statement. -/
def valueOf (scope : Scope) (e : Expr) : Action (Activation σ) Value :=
  Activation.within (r.evaluate scope e)

/-- Tell the machine what is done. -/
def note (mark : Mark) : Action (Activation σ) Unit :=
  Activation.within (Action.change (r.machine.note mark))

/-- A condition holds; one that is not there always does. -/
def holds (scope : Scope) : Option Expr → Action (Activation σ) Bool
  | some condition => do return (← r.valueOf scope condition).isTruthy
  | none => pure true

/-- Perform statements in order, up to the first one that control leaves otherwise than by its
end. -/
def performAll (scope : Scope) : List Stmt → Action (Activation σ) Signal
  | [] => pure .normal
  | s :: rest => do
    match ← r.perform scope s with
    | .normal => performAll scope rest
    | signal => return signal

/-- The step of a loop, if it has one. -/
def advance (scope : Scope) : Option Expr → Action (Activation σ) Unit
  | some step => do
    let _ ← r.valueOf scope step
  | none => pure ()

/-- One round of a loop.  It gives the signal with which the loop ends, if it ends here. -/
def round (scope : Scope) (condition step : Option Expr) (body : Stmt) :
    Action (Activation σ) (Option Signal) := do
  if ← r.holds scope condition then
    match ← r.perform scope body with
    | .breaking => return some .normal
    | .returning => return some .returning
    | .normal | .continuing =>
      r.advance scope step
      return none
  else
    return some .normal

/-- The value of an expression that may be missing. -/
def valueOrUndefined (scope : Scope) : Option Expr → Action (Activation σ) Value
  | some e => r.valueOf scope e
  | none => pure .undefined

/-- Perform the first statement of a `for` loop, if there is one.  It may say what it likes about
where control goes: the loop starts all the same. -/
def initialise (scope : Scope) : Option Stmt → Action (Activation σ) Unit
  | some s => do
    let signal ← r.perform scope s
    r.note (.initEnded signal)
  | none => pure ()

/-- Perform a form of statement. -/
def performNode (scope : Scope) : StmtNode → Action (Activation σ) Signal
  | .expr e => do
    let _ ← r.valueOf scope e
    return .normal
  | .declare target init => do
    let v ← r.valueOrUndefined scope init
    Activation.within (r.machine.exec (.set scope target v))
    return .normal
  | .block statements => r.performAll scope statements
  | .branch condition consequent alternative => do
    if (← r.valueOf scope condition).isTruthy then
      r.perform scope consequent
    else
      match alternative with
      | some s => r.perform scope s
      | none => return .normal
  | .whileLoop condition body =>
    Action.repeatUpTo r.rounds (r.round scope (some condition) none body)
  | .forLoop init condition step body => do
    r.initialise scope init
    Action.repeatUpTo r.rounds (r.round scope condition step body)
  | .returnValue value => do
    let v ← r.valueOrUndefined scope value
    Activation.setReturned v
    r.note (.returned v)
    return .returning
  | .breakLoop => return .breaking
  | .continueLoop => return .continuing

end ScriptEngine.Evaluator
