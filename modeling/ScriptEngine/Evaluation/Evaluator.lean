import ScriptEngine.Evaluation.Machine

/-!
# Bodies

An `Evaluator` says how the parts of a tree are evaluated on a machine, and the bodies of the
functions that it calls.  What the single forms of expression and statement do is defined over an
arbitrary evaluator and does not recurse; the evaluator of whole trees ties the knot.

A call of a function binds its arguments, performs the body one level deeper, and gives the frame
back whether the body fails or not.
-/

namespace ScriptEngine

/-- A body at work: the state of the machine, and the value that the latest `return` has set. -/
structure Activation (σ : Type) where
  state : σ
  returned : Value
deriving Inhabited

namespace Activation

variable {σ α : Type}

/-- Act on the state of the machine alone.  The activation is taken apart first, so that nothing but
the action has the state while it runs and arrays in it can be changed in place. -/
@[inline] def within (x : Action σ α) : Action (Activation σ) α := fun
  | ⟨state, returned⟩ =>
    match x state with
    | .done a state => .done a ⟨state, returned⟩
    | .failed e state => .failed e ⟨state, returned⟩
    | .unfinished state => .unfinished ⟨state, returned⟩

/-- Set the value to return. -/
@[inline] def setReturned (v : Value) : Action (Activation σ) Unit :=
  Action.change fun a => { a with returned := v }

end Activation

/-- How the parts of a tree are evaluated, and the bodies that it calls. -/
structure Evaluator (σ : Type) where
  machine : Machine σ
  /-- Evaluate an expression. -/
  evaluate : Scope → Expr → Action σ Value
  /-- Perform a statement. -/
  perform : Scope → Stmt → Action (Activation σ) Signal
  /-- How often a loop may go round. -/
  rounds : Nat

namespace Evaluator

variable {σ : Type} (r : Evaluator σ)

/-- Perform a statement as a body of its own: the result is what it returns. -/
def run (scope : Scope) (body : Stmt) : Action σ Value := fun s =>
  match r.perform scope body ⟨s, .undefined⟩ with
  | .done signal a => .done (if signal = .returning then a.returned else .undefined) a.state
  | .failed e a => .failed e a.state
  | .unfinished a => .unfinished a.state

/-- Perform a body that may be missing. -/
def runBody (scope : Scope) : Option Stmt → Action σ Value
  | some body => r.run scope body
  | none => pure .undefined

/-- Invoke a function with arguments. -/
def invokeFunction (scope : Scope) (f : Id .function) (site : CallSiteId) (args : List Value) :
    Action σ Value := do
  let inner ← r.machine.exec (.deeper scope)
  let body ← r.machine.exec (.functionBody f)
  let v ← r.machine.during (.function f site args) (r.runBody inner body)
  r.machine.exec (.keepResult f v)
  return v

/-- Invoke a callback with arguments. -/
def invokeCallback (scope : Scope) (c : Id .callback) (args : List Value) : Action σ Value := do
  let inner ← r.machine.exec (.deeper scope)
  let body ← r.machine.exec (.callbackBody c)
  r.machine.during (.callback c args) (r.runBody inner body)

end Evaluator

end ScriptEngine
