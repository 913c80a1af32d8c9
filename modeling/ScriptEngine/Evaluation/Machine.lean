import ScriptEngine.Evaluation.Command

/-!
# Machines

An evaluation runs on a `Machine`: a state that has the world in it, and how commands, calls and
reads of parameters act on that state.  The engine is `Machine.shared`, whose state is the world and
whose functions have one call frame each.  Other machines may remember more than the world does.

A machine is also told what is done: each node whose evaluation begins, and what the statements of a
body say about a `return`.  The engine takes no notice.
-/

namespace ScriptEngine

/-- What runs: a script, an invocation of a function, or one of a callback. -/
inductive Activity where
  | script
  | function (f : Id .function) (site : CallSiteId) (args : List Value)
  | callback (c : Id .callback) (args : List Value)
deriving DecidableEq, Inhabited

namespace Activity

/-- Begin: the arguments go where the body reads them. -/
def enter : Activity → World → World
  | script, w => w
  | function f site args, w => w.modifyFunction f fun function =>
    { function with frame := function.frame.enter site args }
  | callback c args, w => w.modifyCallback c (·.enter args)

/-- End: a function leaves its frame. -/
def leave : Activity → World → World
  | function f _ _, w => w.modifyFunction f fun function =>
    { function with frame := function.frame.leave }
  | script, w | callback _ _, w => w

end Activity

/-- What a machine is told about the course of an evaluation. -/
inductive Mark where
  /-- The evaluation of an expression begins. -/
  | evaluating (scope : Scope) (e : Expr)
  /-- The performance of a statement begins. -/
  | performing (scope : Scope) (s : Stmt)
  /-- A `return` sets the value of its body. -/
  | returned (v : Value)
  /-- The first statement of a `for` loop has ended; the loop starts whatever the signal says. -/
  | initEnded (signal : Signal)

/-- A state for evaluations, and what they do to it. -/
structure Machine (σ : Type) where
  /-- Carry out a command. -/
  exec : {α : Type} → Command α → Action σ α
  /-- Begin an activity. -/
  enter : Activity → σ → σ
  /-- End the activity that was begun last. -/
  leave : Activity → σ → σ
  /-- The argument of a parameter, while the function runs. -/
  argument? : Id .function → Nat → Action σ (Option Value)
  /-- Take notice of what is done. -/
  note : Mark → σ → σ

namespace Machine

/-- The engine: all invocations of a function share its call frame. -/
def shared : Machine World where
  exec := Command.run
  enter := Activity.enter
  leave := Activity.leave
  argument? f i := fun w => .done ((w.function? f).bind (·.frame.argument? i)) w
  note _ w := w

variable {σ α : Type} (m : Machine σ)

/-- Read a variable. -/
def get (scope : Scope) (target : VarRef) : Action σ Value :=
  match target with
  | .parameter f i n => do
    m.exec (.requireFunction scope target f)
    let argument ← m.argument? f i
    m.exec (.deliver scope n argument)
  | _ => m.exec (.get scope target)

/-- Run `x` as an activity, which ends however `x` ends. -/
def during (a : Activity) (x : Action σ α) : Action σ α := do
  Action.change (m.enter a)
  x.ensuring (m.leave a)

end Machine

end ScriptEngine
