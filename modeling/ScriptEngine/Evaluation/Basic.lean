import ScriptEngine.Evaluation.Statement

/-!
# Evaluation

An expression evaluates to a value, and a statement performs an action and says where control goes
next.  Both take a bound on the nesting of nodes, through the bodies of called functions, and on the
rounds of each loop; an evaluation that stays below it gives the same answer under every larger bound.
Each node claims the errors of its parts that have no location yet, so that the location of an error
is that of the innermost node that has one.
-/

namespace ScriptEngine

variable {σ : Type}

mutual

/-- Evaluate an expression. -/
def evaluate (m : Machine σ) : (bound : Nat) → Scope → Expr → Action σ Value
  | 0, _, _ => Action.diverge
  | bound + 1, scope, e => fun s =>
    (Evaluator.evaluateNode ⟨m, evaluate m bound, perform m bound, bound⟩ scope
      e.node).locate e.location (m.note (.evaluating scope e) s)

/-- Perform a statement. -/
def perform (m : Machine σ) : (bound : Nat) → Scope → Stmt → Action (Activation σ) Signal
  | 0, _, _ => Action.diverge
  | bound + 1, scope, s => fun a =>
    (Evaluator.performNode ⟨m, evaluate m bound, perform m bound, bound⟩ scope
      s.node).locate s.location ⟨m.note (.performing scope s) a.state, a.returned⟩

end

/-- The evaluator that nests nodes at most to a bound. -/
def Evaluator.within (m : Machine σ) (bound : Nat) : Evaluator σ :=
  ⟨m, ScriptEngine.evaluate m bound, ScriptEngine.perform m bound, bound⟩

/-- The evaluator of the engine. -/
abbrev Evaluator.shared (bound : Nat) : Evaluator World :=
  .within .shared bound

end ScriptEngine
