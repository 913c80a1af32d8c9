import ScriptEngine.Proofs.Processes
import ScriptEngine.Proofs.Refusals

/-!
# Evaluations of the engine without a bound

What the engine does for a part of a tree is a process: whatever ends within a bound on the nesting
of nodes and on the rounds of loops ends in the same way within each larger bound.  The processes
have the names of the evaluator's functions that they are made from.

A node does what its form does, and claims the errors.  The equations of this file say of the forms
how they are put together from the processes of their parts.
-/

namespace ScriptEngine

namespace Process

open Simulation

variable {α : Type}

section

variable {Q : α → Prop}

/-- What an evaluator does with the machine, if machines that are in equal states do the same. -/
def ofEvaluator (x : Evaluator World → Action World α)
    (h : ∀ {r r' : Evaluator World},
      r.Simulates (invariant fun _ (_ : World) => True) Coverage.all r' →
        (invariant fun _ (_ : World) => True).Matches [] Q (x r) (x r')) : Process World α where
  within bound := x (.shared bound)
  ascends hle := (h (Evaluator.simulates_of_le .shared hle)).eq_of_finished isEquality_invariant

/-- What an evaluator does in a body, if machines that are in equal states do the same. -/
def ofBody (x : Evaluator World → Action (Activation World) α)
    (h : ∀ {r r' : Evaluator World},
      r.Simulates (invariant fun _ (_ : World) => True) Coverage.all r' →
        (invariant fun _ (_ : World) => True).activation.Matches [] Q (x r) (x r')) :
    Process (Activation World) α where
  within bound := x (.shared bound)
  ascends hle :=
    (h (Evaluator.simulates_of_le .shared hle)).eq_of_finished isEquality_invariant.activation

end

/-! ### Expressions -/

section

variable (scope : Scope)

/-- Evaluate an expression. -/
def evaluate (e : Expr) : Process World Value :=
  ofEvaluator (·.evaluate scope e) fun h =>
    h.evaluate [] trivial (e.everywhere_of_forall fun _ => trivial)

/-- Evaluate a form of expression. -/
def evaluateNode (node : ExprNode) : Process World Value :=
  ofEvaluator (·.evaluateNode scope node) fun h =>
    h.evaluateNode [] trivial trivial fun e _ => e.everywhere_of_forall fun _ => trivial

/-- Evaluate several expressions in order. -/
def evaluateAll (es : List Expr) : Process World (List Value) :=
  ofEvaluator (·.evaluateAll scope es) fun h =>
    h.evaluateAll [] trivial fun e _ => e.everywhere_of_forall fun _ => trivial

/-- Evaluate the properties of an object in order and put them into a bag. -/
def evaluateProperties (bag : PropertyBag) (properties : List (Name × Expr)) :
    Process World PropertyBag :=
  ofEvaluator (·.evaluateProperties scope bag properties) fun h =>
    h.evaluateProperties [] trivial (fun e _ => e.everywhere_of_forall fun _ => trivial) bag

variable {scope}

/-- An expression does what its form does, and claims the errors. -/
lemma sameFrom_evaluate (e : Expr) (w : World) :
    (evaluate scope e).SameFrom ((evaluateNode scope e.node).locate e.location) w :=
  SameFrom.of_shift (i := 1) (j := 0) fun _ => rfl

/-- An expression without a place in the script does what its form does. -/
lemma sameFrom_evaluate_unlocated (node : ExprNode) (w : World) :
    (evaluate scope (.unlocated node)).SameFrom (evaluateNode scope node) w := by
  have h := @sameFrom_evaluate scope (.unlocated node) w
  rwa [show (Expr.unlocated node).location = .unknown from rfl, locate_unknown] at h

/-- Forms of expressions that do the same may be exchanged. -/
lemma sameFrom_evaluate_mk {node node' : ExprNode} {w : World}
    (h : (evaluateNode scope node).SameFrom (evaluateNode scope node') w) (l : Location) :
    (evaluate scope (.mk node l)).SameFrom (evaluate scope (.mk node' l)) w :=
  (sameFrom_evaluate (.mk node l) w).trans
    ((h.locate l).trans (sameFrom_evaluate (.mk node' l) w).symm)

/-- An expression gives what its form gives, and claims the error. -/
lemma gives_evaluate {e : Expr} {w : World} {o : Outcome World Value} :
    (evaluate scope e).Gives w o ↔
      ∃ o', (evaluateNode scope e.node).Gives w o' ∧ o = o'.locate e.location :=
  (sameFrom_evaluate e w o).trans gives_locate

lemma evaluateNode_literal (v : Value) : evaluateNode scope (.literal v) = pure v :=
  rfl

lemma evaluateNode_var (target : VarRef) :
    evaluateNode scope (.var target) = lift (target.get scope) :=
  Process.ext (funext fun _ => Machine.shared_get scope target)

lemma evaluateNode_assign (target : VarRef) (value : Expr) :
    evaluateNode scope (.assign target none value) = (do
      let v ← evaluate scope value
      let _ ← lift (target.set scope v)
      pure v) :=
  rfl

lemma evaluateNode_assign_op (target : VarRef) (op : BinaryOp) (value : Expr) :
    evaluateNode scope (.assign target (some op) value) = (do
      let current ← lift (target.get scope)
      let operand ← evaluate scope value
      let v ← lift ((Command.compute op current operand).run)
      let _ ← lift (target.set scope v)
      pure v) := by
  rw [← Machine.shared_get]
  rfl

lemma evaluateNode_binary (op : BinaryOp) (left right : Expr) :
    evaluateNode scope (.binary op left right) = (do
      let l ← evaluate scope left
      let v ← evaluate scope right
      lift ((Command.compute op l v).run)) :=
  rfl

lemma evaluateNode_object (properties : List (Name × Expr)) :
    evaluateNode scope (.object properties) = (do
      let bag ← evaluateProperties scope ∅ properties
      lift ((Command.newObject bag).run)) :=
  rfl

lemma evaluateNode_member (object : Expr) (property : Name) :
    evaluateNode scope (.member object property) = (do
      let v ← evaluate scope object
      lift ((Command.readMember scope.engine v property).run)) :=
  rfl

lemma evaluateNode_index (object index : Expr) :
    evaluateNode scope (.index object index) = (do
      let v ← evaluate scope object
      let i ← evaluate scope index
      lift ((Command.readIndex scope.engine v i).run)) :=
  rfl

lemma evaluateNode_snippetCall (snippet : Snippet) (args : List Expr) :
    evaluateNode scope (.snippetCall snippet args) = (do
      let _ ← lift (.ofResult snippet.callable)
      let vs ← evaluateAll scope args
      let code ← lift (.ofResult (snippet.codeFor vs.length))
      let _ ← lift ((Command.runCode code vs).run)
      pure .undefined) :=
  rfl

lemma evaluateAll_nil : evaluateAll scope [] = pure [] :=
  rfl

lemma evaluateAll_cons (e : Expr) (rest : List Expr) :
    evaluateAll scope (e :: rest) = (do
      let v ← evaluate scope e
      let vs ← evaluateAll scope rest
      pure (v :: vs)) :=
  rfl

lemma evaluateProperties_nil (bag : PropertyBag) :
    evaluateProperties scope bag [] = pure bag :=
  rfl

lemma evaluateProperties_cons (bag : PropertyBag) (n : Name) (e : Expr)
    (rest : List (Name × Expr)) :
    evaluateProperties scope bag ((n, e) :: rest) = (do
      let v ← evaluate scope e
      evaluateProperties scope (bag.insert n v) rest) :=
  rfl

end

/-! ### Statements -/

section

variable (scope : Scope)

/-- Perform a statement. -/
def perform (s : Stmt) : Process (Activation World) Signal :=
  ofBody (·.perform scope s) fun h =>
    h.perform [] trivial trivial (s.everywhere_of_forall (fun _ => trivial) fun _ => trivial)

/-- Perform a form of statement. -/
def performNode (node : StmtNode) : Process (Activation World) Signal :=
  ofBody (·.performNode scope node) fun h =>
    h.performNode [] trivial trivial (fun e _ => e.everywhere_of_forall fun _ => trivial)
      fun s _ => s.everywhere_of_forall (fun _ => trivial) fun _ => trivial

/-- Perform statements in order, up to the first one that control leaves otherwise than by its
end. -/
def performAll (ss : List Stmt) : Process (Activation World) Signal :=
  ofBody (·.performAll scope ss) fun h =>
    h.performAll [] trivial trivial fun s _ =>
      s.everywhere_of_forall (fun _ => trivial) fun _ => trivial

/-- A condition holds; one that is not there always does. -/
def holds (condition : Option Expr) : Process (Activation World) Bool :=
  ofBody (·.holds scope condition) fun h =>
    h.holds [] trivial fun e _ => e.everywhere_of_forall fun _ => trivial

/-- The step of a loop, if it has one. -/
def advance (step : Option Expr) : Process (Activation World) Unit :=
  ofBody (·.advance scope step) fun h =>
    h.advance [] trivial fun e _ => e.everywhere_of_forall fun _ => trivial

/-- One round of a loop.  It gives the signal with which the loop ends, if it ends here. -/
def round (condition step : Option Expr) (body : Stmt) :
    Process (Activation World) (Option Signal) :=
  ofBody (·.round scope condition step body) fun h =>
    h.round [] trivial trivial (fun e _ => e.everywhere_of_forall fun _ => trivial)
      (fun e _ => e.everywhere_of_forall fun _ => trivial)
      (body.everywhere_of_forall (fun _ => trivial) fun _ => trivial)

/-- Perform the first statement of a `for` loop, if there is one. -/
def initialise (init : Option Stmt) : Process (Activation World) Unit :=
  ofBody (·.initialise scope init) fun h =>
    h.initialise [] trivial trivial fun s _ =>
      s.everywhere_of_forall (fun _ => trivial) fun _ => trivial

variable {scope}

/-- A statement does what its form does, and claims the errors. -/
lemma sameFrom_perform (s : Stmt) (a : Activation World) :
    (perform scope s).SameFrom ((performNode scope s.node).locate s.location) a :=
  SameFrom.of_shift (i := 1) (j := 0) fun _ => rfl

/-- A statement without a place in the script does what its form does. -/
lemma sameFrom_perform_unlocated (node : StmtNode) (a : Activation World) :
    (perform scope (.unlocated node)).SameFrom (performNode scope node) a := by
  have h := @sameFrom_perform scope (.unlocated node) a
  rwa [show (Stmt.unlocated node).location = .unknown from rfl, locate_unknown] at h

/-- Forms of statements that do the same may be exchanged. -/
lemma sameFrom_perform_mk {node node' : StmtNode} {a : Activation World}
    (h : (performNode scope node).SameFrom (performNode scope node') a) (l : Location) :
    (perform scope (.mk node l)).SameFrom (perform scope (.mk node' l)) a :=
  (sameFrom_perform (.mk node l) a).trans
    ((h.locate l).trans (sameFrom_perform (.mk node' l) a).symm)

/-- A statement gives what its form gives, and claims the error. -/
lemma gives_perform {s : Stmt} {a : Activation World} {o : Outcome (Activation World) Signal} :
    (perform scope s).Gives a o ↔
      ∃ o', (performNode scope s.node).Gives a o' ∧ o = o'.locate s.location :=
  (sameFrom_perform s a o).trans gives_locate

lemma performNode_expr (e : Expr) :
    performNode scope (.expr e) = (do
      let _ ← (evaluate scope e).inBody
      pure .normal) :=
  rfl

lemma performNode_block (ss : List Stmt) :
    performNode scope (.block ss) = performAll scope ss :=
  rfl

lemma performNode_whileLoop (condition : Expr) (body : Stmt) :
    performNode scope (.whileLoop condition body) =
      (round scope (some condition) none body).repeatedly :=
  rfl

lemma performNode_forLoop (init : Option Stmt) (condition step : Option Expr) (body : Stmt) :
    performNode scope (.forLoop init condition step body) = (do
      initialise scope init
      (round scope condition step body).repeatedly) :=
  rfl

lemma performAll_nil : performAll scope [] = pure .normal :=
  rfl

lemma performAll_cons (s : Stmt) (rest : List Stmt) :
    performAll scope (s :: rest) = (do
      let signal ← perform scope s
      if signal = .normal then performAll scope rest else pure signal) := by
  refine Process.ext (funext fun bound => ?_)
  refine congrArg ((perform scope s).within bound >>= ·) (funext fun signal => ?_)
  cases signal <;> rfl

lemma holds_some (condition : Expr) :
    holds scope (some condition) = (do
      let v ← (evaluate scope condition).inBody
      pure v.isTruthy) :=
  rfl

lemma holds_none : holds scope none = pure true :=
  rfl

lemma advance_some (step : Expr) :
    advance scope (some step) = (do
      let _ ← (evaluate scope step).inBody
      pure ()) :=
  rfl

lemma advance_none : advance scope none = pure () :=
  rfl

/-- A `for` loop starts whatever the signal of its first statement is. -/
lemma initialise_some (s : Stmt) :
    initialise scope (some s) = (do
      let _ ← perform scope s
      pure ()) :=
  rfl

lemma initialise_none : initialise scope none = pure () :=
  rfl

/-- What follows the body of a loop in its round. -/
def afterBody (scope : Scope) (step : Option Expr) : Signal →
    Process (Activation World) (Option Signal)
  | .breaking => pure (some .normal)
  | .returning => pure (some .returning)
  | .normal | .continuing => do
    advance scope step
    pure none

lemma round_eq (condition step : Option Expr) (body : Stmt) :
    round scope condition step body = (do
      let holds ← holds scope condition
      if holds then do
        let signal ← perform scope body
        afterBody scope step signal
      else pure (some .normal)) := by
  refine Process.ext (funext fun bound => ?_)
  refine congrArg ((Process.holds scope condition).within bound >>= ·) (funext fun holds => ?_)
  cases holds with
  | false => rfl
  | true =>
    refine congrArg ((perform scope body).within bound >>= ·) (funext fun signal => ?_)
    cases signal <;> rfl

end

end Process

end ScriptEngine
