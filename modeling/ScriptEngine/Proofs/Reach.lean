import Mathlib.Logic.Relation
import ScriptEngine.Proofs.History

/-!
# Where trees lead

Expressions and statements are trees.  A tree leads at once to its parts, and a call of a function
leads to the body of the function as well.  Apart from what a host function makes an engine do, the
evaluation of a tree evaluates only trees that are reached from it in this way.

Which body a function has is part of the code of a world, so that no evaluation changes where trees
lead.
-/

namespace ScriptEngine

/-! ### Trees -/

/-- The function that a form of expression calls itself. -/
def ExprNode.callee? : ExprNode → Option (Id .function)
  | .call f _ _ => some f
  | _ => none

/-- The variable that a form of expression writes itself. -/
def ExprNode.target? : ExprNode → Option VarRef
  | .assign target _ _ => some target
  | _ => none

/-- The variable that a form of statement writes itself. -/
def StmtNode.target? : StmtNode → Option VarRef
  | .declare target _ => some target
  | _ => none

/-- An expression or a statement. -/
inductive Tree where
  | expr (e : Expr)
  | stmt (s : Stmt)

namespace Tree

/-- Where the tree comes from. -/
def location : Tree → Location
  | expr e => e.location
  | stmt s => s.location

/-- The trees that a tree is made of. -/
def parts : Tree → List Tree
  | expr e => e.node.parts.map expr
  | stmt s => s.node.expressions.map expr ++ s.node.statements.map stmt

/-- The function that a tree calls itself. -/
def callee? : Tree → Option (Id .function)
  | expr e => e.node.callee?
  | stmt _ => none

/-- The variable that a tree writes itself. -/
def target? : Tree → Option VarRef
  | expr e => e.node.target?
  | stmt s => s.node.target?

/-- The parts of an expression are parts of the tree. -/
lemma expr_mem_parts {e a : Expr} (h : a ∈ e.node.parts) : expr a ∈ (expr e).parts :=
  List.mem_map_of_mem h

/-- The expressions of a statement are parts of the tree. -/
lemma expr_mem_parts_stmt {s : Stmt} {e : Expr} (h : e ∈ s.node.expressions) :
    expr e ∈ (stmt s).parts :=
  List.mem_append_left _ (List.mem_map_of_mem h)

/-- The statements of a statement are parts of the tree. -/
lemma stmt_mem_parts {s t : Stmt} (h : t ∈ s.node.statements) : stmt t ∈ (stmt s).parts :=
  List.mem_append_right _ (List.mem_map_of_mem h)

end Tree

/-- The tree is covered. -/
def Coverage.CoversTree (D : Coverage) : Tree → Prop
  | .expr e => D.Covers e
  | .stmt s => D.CoversStmt s

/-! ### Where trees lead -/

namespace World

/-- The body of a function, if it has one. -/
def body? (w : World) (f : Id .function) : Option Stmt :=
  (w.function? f).bind (·.body)

/-- The evaluation of one tree may evaluate the other one next. -/
inductive Leads (w : World) (t : Tree) : Tree → Prop
  | part {u : Tree} (h : u ∈ t.parts) : Leads w t u
  | call {f : Id .function} {body : Stmt} (hf : t.callee? = some f) (hbody : w.body? f = some body) :
    Leads w t (.stmt body)

/-- The evaluation of one tree may come to the other one. -/
def Reaches (w : World) : Tree → Tree → Prop :=
  Relation.ReflTransGen w.Leads

variable {w w' : World} {t u : Tree}

/-- The bodies of functions are part of the code. -/
lemma body?_eq_of_code_eq (h : w'.code = w.code) : w'.body? = w.body? := by
  have hbody : ∀ v : World, v.body? = fun f => (v.code.function? f).bind (·.body) := by
    intro v
    funext f
    unfold body? code
    rw [Option.bind_map]
    rfl
  rw [hbody, hbody, h]

/-- What is reached has parts that are reached. -/
lemma Reaches.part (h : w.Reaches t u) {part : Tree} (hpart : part ∈ u.parts) : w.Reaches t part :=
  h.tail (.part hpart)

/-- What is reached calls functions with bodies that are reached. -/
lemma Reaches.call (h : w.Reaches t u) {f : Id .function} {body : Stmt} (hf : u.callee? = some f)
    (hbody : w.body? f = some body) : w.Reaches t (.stmt body) :=
  h.tail (.call hf hbody)

end World

/-! ### Evaluations of trees -/

/-- Evaluate an expression, or perform a statement as a body of its own: the signal, and the value
of the expression or the one that a `return` has set. -/
def Evaluator.evaluateTree {σ : Type} (r : Evaluator σ) (scope : Scope) :
    Tree → Action σ (Signal × Value)
  | .expr e => do return (.normal, ← r.evaluate scope e)
  | .stmt s => r.signalOf scope s

/-- All covers every tree. -/
lemma Coverage.coversTree_all (t : Tree) : Coverage.all.CoversTree t := by
  cases t with
  | expr e => exact e.everywhere_of_forall fun _ => trivial
  | stmt s => exact s.everywhere_of_forall (fun _ => trivial) fun _ => trivial

open Simulation in
/-- The evaluation of a tree gives the same result on both sides. -/
lemma Evaluator.Simulates.evaluateTree {σ τ : Type} {S : Simulation σ τ} {D : Coverage}
    {r : Evaluator σ} {r' : Evaluator τ} (h : Simulates S D r r') (c : List Activity) {scope : Scope}
    (hscope : D.reaches scope) (hc : D.performs c) {t : Tree} (ht : D.CoversTree t) :
    S.Matches c Anything (r.evaluateTree scope t) (r'.evaluateTree scope t) := by
  cases t with
  | expr e => exact (h.evaluate c hscope ht).bind fun _ _ => .pure trivial
  | stmt s => exact h.signalOf c hscope hc ht

end ScriptEngine
