import Mathlib.Tactic.Common
import ScriptEngine.Tree

/-!
# Parts of trees

An expression is made of expressions, and a statement of expressions and statements.  A property of
all nodes of a tree, `Everywhere`, is one of its root and of all nodes of its parts, and parts are
smaller than the whole.
-/

namespace ScriptEngine

/-- The expressions that an expression is made of. -/
def ExprNode.parts : ExprNode → List Expr
  | .literal _ | .apiConstant _ | .var _ => []
  | .assign _ _ e | .unary _ e | .member e _ => [e]
  | .binary _ a b | .logical _ a b | .index a b => [a, b]
  | .conditional a b c => [a, b, c]
  | .array es | .call _ _ es | .apiCall _ _ _ es | .objectCall _ _ _ es | .snippetCall _ es => es
  | .object ps => ps.map Prod.snd

/-- The expressions that a statement is made of. -/
def StmtNode.expressions : StmtNode → List Expr
  | .expr e | .branch e _ _ | .whileLoop e _ => [e]
  | .declare _ e | .returnValue e => e.toList
  | .forLoop _ condition step _ => condition.toList ++ step.toList
  | .block _ | .breakLoop | .continueLoop => []

/-- The statements that a statement is made of. -/
def StmtNode.statements : StmtNode → List Stmt
  | .block ss => ss
  | .branch _ s t => s :: t.toList
  | .whileLoop _ s => [s]
  | .forLoop init _ _ s => init.toList ++ [s]
  | .expr _ | .declare _ _ | .returnValue _ | .breakLoop | .continueLoop => []

/-- All nodes of an expression have the property `p`. -/
inductive Expr.Everywhere (p : ExprNode → Prop) : Expr → Prop
  | intro {e : Expr} (node : p e.node) (parts : ∀ a ∈ e.node.parts, a.Everywhere p) :
    Expr.Everywhere p e

/-- All nodes of a statement have the property `p` or `q`. -/
inductive Stmt.Everywhere (p : ExprNode → Prop) (q : StmtNode → Prop) : Stmt → Prop
  | intro {s : Stmt} (node : q s.node) (expressions : ∀ e ∈ s.node.expressions, e.Everywhere p)
    (statements : ∀ t ∈ s.node.statements, t.Everywhere p q) : Stmt.Everywhere p q s

namespace Expr.Everywhere

variable {p : ExprNode → Prop} {e : Expr}

lemma node (h : e.Everywhere p) : p e.node := by
  obtain ⟨hnode, -⟩ := h
  exact hnode

lemma parts (h : e.Everywhere p) : ∀ a ∈ e.node.parts, a.Everywhere p := by
  obtain ⟨-, hparts⟩ := h
  exact hparts

/-- A property of all nodes may be weakened. -/
lemma mono {p' : ExprNode → Prop} (h : e.Everywhere p) (hp : ∀ node, p node → p' node) :
    e.Everywhere p' := by
  induction h with
  | intro hnode _ ih => exact .intro (hp _ hnode) ih

end Expr.Everywhere

namespace Stmt.Everywhere

variable {p : ExprNode → Prop} {q : StmtNode → Prop} {s : Stmt}

lemma node (h : s.Everywhere p q) : q s.node := by
  obtain ⟨hnode, -, -⟩ := h
  exact hnode

lemma expressions (h : s.Everywhere p q) : ∀ e ∈ s.node.expressions, e.Everywhere p := by
  obtain ⟨-, hexpressions, -⟩ := h
  exact hexpressions

lemma statements (h : s.Everywhere p q) : ∀ t ∈ s.node.statements, t.Everywhere p q := by
  obtain ⟨-, -, hstatements⟩ := h
  exact hstatements

/-- Properties of all nodes may be weakened. -/
lemma mono {p' : ExprNode → Prop} {q' : StmtNode → Prop} (h : s.Everywhere p q)
    (hp : ∀ node, p node → p' node) (hq : ∀ node, q node → q' node) : s.Everywhere p' q' := by
  induction h with
  | intro hnode hexpressions _ ih =>
    exact .intro (hq _ hnode) (fun e he => (hexpressions e he).mono hp) ih

end Stmt.Everywhere

/-! ### Sizes -/

/-- A part of an expression is smaller than the form of the expression. -/
lemma ExprNode.sizeOf_lt_of_mem_parts {node : ExprNode} {a : Expr} (h : a ∈ node.parts) :
    sizeOf a < sizeOf node := by
  cases node with
  | literal | apiConstant | var => simp [parts] at h
  | assign | unary | member =>
    obtain rfl : a = _ := by simpa [parts] using h
    simp only [assign.sizeOf_spec, unary.sizeOf_spec, member.sizeOf_spec]
    omega
  | binary | logical | index =>
    simp only [binary.sizeOf_spec, logical.sizeOf_spec, index.sizeOf_spec]
    obtain rfl | rfl : a = _ ∨ a = _ := by simpa [parts] using h
    · omega
    · omega
  | conditional =>
    simp only [conditional.sizeOf_spec]
    obtain rfl | rfl | rfl : a = _ ∨ a = _ ∨ a = _ := by simpa [parts] using h
    · omega
    · omega
    · omega
  | array es | call _ _ es | apiCall _ _ _ es | objectCall _ _ _ es | snippetCall _ es =>
    have hlt : sizeOf a < sizeOf es := List.sizeOf_lt_of_mem h
    simp only [array.sizeOf_spec, call.sizeOf_spec, apiCall.sizeOf_spec, objectCall.sizeOf_spec,
      snippetCall.sizeOf_spec]
    omega
  | object ps =>
    obtain ⟨⟨n, a⟩, hmem, rfl⟩ := List.mem_map.1 h
    have hlt : sizeOf (n, a) < sizeOf ps := List.sizeOf_lt_of_mem hmem
    simp only [object.sizeOf_spec, Prod.mk.sizeOf_spec] at hlt ⊢
    omega

/-- A part of an expression is smaller than the expression. -/
lemma Expr.sizeOf_lt_of_mem_parts {e a : Expr} (h : a ∈ e.node.parts) : sizeOf a < sizeOf e := by
  have hlt := ExprNode.sizeOf_lt_of_mem_parts h
  obtain ⟨node, location⟩ := e
  simp only [Expr.node, mk.sizeOf_spec] at hlt ⊢
  omega

/-- An expression in an option is smaller than the option. -/
lemma sizeOf_lt_of_mem_toList {α : Type} [SizeOf α] {o : Option α} {a : α} (h : a ∈ o.toList) :
    sizeOf a < sizeOf o := by
  obtain rfl := Option.mem_toList.1 h
  simp only [Option.some.sizeOf_spec]
  omega

/-- An expression in a statement is smaller than the form of the statement. -/
lemma StmtNode.sizeOf_lt_of_mem_expressions {node : StmtNode} {e : Expr}
    (h : e ∈ node.expressions) : sizeOf e < sizeOf node := by
  cases node with
  | block | breakLoop | continueLoop => simp [expressions] at h
  | expr | branch | whileLoop =>
    obtain rfl : e = _ := by simpa [expressions] using h
    simp only [expr.sizeOf_spec, branch.sizeOf_spec, whileLoop.sizeOf_spec]
    omega
  | declare | returnValue =>
    have hlt := sizeOf_lt_of_mem_toList h
    simp only [declare.sizeOf_spec, returnValue.sizeOf_spec]
    omega
  | forLoop =>
    simp only [expressions, List.mem_append] at h
    simp only [forLoop.sizeOf_spec]
    rcases h with h | h
    · have hlt := sizeOf_lt_of_mem_toList h
      omega
    · have hlt := sizeOf_lt_of_mem_toList h
      omega

/-- A statement in a statement is smaller than the form of the statement. -/
lemma StmtNode.sizeOf_lt_of_mem_statements {node : StmtNode} {s : Stmt}
    (h : s ∈ node.statements) : sizeOf s < sizeOf node := by
  cases node with
  | expr | declare | returnValue | breakLoop | continueLoop => simp [statements] at h
  | block ss =>
    have hlt : sizeOf s < sizeOf ss := List.sizeOf_lt_of_mem h
    simp only [block.sizeOf_spec]
    omega
  | branch =>
    simp only [statements, List.mem_cons] at h
    simp only [branch.sizeOf_spec]
    rcases h with rfl | h
    · omega
    · have hlt := sizeOf_lt_of_mem_toList h
      omega
  | whileLoop =>
    obtain rfl : s = _ := by simpa [statements] using h
    simp only [whileLoop.sizeOf_spec]
    omega
  | forLoop =>
    simp only [statements, List.mem_append, List.mem_singleton] at h
    simp only [forLoop.sizeOf_spec]
    rcases h with h | rfl
    · have hlt := sizeOf_lt_of_mem_toList h
      omega
    · omega

/-- An expression in a statement is smaller than the statement. -/
lemma Stmt.sizeOf_lt_of_mem_expressions {s : Stmt} {e : Expr} (h : e ∈ s.node.expressions) :
    sizeOf e < sizeOf s := by
  have hlt := StmtNode.sizeOf_lt_of_mem_expressions h
  obtain ⟨node, location⟩ := s
  simp only [Stmt.node, mk.sizeOf_spec] at hlt ⊢
  omega

/-- A statement in a statement is smaller than the statement. -/
lemma Stmt.sizeOf_lt_of_mem_statements {s t : Stmt} (h : t ∈ s.node.statements) :
    sizeOf t < sizeOf s := by
  have hlt := StmtNode.sizeOf_lt_of_mem_statements h
  obtain ⟨node, location⟩ := s
  simp only [Stmt.node, mk.sizeOf_spec] at hlt ⊢
  omega

/-! ### Trees without a condition -/

/-- A property that all forms have holds everywhere in an expression. -/
lemma Expr.everywhere_of_forall {p : ExprNode → Prop} (h : ∀ node, p node) (e : Expr) :
    e.Everywhere p :=
  .intro (h e.node) fun a _ => a.everywhere_of_forall h
termination_by sizeOf e
decreasing_by exact Expr.sizeOf_lt_of_mem_parts (by assumption)

/-- Properties that all forms have hold everywhere in a statement. -/
lemma Stmt.everywhere_of_forall {p : ExprNode → Prop} {q : StmtNode → Prop} (hp : ∀ node, p node)
    (hq : ∀ node, q node) (s : Stmt) : s.Everywhere p q :=
  .intro (hq s.node) (fun e _ => e.everywhere_of_forall hp) fun t _ => t.everywhere_of_forall hp hq
termination_by sizeOf s
decreasing_by exact Stmt.sizeOf_lt_of_mem_statements (by assumption)

end ScriptEngine
