import ScriptEngine.Ownership
import ScriptEngine.Proofs.MirroredMemory
import ScriptEngine.Storage

/-!
# Mirrored trees

Trees that are bound to two worlds in the same way differ in the numbers of what they are bound to.
They have the same shape, the same operators, locations and numbers of arguments, and the same
native snippets.  The code of a snippet is part of the tree, and has no numbers; it has to act on
memories that differ in numbers alone in the same way (`MachineCode.IsUniform`).

Trees that mirror each other call functions that mirror each other, in the same order
(`Expr.Mirrors.callees` and `Stmt.Mirrors.callees`).
-/

namespace ScriptEngine

variable {ρ ρ' : Renaming}

/-! ### Snippets -/

/-- The code acts in the same way on memories and slots that differ in numbers alone. -/
structure MachineCode.IsUniform (clock : Id .counter) (code : MachineCode) : Prop where
  run : ∀ {Γ : Surroundings} {ρ : Renaming} {m m' : Memory} {slots slots' : List Value},
    ρ.clock = clock → m.Mirrors Γ ρ m' → Values.Mirrors ρ slots slots' →
    ∃ ρ', ρ.GrowsInMemory ρ' ∧ (code slots m).2.Mirrors Γ ρ' (code slots' m').2

lemma MachineCode.IsUniform.mono {code : MachineCode} (h : code.IsUniform ρ.clock) (hle : ρ ≤ ρ') :
    code.IsUniform ρ'.clock :=
  hle.1.2.2.symm ▸ h

/-- The code of the snippet, if it has any, is uniform. -/
def Snippet.IsUniform (clock : Id .counter) (s : Snippet) : Prop :=
  ∀ code, s.state = .ok code → code.IsUniform clock

/-- The compiler makes uniform code only. -/
def SnippetCompiler.IsUniform (clock : Id .counter) (c : SnippetCompiler) : Prop :=
  ∀ symbol code, c.compile symbol = .ok code → code.IsUniform clock

/-- A uniform compiler makes uniform snippets. -/
lemma SnippetCompiler.IsUniform.compile {clock : Id .counter} {c : SnippetCompiler}
    (hc : c.IsUniform clock) (d : SnippetDeclaration) : (Snippet.compile c d).IsUniform clock := by
  intro code hcode
  change (if _ then _ else c.compile d.name) = _ at hcode
  split at hcode
  · exact nomatch hcode
  · exact hc _ _ hcode

/-! ### Variables and scopes -/

/-- The variables are bound to storage that differs in numbers alone. -/
inductive VarRef.Mirrors (ρ : Renaming) : VarRef → VarRef → Prop
  | register (i : ℕ) : Mirrors ρ (.register i) (.register i)
  | global {n n' : Name} (hn : n.Mirrors ρ n') : Mirrors ρ (.global n) (.global n')
  | functionLocal {f f' : Id .function} {n n' : Name} (hf : f.Mirrors ρ f') (hn : n.Mirrors ρ n') :
    Mirrors ρ (.functionLocal f n) (.functionLocal f' n')
  | callbackLocal {c c' : Id .callback} {n n' : Name} (hc : c.Mirrors ρ c') (hn : n.Mirrors ρ n') :
    Mirrors ρ (.callbackLocal c n) (.callbackLocal c' n')
  | parameter {f f' : Id .function} {n n' : Name} (hf : f.Mirrors ρ f') (i : ℕ)
    (hn : n.Mirrors ρ n') : Mirrors ρ (.parameter f i n) (.parameter f' i n')
  | callbackParameter {c c' : Id .callback} {n n' : Name} (hc : c.Mirrors ρ c') (i : ℕ)
    (hn : n.Mirrors ρ n') : Mirrors ρ (.callbackParameter c i n) (.callbackParameter c' i n')

lemma VarRef.Mirrors.mono {target target' : VarRef} (h : target.Mirrors ρ target') (hle : ρ ≤ ρ') :
    target.Mirrors ρ' target' := by
  cases h with
  | register i => exact .register i
  | global hn => exact .global (hn.mono hle)
  | functionLocal hf hn => exact .functionLocal (hf.mono hle) (hn.mono hle)
  | callbackLocal hc hn => exact .callbackLocal (hc.mono hle) (hn.mono hle)
  | parameter hf i hn => exact .parameter (hf.mono hle) i (hn.mono hle)
  | callbackParameter hc i hn => exact .callbackParameter (hc.mono hle) i (hn.mono hle)

lemma VarRef.Mirrors.isWritable {target target' : VarRef} (h : target.Mirrors ρ target') :
    target'.isWritable = target.isWritable := by
  cases h <;> rfl

/-- The scopes are as deep in engines that mirror each other. -/
structure Scope.Mirrors (ρ : Renaming) (scope scope' : Scope) : Prop where
  engine : scope.engine.Mirrors ρ scope'.engine
  depth : scope'.depth = scope.depth

lemma Scope.Mirrors.mono {scope scope' : Scope} (h : scope.Mirrors ρ scope') (hle : ρ ≤ ρ') :
    scope.Mirrors ρ' scope' :=
  ⟨h.engine.mono hle, h.depth⟩

lemma Scope.Mirrors.top {e e' : Id .engine} (he : e.Mirrors ρ e') :
    (Scope.top e).Mirrors ρ (.top e') :=
  ⟨he, rfl⟩

/-! ### Expressions -/

mutual

/-- The expressions differ in numbers alone. -/
inductive Expr.Mirrors (ρ : Renaming) : Expr → Expr → Prop
  | mk {node node' : ExprNode} (location : Location) (hnode : node.Mirrors ρ node') :
    Expr.Mirrors ρ (.mk node location) (.mk node' location)

/-- The forms of expressions differ in numbers alone. -/
inductive ExprNode.Mirrors (ρ : Renaming) : ExprNode → ExprNode → Prop
  | literal {v v'} (hv : Value.Mirrors ρ v v') : ExprNode.Mirrors ρ (.literal v) (.literal v')
  | apiConstant {v v'} (hv : Value.Mirrors ρ v v') :
    ExprNode.Mirrors ρ (.apiConstant v) (.apiConstant v')
  | var {target target'} (htarget : VarRef.Mirrors ρ target target') :
    ExprNode.Mirrors ρ (.var target) (.var target')
  | assign {target target' e e'} (htarget : VarRef.Mirrors ρ target target') (op : Option BinaryOp)
    (he : Expr.Mirrors ρ e e') : ExprNode.Mirrors ρ (.assign target op e) (.assign target' op e')
  | binary {a a' b b'} (op : BinaryOp) (ha : Expr.Mirrors ρ a a') (hb : Expr.Mirrors ρ b b') :
    ExprNode.Mirrors ρ (.binary op a b) (.binary op a' b')
  | logical {a a' b b'} (op : LogicalOp) (ha : Expr.Mirrors ρ a a') (hb : Expr.Mirrors ρ b b') :
    ExprNode.Mirrors ρ (.logical op a b) (.logical op a' b')
  | unary {a a'} (op : UnaryOp) (ha : Expr.Mirrors ρ a a') :
    ExprNode.Mirrors ρ (.unary op a) (.unary op a')
  | conditional {a a' b b' c c'} (ha : Expr.Mirrors ρ a a') (hb : Expr.Mirrors ρ b b')
    (hc : Expr.Mirrors ρ c c') : ExprNode.Mirrors ρ (.conditional a b c) (.conditional a' b' c')
  | array {es es'} (hes : List.Forall₂ (Expr.Mirrors ρ) es es') :
    ExprNode.Mirrors ρ (.array es) (.array es')
  | object {ps ps'} (hps : List.Forall₂ (Property.Mirrors ρ) ps ps') :
    ExprNode.Mirrors ρ (.object ps) (.object ps')
  | member {a a' n n'} (ha : Expr.Mirrors ρ a a') (hn : Name.Mirrors ρ n n') :
    ExprNode.Mirrors ρ (.member a n) (.member a' n')
  | index {a a' b b'} (ha : Expr.Mirrors ρ a a') (hb : Expr.Mirrors ρ b b') :
    ExprNode.Mirrors ρ (.index a b) (.index a' b')
  | call {f f' es es'} (hf : Id.Mirrors ρ f f') (site : CallSiteId)
    (hes : List.Forall₂ (Expr.Mirrors ρ) es es') :
    ExprNode.Mirrors ρ (.call f site es) (.call f' site es')
  | apiCall {o o' n n' es es'} (ho : NativeRef.Mirrors ρ o o') (hn : Name.Mirrors ρ n n')
    (slot : FunctionSlot) (hes : List.Forall₂ (Expr.Mirrors ρ) es es') :
    ExprNode.Mirrors ρ (.apiCall o n slot es) (.apiCall o' n' slot es')
  | objectCall {i i' target target' n n' es es'} (hi : Id.Mirrors ρ i i')
    (htarget : VarRef.Mirrors ρ target target') (hn : Name.Mirrors ρ n n')
    (hes : List.Forall₂ (Expr.Mirrors ρ) es es') :
    ExprNode.Mirrors ρ (.objectCall i target n es) (.objectCall i' target' n' es')
  | snippetCall {s es es'} (hs : Snippet.IsUniform ρ.clock s)
    (hes : List.Forall₂ (Expr.Mirrors ρ) es es') :
    ExprNode.Mirrors ρ (.snippetCall s es) (.snippetCall s es')

/-- The named expressions differ in numbers alone. -/
inductive Property.Mirrors (ρ : Renaming) : Name × Expr → Name × Expr → Prop
  | mk {n n' e e'} (hn : Name.Mirrors ρ n n') (he : Expr.Mirrors ρ e e') :
    Property.Mirrors ρ (n, e) (n', e')

end

/-- The lists of expressions differ in numbers alone. -/
abbrev Exprs.Mirrors (ρ : Renaming) : List Expr → List Expr → Prop :=
  List.Forall₂ (Expr.Mirrors ρ)

/-- The lists of named expressions differ in numbers alone. -/
abbrev Properties.Mirrors (ρ : Renaming) : List (Name × Expr) → List (Name × Expr) → Prop :=
  List.Forall₂ (Property.Mirrors ρ)

mutual

lemma Expr.Mirrors.mono (hle : ρ ≤ ρ') {e e' : Expr} : e.Mirrors ρ e' → e.Mirrors ρ' e'
  | .mk location hnode => .mk location (hnode.mono hle)

lemma ExprNode.Mirrors.mono (hle : ρ ≤ ρ') {node node' : ExprNode} :
    node.Mirrors ρ node' → node.Mirrors ρ' node'
  | .literal hv => .literal (hv.mono hle)
  | .apiConstant hv => .apiConstant (hv.mono hle)
  | .var htarget => .var (htarget.mono hle)
  | .assign htarget op he => .assign (htarget.mono hle) op (he.mono hle)
  | .binary op ha hb => .binary op (ha.mono hle) (hb.mono hle)
  | .logical op ha hb => .logical op (ha.mono hle) (hb.mono hle)
  | .unary op ha => .unary op (ha.mono hle)
  | .conditional ha hb hc => .conditional (ha.mono hle) (hb.mono hle) (hc.mono hle)
  | .array hes => .array (Exprs.Mirrors.mono hle hes)
  | .object hps => .object (Properties.Mirrors.mono hle hps)
  | .member ha hn => .member (ha.mono hle) (hn.mono hle)
  | .index ha hb => .index (ha.mono hle) (hb.mono hle)
  | .call hf site hes => .call (hf.mono hle) site (Exprs.Mirrors.mono hle hes)
  | .apiCall ho hn slot hes =>
    .apiCall (ho.mono hle) (hn.mono hle) slot (Exprs.Mirrors.mono hle hes)
  | .objectCall hi htarget hn hes =>
    .objectCall (hi.mono hle) (htarget.mono hle) (hn.mono hle) (Exprs.Mirrors.mono hle hes)
  | .snippetCall hs hes => .snippetCall (hle.1.2.2.symm ▸ hs) (Exprs.Mirrors.mono hle hes)

lemma Exprs.Mirrors.mono (hle : ρ ≤ ρ') {es es' : List Expr} :
    Exprs.Mirrors ρ es es' → Exprs.Mirrors ρ' es es'
  | .nil => .nil
  | .cons he hes => .cons (he.mono hle) (Exprs.Mirrors.mono hle hes)

lemma Properties.Mirrors.mono (hle : ρ ≤ ρ') {ps ps' : List (Name × Expr)} :
    Properties.Mirrors ρ ps ps' → Properties.Mirrors ρ' ps ps'
  | .nil => .nil
  | .cons (.mk hn he) hps =>
    .cons (.mk (hn.mono hle) (he.mono hle)) (Properties.Mirrors.mono hle hps)

end

/-- The functions of two lists differ in numbers alone. -/
abbrev Callees.Mirrors (ρ : Renaming) : List (Id .function) → List (Id .function) → Prop :=
  List.Forall₂ (Id.Mirrors ρ)

mutual

/-- Expressions that mirror each other call functions that mirror each other. -/
lemma Expr.Mirrors.callees {e e' : Expr} :
    e.Mirrors ρ e' → Callees.Mirrors ρ e.callees e'.callees
  | .mk _ hnode => hnode.callees

lemma ExprNode.Mirrors.callees {node node' : ExprNode} :
    node.Mirrors ρ node' → Callees.Mirrors ρ node.callees node'.callees
  | .literal _ | .apiConstant _ | .var _ => .nil
  | .assign _ _ he | .unary _ he | .member he _ => he.callees
  | .binary _ ha hb | .logical _ ha hb | .index ha hb => List.rel_append ha.callees hb.callees
  | .conditional ha hb hc => List.rel_append (List.rel_append ha.callees hb.callees) hc.callees
  | .array hes | .apiCall _ _ _ hes | .objectCall _ _ _ hes | .snippetCall _ hes =>
    Exprs.Mirrors.callees hes
  | .object hps => Properties.Mirrors.callees hps
  | .call hf _ hes => .cons hf (Exprs.Mirrors.callees hes)

lemma Exprs.Mirrors.callees {es es' : List Expr} :
    Exprs.Mirrors ρ es es' → Callees.Mirrors ρ (calleesOfAll es) (calleesOfAll es')
  | .nil => .nil
  | .cons he hes => List.rel_append he.callees (Exprs.Mirrors.callees hes)

lemma Properties.Mirrors.callees {ps ps' : List (Name × Expr)} :
    Properties.Mirrors ρ ps ps' →
      Callees.Mirrors ρ (calleesOfProperties ps) (calleesOfProperties ps')
  | .nil => .nil
  | .cons (.mk _ he) hps => List.rel_append he.callees (Properties.Mirrors.callees hps)

end

/-! ### Statements -/

mutual

/-- The statements differ in numbers alone. -/
inductive Stmt.Mirrors (ρ : Renaming) : Stmt → Stmt → Prop
  | mk {node node' : StmtNode} (location : Location) (hnode : node.Mirrors ρ node') :
    Stmt.Mirrors ρ (.mk node location) (.mk node' location)

/-- The forms of statements differ in numbers alone. -/
inductive StmtNode.Mirrors (ρ : Renaming) : StmtNode → StmtNode → Prop
  | expr {e e'} (he : Expr.Mirrors ρ e e') : StmtNode.Mirrors ρ (.expr e) (.expr e')
  | declare {target target' e e'} (htarget : VarRef.Mirrors ρ target target')
    (he : Option.Rel (Expr.Mirrors ρ) e e') :
    StmtNode.Mirrors ρ (.declare target e) (.declare target' e')
  | block {ss ss'} (hss : List.Forall₂ (Stmt.Mirrors ρ) ss ss') :
    StmtNode.Mirrors ρ (.block ss) (.block ss')
  | branch {e e' s s' t t'} (he : Expr.Mirrors ρ e e') (hs : Stmt.Mirrors ρ s s')
    (ht : Option.Rel (Stmt.Mirrors ρ) t t') :
    StmtNode.Mirrors ρ (.branch e s t) (.branch e' s' t')
  | whileLoop {e e' s s'} (he : Expr.Mirrors ρ e e') (hs : Stmt.Mirrors ρ s s') :
    StmtNode.Mirrors ρ (.whileLoop e s) (.whileLoop e' s')
  | forLoop {t t' c c' d d' s s'} (ht : Option.Rel (Stmt.Mirrors ρ) t t')
    (hc : Option.Rel (Expr.Mirrors ρ) c c') (hd : Option.Rel (Expr.Mirrors ρ) d d')
    (hs : Stmt.Mirrors ρ s s') : StmtNode.Mirrors ρ (.forLoop t c d s) (.forLoop t' c' d' s')
  | returnValue {e e'} (he : Option.Rel (Expr.Mirrors ρ) e e') :
    StmtNode.Mirrors ρ (.returnValue e) (.returnValue e')
  | breakLoop : StmtNode.Mirrors ρ .breakLoop .breakLoop
  | continueLoop : StmtNode.Mirrors ρ .continueLoop .continueLoop

end

/-- The lists of statements differ in numbers alone. -/
abbrev Stmts.Mirrors (ρ : Renaming) : List Stmt → List Stmt → Prop :=
  List.Forall₂ (Stmt.Mirrors ρ)

/-- Expressions that may be missing, and differ in numbers alone. -/
abbrev OptionExpr.Mirrors (ρ : Renaming) : Option Expr → Option Expr → Prop :=
  Option.Rel (Expr.Mirrors ρ)

/-- Statements that may be missing, and differ in numbers alone. -/
abbrev OptionStmt.Mirrors (ρ : Renaming) : Option Stmt → Option Stmt → Prop :=
  Option.Rel (Stmt.Mirrors ρ)

lemma OptionExpr.Mirrors.mono (hle : ρ ≤ ρ') {e e' : Option Expr}
    (h : OptionExpr.Mirrors ρ e e') : OptionExpr.Mirrors ρ' e e' :=
  optionRel_imp h fun _ _ he => he.mono hle

mutual

lemma Stmt.Mirrors.mono (hle : ρ ≤ ρ') {s s' : Stmt} : s.Mirrors ρ s' → s.Mirrors ρ' s'
  | .mk location hnode => .mk location (hnode.mono hle)

lemma StmtNode.Mirrors.mono (hle : ρ ≤ ρ') {node node' : StmtNode} :
    node.Mirrors ρ node' → node.Mirrors ρ' node'
  | .expr he => .expr (he.mono hle)
  | .declare htarget he => .declare (htarget.mono hle) (OptionExpr.Mirrors.mono hle he)
  | .block hss => .block (Stmts.Mirrors.mono hle hss)
  | .branch he hs ht => .branch (he.mono hle) (hs.mono hle) (OptionStmt.Mirrors.mono hle ht)
  | .whileLoop he hs => .whileLoop (he.mono hle) (hs.mono hle)
  | .forLoop ht hc hd hs =>
    .forLoop (OptionStmt.Mirrors.mono hle ht) (OptionExpr.Mirrors.mono hle hc)
      (OptionExpr.Mirrors.mono hle hd) (hs.mono hle)
  | .returnValue he => .returnValue (OptionExpr.Mirrors.mono hle he)
  | .breakLoop => .breakLoop
  | .continueLoop => .continueLoop

lemma Stmts.Mirrors.mono (hle : ρ ≤ ρ') {ss ss' : List Stmt} :
    Stmts.Mirrors ρ ss ss' → Stmts.Mirrors ρ' ss ss'
  | .nil => .nil
  | .cons hs hss => .cons (hs.mono hle) (Stmts.Mirrors.mono hle hss)

lemma OptionStmt.Mirrors.mono (hle : ρ ≤ ρ') {s s' : Option Stmt} :
    OptionStmt.Mirrors ρ s s' → OptionStmt.Mirrors ρ' s s'
  | .none => .none
  | .some hs => .some (hs.mono hle)

end

lemma OptionExpr.Mirrors.callees {e e' : Option Expr} (h : OptionExpr.Mirrors ρ e e') :
    Callees.Mirrors ρ (calleesOfOption e) (calleesOfOption e') := by
  cases h with
  | none => exact .nil
  | some he => exact he.callees

mutual

/-- Statements that mirror each other call functions that mirror each other. -/
lemma Stmt.Mirrors.callees {s s' : Stmt} :
    s.Mirrors ρ s' → Callees.Mirrors ρ s.callees s'.callees
  | .mk _ hnode => hnode.callees

lemma StmtNode.Mirrors.callees {node node' : StmtNode} :
    node.Mirrors ρ node' → Callees.Mirrors ρ node.callees node'.callees
  | .expr he => he.callees
  | .declare _ he | .returnValue he => OptionExpr.Mirrors.callees he
  | .block hss => Stmts.Mirrors.callees hss
  | .branch he hs .none | .whileLoop he hs => List.rel_append he.callees hs.callees
  | .branch he hs (.some ht) => List.rel_append (List.rel_append he.callees hs.callees) ht.callees
  | .forLoop .none hc hd hs => List.rel_append
    (List.rel_append (OptionExpr.Mirrors.callees hc) (OptionExpr.Mirrors.callees hd)) hs.callees
  | .forLoop (.some ht) hc hd hs => List.rel_append (List.rel_append (List.rel_append ht.callees
    (OptionExpr.Mirrors.callees hc)) (OptionExpr.Mirrors.callees hd)) hs.callees
  | .breakLoop | .continueLoop => .nil

lemma Stmts.Mirrors.callees {ss ss' : List Stmt} :
    Stmts.Mirrors ρ ss ss' → Callees.Mirrors ρ (calleesOfStatements ss) (calleesOfStatements ss')
  | .nil => .nil
  | .cons hs hss => List.rel_append hs.callees (Stmts.Mirrors.callees hss)

end

end ScriptEngine
