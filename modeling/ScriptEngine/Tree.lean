import ScriptEngine.CallFrame
import ScriptEngine.Location
import ScriptEngine.Operator
import ScriptEngine.Snippet.Basic

/-!
# Trees

Expressions and statements.  A tree is bound: each variable is a reference into one storage tier, and
each call names what it calls.  Only a call on an object that the script itself may store is resolved
later, on its first evaluation; such a call has a number under which its resolution is kept.
-/

namespace ScriptEngine

/-- A variable, bound to one storage tier. -/
inductive VarRef where
  /-- A slot of the engine's register. -/
  | register (index : Nat)
  /-- A property of the engine's globals. -/
  | global (name : Name)
  /-- A variable of an inline function, which outlives its invocations. -/
  | functionLocal (function : Id .function) (name : Name)
  /-- A variable of a callback, which each invocation starts without. -/
  | callbackLocal (callback : Id .callback) (name : Name)
  /-- An argument of the running invocation of an inline function. -/
  | parameter (function : Id .function) (index : Nat) (name : Name)
  /-- An argument of the latest invocation of a callback. -/
  | callbackParameter (callback : Id .callback) (index : Nat) (name : Name)
deriving DecidableEq, Repr, Inhabited

/-- Parameters are read-only; all other variables can be written. -/
def VarRef.isWritable : VarRef → Bool
  | parameter .. | callbackParameter .. => false
  | _ => true

mutual

/-- An expression: what it is and where it comes from. -/
inductive Expr where
  | mk (node : ExprNode) (location : Location)

/-- The forms of an expression. -/
inductive ExprNode where
  | literal (value : Value)
  /-- A constant of an API class, looked up when the tree was built. -/
  | apiConstant (value : Value)
  | var (target : VarRef)
  /-- `target = value`, or `target op= value`. -/
  | assign (target : VarRef) (op : Option BinaryOp) (value : Expr)
  | binary (op : BinaryOp) (left right : Expr)
  | logical (op : LogicalOp) (left right : Expr)
  | unary (op : UnaryOp) (operand : Expr)
  | conditional (condition consequent alternative : Expr)
  | array (items : List Expr)
  | object (properties : List (Name × Expr))
  | member (object : Expr) (property : Name)
  | index (object index : Expr)
  /-- A call of an inline function. -/
  | call (function : Id .function) (site : CallSiteId) (args : List Expr)
  /-- A call of an API class, resolved when the tree was built. -/
  | apiCall (object : NativeRef) (function : Name) (slot : FunctionSlot) (args : List Expr)
  /-- A call of the native object that a variable holds, resolved on first evaluation. -/
  | objectCall (site : Id .callSite) (target : VarRef) (function : Name) (args : List Expr)
  /-- A call of a native snippet. -/
  | snippetCall (snippet : Snippet) (args : List Expr)

end

namespace Expr

/-- What the expression is. -/
def node : Expr → ExprNode
  | mk node _ => node

/-- Where the expression comes from. -/
def location : Expr → Location
  | mk _ location => location

/-- The expression, with another location. -/
def atLocation (e : Expr) (l : Location) : Expr :=
  mk e.node l

/-- An expression without a place in the script. -/
def unlocated (node : ExprNode) : Expr :=
  mk node .unknown

instance : Inhabited Expr := ⟨unlocated (.literal .undefined)⟩

end Expr

mutual

/-- A statement: what it is and where it comes from. -/
inductive Stmt where
  | mk (node : StmtNode) (location : Location)

/-- The forms of a statement. -/
inductive StmtNode where
  | expr (e : Expr)
  /-- A declaration in any tier that can be written; it stores `undefined` where no value is
  given. -/
  | declare (target : VarRef) (init : Option Expr)
  | block (statements : List Stmt)
  | branch (condition : Expr) (consequent : Stmt) (alternative : Option Stmt)
  | whileLoop (condition : Expr) (body : Stmt)
  | forLoop (init : Option Stmt) (condition step : Option Expr) (body : Stmt)
  | returnValue (value : Option Expr)
  | breakLoop
  | continueLoop

end

namespace Stmt

/-- What the statement is. -/
def node : Stmt → StmtNode
  | mk node _ => node

/-- Where the statement comes from. -/
def location : Stmt → Location
  | mk _ location => location

/-- The statement, with another location. -/
def atLocation (s : Stmt) (l : Location) : Stmt :=
  mk s.node l

/-- A statement without a place in the script. -/
def unlocated (node : StmtNode) : Stmt :=
  mk node .unknown

/-- An expression as a statement, which takes over the location. -/
def ofExpr (e : Expr) : Stmt :=
  mk (.expr e) e.location

instance : Inhabited Stmt := ⟨unlocated .breakLoop⟩

end Stmt

/-- Which way control leaves a statement.  The value of a `return` is kept apart from it. -/
inductive Signal where
  | normal | returning | breaking | continuing
deriving DecidableEq, Repr, Inhabited

end ScriptEngine
