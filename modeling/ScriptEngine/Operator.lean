/-!
# Operators

The operator kinds that trees name.  What they compute is defined in `ScriptEngine.Value.Operation`.
-/

namespace ScriptEngine

/-- Operators that evaluate both operands. -/
inductive BinaryOp where
  | add | sub | mul | div | mod
  | eq | notEq | strictEq | strictNotEq
  | lt | ltEq | gt | gtEq
  | bitAnd | bitOr | bitXor | shl | shr
deriving DecidableEq, Repr, Inhabited

/-- Operators in front of one operand. -/
inductive UnaryOp where
  | neg | not | bitNot
deriving DecidableEq, Repr, Inhabited

/-- Operators that evaluate their right operand only when the left one does not decide. -/
inductive LogicalOp where
  | and | or
deriving DecidableEq, Repr, Inhabited

namespace BinaryOp

/-- All binary operators, in the order of their declaration. -/
def all : List BinaryOp :=
  [.add, .sub, .mul, .div, .mod, .eq, .notEq, .strictEq, .strictNotEq, .lt, .ltEq, .gt, .gtEq,
    .bitAnd, .bitOr, .bitXor, .shl, .shr]

/-- The spelling in scripts. -/
def symbol : BinaryOp → String
  | add => "+"
  | sub => "-"
  | mul => "*"
  | div => "/"
  | mod => "%"
  | eq => "=="
  | notEq => "!="
  | strictEq => "==="
  | strictNotEq => "!=="
  | lt => "<"
  | ltEq => "<="
  | gt => ">"
  | gtEq => ">="
  | bitAnd => "&"
  | bitOr => "|"
  | bitXor => "^"
  | shl => "<<"
  | shr => ">>"

/-- The operator with a given spelling. -/
def ofSymbol? (s : String) : Option BinaryOp :=
  all.find? (·.symbol == s)

/-- Comparisons always give a truth value. -/
def isComparison : BinaryOp → Bool
  | eq | notEq | strictEq | strictNotEq | lt | ltEq | gt | gtEq => true
  | _ => false

end BinaryOp

namespace UnaryOp

/-- All unary operators, in the order of their declaration. -/
def all : List UnaryOp := [.neg, .not, .bitNot]

/-- The spelling in scripts. -/
def symbol : UnaryOp → String
  | neg => "-"
  | not => "!"
  | bitNot => "~"

/-- The operator with a given spelling. -/
def ofSymbol? (s : String) : Option UnaryOp :=
  all.find? (·.symbol == s)

end UnaryOp

namespace LogicalOp

/-- Both logical operators, in the order of their declaration. -/
def all : List LogicalOp := [.and, .or]

/-- The spelling in scripts. -/
def symbol : LogicalOp → String
  | and => "&&"
  | or => "||"

end LogicalOp

end ScriptEngine
